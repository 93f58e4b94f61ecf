import NesConsole.Processor.Instruction
import NesConsole.Processor.Registers
/-!
# Operand resolution

Turns the operand bytes behind an opcode into an effective address.  Zero-page arithmetic stays in page 0, pointers are
read within one page, and an indexed address that leaves the page of its base is marked.
-/
namespace NesConsole

def differentPages (a b : UInt16) : Bool :=
  (a ^^^ b) &&& 0xFF00 != 0

/-- A signed byte as a word. -/
def signExtend (b : UInt8) : UInt16 :=
  if b < 0x80 then b.toUInt16 else 0xFF00 ||| b.toUInt16

structure Operand where
  /-- None for implied and accumulator addressing. -/
  address : Option UInt16
  pageCrossed : Bool
  deriving DecidableEq

namespace Operand

def none : Operand := { address := .none, pageCrossed := false }

def memory (address : UInt16) : Operand := { address := some address, pageCrossed := false }

def indexed (base : UInt16) (index : UInt8) : Operand :=
  let address := base + index.toUInt16
  { address := some address, pageCrossed := differentPages base address }

end Operand

/-- The operand whose bytes start at `position`. -/
def AddressMode.resolve (mode : AddressMode) (position : UInt16) (r : Registers) : Exchange Operand :=
  match mode with
  | implied | accumulator => return .none
  | immediate | relative => return .memory position
  | zeroPage => return .memory (← Exchange.byte position).toUInt16
  | zeroPageX => return .memory ((← Exchange.byte position) + r.x).toUInt16
  | zeroPageY => return .memory ((← Exchange.byte position) + r.y).toUInt16
  | absolute => return .memory (← Exchange.word position)
  | absoluteX => return .indexed (← Exchange.word position) r.x
  | absoluteY => return .indexed (← Exchange.word position) r.y
  | indirect => return .memory (← Exchange.pointer (← Exchange.word position))
  | indirectX => return .memory (← Exchange.pointer ((← Exchange.byte position) + r.x).toUInt16)
  | indirectY => return .indexed (← Exchange.pointer (← Exchange.byte position).toUInt16) r.y

end NesConsole
