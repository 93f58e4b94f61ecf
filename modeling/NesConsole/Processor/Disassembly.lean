import NesConsole.Processor.Decode
import NesConsole.Processor.Operand
/-!
# Disassembly

The assembly text of an instruction, and the listing line that shows its address, its bytes and its text.  A branch is
shown with the address it leads to.
-/
namespace NesConsole

/-- The text of an instruction at `pc` whose opcode is followed by the bytes `low` and `high`. -/
def Instruction.format (i : Instruction) (low high : UInt8) (pc : UInt16) : String :=
  let byte := "$" ++ hexByte low
  let word := "$" ++ hexByte high ++ hexByte low
  match i.mode with
  | .implied => i.name
  | .accumulator => i.name ++ " A"
  | .immediate => i.name ++ " #" ++ byte
  | .zeroPage => i.name ++ " " ++ byte
  | .zeroPageX => i.name ++ " " ++ byte ++ ",X"
  | .zeroPageY => i.name ++ " " ++ byte ++ ",Y"
  | .absolute => i.name ++ " " ++ word
  | .absoluteX => i.name ++ " " ++ word ++ ",X"
  | .absoluteY => i.name ++ " " ++ word ++ ",Y"
  | .indirect => i.name ++ " (" ++ word ++ ")"
  | .indirectX => i.name ++ " (" ++ byte ++ ",X)"
  | .indirectY => i.name ++ " (" ++ byte ++ "),Y"
  | .relative => i.name ++ " $" ++ hexWord (pc + UInt16.ofNat i.size + signExtend low)

namespace Disassembly

/-- Columns of an instruction's bytes; a missing byte leaves two blanks. -/
def columns (bytes : List UInt8) : String :=
  let cell (i : Nat) := (bytes[i]?).elim "  " hexByte
  cell 0 ++ " " ++ cell 1 ++ " " ++ cell 2

/-- Reads the bytes at `pc`, `pc + 1`, … that belong to the instruction. -/
def fetch (pc : UInt16) : Nat → Exchange (List UInt8)
  | 0 => return []
  | count + 1 => return (← Exchange.byte pc) :: (← fetch (pc + 1) count)

/-- The listing line of the instruction at `pc`.  An unmapped opcode takes one byte and has no text of its own. -/
def line (pc : UInt16) : Exchange String := do
  let code ← Exchange.byte pc
  let instruction := Instruction.decode code
  let bytes ← fetch pc (instruction.elim 1 Instruction.size)
  let text := match instruction with
    | some i => i.format (bytes[1]?.getD 0) (bytes[2]?.getD 0) pc
    | none => "??? (0x" ++ hexByte code ++ ")"
  return hexWord pc ++ ": " ++ columns bytes ++ "   " ++ text

end Disassembly

/-! ## Memory dumps -/

/-- `count` bytes from `start`, each after a blank. -/
def dumpBytes (start : UInt16) : Nat → Exchange String
  | 0 => return ""
  | count + 1 => do
    let byte ← Exchange.byte start
    return " " ++ hexByte byte ++ (← dumpBytes (start + 1) count)

/-- Lines of sixteen bytes, each led by its address; the last one may be shorter. -/
def dump (start : UInt16) (count : Nat) : Exchange (List String) := do
  if count = 0 then
    return []
  else
    let bytes ← dumpBytes start (min 16 count)
    return (hexWord start ++ ":" ++ bytes) :: (← dump (start + 16) (count - 16))

end NesConsole
