import NesConsole.Bus
import NesConsole.Processor.Status
/-!
# The register file

The six registers a program can see, and the stack they address: page 1 of memory, pushed downwards from `$0100 + S`.
-/
namespace NesConsole

structure Registers where
  a : UInt8 := 0
  x : UInt8 := 0
  y : UInt8 := 0
  /-- Stack pointer. -/
  s : UInt8 := 0
  p : Status := .powerOn
  pc : UInt16 := 0
  deriving DecidableEq

namespace Registers

def setA (r : Registers) (value : UInt8) : Registers := { r with a := value, p := r.p.withResult value }

def setX (r : Registers) (value : UInt8) : Registers := { r with x := value, p := r.p.withResult value }

def setY (r : Registers) (value : UInt8) : Registers := { r with y := value, p := r.p.withResult value }

/-- A becomes A + value + C.  V is set when both addends have the sign that the result has not. -/
def addToA (r : Registers) (value : UInt8) : Registers :=
  let sum := r.a.toNat + value.toNat + r.p.carry.toNat
  let result := UInt8.ofNat sum
  let overflow := (r.a ^^^ result) &&& (value ^^^ result) &&& 0x80 != 0
  { r with a := result, p := { r.p with carry := 0xFF < sum, overflow }.withResult result }

/-- Flags of `register - value`: C is set when nothing is borrowed. -/
def compare (r : Registers) (register value : UInt8) : Registers :=
  { r with p := r.p.withCarryResult (register - value) (value ≤ register) }

/-! ## The stack -/

def stackPage : UInt16 := 0x0100

def push (r : Registers) (value : UInt8) : Exchange Registers := do
  Exchange.store (stackPage + r.s.toUInt16) value
  return { r with s := r.s - 1 }

/-- High byte first, so that the word stands in memory low byte first. -/
def pushWord (r : Registers) (value : UInt16) : Exchange Registers := do
  let r ← r.push (value >>> 8).toUInt8
  r.push value.toUInt8

def pull (r : Registers) : Exchange (UInt8 × Registers) := do
  let r := { r with s := r.s + 1 }
  let value ← Exchange.byte (stackPage + r.s.toUInt16)
  return (value, r)

def pullWord (r : Registers) : Exchange (UInt16 × Registers) := do
  let (low, r) ← r.pull
  let (high, r) ← r.pull
  return (high.toUInt16 <<< 8 ||| low.toUInt16, r)

end Registers
end NesConsole
