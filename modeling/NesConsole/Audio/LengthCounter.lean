/-!
# Length counters

A countdown that silences a channel once it has run out, unless it is halted.  It is clocked once per frame, by the
number of steps a frame is worth to the channel.
-/
namespace NesConsole

structure LengthCounter where
  halted : Bool := false
  value : UInt8 := 0
  deriving DecidableEq

namespace LengthCounter

/-- The lengths a five-bit index stands for. -/
def table : Vector UInt8 32 :=
  #v[10, 254, 20, 2, 40, 4, 80, 6, 160, 8, 60, 10, 14, 12, 26, 14,
    12, 16, 24, 18, 48, 20, 96, 22, 192, 24, 72, 26, 16, 28, 32, 30]

def setHalt (c : LengthCounter) (halted : Bool) : LengthCounter := { c with halted }

def load (c : LengthCounter) (value : UInt8) : LengthCounter := { c with value }

/-- Loads a length by its index, of which the low five bits count. -/
def loadIndex (c : LengthCounter) (index : UInt8) : LengthCounter :=
  have : index.toNat % 32 < 32 := Nat.mod_lt _ (by decide)
  c.load table[index.toNat % 32]

/-- Counts down by `step`, stopping at zero.  Tells whether the counter had run out before this clock, which is when a
channel stops. -/
def clock (c : LengthCounter) (step : UInt8) : Bool × LengthCounter :=
  if c.halted then (false, c)
  else if c.value = 0 then (true, c)
  else (false, c.load (if step ≤ c.value then c.value - step else 0))

end LengthCounter
end NesConsole
