/-!
# Frequency sweeps

A sweep moves a pulse channel's timer up or down each time its period elapses.  It is clocked once per frame, which is
worth two of its own sequences; what a sweep event leaves over is credited to the next period, so the counter stays in
`-2 … 9`.
-/
namespace NesConsole

structure Sweep where
  enabled : Bool := false
  negate : Bool := false
  /-- 0 to 7. -/
  period : UInt8 := 0
  /-- 0 to 7. -/
  shift : UInt8 := 0
  counter : Int16 := 0
  deriving DecidableEq

namespace Sweep

def sequencesPerFrame : Int16 := 2

/-- The values a counter can take between clocks. -/
def CounterRange (counter : Int16) : Prop :=
  -sequencesPerFrame ≤ counter ∧ counter ≤ 7 + sequencesPerFrame

instance (counter : Int16) : Decidable (CounterRange counter) :=
  inferInstanceAs (Decidable (_ ∧ _))

/-- Takes `EPPP NSSS` over without touching the counter. -/
def decode (s : Sweep) (value : UInt8) : Sweep :=
  { s with
    enabled := value &&& 0x80 != 0, period := value >>> 4 &&& 0x07
    negate := value &&& 0x08 != 0, shift := value &&& 0x07 }

def periodCount (s : Sweep) : Int16 := Int16.ofNat s.period.toNat

/-- Takes a register value over and reloads the counter from the period. -/
def set (s : Sweep) (value : UInt8) : Sweep :=
  let s := s.decode value
  { s with counter := s.periodCount }

/-- The timer after one sweep event, before it is cut to eleven bits. -/
def target (s : Sweep) (timer : UInt16) : UInt16 :=
  let change := timer >>> s.shift.toUInt16
  if s.negate then timer - change else timer + change

/-- Whether a target silences the channel: below 8 going down, above `$7FF` going up. -/
def silences (s : Sweep) (target : UInt16) : Bool :=
  if s.negate then target < 8 else 0x7FF < target

structure Clocked where
  silenced : Bool
  timer : UInt16
  sweep : Sweep

/-- One frame.  An elapsed period moves the timer, unless the shift is 0. -/
def clock (s : Sweep) (timer : UInt16) : Clocked :=
  if !s.enabled then
    { silenced := false, timer, sweep := s }
  else
    let counter := s.counter + sequencesPerFrame
    if counter < s.periodCount then
      { silenced := false, timer, sweep := { s with counter } }
    else
      let sweep := { s with counter := counter - s.periodCount - sequencesPerFrame }
      if s.shift = 0 then
        { silenced := false, timer, sweep }
      else
        { silenced := s.silences (s.target timer), timer := s.target timer &&& 0x7FF, sweep }

def restore (s : Sweep) (counter : Int16) : Sweep :=
  { s with counter }

end Sweep
end NesConsole
