/-!
# Volume envelopes

A decay level that falls from 15 as its divider runs out.  The envelope is clocked once per frame and a frame is worth
four divider steps, so a period shorter than that runs out on every clock.  The divider then stays in `-4 … 15`.
-/
namespace NesConsole

structure Envelope where
  /-- The next clock only reloads. -/
  restarting : Bool := false
  divider : Int16 := 0
  decay : UInt8 := 0
  period : UInt8 := 0
  constant : Bool := false
  loops : Bool := false
  deriving DecidableEq

namespace Envelope

/-- Divider steps per frame. -/
def dividerStep : Int16 := 4

/-- The values a divider can take. -/
def DividerRange (divider : Int16) : Prop :=
  -dividerStep ≤ divider ∧ divider ≤ 15

instance (divider : Int16) : Decidable (DividerRange divider) :=
  inferInstanceAs (Decidable (_ ∧ _))

/-- Takes `--LC VVVV` over without touching the running counters. -/
def decode (e : Envelope) (value : UInt8) : Envelope :=
  { e with period := value &&& 0x0F, constant := value &&& 0x10 != 0, loops := value &&& 0x20 != 0 }

def reload (e : Envelope) : Envelope :=
  { e with divider := Int16.ofNat e.period.toNat, decay := 15 }

/-- Takes a register value over; outside constant mode the counters are re-armed. -/
def set (e : Envelope) (value : UInt8) : Envelope :=
  let e := e.decode value
  if e.constant then e else e.reload

/-- Asks for a reload at the next clock. -/
def restart (e : Envelope) : Envelope :=
  { e with restarting := true }

/-- The level after one decay step. -/
def nextDecay (e : Envelope) : UInt8 :=
  if 0 < e.decay then e.decay - 1 else if e.loops then 15 else e.decay

/-- One frame.  Nothing moves in constant mode, and a pending restart only reloads. -/
def clock (e : Envelope) : Envelope :=
  if e.constant then
    e
  else if e.restarting then
    { e with restarting := false }.reload
  else
    let divider := e.divider - dividerStep
    if divider ≤ 0 then
      { e with divider := max (divider + Int16.ofNat e.period.toNat) (-dividerStep), decay := e.nextDecay }
    else
      { e with divider }

/-- The level heard, in fifteenths. -/
def level (e : Envelope) : UInt8 :=
  if e.constant then e.period else e.decay

/-- Puts saved counters back. -/
def restore (e : Envelope) (divider : Int16) (decay : UInt8) (restarting : Bool) : Envelope :=
  { e with divider, decay := min decay 15, restarting }

end Envelope
end NesConsole
