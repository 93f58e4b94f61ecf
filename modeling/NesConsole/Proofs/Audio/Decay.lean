import NesConsole.Proofs.Audio.Genuine
import NesConsole.Proofs.Bits
/-!
# How fast an envelope decays

Each clock takes four steps off the divider, and a divider that runs out gets the period on top of what it was short of,
so no step is lost: after `n` clocks the level has fallen `4 * n / period` times (`Envelope.clocked_decay`).  A period
below four would have to run out more than once in a clock.  It runs out in every clock instead, as a period of four
does, and what the divider is short of is cut off at its lowest value.
-/
namespace NesConsole
namespace Envelope

/-- The envelope after a number of clocks. -/
def clocked (e : Envelope) : Nat → Envelope
  | 0 => e
  | n + 1 => (e.clocked n).clock

/-- The next clock makes a decay step: it is not spent on a restart, and the divider runs out. -/
def runsOut (e : Envelope) : Bool := !e.constant && !e.restarting && decide (e.divider - dividerStep ≤ 0)

/-- The decay steps made in a number of clocks. -/
def decaySteps (e : Envelope) : Nat → Nat
  | 0 => 0
  | n + 1 => e.decaySteps n + (e.clocked n).runsOut.toNat

/-- The fields of a register value are in force. -/
def Obeys (e : Envelope) (value : UInt8) : Prop := e.decode value = e

/-- The counters were just armed under a register value: by taking it over, or by the clock that served a restart. -/
inductive Armed (value : UInt8) : Envelope → Prop where
  | set {e : Envelope} (h : e.restarting = false) : Armed value (e.set value)
  | served {e : Envelope} (hvalue : e.Obeys value) (h : e.restarting = true) : Armed value e.clock

/-- The period that a register value gives. -/
def periodOf (value : UInt8) : Nat := value.toNat % 16

/-- The level after a number of decay steps. -/
def levelAfter (loops : Bool) (steps : Nat) : Int :=
  if loops then (15 - steps) % 16 else max (15 - steps) 0

/-! ## The counters along the clocks -/

theorem toInt_max (a b : Int16) : (max a b).toInt = max a.toInt b.toInt := by
  show (ite _ _ _ : Int16).toInt = _
  split
  · next h => exact (Int.max_eq_right (Int16.le_iff_toInt_le.1 h)).symm
  · next h => exact (Int.max_eq_left (Int.le_of_not_le (mt Int16.le_iff_toInt_le.2 h))).symm

/-- The counters `n` clocks and `steps` decay steps after they were armed.  A period of four or more accounts for every
step of the divider; a shorter one runs out in every clock. -/
structure Decayed (e : Envelope) (value : UInt8) (n steps : Nat) : Prop where
  constant : e.constant = false
  restarting : e.restarting = false
  period : e.period.toNat = periodOf value
  loops : e.loops = value.toBitVec.getLsbD 5
  decay : (e.decay.toNat : Int) = levelAfter e.loops steps
  long : 4 ≤ periodOf value →
    e.divider.toInt + 4 * n = periodOf value * (steps + 1) ∧ 1 ≤ e.divider.toInt ∧ e.divider.toInt ≤ periodOf value
  short : periodOf value < 4 → steps = n ∧ -4 ≤ e.divider.toInt ∧ e.divider.toInt ≤ 3

theorem periodOf_lt (value : UInt8) : periodOf value < 16 := Nat.mod_lt _ (by decide)

theorem Obeys.fields {e : Envelope} {value : UInt8} (h : e.Obeys value) :
    e.period.toNat = periodOf value ∧ e.constant = value.toBitVec.getLsbD 4 ∧ e.loops = value.toBitVec.getLsbD 5 := by
  rw [← show e.decode value = e from h]
  exact ⟨toNat_low 0x0F 4 rfl value, flag_ne 0x10 4 (by decide) rfl value, flag_ne 0x20 5 (by decide) rfl value⟩

theorem obeys_decode (e : Envelope) (value : UInt8) : (e.decode value).Obeys value := rfl

/-- A step takes the level one down, and from zero back to the top if the envelope loops. -/
theorem nextDecay_level {e : Envelope} {steps : Nat} (h : (e.decay.toNat : Int) = levelAfter e.loops steps) :
    (e.nextDecay.toNat : Int) = levelAfter e.loops (steps + 1) := by
  unfold levelAfter at h ⊢
  unfold nextDecay
  generalize e.loops = loops at h ⊢
  by_cases hpos : 0 < e.decay
  · have hle : 1 ≤ e.decay.toNat := UInt8.lt_iff_toNat_lt.1 hpos
    have hpred : (e.decay - 1).toNat = e.decay.toNat - 1 :=
      UInt8.toNat_sub_of_le _ _ (UInt8.le_iff_toNat_le.2 hle)
    rw [if_pos hpos, hpred]
    cases loops <;> simp only [Bool.false_eq_true, if_true, if_false] at h ⊢ <;> omega
  · have hzero : e.decay.toNat = 0 := Nat.eq_zero_of_not_pos fun h0 => hpos (UInt8.lt_iff_toNat_lt.2 h0)
    have htop : (15 : UInt8).toNat = 15 := rfl
    rw [if_neg hpos]
    cases loops <;> simp only [Bool.false_eq_true, if_true, if_false] at h ⊢ <;> omega

namespace Decayed

variable {e : Envelope} {value : UInt8} {n steps : Nat}

theorem reload (hperiod : e.period.toNat = periodOf value) (hloops : e.loops = value.toBitVec.getLsbD 5)
    (hconstant : e.constant = false) (hrestarting : e.restarting = false) : e.reload.Decayed value 0 0 := by
  have hlt := periodOf_lt value
  have hdivider : e.reload.divider.toInt = periodOf value := by
    show (Int16.ofNat e.period.toNat).toInt = _
    rw [Int16.toInt_ofNat_of_lt (by omega), hperiod]
  have hdecay : ((15 : UInt8).toNat : Int) = levelAfter e.loops 0 := by
    cases e.loops <;> rfl
  exact ⟨hconstant, hrestarting, hperiod, hloops, hdecay, by omega, by omega⟩

theorem armed (h : Armed value e) (hvolume : value.toBitVec.getLsbD 4 = false) : e.Decayed value 0 0 := by
  cases h with
  | @set e h =>
    obtain ⟨hperiod, hconstant, hloops⟩ := (e.obeys_decode value).fields
    have hset : e.set value = (e.decode value).reload := if_neg (by rw [hconstant, hvolume]; decide)
    rw [hset]
    exact reload hperiod hloops (hconstant.trans hvolume) h
  | @served e hvalue h =>
    obtain ⟨hperiod, hconstant, hloops⟩ := hvalue.fields
    have hclock : e.clock = { e with restarting := false }.reload := by
      unfold Envelope.clock
      rw [if_neg (by rw [hconstant, hvolume]; decide), if_pos h]
    rw [hclock]
    exact reload hperiod hloops (hconstant.trans hvolume) rfl

theorem divider_range (h : e.Decayed value n steps) : -4 ≤ e.divider.toInt ∧ e.divider.toInt ≤ 15 := by
  have hlt := periodOf_lt value
  rcases Nat.lt_or_ge (periodOf value) 4 with hshort | hlong
  · have := h.short hshort
    omega
  · have := h.long hlong
    omega

/-- **A clock loses no step of the divider**: what it is short of when it runs out is kept, if the period is long. -/
theorem clock (h : e.Decayed value n steps) : e.clock.Decayed value (n + 1) (steps + e.runsOut.toNat) := by
  have hlt := periodOf_lt value
  have hrange := h.divider_range
  have hstep : (e.divider - dividerStep).toInt = e.divider.toInt - 4 :=
    Int16.toInt_sub_small (by omega) (by decide)
  have hout : e.divider - dividerStep ≤ 0 ↔ e.divider.toInt ≤ 4 := by
    rw [Int16.le_iff_toInt_le, hstep, show (0 : Int16).toInt = 0 from rfl]
    omega
  unfold Envelope.clock runsOut
  simp only [h.constant, h.restarting, hout, Bool.false_eq_true, if_false, Bool.not_false, Bool.true_and]
  split
  · next hlow =>
    have hperiod : (Int16.ofNat e.period.toNat).toInt = periodOf value := by
      rw [h.period, Int16.toInt_ofNat_of_lt (by omega)]
    have hreloaded : (max (e.divider - dividerStep + Int16.ofNat e.period.toNat) (-dividerStep)).toInt =
        max (e.divider.toInt - 4 + periodOf value) (-4) := by
      rw [toInt_max, Int16.toInt_add_small (by omega) (by omega), hstep, hperiod]
      rfl
    rw [decide_eq_true hlow]
    refine ⟨rfl, rfl, h.period, h.loops, nextDecay_level h.decay, fun hlong => ?_, fun hshort => ?_⟩
    · have hdivider := h.long hlong
      have hwhole : (periodOf value : Int) * ((steps + 1 : Nat) + 1) = periodOf value * (steps + 1) + periodOf value := by
        rw [Int.mul_add, Int.mul_one]
        rfl
      simp only [hreloaded, Bool.toNat_true, hwhole]
      omega
    · have hdivider := h.short hshort
      simp only [hreloaded, Bool.toNat_true]
      omega
  · next hhigh =>
    rw [decide_eq_false hhigh]
    refine ⟨rfl, rfl, h.period, h.loops, h.decay, fun hlong => ?_, fun hshort => ?_⟩
    · have hdivider := h.long hlong
      simp only [hstep, Bool.toNat_false, Nat.add_zero]
      omega
    · have hdivider := h.short hshort
      omega

theorem clocked (h : e.Decayed value 0 0) (n : Nat) : (e.clocked n).Decayed value n (e.decaySteps n) := by
  induction n with
  | zero => exact h
  | succ n ih => exact ih.clock

/-- **The rate**: the divider always falls short of a whole period, so the decay steps are the whole periods in the steps
it was taken down. -/
theorem steps_eq (h : e.Decayed value n steps) : steps = 4 * n / max (periodOf value) 4 := by
  rcases Nat.lt_or_ge (periodOf value) 4 with hshort | hlong
  · rw [Nat.max_eq_right (Nat.le_of_lt hshort), Nat.mul_div_cancel_left n (by decide)]
    exact (h.short hshort).1
  · obtain ⟨hwhole, hlow, hhigh⟩ := h.long hlong
    have hnext : ((steps + 1) * periodOf value : Nat) = periodOf value * (steps + 1 : Int) := by
      push_cast
      exact Int.mul_comm _ _
    rw [Nat.max_eq_left hlong]
    refine (Nat.div_eq_of_lt_le ?_ ?_).symm
    · rw [Nat.succ_mul] at hnext
      omega
    · omega

end Decayed

theorem clocked_of_constant {e : Envelope} (h : e.constant = true) (n : Nat) : e.clocked n = e := by
  induction n with
  | zero => rfl
  | succ n ih => exact (congrArg clock ih).trans (if_pos h)

/-- **The envelope in closed form.**  Under a register value without constant volume, `n` clocks after the counters were
armed the `4 * n` steps of the divider have made one decay step for each whole period, a period counting at least four;
the level is the one after that many steps, and the divider is in its range.  In constant mode clocks change nothing. -/
theorem clocked_decay (value : UInt8) (e : Envelope) (n : Nat) :
    (value.toBitVec.getLsbD 4 = false → Armed value e →
      let steps := 4 * n / max (value.toNat % 16) 4
      e.decaySteps n = steps ∧
      ((e.clocked n).decay.toNat : Int) =
        (if value.toBitVec.getLsbD 5 then (15 - (steps : Int)) % 16 else max (15 - (steps : Int)) 0) ∧
      DividerRange (e.clocked n).divider) ∧
    (e.constant = true → e.clocked n = e) := by
  refine ⟨fun hvolume harmed => ?_, fun hconstant => clocked_of_constant hconstant n⟩
  have hdecayed := (Decayed.armed harmed hvolume).clocked n
  have hsteps := hdecayed.steps_eq
  refine ⟨hsteps, ?_, dividerRange_iff.2 hdecayed.divider_range⟩
  rw [hdecayed.decay, hdecayed.loops, hsteps]
  rfl

/-- A looping envelope of period 5 is back at the top after twenty clocks, having fallen sixteen times. -/
theorem clocked_decay_loops :
    Armed 0x25 (({} : Envelope).set 0x25) ∧ (({} : Envelope).set 0x25).decaySteps 20 = 16 ∧
      (((({} : Envelope).set 0x25).clocked 20).decay.toNat : Int) = 15 := by
  have harmed : Armed 0x25 (({} : Envelope).set 0x25) := .set rfl
  obtain ⟨hsteps, hlevel, -⟩ := (clocked_decay 0x25 (({} : Envelope).set 0x25) 20).1 (by decide) harmed
  exact ⟨harmed, hsteps, hlevel⟩

end Envelope
end NesConsole
