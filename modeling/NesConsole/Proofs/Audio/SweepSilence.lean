import NesConsole.Proofs.Audio.SweepRate
/-!
# Which moves of a sweep silence the channel

A pulse channel is not to play with a timer outside `8 … $7FF`.  A sweep tests each move for the one end of that range it
is heading for: going up for the upper end, going down for the lower one.  Going down, the upper end is never passed.
Going up from a timer below 8, a move may well end below 8 again; this goes unnoticed, and the channel plays on
(`Sweep.clock_silences`).
-/
namespace NesConsole

namespace Sweep

theorem target_le {s : Sweep} (h : s.negate = true) (timer : UInt16) : (s.target timer).toNat ≤ timer.toNat := by
  rw [target_falling h]
  exact Nat.sub_le _ _

theorem le_target {s : Sweep} (h : s.negate = false) {timer : UInt16} (htimer : timer.toNat < 0x800) :
    timer.toNat ≤ (s.target timer).toNat := by
  have hchange := UInt16.le_iff_toNat_le.1 (s.change_le timer)
  rw [target_rising h, Nat.mod_eq_of_lt (by omega)]
  exact Nat.le_add_right _ _

/-- A target is tested against the end of the range that lies ahead. -/
theorem silences_iff (s : Sweep) {timer : UInt16} (htimer : timer.toNat < 0x800) :
    s.silences (s.target timer) = true ↔
      0x7FF < (s.target timer).toNat ∨ (s.target timer).toNat < 8 ∧ s.negate = true := by
  unfold silences
  cases hnegate : s.negate with
  | true =>
    have hfalling := target_le hnegate timer
    simp only [if_true, decide_eq_true_iff, UInt16.lt_iff_toNat_lt, and_true]
    show (s.target timer).toNat < 8 ↔ _
    omega
  | false =>
    simp only [Bool.false_eq_true, if_false, decide_eq_true_iff, UInt16.lt_iff_toNat_lt, and_false, or_false]
    rfl

theorem silenced_iff {s : Sweep} (hshift : s.shift ≠ 0) {timer : UInt16} (htimer : timer.toNat < 0x800) :
    (s.clock timer).silenced = true ↔ s.elapses = true ∧
      (0x7FF < (s.target timer).toNat ∨ (s.target timer).toNat < 8 ∧ s.negate = true) := by
  cases helapses : s.elapses with
  | true =>
    rw [clock_elapses helapses]
    simp only [bne_iff_ne.2 hshift, Bool.true_and, true_and]
    exact s.silences_iff htimer
  | false => simp [clock_uneventful helapses timer]

/-- A timer that an event has changed is its target, in eleven bits. -/
theorem clock_timer_moved {s : Sweep} {timer : UInt16} (h : (s.clock timer).timer ≠ timer) :
    s.elapses = true ∧ s.shift ≠ 0 ∧ (s.clock timer).timer = s.target timer &&& 0x7FF := by
  cases helapses : s.elapses with
  | true =>
    rw [clock_elapses helapses] at h ⊢
    by_cases hshift : s.shift = 0
    · exact absurd (if_pos hshift) h
    · exact ⟨rfl, hshift, if_neg hshift⟩
  | false => exact absurd (clock_uneventful helapses timer).1 h

end Sweep

namespace Pulse

/-- **A channel that an event leaves playing** has its target for a timer, and that is in range but for a rise that ends
below 8. -/
theorem update_moved {c : Pulse} (hmoved : c.update.timer ≠ c.timer) (hplaying : c.update.stopped = false) :
    c.update.timer = c.sweep.target c.timer ∧ c.update.timer.toNat ≤ 0x7FF ∧
      (8 ≤ c.update.timer.toNat ∨ c.sweep.negate = false ∧ c.timer.toNat < c.update.timer.toNat) := by
  have hplayed : c.stopped = false := by
    cases hstopped : c.stopped with
    | false => rfl
    | true => exact absurd (congrArg Pulse.timer (update_of_stopped hstopped)) hmoved
  obtain ⟨-, -, hstopped⟩ := update_swept hplayed
  rw [hplaying] at hstopped
  have hheard : (c.sweep.clock c.timer).silenced = false := (Bool.or_eq_false_iff.1 hstopped.symm).2
  rw [update_timer hplayed] at hmoved ⊢
  obtain ⟨helapses, hshift, htimer⟩ := Sweep.clock_timer_moved hmoved
  obtain ⟨hhigh, hlow⟩ := not_or.1 fun hout =>
    Bool.false_ne_true (hheard.symm.trans ((Sweep.silenced_iff hshift c.timer_lt).2 ⟨helapses, hout⟩))
  have htarget : (c.sweep.clock c.timer).timer = c.sweep.target c.timer := by
    rw [htimer, ← UInt16.toNat_inj, toNat_lowWord 0x7FF 11 rfl]
    exact Nat.mod_eq_of_lt (by omega)
  rw [htarget] at hmoved ⊢
  refine ⟨rfl, Nat.le_of_not_lt hhigh, ?_⟩
  cases hnegate : c.sweep.negate with
  | true => exact .inl (Nat.le_of_not_lt fun hbelow => hlow ⟨hbelow, hnegate⟩)
  | false =>
    have hrising := Sweep.le_target hnegate c.timer_lt
    exact .inr ⟨rfl, Nat.lt_of_le_of_ne hrising fun hsame => hmoved (UInt16.toNat_inj.1 hsame.symm)⟩

end Pulse

/-- **What silences a pulse channel.**  A clock of a sweep whose shift is not zero does so exactly if it brings an event
whose target lies above `$7FF`, or below 8 on the way down.  That is any target outside `8 … $7FF`, except one below 8 on
the way up.  So a channel that is left playing with another timer than before has it in that range, unless the timer rose
and is still below 8. -/
theorem Sweep.clock_silences {s : Sweep} (hshift : s.shift ≠ 0) {timer : UInt16} (htimer : timer.toNat < 0x800) :
    let target := (s.target timer).toNat
    ((s.clock timer).silenced = true ↔ s.elapses = true ∧ (0x7FF < target ∨ target < 8 ∧ s.negate = true)) ∧
    (s.negate = true ∨ 8 ≤ target →
      ((s.clock timer).silenced = true ↔ s.elapses = true ∧ ¬(8 ≤ target ∧ target ≤ 0x7FF))) ∧
    ∀ c : Pulse, c.update.timer ≠ c.timer → c.update.stopped = false →
      c.update.timer = c.sweep.target c.timer ∧ c.update.timer.toNat ≤ 0x7FF ∧
        (8 ≤ c.update.timer.toNat ∨ c.sweep.negate = false ∧ c.timer.toNat < c.update.timer.toNat) := by
  intro target
  have hsilenced := silenced_iff hshift htimer
  refine ⟨hsilenced, fun hheading => hsilenced.trans (and_congr_right fun _ => ?_),
    fun c hmoved hplaying => Pulse.update_moved hmoved hplaying⟩
  rcases hheading with hnegate | hhigh
  · rw [and_iff_left hnegate]
    omega
  · omega

/-- Going down from 10 by half silences the channel; a channel that goes up from `$100` by half plays on. -/
theorem Sweep.clock_silences_falling :
    let s : Sweep := ({} : Sweep).set 0x89
    let c : Pulse := ((({} : Pulse).write 0 0x20).write 3 1).write 1 0x81
    s.shift ≠ 0 ∧ (10 : UInt16).toNat < 0x800 ∧ s.negate = true ∧ (s.clock 10).silenced = true ∧
      c.update.timer ≠ c.timer ∧ c.update.stopped = false ∧ c.update.timer.toNat ≤ 0x7FF := by
  intro s c
  have hshift : s.shift ≠ 0 := by decide
  obtain ⟨-, hexact, hpulse⟩ := clock_silences hshift (by decide : (10 : UInt16).toNat < 0x800)
  have hsilenced : (s.clock 10).silenced = true := (hexact (.inl rfl)).2 (by decide)
  have hmoved : c.update.timer ≠ c.timer := by decide
  have hplaying : c.update.stopped = false := by decide
  exact ⟨hshift, by decide, rfl, hsilenced, hmoved, hplaying, (hpulse c hmoved hplaying).2.1⟩

/-- A rise from 2 ends at 3: that is out of range, but the channel plays on. -/
theorem Sweep.rise_below_range :
    let s : Sweep := ({} : Sweep).set 0x81
    let c : Pulse := ((({} : Pulse).write 0 0x20).write 2 2).write 1 0x81
    s.enabled = true ∧ s.shift ≠ 0 ∧ s.elapses = true ∧ (s.target 2).toNat = 3 ∧ (s.clock 2).silenced = false ∧
      c.sweep = s ∧ c.timer = 2 ∧ c.update.timer = 3 ∧ c.update.stopped = false := by
  decide

end NesConsole
