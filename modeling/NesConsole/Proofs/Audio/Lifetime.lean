import NesConsole.Proofs.Audio.SweepRate
/-!
# How long a channel plays

Pulse, triangle and noise channels play until their length counter has run out.  An update takes four steps off it, with
noise a single one, and finds out that it has run out only in the update after that; a halted counter never runs out, and
a noise channel in its short mode plays on without it.  The three channels differ in nothing else, so there is one account
of an update (`Ages`) and one of a row of them (`LivesOut`), and `Channel.updated_lifetime` says it of each.  Nothing but a
write sets a channel going again.
-/
namespace NesConsole

/-- Where `n` updates take a channel that played with the length counter `start`, if an update takes `step` off it.  A
channel that `outlives` its counter is not stopped by it; another one plays on for its length in steps, rounded up. -/
def LivesOut (start : LengthCounter) (step : Nat) (outlives : Bool) (n : Nat) (length : LengthCounter) (stopped : Bool) :
    Prop :=
  if start.halted then
    length = start ∧ stopped = false
  else
    length.halted = false ∧ length.value.toNat = start.value.toNat - step * n ∧
      (stopped = false ↔ outlives = true ∨ n ≤ (start.value.toNat + (step - 1)) / step)

namespace LengthCounter

theorem clock_of_halted {c : LengthCounter} (h : c.halted = true) (step : UInt8) : c.clock step = (false, c) := if_pos h

theorem clock_exhausted {c : LengthCounter} (h : c.halted = false) (hzero : c.value.toNat = 0) (step : UInt8) :
    c.clock step = (true, c) := by
  have hvalue : c.value = 0 := UInt8.toNat_inj.1 hzero
  simp [clock, h, hvalue]

/-- A counter that has not run out loses its steps, and no more than it has. -/
theorem clock_running {c : LengthCounter} (h : c.halted = false) (hpos : 0 < c.value.toNat) (step : UInt8) :
    (c.clock step).1 = false ∧ (c.clock step).2.halted = false ∧
      (c.clock step).2.value.toNat = c.value.toNat - step.toNat := by
  have hvalue : c.value ≠ 0 := fun h0 => by simp [h0] at hpos
  have hclock : c.clock step = (false, c.load (if step ≤ c.value then c.value - step else 0)) := by
    simp [clock, h, hvalue]
  rw [hclock]
  refine ⟨rfl, h, ?_⟩
  show (if step ≤ c.value then c.value - step else 0).toNat = _
  split
  · next hle => exact UInt8.toNat_sub_of_le _ _ hle
  · next hlt =>
    rw [UInt8.le_iff_toNat_le] at hlt
    exact (Nat.sub_eq_zero_of_le (by omega)).symm

end LengthCounter

namespace LivesOut

variable {start length : LengthCounter} {outlives stopped : Bool} {n : Nat}

theorem halted_iff {step : Nat} (h : start.halted = true) :
    LivesOut start step outlives n length stopped ↔ length = start ∧ stopped = false := by
  rw [LivesOut, if_pos h]

theorem running_iff {step : Nat} (h : start.halted = false) :
    LivesOut start step outlives n length stopped ↔
      length.halted = false ∧ length.value.toNat = start.value.toNat - step * n ∧
        (stopped = false ↔ outlives = true ∨ n ≤ (start.value.toNat + (step - 1)) / step) := by
  rw [LivesOut, if_neg (by rw [h]; decide)]

theorem initial (start : LengthCounter) (step : Nat) (outlives : Bool) : LivesOut start step outlives 0 start false := by
  cases hstart : start.halted with
  | true => exact (halted_iff hstart).2 ⟨rfl, rfl⟩
  | false => exact (running_iff hstart).2 ⟨hstart, rfl, fun _ => .inr (Nat.zero_le _), fun _ => rfl⟩

/-- **An update of a playing channel**: it stops if it finds the counter at zero. -/
theorem update {step : UInt8} (hstep : 0 < step.toNat) (h : LivesOut start step.toNat outlives n length false) :
    LivesOut start step.toNat outlives (n + 1) (length.clock step).2 ((length.clock step).1 && !outlives) := by
  cases hstart : start.halted with
  | true =>
    obtain ⟨rfl, -⟩ := (halted_iff hstart).1 h
    rw [halted_iff hstart, length.clock_of_halted hstart]
    exact ⟨rfl, rfl⟩
  | false =>
    obtain ⟨hrunning, hvalue, -⟩ := (running_iff hstart).1 h
    have hnext : step.toNat * (n + 1) = step.toNat * n + step.toNat := Nat.mul_succ _ _
    have hrounded : n + 1 ≤ (start.value.toNat + (step.toNat - 1)) / step.toNat ↔ 0 < length.value.toNat := by
      rw [Nat.le_div_iff_mul_le hstep, Nat.mul_comm]
      omega
    rw [running_iff hstart, hrounded]
    rcases Nat.eq_zero_or_pos length.value.toNat with hzero | hpos
    · rw [length.clock_exhausted hrunning hzero]
      exact ⟨hrunning, show length.value.toNat = _ by omega, by simp [hzero]⟩
    · obtain ⟨hclocked, hkept, hless⟩ := length.clock_running hrunning hpos step
      rw [hclocked]
      exact ⟨hkept, by omega, by simp [hpos]⟩

/-- A channel that has stopped stays as it is, its counter at zero. -/
theorem rest {step : Nat} (hstep : 0 < step) (h : LivesOut start step outlives n length true) :
    LivesOut start step outlives (n + 1) length true := by
  cases hstart : start.halted with
  | true => exact absurd ((halted_iff hstart).1 h).2 (by decide)
  | false =>
    obtain ⟨hrunning, hvalue, hplaying⟩ := (running_iff hstart).1 h
    obtain ⟨hmortal, hover⟩ := not_or.1 (mt hplaying.2 (by decide))
    have hnext : step * (n + 1) = step * n + step := Nat.mul_succ _ _
    rw [Nat.le_div_iff_mul_le hstep, Nat.mul_comm] at hover
    refine (running_iff hstart).2 ⟨hrunning, by omega, iff_of_false (by decide) (not_or.2 ⟨hmortal, ?_⟩)⟩
    rw [Nat.le_div_iff_mul_le hstep, Nat.mul_comm]
    omega

end LivesOut

/-! ## Rows of updates -/

/-- An update ages a channel: it does nothing to one that has stopped, and else clocks the length counter and stops the
channel if that has run out, unless the channel `outlives` it.  This need only hold of channels with a property that
updates keep. -/
structure Ages {α : Type} (update : α → α) (length : α → LengthCounter) (stopped : α → Bool) (step : UInt8)
    (outlives : Bool) (property : α → Prop) : Prop where
  keeps : ∀ c, property c → property (update c)
  rests : ∀ c, stopped c = true → update c = c
  clocks : ∀ c, property c → stopped c = false →
    length (update c) = ((length c).clock step).2 ∧ stopped (update c) = (((length c).clock step).1 && !outlives)

namespace Ages

variable {α : Type} {update : α → α} {length : α → LengthCounter} {stopped : α → Bool} {step : UInt8} {outlives : Bool}
  {property : α → Prop}

theorem property_iterate (h : Ages update length stopped step outlives property) {c : α} (hc : property c) (n : Nat) :
    property (update^[n] c) := by
  induction n with
  | zero => exact hc
  | succ n ih =>
    rw [Function.iterate_succ_apply']
    exact h.keeps _ ih

theorem livesOut (h : Ages update length stopped step outlives property) (hstep : 0 < step.toNat) {c : α}
    (hc : property c) (hplaying : stopped c = false) (n : Nat) :
    LivesOut (length c) step.toNat outlives n (length (update^[n] c)) (stopped (update^[n] c)) := by
  induction n with
  | zero =>
    rw [Function.iterate_zero_apply, hplaying]
    exact .initial ..
  | succ n ih =>
    rw [Function.iterate_succ_apply']
    cases hstopped : stopped (update^[n] c) with
    | true =>
      rw [hstopped] at ih
      rw [h.rests _ hstopped, hstopped]
      exact ih.rest hstep
    | false =>
      rw [hstopped] at ih
      obtain ⟨hlength, hstops⟩ := h.clocks _ (h.property_iterate hc n) hstopped
      rw [hlength, hstops]
      exact ih.update hstep

end Ages

/-! ## The channels -/

/-- A disabled sweep has no part in it. -/
theorem Pulse.ages : Ages Pulse.update Pulse.length Pulse.stopped lengthStep false fun c => c.sweep.enabled = false where
  keeps c hsweep := by
    cases hstopped : c.stopped with
    | true => rwa [update_of_stopped hstopped]
    | false =>
      rw [(update_swept hstopped).2.1, Sweep.clock_disabled hsweep]
      exact hsweep
  rests _ := update_of_stopped
  clocks c hsweep hplaying := by
    rw [(update_swept hplaying).2.2, Sweep.clock_disabled hsweep, Bool.or_false, Bool.not_false, Bool.and_true]
    exact ⟨by simp [update, hplaying], rfl⟩

theorem Triangle.ages : Ages Triangle.update Triangle.length Triangle.stopped lengthStep false fun _ => True where
  keeps _ _ := trivial
  rests _ hstopped := if_pos hstopped
  clocks c _ hplaying := by simp [update, hplaying]

/-- The short mode is that of a register, which updates leave alone. -/
theorem Noise.ages (regs : ChannelRegisters) :
    Ages Noise.update Noise.length Noise.stopped lengthStep ((regs.get 2).toBitVec.getLsbD 7) fun c => c.regs = regs where
  keeps c hregs := by
    unfold update
    split
    · exact hregs
    · exact hregs
  rests _ hstopped := if_pos hstopped
  clocks c hregs hplaying := by
    have hmode : c.modeBit = (regs.get 2).toBitVec.getLsbD 7 := by
      rw [modeBit, hregs]
      exact flag_ne 0x80 7 (by decide) rfl _
    simp [update, hplaying, hmode]

theorem Channel.update_of_stopped {c : Channel} (h : c.isPlaying = false) : c.update = c := by
  cases c with
  | pulse c => exact congrArg pulse (Pulse.update_of_stopped (by simpa [isPlaying] using h))
  | triangle c => exact congrArg triangle (Triangle.ages.rests c (by simpa [isPlaying] using h))
  | noise c => exact congrArg noise ((Noise.ages c.regs).rests c (by simpa [isPlaying] using h))
  | dmc c => rfl

/-- **The lifetime of a channel in closed form.**  A pulse channel whose sweep is disabled, a triangle and a noise channel
that plays has lost four, four and one of its length with each update, but never more than there was.  It plays for the
length in such steps, rounded up, and is stopped by the next update; halted, it stays as it is, and a noise channel with
bit 7 of its third register set goes on playing.  Updates leave a channel that has stopped alone.  The halt flag of a
genuine channel is a bit of its first register, as the enable flag of a sweep is one of the second. -/
theorem Channel.updated_lifetime (n : Nat) :
    (∀ c : Pulse, c.stopped = false → c.sweep.enabled = false →
      LivesOut c.length 4 false n (Pulse.update^[n] c).length (Pulse.update^[n] c).stopped) ∧
    (∀ c : Triangle, c.stopped = false →
      LivesOut c.length 4 false n (Triangle.update^[n] c).length (Triangle.update^[n] c).stopped) ∧
    (∀ c : Noise, c.stopped = false →
      LivesOut c.length 1 ((c.regs.get 2).toBitVec.getLsbD 7) n (Noise.update^[n] c).length (Noise.update^[n] c).stopped) ∧
    (∀ c : Channel, c.isPlaying = false → Channel.update^[n] c = c) ∧
    (∀ c : Pulse, c.Genuine → c.length.halted = c.regs.control.toBitVec.getLsbD 5 ∧
      c.sweep.enabled = c.regs.sweep.toBitVec.getLsbD 7) ∧
    (∀ c : Triangle, c.Genuine → c.length.halted = c.regs.control.toBitVec.getLsbD 7) ∧
    (∀ c : Noise, c.Genuine → c.length.halted = c.regs.control.toBitVec.getLsbD 5) :=
  ⟨fun _ hplaying hsweep => Pulse.ages.livesOut (by decide) hsweep hplaying n,
    fun _ hplaying => Triangle.ages.livesOut (by decide) trivial hplaying n,
    fun c hplaying => (Noise.ages c.regs).livesOut (by decide) rfl hplaying n,
    fun _ hstopped => Function.iterate_fixed (update_of_stopped hstopped) n,
    fun _ hgenuine => ⟨hgenuine.halted.trans (flag_ne 0x20 5 (by decide) rfl _), hgenuine.sweep.enabled_eq⟩,
    fun _ hgenuine => Eq.trans hgenuine (flag_ne 0x80 7 (by decide) rfl _),
    fun _ hgenuine => Eq.trans hgenuine (flag_ne 0x20 5 (by decide) rfl _)⟩

/-- With ten left a pulse channel plays for three updates and is stopped by the fourth, and a noise channel in its short
mode never stops. -/
theorem Channel.updated_lifetime_ten :
    let p : Pulse := (({} : Pulse).write 0 0).write 3 0
    let c : Noise := (({} : Noise).write 2 0x80).write 3 0
    p.stopped = false ∧ p.sweep.enabled = false ∧ p.Genuine ∧ p.length = { halted := false, value := 10 } ∧
      (Pulse.update^[3] p).stopped = false ∧ (Pulse.update^[3] p).length.value.toNat = 0 ∧
      (Pulse.update^[4] p).stopped = true ∧
      c.stopped = false ∧ c.Genuine ∧ c.length = { halted := false, value := 10 } ∧
      (Noise.update^[1000] c).stopped = false ∧ (Noise.update^[1000] c).length.value.toNat = 0 := by
  intro p c
  obtain ⟨hp, hsweep, hc⟩ : p.stopped = false ∧ p.sweep.enabled = false ∧ c.stopped = false := by decide
  have hpulse : p.Genuine := (Pulse.Genuine.initial.write 0 0).write 3 0
  have hnoise : c.Genuine := (Noise.Genuine.initial.write 2 0x80).write 3 0
  have hrunning : p.length.halted = false := ((updated_lifetime 0).2.2.2.2.1 p hpulse).1.trans (by decide)
  have hmode : c.length.halted = false := ((updated_lifetime 0).2.2.2.2.2.2 c hnoise).trans (by decide)
  obtain ⟨-, hspent, hplaying⟩ := (LivesOut.running_iff hrunning).1 ((updated_lifetime 3).1 p hp hsweep)
  obtain ⟨-, -, hover⟩ := (LivesOut.running_iff hrunning).1 ((updated_lifetime 4).1 p hp hsweep)
  obtain ⟨-, hexhausted, halive⟩ := (LivesOut.running_iff hmode).1 ((updated_lifetime 1000).2.2.1 c hc)
  exact ⟨hp, hsweep, hpulse, rfl, hplaying.2 (by decide), hspent, eq_true_of_ne_false (mt hover.1 (by decide)),
    hc, hnoise, rfl, halive.2 (.inl (by decide)), hexhausted.trans (Nat.sub_eq_zero_of_le (by decide))⟩

end NesConsole
