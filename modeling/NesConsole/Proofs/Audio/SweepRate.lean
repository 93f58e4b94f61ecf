import Mathlib.Logic.Function.Iterate
import NesConsole.Proofs.Audio.Genuine
import NesConsole.Proofs.Bits
/-!
# How often a sweep moves the timer

A clock is worth two of the sweep's own sequences, and an event takes the period and two more off the counter.  A sweep
of period `p` thus gains two in each clock and spends `p + 2` on each event: `n` clocks after its register was written it
has moved the timer `1 + 2 * n / (p + 2)` times, for the first time in the very first clock (`Sweep.clocked_rate`).  Only
with a period of zero would that be more than one event a clock, and then each clock brings one.

A pulse channel keeps the timer in its last two registers.  While it plays, its updates put the sweep's timer there and
leave all other bits alone.
-/
namespace NesConsole
namespace Sweep

/-- The timer and the sweep after a number of clocks. -/
def clocked (s : Sweep) (timer : UInt16) : Nat → Clocked
  | 0 => { silenced := false, timer, sweep := s }
  | n + 1 => (s.clocked timer n).sweep.clock (s.clocked timer n).timer

/-- The next clock brings an event: it takes the counter to the period. -/
def elapses (s : Sweep) : Bool :=
  s.enabled && decide (s.periodCount ≤ s.counter + sequencesPerFrame)

/-- The events in a number of clocks. -/
def events (s : Sweep) (timer : UInt16) : Nat → Nat
  | 0 => 0
  | n + 1 => s.events timer n + (s.clocked timer n).sweep.elapses.toNat

/-- The period that a register value gives. -/
def periodOf (value : UInt8) : Nat := value.toNat / 16 % 8

/-- The timer one event later, in eleven bits. -/
def moved (negate : Bool) (shift timer : Nat) : Nat :=
  (if negate then timer - timer >>> shift else timer + timer >>> shift) % 0x800

/-! ## One clock -/

theorem clock_disabled {s : Sweep} (h : s.enabled = false) (timer : UInt16) :
    s.clock timer = { silenced := false, timer, sweep := s } := by
  simp [clock, h]

theorem clock_waits {s : Sweep} (henabled : s.enabled = true) (h : s.elapses = false) (timer : UInt16) :
    s.clock timer = { silenced := false, timer, sweep := { s with counter := s.counter + sequencesPerFrame } } := by
  have hearly : s.counter + sequencesPerFrame < s.periodCount := by
    simpa [elapses, henabled, Int16.not_le] using h
  simp [clock, henabled, hearly]

theorem clock_elapses {s : Sweep} (h : s.elapses = true) (timer : UInt16) :
    s.clock timer =
      { silenced := s.shift != 0 && s.silences (s.target timer)
        timer := if s.shift = 0 then timer else s.target timer &&& 0x7FF
        sweep := { s with counter := s.counter + sequencesPerFrame - s.periodCount - sequencesPerFrame } } := by
  obtain ⟨henabled, hlate⟩ : s.enabled = true ∧ s.periodCount ≤ s.counter + sequencesPerFrame := by
    simpa [elapses] using h
  by_cases hshift : s.shift = 0 <;> simp [clock, henabled, Int16.not_lt.2 hlate, hshift]

/-- Without an event nothing comes out of a clock. -/
theorem clock_uneventful {s : Sweep} (h : s.elapses = false) (timer : UInt16) :
    (s.clock timer).timer = timer ∧ (s.clock timer).silenced = false := by
  cases henabled : s.enabled with
  | true =>
    rw [clock_waits henabled h]
    exact ⟨rfl, rfl⟩
  | false =>
    rw [clock_disabled henabled]
    exact ⟨rfl, rfl⟩

/-- An event cuts the timer to eleven bits. -/
theorem clock_timer_lt (s : Sweep) {timer : UInt16} (h : timer.toNat < 0x800) :
    (s.clock timer).timer.toNat < 0x800 := by
  cases helapses : s.elapses with
  | false => rwa [(clock_uneventful helapses timer).1]
  | true =>
    rw [clock_elapses helapses, apply_ite UInt16.toNat, toNat_lowWord 0x7FF 11 rfl]
    split
    · exact h
    · exact Nat.mod_lt _ (by decide)

/-! ## The target of a move -/

theorem change_le (s : Sweep) (timer : UInt16) : timer >>> s.shift.toUInt16 ≤ timer := by
  rw [UInt16.le_iff_toNat_le, UInt16.toNat_shiftRight]
  exact Nat.shiftRight_le _ _

theorem target_falling {s : Sweep} (h : s.negate = true) (timer : UInt16) :
    (s.target timer).toNat = timer.toNat - (timer >>> s.shift.toUInt16).toNat := by
  have htarget : s.target timer = timer - timer >>> s.shift.toUInt16 := by simp [target, h]
  rw [htarget, UInt16.toNat_sub_of_le _ _ (s.change_le timer)]

theorem target_rising {s : Sweep} (h : s.negate = false) (timer : UInt16) :
    (s.target timer).toNat = (timer.toNat + (timer >>> s.shift.toUInt16).toNat) % 0x10000 := by
  have htarget : s.target timer = timer + timer >>> s.shift.toUInt16 := by simp [target, h]
  rw [htarget, UInt16.toNat_add]

/-! ## What the register says -/

namespace Genuine

variable {s : Sweep} {value : UInt8}

theorem enabled_eq (h : s.Genuine value) : s.enabled = value.toBitVec.getLsbD 7 :=
  h.enabled.trans (flag_ne 0x80 7 (by decide) rfl value)

theorem negate_eq (h : s.Genuine value) : s.negate = value.toBitVec.getLsbD 3 :=
  h.negate.trans (flag_ne 0x08 3 (by decide) rfl value)

theorem toNat_shift (h : s.Genuine value) : s.shift.toNat = value.toNat % 8 := by
  rw [h.shift]
  exact toNat_low 0x07 3 rfl value

theorem toInt_period (h : s.Genuine value) : s.periodCount.toInt = periodOf value := by
  have hperiod : s.period.toNat = periodOf value := by
    rw [h.period, toNat_low 0x07 3 rfl, toNat_shiftRight_four]
    rfl
  have hlt : periodOf value < 8 := Nat.mod_lt _ (by decide)
  rw [periodCount, Int16.toInt_ofNat_of_lt (by omega), hperiod]

theorem elapses_iff (h : s.Genuine value) :
    s.elapses = true ↔ s.enabled = true ∧ (periodOf value : Int) ≤ s.counter.toInt + 2 := by
  rw [elapses, Bool.and_eq_true, decide_eq_true_iff, Int16.le_iff_toInt_le, h.toInt_advanced, h.toInt_period]

/-- An event moves the timer by its own shifted value, up or down. -/
theorem toNat_target (h : s.Genuine value) (timer : UInt16) :
    (s.target timer &&& 0x7FF).toNat = moved (value.toBitVec.getLsbD 3) (value.toNat % 8) timer.toNat := by
  have hlt : value.toNat % 8 < 16 := Nat.lt_of_lt_of_le (Nat.mod_lt _ (by decide)) (by decide)
  have hchange : (timer >>> s.shift.toUInt16).toNat = timer.toNat >>> (value.toNat % 8) := by
    rw [UInt16.toNat_shiftRight, UInt8.toNat_toUInt16, h.toNat_shift, Nat.mod_eq_of_lt hlt]
  rw [toNat_lowWord 0x7FF 11 rfl, moved, ← h.negate_eq, ← hchange]
  cases hnegate : s.negate with
  | true =>
    rw [target_falling hnegate]
    rfl
  | false =>
    -- the sum may not fit sixteen bits, but the eleven that are kept do not see that
    rw [target_rising hnegate]
    exact Nat.mod_mod_of_dvd _ (by decide)

/-- **What a clock makes of the timer**: one move for the event it brings, if the shift is not zero. -/
theorem clock_timer (h : s.Genuine value) (timer : UInt16) :
    (s.clock timer).timer.toNat = if value.toNat % 8 = 0 then timer.toNat else
      (moved (value.toBitVec.getLsbD 3) (value.toNat % 8))^[s.elapses.toNat] timer.toNat := by
  have hshift : s.shift = 0 ↔ value.toNat % 8 = 0 := by
    rw [← UInt8.toNat_inj, h.toNat_shift]
    rfl
  cases helapses : s.elapses with
  | true =>
    rw [clock_elapses helapses, apply_ite UInt16.toNat, h.toNat_target]
    simp only [hshift]
    rfl
  | false =>
    rw [(clock_uneventful helapses timer).1]
    exact (ite_self _).symm

end Genuine

/-! ## Rows of clocks -/

/-- The counter `n` clocks and `count` events after the register was written.  It has been given two for each clock, and
each event has taken the period and two more. -/
structure Swept (s : Sweep) (value : UInt8) (n count : Nat) : Prop extends s.Genuine value where
  balance : s.counter.toInt + (count * (periodOf value + 2) : Nat) = periodOf value + 2 * n
  counter_le : s.counter.toInt ≤ periodOf value
  /-- The first clock takes the counter below the period, where it stays. -/
  counter_lt : 0 < n → 0 < periodOf value → s.counter.toInt < periodOf value
  counter_zero : periodOf value = 0 → s.counter.toInt = 0

namespace Swept

variable {s : Sweep} {value : UInt8} {n count : Nat}

theorem set (s : Sweep) (value : UInt8) : (s.set value).Swept value 0 0 := by
  have hgenuine := Genuine.set s value
  have hcounter : (s.set value).counter.toInt = periodOf value := hgenuine.toInt_period
  exact ⟨hgenuine, by omega, by omega, by omega, by omega⟩

/-- **A clock keeps the account balanced.** -/
theorem clock (h : s.Swept value n count) (henabled : s.enabled = true) (timer : UInt16) :
    (s.clock timer).sweep.Swept value (n + 1) (count + s.elapses.toNat) := by
  have hgenuine := h.toGenuine.clock timer
  have hlow := (counterRange_iff.1 h.counter).1
  have hbalance := h.balance
  have hle := h.counter_le
  have hzero := h.counter_zero
  have hdue := h.toGenuine.elapses_iff
  cases helapses : s.elapses with
  | true =>
    have hlate := (hdue.1 helapses).2
    have hcounter : (s.clock timer).sweep.counter.toInt = s.counter.toInt - periodOf value := by
      rw [clock_elapses helapses, ← h.toInt_period]
      exact h.toInt_left
    have hspent := Nat.add_one_mul count (periodOf value + 2)
    exact ⟨hgenuine, by rw [Bool.toNat_true]; omega, by omega, by omega, by omega⟩
  | false =>
    have hearly : s.counter.toInt + 2 < periodOf value :=
      Int.not_le.1 fun hlate => Bool.false_ne_true (helapses.symm.trans (hdue.2 ⟨henabled, hlate⟩))
    have hcounter : (s.clock timer).sweep.counter.toInt = s.counter.toInt + 2 := by
      rw [clock_waits henabled helapses]
      exact h.toInt_advanced
    exact ⟨hgenuine, by rw [Bool.toNat_false, Nat.add_zero]; omega, by omega, by omega, by omega⟩

theorem clocked (h : s.Swept value 0 0) (henabled : value.toBitVec.getLsbD 7 = true) (timer : UInt16) (n : Nat) :
    (s.clocked timer n).sweep.Swept value n (s.events timer n) := by
  induction n with
  | zero => exact h
  | succ n ih => exact ih.clock (ih.enabled_eq.trans henabled) _

/-- **The rate**: with the counter between -2 and the period, the events are the whole multiples of `p + 2` in what it was
given. -/
theorem count_eq (h : s.Swept value n count) (hn : 0 < n) :
    count = if periodOf value = 0 then n else 1 + 2 * n / (periodOf value + 2) := by
  have hlow := (counterRange_iff.1 h.counter).1
  have hbalance := h.balance
  split
  · next hperiod =>
    rw [h.counter_zero hperiod, hperiod] at hbalance
    omega
  · next hperiod =>
    have hlt := h.counter_lt hn (Nat.pos_of_ne_zero hperiod)
    have hnext := Nat.add_one_mul count (periodOf value + 2)
    have hgiven : (periodOf value + 2 + 2 * n) / (periodOf value + 2) = count :=
      Nat.div_eq_of_lt_le (by omega) (by omega)
    rw [← hgiven, Nat.add_div_left _ (by omega), Nat.add_comm]

end Swept

theorem Genuine.clocked {s : Sweep} {value : UInt8} (h : s.Genuine value) (timer : UInt16) (n : Nat) :
    (s.clocked timer n).sweep.Genuine value := by
  induction n with
  | zero => exact h
  | succ n ih => exact ih.clock _

/-- **The timer**: one move for each event, if the shift is not zero. -/
theorem Genuine.clocked_timer {s : Sweep} {value : UInt8} (h : s.Genuine value) (timer : UInt16) (n : Nat) :
    (s.clocked timer n).timer.toNat = if value.toNat % 8 = 0 then timer.toNat else
      (moved (value.toBitVec.getLsbD 3) (value.toNat % 8))^[s.events timer n] timer.toNat := by
  induction n with
  | zero => exact (ite_self _).symm
  | succ n ih =>
    refine ((h.clocked timer n).clock_timer _).trans ?_
    rw [ih]
    split
    · rfl
    · rw [events, Nat.add_comm, Function.iterate_add_apply]

theorem clocked_disabled {s : Sweep} (h : s.enabled = false) (timer : UInt16) (n : Nat) :
    s.clocked timer n = { silenced := false, timer, sweep := s } := by
  induction n with
  | zero => rfl
  | succ n ih => rw [clocked, ih, clock_disabled h]

end Sweep

/-! ## The registers of a pulse channel -/

namespace ChannelRegisters

theorem toNat_timer (regs : ChannelRegisters) : regs.timer.toNat = (regs.get 3).toNat % 8 * 256 + (regs.get 2).toNat := by
  have hhigh : (regs[3].toUInt16 &&& 0x07).toNat = regs[3].toNat % 8 := toNat_lowWord 0x07 3 rfl _
  have hshifted : ((regs[3].toUInt16 &&& 0x07) <<< 8).toNat = 2 ^ 8 * (regs[3].toNat % 8) := by
    have hlt : 2 ^ 8 * (regs[3].toNat % 8) < 2 ^ 16 := by omega
    rw [UInt16.toNat_shiftLeft, hhigh, Nat.shiftLeft_eq, Nat.mul_comm]
    exact Nat.mod_eq_of_lt hlt
  rw [timer, UInt16.toNat_or, hshifted, UInt8.toNat_toUInt16, Nat.or_comm,
    ← Nat.two_pow_add_eq_or_of_lt regs[2].toNat_lt, Nat.mul_comm]
  rfl

/-- The bits above a timer's in the fourth register, joined by those of the timer. -/
theorem toNat_joined (kept high : UInt8) :
    (kept &&& 0xF8 ||| high &&& 0x07).toNat = kept.toNat / 8 * 8 + high.toNat % 8 := by
  have hkept : ∀ n : Fin 256, (UInt8.ofFin n &&& 0xF8).toNat = 2 ^ 3 * (n.val / 8) := by decide +kernel
  have hhigh : (high &&& 0x07).toNat = high.toNat % 8 := toNat_low 0x07 3 rfl high
  rw [UInt8.toNat_or, show (kept &&& 0xF8).toNat = _ from hkept kept.toFin, hhigh,
    ← Nat.two_pow_add_eq_or_of_lt (Nat.mod_lt _ (by decide)), Nat.mul_comm]
  rfl

theorem setTimer_low (regs : ChannelRegisters) (timer : UInt16) :
    ((regs.setTimer timer).get 2).toNat = timer.toNat % 256 := by
  show (regs.setTimer timer)[2].toNat = _
  simp [setTimer]

theorem setTimer_high (regs : ChannelRegisters) (timer : UInt16) :
    ((regs.setTimer timer).get 3).toNat = (regs.get 3).toNat / 8 * 8 + timer.toNat / 256 % 8 := by
  have hbyte : (timer >>> 8).toUInt8.toNat = timer.toNat / 256 := by
    have hword : (timer >>> 8).toNat = timer.toNat / 256 := by
      rw [UInt16.toNat_shiftRight, Nat.shiftRight_eq_div_pow]
      rfl
    have hlt := timer.toNat_lt
    rw [UInt16.toNat_toUInt8, hword]
    exact Nat.mod_eq_of_lt (by omega)
  show (regs.setTimer timer)[3].toNat = _
  simp only [setTimer, Vector.getElem_set_self]
  rw [toNat_joined, hbyte]
  rfl

theorem timer_setTimer (regs : ChannelRegisters) {timer : UInt16} (h : timer.toNat < 0x800) :
    (regs.setTimer timer).timer = timer := by
  rw [← UInt16.toNat_inj, toNat_timer, setTimer_low, setTimer_high]
  omega

end ChannelRegisters

namespace Pulse

theorem timer_lt (c : Pulse) : c.timer.toNat < 0x800 := by
  have hlow := (c.regs.get 2).toNat_lt
  rw [timer, ChannelRegisters.toNat_timer]
  omega

theorem update_of_stopped {c : Pulse} (h : c.stopped = true) : c.update = c := if_pos h

theorem update_swept {c : Pulse} (h : c.stopped = false) :
    c.update.regs = c.regs.setTimer (c.sweep.clock c.timer).timer ∧
      c.update.sweep = (c.sweep.clock c.timer).sweep ∧
      c.update.stopped = ((c.length.clock lengthStep).1 || (c.sweep.clock c.timer).silenced) := by
  simp [update, h]

theorem update_timer {c : Pulse} (h : c.stopped = false) : c.update.timer = (c.sweep.clock c.timer).timer := by
  rw [timer, (update_swept h).1, ChannelRegisters.timer_setTimer _ (c.sweep.clock_timer_lt c.timer_lt)]

/-- The channel has played through `n` updates: its sweep and its timer are where `n` clocks take those it started with,
and the other bits of its registers are the same. -/
structure Sweeps (c start : Pulse) (n : Nat) : Prop where
  sweep : c.sweep = (start.sweep.clocked start.timer n).sweep
  timer : c.timer = (start.sweep.clocked start.timer n).timer
  control : c.regs.control = start.regs.control
  sweepRegister : c.regs.sweep = start.regs.sweep
  high : (c.regs.get 3).toNat / 8 = (start.regs.get 3).toNat / 8

namespace Sweeps

variable {c start : Pulse} {n : Nat}

/-- **An update carries the sweep on by one clock.** -/
theorem update (h : c.Sweeps start n) (hplaying : c.stopped = false) : c.update.Sweeps start (n + 1) := by
  obtain ⟨hregs, hsweep, -⟩ := update_swept hplaying
  have hclock : c.sweep.clock c.timer = start.sweep.clocked start.timer (n + 1) := by
    rw [h.sweep, h.timer]
    rfl
  refine ⟨hsweep.trans (congrArg _ hclock), (update_timer hplaying).trans (congrArg _ hclock), ?_, ?_, ?_⟩
  · rw [hregs, ← h.control]
    exact ChannelRegisters.setTimer_control ..
  · rw [hregs, ← h.sweepRegister]
    exact ChannelRegisters.setTimer_sweep ..
  · rw [hregs, ChannelRegisters.setTimer_high, ← h.high]
    omega

theorem updated (c : Pulse) (hplaying : ∀ m < n, (Pulse.update^[m] c).stopped = false) :
    (Pulse.update^[n] c).Sweeps c n := by
  induction n with
  | zero => exact ⟨rfl, rfl, rfl, rfl, rfl⟩
  | succ n ih =>
    rw [Function.iterate_succ_apply']
    exact (ih fun m hm => hplaying m (Nat.lt_succ_of_lt hm)).update (hplaying n (Nat.lt_succ_self n))

/-- The two timer registers. -/
theorem registers (h : c.Sweeps start n) :
    (c.regs.get 2).toNat = (start.sweep.clocked start.timer n).timer.toNat % 256 ∧
      (c.regs.get 3).toNat % 8 = (start.sweep.clocked start.timer n).timer.toNat / 256 := by
  have hlow := (c.regs.get 2).toNat_lt
  rw [← h.timer, Pulse.timer, ChannelRegisters.toNat_timer]
  omega

end Sweeps
end Pulse

/-- **The sweep in closed form.**  `n` clocks after a register value with the enable bit set was taken over, the sweep has
had `1 + 2 * n / (p + 2)` events, or `n` if the period `p` is zero, and each of them has moved the timer once, unless
the shift is zero.  A disabled sweep changes nothing.  A pulse channel that plays through `n` updates holds the swept timer
in its third register and the low three bits of its fourth, and all other bits of its registers are as they were; once it
has stopped, nothing changes. -/
theorem Sweep.clocked_rate (value : UInt8) (s : Sweep) (timer : UInt16) (n : Nat) :
    (value.toBitVec.getLsbD 7 = true →
      let period := value.toNat / 16 % 8
      let shift := value.toNat % 8
      let events := (s.set value).events timer n
      (0 < n → events = if period = 0 then n else 1 + 2 * n / (period + 2)) ∧
      ((s.set value).clocked timer n).timer.toNat =
        if shift = 0 then timer.toNat else (moved (value.toBitVec.getLsbD 3) shift)^[events] timer.toNat) ∧
    (s.enabled = false → (s.clocked timer n).timer = timer ∧ (s.clocked timer n).sweep = s) ∧
    (∀ c : Pulse, (∀ m < n, (Pulse.update^[m] c).stopped = false) →
      let swept := (c.sweep.clocked c.timer n).timer.toNat
      let regs := (Pulse.update^[n] c).regs
      (regs.get 2).toNat = swept % 256 ∧ (regs.get 3).toNat % 8 = swept / 256 ∧ regs.control = c.regs.control ∧
        regs.sweep = c.regs.sweep ∧ (regs.get 3).toNat / 8 = (c.regs.get 3).toNat / 8) ∧
    (∀ c : Pulse, c.stopped = true → c.update = c) := by
  refine ⟨fun henabled => ⟨fun hn => ?_, (Genuine.set s value).clocked_timer timer n⟩, fun hdisabled => ?_,
    fun c hplaying => ?_, fun c hstopped => Pulse.update_of_stopped hstopped⟩
  · exact ((Swept.set s value).clocked henabled timer n).count_eq hn
  · rw [clocked_disabled hdisabled]
    exact ⟨rfl, rfl⟩
  · have hsweeps := Pulse.Sweeps.updated c hplaying
    exact ⟨hsweeps.registers.1, hsweeps.registers.2, hsweeps.control, hsweeps.sweepRegister, hsweeps.high⟩

/-- A sweep of period 2 and shift 1 takes the timer up by half three times in five updates. -/
theorem Sweep.clocked_rate_rising :
    ∃ c : Pulse, c.sweep = ({} : Sweep).set 0xA1 ∧ c.timer = 0x100 ∧ c.sweep.events 0x100 5 = 3 ∧
      (c.sweep.clocked 0x100 5).timer.toNat = 0x360 ∧ (∀ m < 5, (Pulse.update^[m] c).stopped = false) ∧
      ((Pulse.update^[5] c).regs.get 2).toNat = 0x60 ∧ ((Pulse.update^[5] c).regs.get 3).toNat = 0xFB := by
  obtain ⟨henabled, -, hregisters, -⟩ := clocked_rate 0xA1 {} 0x100 5
  obtain ⟨hevents, hmoved⟩ := henabled (by decide)
  have hcount : (({} : Sweep).set 0xA1).events 0x100 5 = 3 := hevents (by decide)
  have hswept : ((({} : Sweep).set 0xA1).clocked 0x100 5).timer.toNat = 0x360 := by
    rw [hmoved, hcount]
    rfl
  obtain ⟨c, hsweep, htimer, hhigh, hplaying⟩ : ∃ c : Pulse, c.sweep = ({} : Sweep).set 0xA1 ∧ c.timer = 0x100 ∧
      c.regs.get 3 = 0xF9 ∧ ∀ m < 5, (Pulse.update^[m] c).stopped = false :=
    ⟨((({} : Pulse).write 0 0x20).write 3 0xF9).write 1 0xA1, rfl, rfl, rfl, by decide⟩
  obtain ⟨hlow, hfield, -, -, hkept⟩ := hregisters c hplaying
  rw [hsweep, htimer, hswept] at hlow hfield
  have htop : ((Pulse.update^[5] c).regs.get 3).toNat / 8 = 0x1F := by
    rw [hkept, hhigh]
    rfl
  exact ⟨c, hsweep, htimer, by rw [hsweep, hcount], by rw [hsweep, hswept], hplaying, hlow, by omega⟩

end NesConsole
