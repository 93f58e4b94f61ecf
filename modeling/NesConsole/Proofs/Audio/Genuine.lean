import NesConsole.Proofs.Snapshot.Accepted
/-!
# Genuine channels

What register writes and ticks can make of a channel.  Its counters are in the ranges a snapshot is checked for, and its
decoded copies of register bits say what the registers say, so that nothing is lost when only registers and counters are
saved (`Channels.ofStates_save`).
-/
namespace NesConsole

theorem Int16.toInt_sub_small {a b : Int16} (ha : -0x4000 ≤ a.toInt ∧ a.toInt ≤ 0x4000)
    (hb : -0x3FFF ≤ b.toInt ∧ b.toInt ≤ 0x3FFF) : (a - b).toInt = a.toInt - b.toInt := by
  rw [Int16.toInt_sub]
  exact Int.bmod_eq_of_le (by omega) (by omega)

theorem Int16.toInt_add_small {a b : Int16} (ha : -0x4000 ≤ a.toInt ∧ a.toInt ≤ 0x4000)
    (hb : -0x3FFF ≤ b.toInt ∧ b.toInt ≤ 0x3FFF) : (a + b).toInt = a.toInt + b.toInt := by
  rw [Int16.toInt_add]
  exact Int.bmod_eq_of_le (by omega) (by omega)

/-! ## Envelopes -/

namespace Envelope

theorem dividerRange_iff {divider : Int16} : DividerRange divider ↔ -4 ≤ divider.toInt ∧ divider.toInt ≤ 15 := by
  unfold DividerRange
  rw [Int16.le_iff_toInt_le, Int16.le_iff_toInt_le]
  exact Iff.rfl

/-- The counters are in range, and the other fields are those of a register value. -/
structure Genuine (e : Envelope) (value : UInt8) : Prop where
  divider : DividerRange e.divider
  decay : e.decay ≤ 15
  period : e.period = value &&& 0x0F
  constant : e.constant = (value &&& 0x10 != 0)
  loops : e.loops = (value &&& 0x20 != 0)

namespace Genuine

variable {e : Envelope} {value : UInt8}

theorem initial : ({} : Envelope).Genuine 0 :=
  ⟨by decide, by decide, rfl, rfl, rfl⟩

theorem toInt_period (h : e.Genuine value) :
    0 ≤ (Int16.ofNat e.period.toNat).toInt ∧ (Int16.ofNat e.period.toNat).toInt ≤ 15 := by
  have hp : e.period.toNat ≤ 15 := by
    rw [h.period, UInt8.toNat_and]
    exact Nat.and_le_right
  rw [Int16.toInt_ofNat_of_lt (by omega)]
  omega

theorem decode (h : e.Genuine value) (value' : UInt8) : (e.decode value').Genuine value' :=
  { h with period := rfl, constant := rfl, loops := rfl }

theorem reload (h : e.Genuine value) : e.reload.Genuine value :=
  { h with
    divider := dividerRange_iff.2 ⟨Int.le_trans (by decide) h.toInt_period.1, h.toInt_period.2⟩
    decay := by show (15 : UInt8) ≤ 15; decide }

theorem set (h : e.Genuine value) (value' : UInt8) : (e.set value').Genuine value' := by
  unfold Envelope.set
  dsimp only
  split
  · exact h.decode value'
  · exact (h.decode value').reload

theorem restart (h : e.Genuine value) : e.restart.Genuine value := { h with }

theorem nextDecay (h : e.Genuine value) : e.nextDecay ≤ 15 := by
  unfold Envelope.nextDecay
  have hd := h.decay
  split
  · next h0 =>
    have h1 : 1 ≤ e.decay.toNat := UInt8.lt_iff_toNat_lt.1 h0
    rw [UInt8.le_iff_toNat_le] at hd ⊢
    rw [UInt8.toNat_sub_of_le e.decay 1 (UInt8.le_iff_toNat_le.2 h1)]
    exact Nat.le_trans (Nat.sub_le _ _) hd
  · split
    · decide
    · exact hd

/-- **A clock keeps the divider in its range**: what would fall below is cut off. -/
theorem clock (h : e.Genuine value) : e.clock.Genuine value := by
  unfold Envelope.clock
  split
  · exact h
  · split
    · exact reload { h with }
    · have hd := dividerRange_iff.1 h.divider
      have hp := h.toInt_period
      have hstep : (e.divider - dividerStep).toInt = e.divider.toInt - 4 :=
        Int16.toInt_sub_small (by omega) (by decide)
      dsimp only
      split
      · refine { h with divider := dividerRange_iff.2 ?_, decay := h.nextDecay }
        have hsum : (e.divider - dividerStep + Int16.ofNat e.period.toNat).toInt =
            (e.divider - dividerStep).toInt + (Int16.ofNat e.period.toNat).toInt :=
          Int16.toInt_add_small (by omega) (by omega)
        rw [Int16.le_iff_toInt_le, hstep, show (0 : Int16).toInt = 0 from rfl] at *
        show -4 ≤ (ite _ _ _ : Int16).toInt ∧ (ite _ _ _ : Int16).toInt ≤ 15
        split
        · decide
        · next hlow =>
          rw [Int16.le_iff_toInt_le, hsum, hstep, show (-dividerStep).toInt = -4 from rfl] at hlow
          omega
      · next hpos =>
        refine { h with divider := dividerRange_iff.2 ?_ }
        rw [Int16.le_iff_toInt_le, hstep, show (0 : Int16).toInt = 0 from rfl] at hpos
        show -4 ≤ (e.divider - dividerStep).toInt ∧ (e.divider - dividerStep).toInt ≤ 15
        omega

/-- The envelope is rebuilt from its register and its counters. -/
theorem restore (h : e.Genuine value) : (({} : Envelope).decode value).restore e.divider e.decay e.restarting = e := by
  have hmin : min e.decay 15 = e.decay := if_pos h.decay
  simp only [Envelope.restore, Envelope.decode, hmin, ← h.period, ← h.constant, ← h.loops]

end Genuine
end Envelope

/-! ## Sweeps -/

namespace Sweep

theorem counterRange_iff {counter : Int16} : CounterRange counter ↔ -2 ≤ counter.toInt ∧ counter.toInt ≤ 9 := by
  unfold CounterRange
  rw [Int16.le_iff_toInt_le, Int16.le_iff_toInt_le]
  exact Iff.rfl

/-- The counter is in range, and the other fields are those of a register value. -/
structure Genuine (s : Sweep) (value : UInt8) : Prop where
  counter : CounterRange s.counter
  enabled : s.enabled = (value &&& 0x80 != 0)
  period : s.period = value >>> 4 &&& 0x07
  negate : s.negate = (value &&& 0x08 != 0)
  shift : s.shift = value &&& 0x07

namespace Genuine

variable {s : Sweep} {value : UInt8}

theorem initial : ({} : Sweep).Genuine 0 :=
  ⟨by decide, rfl, rfl, rfl, rfl⟩

theorem toInt_periodCount (h : s.Genuine value) : 0 ≤ s.periodCount.toInt ∧ s.periodCount.toInt ≤ 7 := by
  have hp : s.period.toNat ≤ 7 := by
    rw [h.period, UInt8.toNat_and]
    exact Nat.and_le_right
  rw [periodCount, Int16.toInt_ofNat_of_lt (by omega)]
  omega

theorem set (s : Sweep) (value : UInt8) : (s.set value).Genuine value := by
  have hd : ({ s.decode value with counter := 0 } : Sweep).Genuine value :=
    ⟨by show CounterRange 0; decide, rfl, rfl, rfl, rfl⟩
  obtain ⟨hlow, hhigh⟩ := hd.toInt_periodCount
  exact { hd with counter := counterRange_iff.2 ⟨Int.le_trans (by decide) hlow, Int.le_trans hhigh (by decide)⟩ }

theorem toInt_advanced (h : s.Genuine value) : (s.counter + sequencesPerFrame).toInt = s.counter.toInt + 2 := by
  have hc := counterRange_iff.1 h.counter
  exact Int16.toInt_add_small (by omega) (by decide)

theorem toInt_reached (h : s.Genuine value) :
    (s.counter + sequencesPerFrame - s.periodCount).toInt = s.counter.toInt + 2 - s.periodCount.toInt := by
  have hc := counterRange_iff.1 h.counter
  have hp := h.toInt_periodCount
  have hsum := h.toInt_advanced
  rw [Int16.toInt_sub_small (by omega) (by omega), hsum]

/-- What a clock adds and what it credits to the next period cancel out. -/
theorem toInt_left (h : s.Genuine value) :
    (s.counter + sequencesPerFrame - s.periodCount - sequencesPerFrame).toInt =
      s.counter.toInt - s.periodCount.toInt := by
  have hc := counterRange_iff.1 h.counter
  have hp := h.toInt_periodCount
  have hrest := h.toInt_reached
  have htwo : sequencesPerFrame.toInt = 2 := rfl
  rw [Int16.toInt_sub_small (by omega) (by decide), hrest, htwo]
  omega

/-- **A clock keeps the counter in its range**: of an elapsed period at most one frame's worth is left over. -/
theorem clock (h : s.Genuine value) (timer : UInt16) : (s.clock timer).sweep.Genuine value := by
  have hc := counterRange_iff.1 h.counter
  have hp := h.toInt_periodCount
  have hsum := h.toInt_advanced
  have hleft := h.toInt_left
  unfold Sweep.clock
  split
  · exact h
  · dsimp only
    split
    · next hearly =>
      rw [Int16.lt_iff_toInt_lt, hsum] at hearly
      exact { h with counter := counterRange_iff.2 (by rw [hsum]; omega) }
    · next hlate =>
      rw [Int16.lt_iff_toInt_lt, hsum] at hlate
      have helapsed : ({ s with counter := s.counter + sequencesPerFrame - s.periodCount - sequencesPerFrame } :
          Sweep).Genuine value :=
        { h with counter := counterRange_iff.2 (by rw [hleft]; omega) }
      split <;> exact helapsed

/-- The sweep is rebuilt from its register and its counter. -/
theorem restore (h : s.Genuine value) : (({} : Sweep).decode value).restore s.counter = s := by
  simp only [Sweep.restore, Sweep.decode, ← h.enabled, ← h.period, ← h.negate, ← h.shift]

end Genuine
end Sweep

/-! ## Channels -/

namespace ChannelRegisters

@[simp] theorem control_set (regs : ChannelRegisters) {i : Nat} (hi : i < 4) (value : UInt8) :
    control (regs.set i value hi) = if i = 0 then value else regs.control :=
  Vector.getElem_set ..

@[simp] theorem sweep_set (regs : ChannelRegisters) {i : Nat} (hi : i < 4) (value : UInt8) :
    sweep (regs.set i value hi) = if i = 1 then value else regs.sweep :=
  Vector.getElem_set ..

theorem setTimer_control (regs : ChannelRegisters) (timer : UInt16) : (regs.setTimer timer).control = regs.control := by
  simp [setTimer]

theorem setTimer_sweep (regs : ChannelRegisters) (timer : UInt16) : (regs.setTimer timer).sweep = regs.sweep := by
  simp [setTimer]

theorem setTimer_halt (regs : ChannelRegisters) (timer : UInt16) : (regs.setTimer timer).halt = regs.halt := by
  rw [halt, halt, setTimer_control]

end ChannelRegisters

@[simp] theorem LengthCounter.clock_halted (c : LengthCounter) (step : UInt8) : (c.clock step).2.halted = c.halted := by
  unfold clock
  split
  · rfl
  · split <;> rfl

/-- The envelope and the sweep are genuine for the registers they belong to, and so is the halt flag. -/
structure Pulse.Genuine (c : Pulse) : Prop where
  halted : c.length.halted = c.regs.halt
  envelope : c.envelope.Genuine c.regs.control
  sweep : c.sweep.Genuine c.regs.sweep

namespace Pulse.Genuine

variable {c : Pulse}

theorem initial : ({} : Pulse).Genuine := ⟨rfl, Envelope.Genuine.initial, Sweep.Genuine.initial⟩

theorem write (h : c.Genuine) (reg : Fin 4) (value : UInt8) : (c.write reg value).Genuine := by
  have hhalted : c.length.halted = (c.regs.control &&& 0x20 != 0) := h.halted
  match reg with
  | 0 => exact ⟨rfl, by simpa [Pulse.write] using h.envelope.set value, by simpa [Pulse.write] using h.sweep⟩
  | 1 =>
    refine ⟨?_, ?_, ?_⟩
    · simpa [Pulse.write, ChannelRegisters.halt] using hhalted
    · simpa [Pulse.write] using h.envelope
    · simpa [Pulse.write] using Sweep.Genuine.set c.sweep value
  | 2 =>
    refine ⟨?_, ?_, ?_⟩
    · simpa [Pulse.write, ChannelRegisters.halt] using hhalted
    · simpa [Pulse.write] using h.envelope
    · simpa [Pulse.write] using h.sweep
  | 3 =>
    refine ⟨?_, ?_, ?_⟩
    · simpa [Pulse.write, ChannelRegisters.halt, LengthCounter.loadIndex, LengthCounter.load] using hhalted
    · simpa [Pulse.write] using h.envelope.restart
    · have hkept : ChannelRegisters.sweep (c.regs.set 3 value) = c.regs.sweep := c.regs.sweep_set (by decide) value
      exact hkept.symm ▸ h.sweep

theorem setEnabled (h : c.Genuine) (enabled : Bool) : (c.setEnabled enabled).Genuine := by
  cases enabled with
  | true => exact h
  | false => exact { h with }

theorem update (h : c.Genuine) : c.update.Genuine := by
  unfold Pulse.update
  split
  · exact h
  · refine ⟨?_, ?_, ?_⟩
    · show (c.length.clock lengthStep).2.halted = _
      rw [LengthCounter.clock_halted, ChannelRegisters.setTimer_halt, h.halted]
    · rw [ChannelRegisters.setTimer_control]
      exact h.envelope.clock
    · rw [ChannelRegisters.setTimer_sweep]
      exact h.sweep.clock c.timer

theorem restore (h : c.Genuine) :
    Pulse.restore c.regs c.stopped c.length.value c.envelope.divider c.envelope.decay c.envelope.restarting
      c.sweep.counter = c := by
  rw [Pulse.restore, h.envelope.restore, h.sweep.restore, ← h.halted]

/-- **A genuine pulse channel is accepted and rebuilt.** -/
theorem pulse?_save (h : c.Genuine) (channel : Nat) : Channels.pulse? channel c.save = .ok c := by
  have hcheck : c.save.check = .ok () :=
    ChannelState.check_pulse.2 ⟨h.envelope.divider, h.envelope.decay, h.sweep.counter⟩
  rw [Pulse.save] at hcheck ⊢
  rw [Channels.pulse?, hcheck, h.restore]
  rfl

/-- **What is accepted is genuine.** -/
theorem of_pulse? {channel : Nat} {state : ChannelState} (h : Channels.pulse? channel state = .ok c) : c.Genuine := by
  cases state with
  | pulse regs stopped length divider decay restarting counter =>
    obtain ⟨_, hcheck, hc⟩ := bind_eq_ok.1 h
    cases hc
    obtain ⟨hdivider, hdecay, hcounter⟩ := ChannelState.check_pulse.1 hcheck
    have hmin : min decay 15 ≤ 15 := by rw [show min decay 15 = decay from if_pos hdecay]; exact hdecay
    exact ⟨rfl, ⟨hdivider, hmin, rfl, rfl, rfl⟩, ⟨hcounter, rfl, rfl, rfl, rfl⟩⟩
  | triangle | noise | dmc => cases h

end Pulse.Genuine

/-- The halt flag is that of the first register. -/
def Triangle.Genuine (c : Triangle) : Prop := c.length.halted = c.regs.triangleHalt

namespace Triangle.Genuine

variable {c : Triangle}

theorem initial : ({} : Triangle).Genuine := rfl

theorem write (h : c.Genuine) (reg : Fin 4) (value : UInt8) : (c.write reg value).Genuine := by
  have hhalted : c.length.halted = (c.regs.control &&& 0x80 != 0) := h
  match reg with
  | 0 | 3 => rfl
  | 1 | 2 => simpa [Triangle.write, Genuine, ChannelRegisters.triangleHalt] using hhalted

theorem setEnabled (h : c.Genuine) (enabled : Bool) : (c.setEnabled enabled).Genuine := by
  cases enabled <;> exact h

theorem update (h : c.Genuine) : c.update.Genuine := by
  unfold Triangle.update
  split
  · exact h
  · exact (c.length.clock_halted lengthStep).trans h

theorem triangle?_save (h : c.Genuine) (channel : Nat) : Channels.triangle? channel c.save = .ok c := by
  have hrestored : Triangle.restore c.regs c.stopped c.length.value = c := by rw [Triangle.restore, ← show _ = _ from h]
  exact congrArg Except.ok hrestored

theorem of_triangle? {channel : Nat} {state : ChannelState} (h : Channels.triangle? channel state = .ok c) :
    c.Genuine := by
  cases state with
  | triangle => cases h; rfl
  | pulse | noise | dmc => cases h

end Triangle.Genuine

def Noise.Genuine (c : Noise) : Prop := c.length.halted = c.regs.halt

namespace Noise.Genuine

variable {c : Noise}

theorem initial : ({} : Noise).Genuine := rfl

theorem write (h : c.Genuine) (reg : Fin 4) (value : UInt8) : (c.write reg value).Genuine := by
  have hhalted : c.length.halted = (c.regs.control &&& 0x20 != 0) := h
  match reg with
  | 0 => rfl
  | 1 | 2 => simpa [Noise.write, Genuine, ChannelRegisters.halt] using hhalted
  | 3 =>
    simpa [Noise.write, Genuine, ChannelRegisters.halt, LengthCounter.loadIndex, LengthCounter.load] using hhalted

theorem setEnabled (h : c.Genuine) (enabled : Bool) : (c.setEnabled enabled).Genuine := by
  cases enabled <;> exact h

theorem update (h : c.Genuine) : c.update.Genuine := by
  unfold Noise.update
  split
  · exact h
  · exact (c.length.clock_halted lengthStep).trans h

theorem noise?_save (h : c.Genuine) (channel : Nat) : Channels.noise? channel c.save = .ok c := by
  have hrestored : Noise.restore c.regs c.stopped c.length.value = c := by rw [Noise.restore, ← show _ = _ from h]
  exact congrArg Except.ok hrestored

theorem of_noise? {channel : Nat} {state : ChannelState} (h : Channels.noise? channel state = .ok c) : c.Genuine := by
  cases state with
  | noise => cases h; rfl
  | pulse | triangle | dmc => cases h

end Noise.Genuine

/-- The countdown never exceeds the longest sample. -/
structure Dmc.Genuine (c : Dmc) : Prop where
  sampleLength : isSampleLength c.sampleLength = true
  dmaLength : c.dmaLength ≤ maxSampleLength

theorem isSampleLength_written_fin :
    ∀ n : Fin 256, isSampleLength (((UInt8.ofFin n).toUInt16 >>> 4 + 1) * 8) = true := by decide +kernel

/-- Every length a register write can ask for is a sample length. -/
theorem isSampleLength_written (value : UInt8) : isSampleLength ((value.toUInt16 >>> 4 + 1) * 8) = true :=
  isSampleLength_written_fin value.toFin

theorem isSampleLength_le {length : UInt16} (h : isSampleLength length = true) : length ≤ maxSampleLength := by
  unfold isSampleLength at h
  rcases Bool.or_eq_true_iff.1 h with h | h
  · rw [eq_of_beq h]
    decide
  · exact of_decide_eq_true (Bool.and_eq_true_iff.1 h).2

namespace Dmc.Genuine

variable {c : Dmc}

theorem initial : ({} : Dmc).Genuine := ⟨by decide, by decide⟩

theorem write (h : c.Genuine) (reg : Fin 4) (value : UInt8) : (c.write reg value).Genuine := by
  unfold Dmc.write
  split
  · exact ⟨isSampleLength_written value, h.dmaLength⟩
  · exact { h with }

theorem setEnabled (h : c.Genuine) (enabled : Bool) : (c.setEnabled enabled).Genuine := by
  cases enabled with
  | false => exact { h with dmaLength := by show 0 ≤ maxSampleLength; decide }
  | true =>
    refine { h with dmaLength := ?_ }
    show ite _ _ _ ≤ maxSampleLength
    split
    · exact isSampleLength_le h.sampleLength
    · exact h.dmaLength

theorem hblank (h : c.Genuine) : c.hblank.2.Genuine := by
  unfold Dmc.hblank
  split
  · exact h
  · split
    · next hne =>
      refine { h with dmaLength := ?_ }
      have hpos : 1 ≤ c.dmaLength.toNat := Nat.pos_of_ne_zero fun h0 => hne (UInt16.toNat_inj.1 h0)
      have hle := UInt16.le_iff_toNat_le.1 h.dmaLength
      rw [UInt16.le_iff_toNat_le, UInt16.toNat_sub_of_le c.dmaLength 1 (UInt16.le_iff_toNat_le.2 hpos)]
      exact Nat.le_trans (Nat.sub_le _ _) hle
    · split
      · exact { h with dmaLength := isSampleLength_le h.sampleLength }
      · exact { h with }

theorem dmc?_save (h : c.Genuine) (channel : Nat) : Channels.dmc? channel c.save = .ok c := by
  have hcheck : c.save.check = .ok () := ChannelState.check_dmc.2 ⟨h.sampleLength, h.dmaLength⟩
  rw [Dmc.save] at hcheck ⊢
  rw [Channels.dmc?, hcheck]
  rfl

theorem of_dmc? {channel : Nat} {state : ChannelState} (h : Channels.dmc? channel state = .ok c) : c.Genuine := by
  cases state with
  | dmc =>
    obtain ⟨_, hcheck, hc⟩ := bind_eq_ok.1 h
    cases hc
    obtain ⟨hsample, hdma⟩ := ChannelState.check_dmc.1 hcheck
    exact ⟨hsample, hdma⟩
  | pulse | triangle | noise => cases h

end Dmc.Genuine

/-! ## The sound unit -/

structure Channels.Genuine (c : Channels) : Prop where
  pulse1 : c.pulse1.Genuine
  pulse2 : c.pulse2.Genuine
  triangle : c.triangle.Genuine
  noise : c.noise.Genuine
  dmc : c.dmc.Genuine

namespace Channels.Genuine

variable {c : Channels}

theorem initial : ({} : Channels).Genuine :=
  ⟨Pulse.Genuine.initial, Pulse.Genuine.initial, Triangle.Genuine.initial, Noise.Genuine.initial, Dmc.Genuine.initial⟩

theorem write (h : c.Genuine) (channel : Nat) (reg : Fin 4) (value : UInt8) : (c.write channel reg value).Genuine := by
  unfold Channels.write
  split
  · exact { h with pulse1 := h.pulse1.write reg value }
  · exact { h with pulse2 := h.pulse2.write reg value }
  · exact { h with triangle := h.triangle.write reg value }
  · exact { h with noise := h.noise.write reg value }
  · exact { h with dmc := h.dmc.write reg value }
  · exact h

theorem setEnabled (h : c.Genuine) (value : UInt8) : (c.setEnabled value).Genuine :=
  ⟨h.pulse1.setEnabled _, h.pulse2.setEnabled _, h.triangle.setEnabled _, h.noise.setEnabled _, h.dmc.setEnabled _⟩

theorem update (h : c.Genuine) : c.update.Genuine :=
  ⟨h.pulse1.update, h.pulse2.update, h.triangle.update, h.noise.update, h.dmc⟩

/-- **Genuine channels are accepted, and rebuilt from what was saved of them.** -/
theorem ofStates_save (h : c.Genuine) : ofStates (c.toList.map Channel.save) = .ok c := by
  show (do
    let pulse1 ← pulse? 0 c.pulse1.save
    let pulse2 ← pulse? 1 c.pulse2.save
    let triangle ← triangle? 2 c.triangle.save
    let noise ← noise? 3 c.noise.save
    let dmc ← dmc? 4 c.dmc.save
    return { pulse1, pulse2, triangle, noise, dmc : Channels }) = _
  rw [h.pulse1.pulse?_save, h.pulse2.pulse?_save, h.triangle.triangle?_save, h.noise.noise?_save, h.dmc.dmc?_save]
  rfl

theorem of_ofStates {states : List ChannelState} (h : ofStates states = .ok c) : c.Genuine := by
  obtain ⟨_, _, _, _, _, -, h0, h1, h2, h3, h4⟩ := ofStates_ok h
  exact ⟨.of_pulse? h0, .of_pulse? h1, .of_triangle? h2, .of_noise? h3, .of_dmc? h4⟩

end Channels.Genuine

namespace Apu

variable {apu : Apu}

theorem read_channels (apu : Apu) (address : UInt16) : (apu.read address).2.channels = apu.channels := by
  unfold read
  split <;> rfl

/-- **A register write keeps the channels genuine.** -/
theorem write_genuine (h : apu.channels.Genuine) (address : UInt16) (value : UInt8) :
    (apu.write address value).channels.Genuine := by
  unfold write
  split
  · exact h
  · dsimp only
    split
    · exact h.write _ _ value
    · split
      · exact h.setEnabled value
      · split
        · split <;> exact h
        · exact h

/-- **A tick keeps the channels genuine.** -/
theorem hblank_genuine (h : apu.channels.Genuine) (scanline : UInt16) : (apu.hblank scanline).2.channels.Genuine := by
  have htick : apu.tickDmc.2.channels.Genuine := { h with dmc := h.dmc.hblank }
  unfold hblank
  dsimp only
  split
  · exact htick.update
  · exact htick

theorem load_genuine {apu' : Apu} {state : ApuState} (h : apu.load state = .ok apu') : apu'.channels.Genuine := by
  obtain ⟨_, channels, hc, rfl⟩ := load_ok h
  exact .of_ofStates hc

/-- **What a sound unit saves is accepted by any other**, which becomes the same but for its joypads. -/
theorem load_save (other : Apu) (h : apu.channels.Genuine) :
    other.load apu.save = .ok { apu with pads := other.pads } := by
  unfold load
  rw [dif_pos (show apu.save.regs.size = 32 from apu.registers.bytes.size_toArray)]
  show (Channels.ofStates (apu.channels.toList.map Channel.save) >>= fun channels => pure _) = _
  rw [h.ofStates_save]
  rfl

end Apu
end NesConsole
