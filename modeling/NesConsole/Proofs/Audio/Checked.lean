import NesConsole.Proofs.Audio.Genuine
import NesConsole.Proofs.Checked
/-!
# The sound unit's arithmetic is exact

The operations of the sound unit that count, look up or divide, each with its checks.  On genuine channels no check ever
fails, and the checked operation is the operation itself: the ranges that registers and ticks keep the counters in leave
every intermediate sum inside its word.
-/
namespace NesConsole

/-! ## Counters -/

namespace Envelope

def nextDecay? (e : Envelope) : Option UInt8 :=
  if 0 < e.decay then Checked.subByte e.decay 1 else some (if e.loops then 15 else e.decay)

def clock? (e : Envelope) : Option Envelope :=
  if e.constant then
    some e
  else if e.restarting then
    some { e with restarting := false }.reload
  else do
    let divider ← Checked.subSigned e.divider dividerStep
    if divider ≤ 0 then
      let reloaded ← Checked.addSigned divider (Int16.ofNat e.period.toNat)
      let decay ← e.nextDecay?
      return { e with divider := max reloaded (-dividerStep), decay }
    else
      return { e with divider }

theorem nextDecay?_eq (e : Envelope) : e.nextDecay? = some e.nextDecay := by
  unfold nextDecay? nextDecay
  split
  · next hpos =>
    have hone : (1 : UInt8).toNat ≤ e.decay.toNat := UInt8.lt_iff_toNat_lt.1 hpos
    exact if_pos (UInt8.le_iff_toNat_le.2 hone)
  · split <;> rfl

/-- **An envelope's clock is exact.** -/
theorem Genuine.clock?_eq {e : Envelope} {value : UInt8} (h : e.Genuine value) : e.clock? = some e.clock := by
  unfold clock? Envelope.clock
  split
  · rfl
  · split
    · rfl
    · have hd := dividerRange_iff.1 h.divider
      have hp := h.toInt_period
      have hstep : dividerStep.toInt = 4 := rfl
      have hless : Checked.subSigned e.divider dividerStep = some (e.divider - dividerStep) :=
        if_pos ⟨by omega, by omega⟩
      have hdivider : (e.divider - dividerStep).toInt = e.divider.toInt - 4 :=
        Int16.toInt_sub_small (by omega) (by decide)
      have hmore : Checked.addSigned (e.divider - dividerStep) (Int16.ofNat e.period.toNat) =
          some (e.divider - dividerStep + Int16.ofNat e.period.toNat) :=
        if_pos ⟨by omega, by omega⟩
      simp only [hless, hmore, nextDecay?_eq, Option.bind_eq_bind, Option.bind_some]
      split <;> rfl

end Envelope

namespace Sweep

def target? (s : Sweep) (timer : UInt16) : Option UInt16 := do
  let change ← Checked.shiftWord timer s.shift
  return if s.negate then timer - change else timer + change

def clock? (s : Sweep) (timer : UInt16) : Option Clocked :=
  if !s.enabled then
    some { silenced := false, timer, sweep := s }
  else do
    let counter ← Checked.addSigned s.counter sequencesPerFrame
    if counter < s.periodCount then
      return { silenced := false, timer, sweep := { s with counter } }
    else
      let left ← Checked.subSigned counter s.periodCount
      let left ← Checked.subSigned left sequencesPerFrame
      let sweep := { s with counter := left }
      if s.shift = 0 then
        return { silenced := false, timer, sweep }
      else
        let target ← s.target? timer
        return { silenced := s.silences target, timer := target &&& 0x7FF, sweep }

theorem Genuine.target?_eq {s : Sweep} {value : UInt8} (h : s.Genuine value) (timer : UInt16) :
    s.target? timer = some (s.target timer) := by
  have hshift : s.shift < 16 := by
    rw [h.shift, UInt8.lt_iff_toNat_lt, UInt8.toNat_and]
    exact Nat.lt_of_le_of_lt Nat.and_le_right (by decide)
  rw [target?, Checked.shiftWord, if_pos hshift]
  rfl

/-- **A sweep's clock is exact.** -/
theorem Genuine.clock?_eq {s : Sweep} {value : UInt8} (h : s.Genuine value) (timer : UInt16) :
    s.clock? timer = some (s.clock timer) := by
  have hc := counterRange_iff.1 h.counter
  have hp := h.toInt_periodCount
  have htwo : sequencesPerFrame.toInt = 2 := rfl
  have hsum := h.toInt_advanced
  have hrest := h.toInt_reached
  have hmore : Checked.addSigned s.counter sequencesPerFrame = some (s.counter + sequencesPerFrame) :=
    if_pos ⟨by omega, by omega⟩
  have hless : Checked.subSigned (s.counter + sequencesPerFrame) s.periodCount =
      some (s.counter + sequencesPerFrame - s.periodCount) :=
    if_pos ⟨by omega, by omega⟩
  have hleft : Checked.subSigned (s.counter + sequencesPerFrame - s.periodCount) sequencesPerFrame =
      some (s.counter + sequencesPerFrame - s.periodCount - sequencesPerFrame) :=
    if_pos ⟨by omega, by omega⟩
  unfold clock? Sweep.clock
  split
  · rfl
  · simp only [hmore, hless, hleft, h.target?_eq timer, Option.bind_eq_bind, Option.bind_some]
    split
    · rfl
    · split <;> rfl

end Sweep

namespace LengthCounter

def loadIndex? (c : LengthCounter) (index : UInt8) : Option LengthCounter := do
  let length ← table[(index &&& 0x1F).toNat]?
  return c.load length

/-- A masked index lies in the table. -/
theorem loadIndex?_eq (c : LengthCounter) (index : UInt8) : c.loadIndex? index = some (c.loadIndex index) := by
  have hmask : (index &&& 0x1F).toNat = index.toNat % 32 := Checked.toNat_masked _ 5 rfl
  have hbound : index.toNat % 32 < 32 := Nat.mod_lt _ (by decide)
  rw [loadIndex?, hmask, Vector.getElem?_eq_getElem hbound]
  rfl

end LengthCounter

/-! ## Channels -/

def ChannelRegisters.noisePeriod? (regs : ChannelRegisters) : Option Nat := do
  let selector ← regs[2]?
  noisePeriods[(selector &&& 0x0F).toNat]?

theorem ChannelRegisters.noisePeriod?_eq (regs : ChannelRegisters) : regs.noisePeriod? = some regs.noisePeriod := by
  have hmask : (regs[2] &&& 0x0F).toNat = regs[2].toNat % 16 := Checked.toNat_masked _ 4 rfl
  have hbound : regs[2].toNat % 16 < 16 := Nat.mod_lt _ (by decide)
  rw [noisePeriod?, Vector.getElem?_eq_getElem (show 2 < 4 by decide), Option.bind_eq_bind, Option.bind_some, hmask,
    Vector.getElem?_eq_getElem hbound]
  rfl

namespace Pulse

/-- The duty of a wave by the top two bits of the first register. -/
def duties : Vector Float32 4 := #v[0.125, 0.25, 0.5, -0.25]

def write? (c : Pulse) (reg : Fin 4) (value : UInt8) : Option Pulse :=
  if reg.val = 3 then do
    let length ← c.length.loadIndex? (value >>> 3)
    return { c.write reg value with length }
  else
    some (c.write reg value)

def update? (c : Pulse) : Option Pulse :=
  if c.stopped then
    some c
  else do
    let (exhausted, length) := c.length.clock lengthStep
    let envelope ← c.envelope.clock?
    let swept ← c.sweep.clock? c.timer
    return { regs := c.regs.setTimer swept.timer, stopped := exhausted || swept.silenced, length, envelope
             sweep := swept.sweep }

def frequency? (c : Pulse) : Option Nat := Checked.div (processorClock / 16) (c.timer.toNat + 1)

def duty? (c : Pulse) : Option Float32 := duties[(c.regs.control >>> 6 &&& 3).toNat]?

theorem write?_eq (c : Pulse) (reg : Fin 4) (value : UInt8) : c.write? reg value = some (c.write reg value) := by
  unfold write?
  split
  · next hreg =>
    obtain rfl : reg = 3 := Fin.ext hreg
    rw [LengthCounter.loadIndex?_eq]
    rfl
  · rfl

theorem Genuine.update?_eq {c : Pulse} (h : c.Genuine) : c.update? = some c.update := by
  unfold update? Pulse.update
  split
  · rfl
  · rw [h.envelope.clock?_eq, h.sweep.clock?_eq]
    rfl

theorem frequency?_eq (c : Pulse) : c.frequency? = some c.frequency := Checked.div_succ _ _

theorem duty?_eq (c : Pulse) : c.duty? = some c.duty := by
  have htop : ∀ n : Fin 256, UInt8.ofFin n >>> 6 = 0 ∨ UInt8.ofFin n >>> 6 = 1 ∨ UInt8.ofFin n >>> 6 = 2 ∨
      UInt8.ofFin n >>> 6 = 3 := by decide +kernel
  unfold duty? duty
  obtain h | h | h | h := htop c.regs.control.toFin <;>
    · rw [show c.regs.control >>> 6 = _ from h]
      rfl

end Pulse

namespace Triangle

def frequency? (c : Triangle) : Option Nat := Checked.div (processorClock / 32) (c.regs.timer.toNat + 1)

theorem frequency?_eq (c : Triangle) : c.frequency? = some c.frequency := Checked.div_succ _ _

end Triangle

namespace Noise

def write? (c : Noise) (reg : Fin 4) (value : UInt8) : Option Noise :=
  if reg.val = 3 then do
    let length ← c.length.loadIndex? (value >>> 3)
    return { c.write reg value with length }
  else
    some (c.write reg value)

theorem write?_eq (c : Noise) (reg : Fin 4) (value : UInt8) : c.write? reg value = some (c.write reg value) := by
  unfold write?
  split
  · next hreg =>
    obtain rfl : reg = 3 := Fin.ext hreg
    rw [LengthCounter.loadIndex?_eq]
    rfl
  · rfl

end Noise

namespace Dmc

def hblank? (c : Dmc) : Option (Bool × Dmc) :=
  if c.stopped then some (false, c)
  else if c.dmaLength ≠ 0 then do
    let dmaLength ← Checked.subWord c.dmaLength 1
    return (false, { c with dmaLength })
  else if c.loopBit then some (false, { c with dmaLength := c.sampleLength })
  else some (c.irqBit, { c with stopped := true })

theorem hblank?_eq (c : Dmc) : c.hblank? = some c.hblank := by
  unfold hblank? hblank
  split
  · rfl
  · split
    · next hne =>
      have hpos : 1 ≤ c.dmaLength :=
        UInt16.le_iff_toNat_le.2 (Nat.pos_of_ne_zero fun h0 => hne (UInt16.toNat_inj.1 h0))
      rw [Checked.subWord, if_pos hpos]
      rfl
    · split <;> rfl

end Dmc

namespace Channel

def frequency? : Channel → Option Nat
  | pulse c => c.frequency?
  | triangle c => c.frequency?
  | noise c => c.regs.noisePeriod?
  | dmc c => c.regs.noisePeriod?

def duty? : Channel → Option Float32
  | pulse c => c.duty?
  | triangle _ | noise _ | dmc _ => some 0.5

theorem frequency?_eq (channel : Channel) : channel.frequency? = some channel.frequency := by
  cases channel with
  | pulse c => exact c.frequency?_eq
  | triangle c => exact c.frequency?_eq
  | noise c => exact c.regs.noisePeriod?_eq
  | dmc c => exact c.regs.noisePeriod?_eq

theorem duty?_eq (channel : Channel) : channel.duty? = some channel.duty := by
  cases channel with
  | pulse c => exact c.duty?_eq
  | triangle | noise | dmc => rfl

end Channel

namespace Channels

def write? (c : Channels) (channel : Nat) (reg : Fin 4) (value : UInt8) : Option Channels :=
  match channel with
  | 0 => do return { c with pulse1 := ← c.pulse1.write? reg value }
  | 1 => do return { c with pulse2 := ← c.pulse2.write? reg value }
  | 3 => do return { c with noise := ← c.noise.write? reg value }
  | _ => some (c.write channel reg value)

def update? (c : Channels) : Option Channels := do
  let pulse1 ← c.pulse1.update?
  let pulse2 ← c.pulse2.update?
  return { c.update with pulse1, pulse2 }

theorem write?_eq (c : Channels) (channel : Nat) (reg : Fin 4) (value : UInt8) :
    c.write? channel reg value = some (c.write channel reg value) := by
  unfold write?
  split
  · rw [Pulse.write?_eq]
    rfl
  · rw [Pulse.write?_eq]
    rfl
  · rw [Noise.write?_eq]
    rfl
  · rfl

theorem Genuine.update?_eq {c : Channels} (h : c.Genuine) : c.update? = some c.update := by
  rw [update?, h.pulse1.update?_eq, h.pulse2.update?_eq]
  rfl

end Channels

/-! ## The sound unit -/

namespace Apu

/-- A channel has four registers. -/
theorem channelRegister_lt (reg : Fin 32) : reg.val % 4 < 4 := Nat.mod_lt _ (by decide)

def write? (apu : Apu) (address : UInt16) (value : UInt8) : Option Apu :=
  match AudioRegisters.index? address with
  | none => some apu
  | some reg =>
    if reg.val < 0x14 then do
      let channels ← apu.channels.write? (reg.val / 4) ⟨reg.val % 4, channelRegister_lt reg⟩ value
      return { apu with registers := apu.registers.set reg value, channels }
    else
      some (apu.write address value)

def tickDmc? (apu : Apu) : Option (Bool × Apu) := do
  let (fired, dmc) ← apu.channels.dmc.hblank?
  return (fired, { apu with channels := { apu.channels with dmc }, dmcInterrupt := apu.dmcInterrupt || fired })

def tickFrame? (apu : Apu) : Option (Bool × Apu) := do
  let fired := AudioRegisters.frameIrqEnabled apu.registers.frameCounter
  let channels ← apu.channels.update?
  return (fired, { apu with channels, frameInterrupt := apu.frameInterrupt || fired })

def hblank? (apu : Apu) (scanline : UInt16) : Option (AudioRequests × Apu) := do
  let (dmc, apu) ← apu.tickDmc?
  if scanline = vblankScanline then
    let (frame, apu) ← apu.tickFrame?
    return ({ dmc, frame }, apu)
  else
    return ({ dmc }, apu)

def frequency? (apu : Apu) (channel : Nat) : Option Nat :=
  (apu.channels.get? channel).elim (some 0) Channel.frequency?

def duty? (apu : Apu) (channel : Nat) : Option Float32 :=
  (apu.channels.get? channel).elim (some 0.5) Channel.duty?

/-- **A write to the sound registers is exact.** -/
theorem write?_eq (apu : Apu) (address : UInt16) (value : UInt8) :
    apu.write? address value = some (apu.write address value) := by
  unfold write?
  split
  · next hindex =>
    unfold write
    rw [hindex]
  · next reg hindex =>
    split
    · next hreg =>
      unfold write
      rw [Channels.write?_eq, hindex]
      dsimp only
      rw [if_pos (show reg < 0x14 from hreg)]
      rfl
    · rfl

theorem tickDmc?_eq (apu : Apu) : apu.tickDmc? = some apu.tickDmc := by
  rw [tickDmc?, Dmc.hblank?_eq]
  rfl

theorem tickFrame?_eq {apu : Apu} (h : apu.channels.Genuine) : apu.tickFrame? = some apu.tickFrame := by
  rw [tickFrame?, h.update?_eq]
  rfl

/-- **A tick of the sound unit is exact** on genuine channels. -/
theorem hblank?_eq {apu : Apu} (h : apu.channels.Genuine) (scanline : UInt16) :
    apu.hblank? scanline = some (apu.hblank scanline) := by
  have hticked : apu.tickDmc.2.channels.Genuine := { h with dmc := h.dmc.hblank }
  unfold hblank? hblank
  rw [tickDmc?_eq]
  simp only [Option.bind_eq_bind, Option.bind_some]
  split
  · rw [tickFrame?_eq hticked]
    rfl
  · rfl

theorem frequency?_eq (apu : Apu) (channel : Nat) : apu.frequency? channel = some (apu.frequency channel) := by
  unfold frequency? frequency
  cases apu.channels.get? channel with
  | none => rfl
  | some c => exact c.frequency?_eq

theorem duty?_eq (apu : Apu) (channel : Nat) : apu.duty? channel = some (apu.duty channel) := by
  unfold duty? duty
  cases apu.channels.get? channel with
  | none => rfl
  | some c => exact c.duty?_eq

end Apu
end NesConsole
