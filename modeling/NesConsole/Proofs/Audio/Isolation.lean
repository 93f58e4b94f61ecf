import NesConsole.Proofs.Audio.Histories
/-!
# Channels do not interfere

All five channels hang on one register file, one status register and one tick.  Still each of them sees only its own four
registers, its own bit of the status, the ticks and the resets (`AudioAction.seenBy`), and its state is at all times what
these alone make of it (`Apu.following_get`).  What else is done with the unit, to the other channels or to the pads,
leaves no trace in it (`Apu.following_isolated`).
-/
namespace NesConsole

/-- What reaches a single channel. -/
inductive ChannelEvent where
  | write (reg : Fin 4) (value : UInt8)
  | enable (on : Bool)
  | hblank (scanline : UInt16)
  | reset
  deriving DecidableEq

/-- What a channel sees of an action. -/
def AudioAction.seenBy (channel : Fin 5) : AudioAction → Option ChannelEvent
  | write address value =>
    if h : 0x4000 + 4 * channel.val ≤ address.toNat ∧ address.toNat < 0x4000 + 4 * channel.val + 4 then
      some (.write ⟨address.toNat - (0x4000 + 4 * channel), by omega⟩ value)
    else if address = 0x4015 then
      some (.enable (value.toBitVec.getLsbD channel))
    else
      none
  | hblank scanline => some (.hblank scanline)
  | reset => some .reset
  | read _ | press _ _ => none

namespace AudioAction

variable {channel : Fin 5} {address : UInt16}

theorem seenBy_own {reg : Fin 4} (h : address.toNat = 0x4000 + 4 * channel + reg) (value : UInt8) :
    (write address value).seenBy channel = some (.write reg value) := by
  have hown : 0x4000 + 4 * channel.val ≤ address.toNat ∧ address.toNat < 0x4000 + 4 * channel.val + 4 := by omega
  have hreg : (⟨address.toNat - (0x4000 + 4 * channel), by omega⟩ : Fin 4) = reg := Fin.ext (by dsimp only; omega)
  rw [seenBy, dif_pos hown, hreg]

theorem seenBy_status (channel : Fin 5) (value : UInt8) :
    (write 0x4015 value).seenBy channel = some (.enable (value.toBitVec.getLsbD channel)) := by
  have hother : ¬(0x4000 + 4 * channel.val ≤ 0x4015 ∧ 0x4015 < 0x4000 + 4 * channel.val + 4) := by omega
  exact dif_neg hother

theorem seenBy_other (hown : ∀ reg : Fin 4, address.toNat ≠ 0x4000 + 4 * channel + reg)
    (hstatus : address.toNat ≠ 0x4015) (value : UInt8) : (write address value).seenBy channel = none := by
  have hout : ¬(0x4000 + 4 * channel.val ≤ address.toNat ∧ address.toNat < 0x4000 + 4 * channel.val + 4) := by
    intro hin
    exact hown ⟨address.toNat - (0x4000 + 4 * channel), by omega⟩ (by dsimp only; omega)
  rw [seenBy, dif_neg hout, if_neg fun h => hstatus (congrArg UInt16.toNat h)]

end AudioAction

namespace Channel

/-- Samples run out line by line. -/
def countDown : Channel → Channel
  | dmc c => dmc c.hblank.2
  | pulse c => pulse c
  | triangle c => triangle c
  | noise c => noise c

def respond (c : Channel) : ChannelEvent → Channel
  | .write reg value => c.write reg value
  | .enable on => c.setEnabled on
  | .hblank scanline => if scanline = Apu.vblankScanline then c.countDown.update else c.countDown
  | .reset => c.reset

end Channel

namespace Channels

def get (c : Channels) : Fin 5 → Channel
  | 0 => .pulse c.pulse1
  | 1 => .pulse c.pulse2
  | 2 => .triangle c.triangle
  | 3 => .noise c.noise
  | 4 => .dmc c.dmc

theorem get_write (c : Channels) (written channel : Fin 5) (reg : Fin 4) (value : UInt8) :
    (c.write written reg value).get channel =
      if written = channel then (c.get channel).write reg value else c.get channel := by
  match written with
  | 0 | 1 | 2 | 3 | 4 =>
    match channel with
    | 0 | 1 | 2 | 3 | 4 => rfl

theorem get_setEnabled (c : Channels) (value : UInt8) (channel : Fin 5) :
    (c.setEnabled value).get channel = (c.get channel).setEnabled (value.toBitVec.getLsbD channel) := by
  have hbit := flag_ne (1 <<< UInt8.ofNat channel) channel (by omega) rfl value
  rw [← hbit]
  match channel with
  | 0 | 1 | 2 | 3 | 4 => rfl

/-- A genuine channel is told by what a snapshot holds of it. -/
theorem Genuine.ofState_save {c : Channels} (h : c.Genuine) (channel : Fin 5) :
    Channel.ofState (c.get channel).save = c.get channel := by
  match channel with
  | 0 => exact congrArg Channel.pulse h.pulse1.restore
  | 1 => exact congrArg Channel.pulse h.pulse2.restore
  | 2 =>
    have hhalted : c.triangle.length.halted = c.triangle.regs.triangleHalt := h.triangle
    simp only [get, Channel.save, Triangle.save, Channel.ofState, Triangle.restore, ← hhalted]
  | 3 =>
    have hhalted : c.noise.length.halted = c.noise.regs.halt := h.noise
    simp only [get, Channel.save, Noise.save, Channel.ofState, Noise.restore, ← hhalted]
  | 4 => rfl

end Channels

namespace Apu

/-! ## One action -/

theorem write_get (apu : Apu) (address : UInt16) (value : UInt8) (channel : Fin 5) :
    (apu.write address value).channels.get channel =
      ((AudioAction.write address value).seenBy channel).elim (apu.channels.get channel)
        (apu.channels.get channel).respond := by
  rcases apu.write_cases address value with
    ⟨houtside, h⟩ | ⟨reg, haddress, ⟨written, i, hi, h⟩ | ⟨h15, h⟩ | ⟨h16, h⟩ | ⟨hlast, h15, -, h⟩⟩
  · have hunseen : (AudioAction.write address value).seenBy channel = none :=
      AudioAction.seenBy_other (fun i hi => houtside ⟨4 * channel + i, by omega⟩ (by dsimp only; omega))
        (fun h15 => houtside 0x15 h15) value
    rw [h, hunseen, Option.elim_none]
  · rw [h, Channels.get_write]
    by_cases hsame : written = channel
    · subst hsame
      have hown : address.toNat = 0x4000 + 4 * written + i := by omega
      rw [if_pos rfl, AudioAction.seenBy_own hown, Option.elim_some]
      rfl
    · have hdiffer : written.val ≠ channel.val := fun hval => hsame (Fin.ext hval)
      rw [if_neg hsame, AudioAction.seenBy_other (fun j => by omega) (by omega), Option.elim_none]
  · obtain rfl : address = 0x4015 := UInt16.toNat_inj.1 (by rw [haddress, h15]; rfl)
    rw [h, AudioAction.seenBy_status, Option.elim_some, Channels.get_setEnabled]
    rfl
  · have hreg : reg.val = 0x16 := congrArg Fin.val h16
    have hkept : (apu.write address value).channels = apu.channels := by
      rw [h]
      split <;> rfl
    rw [hkept, AudioAction.seenBy_other (fun j => by omega) (by omega), Option.elim_none]
  · have hreg : reg.val ≠ 0x15 := fun hval => h15 (Fin.ext hval)
    rw [h, AudioAction.seenBy_other (fun j => by omega) (by omega), Option.elim_none]

theorem hblank_get (apu : Apu) (scanline : UInt16) (channel : Fin 5) :
    (apu.hblank scanline).2.channels.get channel = (apu.channels.get channel).respond (.hblank scanline) := by
  rw [hblank_eq]
  unfold Channel.respond
  dsimp only
  split
  · match channel with
    | 0 | 1 | 2 | 3 | 4 => rfl
  · match channel with
    | 0 | 1 | 2 | 3 | 4 => rfl

theorem reset_get (apu : Apu) (channel : Fin 5) :
    apu.reset.channels.get channel = (apu.channels.get channel).reset := by
  match channel with
  | 0 | 1 | 2 | 3 | 4 => rfl

/-- **What an action makes of a channel** is what the channel makes of the part it sees. -/
theorem act_get (apu : Apu) (action : AudioAction) (channel : Fin 5) :
    (apu.act action).channels.get channel =
      (action.seenBy channel).elim (apu.channels.get channel) (apu.channels.get channel).respond := by
  cases action with
  | read address =>
    rw [act, apu.read_channels]
    rfl
  | write address value => exact apu.write_get address value channel
  | hblank scanline => exact apu.hblank_get scanline channel
  | press pad held => rfl
  | reset => exact apu.reset_get channel

/-! ## Rows of actions -/

/-- **A channel's state follows from what it has seen.** -/
theorem following_get (apu : Apu) (actions : List AudioAction) (channel : Fin 5) :
    (apu.following actions).channels.get channel =
      (actions.filterMap (·.seenBy channel)).foldl Channel.respond (apu.channels.get channel) := by
  induction actions generalizing apu with
  | nil => rfl
  | cons action actions ih =>
    rw [following, List.foldl_cons, ← following, ih, act_get]
    cases hseen : action.seenBy channel with
    | none => rw [List.filterMap_cons_none hseen, Option.elim_none]
    | some event => rw [List.filterMap_cons_some hseen, Option.elim_some, List.foldl_cons]

/-- **Channels do not interfere**: where a channel of two units starts out the same and sees the same, it ends up the same,
whatever else is done with either of them.  Genuine units may be compared by what a snapshot holds of the channel. -/
theorem following_isolated {channel : Fin 5} {apu other : Apu} {actions others : List AudioAction}
    (hseen : actions.filterMap (·.seenBy channel) = others.filterMap (·.seenBy channel))
    (hstart : apu.channels.get channel = other.channels.get channel ∨
      apu.channels.Genuine ∧ other.channels.Genuine ∧
        (apu.channels.get channel).save = (other.channels.get channel).save) :
    (apu.following actions).channels.get channel = (other.following others).channels.get channel := by
  have hsame : apu.channels.get channel = other.channels.get channel := by
    rcases hstart with hsame | ⟨hgenuine, hother, hsaved⟩
    · exact hsame
    · rw [← hgenuine.ofState_save channel, hsaved, hother.ofState_save]
  rw [following_get, following_get, hseen, hsame]

/-- A sample that is played while another channel, the frame counter and a pad are busy. -/
theorem following_isolated_dmc :
    let other : Apu := following {} [.write 0x4008 0x7F]
    let actions : List AudioAction := [.write 0x4013 0x01, .write 0x4015 0x10, .hblank 0, .read 0x4015]
    let others : List AudioAction :=
      [.write 0x4000 0xFF, .write 0x4013 0x01, .write 0x4017 0, .press 0 1, .write 0x4015 0x1F, .hblank 0]
    actions.filterMap (·.seenBy 4) = [.write 3 0x01, .enable true, .hblank 0] ∧
      (following {} actions).channels.get 4 = (other.following others).channels.get 4 ∧
      (following {} actions).channels.get 0 ≠ (other.following others).channels.get 0 :=
  ⟨by decide, following_isolated (by decide) (.inl (by decide)), by decide⟩

end Apu
end NesConsole
