import NesConsole.Proofs.Audio.Genuine
import NesConsole.Proofs.Bits
/-!
# What is done with the sound unit

Programs read and write its registers, the console ticks it once per scanline and resets it, and the host says which
buttons are held.  `Apu.read_cases`, `Apu.write_cases` and `Apu.hblank_eq` say all that these can do; what one part of
the unit makes of an action follows from them.  Histories are lists with the latest action first.
-/
namespace NesConsole

inductive AudioAction where
  | read (address : UInt16)
  | write (address : UInt16) (value : UInt8)
  | hblank (scanline : UInt16)
  | press (pad : Nat) (held : Buttons)
  | reset
  deriving DecidableEq

namespace AudioRegisters

theorem index?_eq_some_iff {address : UInt16} {reg : Fin 32} :
    index? address = some reg ↔ address.toNat = 0x4000 + reg := by
  have hreg : reg.val < 32 := reg.isLt
  unfold index?
  split
  · next hrange =>
    have hfirst : 0x4000 ≤ address.toNat := UInt16.le_iff_toNat_le.1 hrange.1
    rw [Option.some.injEq, Fin.ext_iff]
    show address.toNat - 0x4000 = reg.val ↔ _
    omega
  · next houtside =>
    have hfirst : base ≤ address ↔ 0x4000 ≤ address.toNat := UInt16.le_iff_toNat_le
    rw [hfirst, show base.toNat = 0x4000 from rfl] at houtside
    simp only [reduceCtorEq, false_iff]
    omega

/-- A register of its own address. -/
theorem index?_iff {address port : UInt16} {reg other : Fin 32} (h : index? address = some reg)
    (hport : index? port = some other) : address = port ↔ reg = other := by
  rw [← UInt16.toNat_inj, index?_eq_some_iff.1 h, index?_eq_some_iff.1 hport, Fin.ext_iff, Nat.add_left_cancel_iff]

@[simp] theorem get_set (r : AudioRegisters) (reg other : Fin 32) (value : UInt8) :
    (r.set reg value).get other = if reg = other then value else r.get other := by
  simp [get, set, Vector.getElem_set, Fin.ext_iff]

theorem get_initial (reg : Fin 32) : initial.get reg = if reg.val = 0x17 then 0x40 else 0 := by
  revert reg
  decide

theorem padStrobe_eq (r : AudioRegisters) : r.padStrobe = (r.get 0x16).toBitVec.getLsbD 0 :=
  flag_ne 0x01 0 (by decide) rfl _

/-- The byte last stored in a register: the last one written to it, or what a reset or power-on left there since. -/
def lastStored (reg : Nat) : List AudioAction → UInt8
  | [] | .reset :: _ => if reg = 0x17 then 0x40 else 0
  | .write address value :: earlier => if address.toNat = 0x4000 + reg then value else lastStored reg earlier
  | .read _ :: earlier | .hblank _ :: earlier | .press _ _ :: earlier => lastStored reg earlier

end AudioRegisters

/-- Where a program reads a pad. -/
def Joypads.port (pad : Fin 2) : UInt16 := 0x4016 + .ofNat pad

theorem Joypads.port_inj {pad other : Fin 2} : port pad = port other ↔ pad = other := by
  revert pad other
  decide

theorem Joypads.port_ne_status (pad : Fin 2) : port pad ≠ 0x4015 := by
  revert pad
  decide

namespace Apu

def act (apu : Apu) : AudioAction → Apu
  | .read address => (apu.read address).2
  | .write address value => apu.write address value
  | .hblank scanline => (apu.hblank scanline).2
  | .press pad held => apu.press pad held
  | .reset => apu.reset

/-- The unit after a row of actions. -/
def following (apu : Apu) (actions : List AudioAction) : Apu := actions.foldl act apu

/-- A new unit after a history. -/
def after (history : List AudioAction) : Apu := following {} history.reverse

@[simp] theorem after_nil : after [] = {} := rfl

@[simp] theorem after_cons (action : AudioAction) (earlier : List AudioAction) :
    after (action :: earlier) = (after earlier).act action := by
  simp [after, following]

/-! ## Accesses and ticks -/

/-- **What a read can do**: clear the frame flag, shift a pad, or nothing. -/
theorem read_cases (apu : Apu) (address : UInt16) :
    (address = 0x4015 ∧ apu.read address = (apu.status, { apu with frameInterrupt := false })) ∨
    (∃ pad : Fin 2, address = Joypads.port pad ∧
      apu.read address = ((apu.pads.shift pad).1, { apu with pads := (apu.pads.shift pad).2 })) ∨
    (address ≠ 0x4015 ∧ (∀ pad, address ≠ Joypads.port pad) ∧ apu.read address = (0, apu)) := by
  by_cases h15 : address = 0x4015
  · exact .inl ⟨h15, by rw [h15]; rfl⟩
  by_cases h16 : address = 0x4016
  · exact .inr (.inl ⟨0, h16, by rw [h16]; rfl⟩)
  by_cases h17 : address = 0x4017
  · exact .inr (.inl ⟨1, h17, by rw [h17]; rfl⟩)
  have hport : ∀ pad, address ≠ Joypads.port pad := by
    intro pad
    match pad with
    | 0 => exact h16
    | 1 => exact h17
  refine .inr (.inr ⟨h15, hport, ?_⟩)
  unfold read
  split
  · next h => exact absurd ((AudioRegisters.index?_iff h rfl).2 rfl) h15
  · next h => exact absurd ((AudioRegisters.index?_iff h rfl).2 rfl) h16
  · next h => exact absurd ((AudioRegisters.index?_iff h rfl).2 rfl) h17
  · rfl

/-- **What a write can do**: it is stored, and a channel's register is set, the channels are switched, the pads are
strobed, or nothing else happens.  Outside the registers nothing happens at all. -/
theorem write_cases (apu : Apu) (address : UInt16) (value : UInt8) :
    ((∀ reg : Fin 32, address.toNat ≠ 0x4000 + reg) ∧ apu.write address value = apu) ∨
    ∃ reg : Fin 32, address.toNat = 0x4000 + reg ∧
      let stored := { apu with registers := apu.registers.set reg value }
      ((∃ (channel : Fin 5) (i : Fin 4), reg.val = 4 * channel + i ∧
        apu.write address value = { stored with channels := apu.channels.write channel i value }) ∨
      (reg = 0x15 ∧ apu.write address value =
        { stored with dmcInterrupt := false, channels := apu.channels.setEnabled value }) ∨
      (reg = 0x16 ∧ apu.write address value =
        if (apu.registers.get 0x16).toBitVec.getLsbD 0 && !value.toBitVec.getLsbD 0 then
          { stored with pads := apu.pads.latch }
        else stored) ∨
      (0x14 ≤ reg.val ∧ reg ≠ 0x15 ∧ reg ≠ 0x16 ∧ apu.write address value = stored)) := by
  unfold write
  split
  · next h =>
    refine .inl ⟨fun reg hreg => ?_, rfl⟩
    rw [AudioRegisters.index?_eq_some_iff.2 hreg] at h
    cases h
  · next reg h =>
    refine .inr ⟨reg, AudioRegisters.index?_eq_some_iff.1 h, ?_⟩
    dsimp only
    split
    · next hchannel =>
      have hlt : reg.val < 20 := hchannel
      exact .inl ⟨⟨reg.val / 4, by omega⟩, ⟨reg.val % 4, by omega⟩, (Nat.div_add_mod ..).symm, rfl⟩
    · next hchannel =>
      have hge : 20 ≤ reg.val := Nat.le_of_not_lt hchannel
      split
      · next h15 => exact .inr (.inl ⟨h15, rfl⟩)
      · next h15 =>
        split
        · next h16 =>
          refine .inr (.inr (.inl ⟨h16, ?_⟩))
          simp [AudioRegisters.padStrobe_eq, h16]
        · next h16 => exact .inr (.inr (.inr ⟨hge, h15, h16, rfl⟩))

/-- **What a tick does**: samples run out, all channels are updated at the start of vertical blank, and each source that
fires raises its flag. -/
theorem hblank_eq (apu : Apu) (scanline : UInt16) :
    apu.hblank scanline =
      let counted := { apu.channels with dmc := apu.channels.dmc.hblank.2 }
      let requests : AudioRequests :=
        { dmc := apu.channels.dmc.hblank.1
          frame := decide (scanline = 241) && AudioRegisters.frameIrqEnabled (apu.registers.get 0x17) }
      (requests, { apu with
        channels := if scanline = vblankScanline then counted.update else counted
        frameInterrupt := apu.frameInterrupt || requests.frame
        dmcInterrupt := apu.dmcInterrupt || requests.dmc }) := by
  have hcounter : apu.registers.frameCounter = apu.registers.get 0x17 := rfl
  by_cases h : scanline = 241 <;> simp [hblank, vblankScanline, h, tickDmc, tickFrame, hcounter]

/-! ## Registers -/

theorem write_registers (apu : Apu) (address : UInt16) (value : UInt8) (reg : Fin 32) :
    (apu.write address value).registers.get reg =
      if address.toNat = 0x4000 + reg then value else apu.registers.get reg := by
  rcases apu.write_cases address value with ⟨houtside, h⟩ | ⟨written, haddress, h⟩
  · rw [h, if_neg (houtside reg)]
  · have hstored : (apu.write address value).registers = apu.registers.set written value := by
      rcases h with ⟨channel, i, -, h⟩ | ⟨-, h⟩ | ⟨-, h⟩ | ⟨-, -, -, h⟩
      all_goals rw [h]
      split <;> rfl
    rw [hstored, AudioRegisters.get_set, haddress]
    simp only [Fin.ext_iff, Nat.add_left_cancel_iff]

/-- **A register holds the byte last stored in it.** -/
theorem after_registers (history : List AudioAction) (reg : Fin 32) :
    (after history).registers.get reg = AudioRegisters.lastStored reg history := by
  induction history with
  | nil => exact AudioRegisters.get_initial reg
  | cons action earlier ih =>
    rw [after_cons]
    cases action with
    | read address =>
      rcases (after earlier).read_cases address with ⟨-, h⟩ | ⟨pad, -, h⟩ | ⟨-, -, h⟩
      all_goals simp only [act, h, AudioRegisters.lastStored, ih]
    | write address value => simp only [act, write_registers, AudioRegisters.lastStored, ih]
    | hblank scanline => simp only [act, hblank_eq, AudioRegisters.lastStored, ih]
    | press pad held => exact ih
    | reset => exact AudioRegisters.get_initial reg

end Apu
end NesConsole
