import NesConsole.Proofs.Audio.Histories
/-!
# Interrupt flags

The sound unit has two sources of interrupts, the frame counter and the sample channel, and a flag for each.  A source
asks for an interrupt in the very tick in which it fires, whatever its flag says, and the flag stays up until a program
or a reset clears it (`Apu.after_interrupts`).  A flag is thus up exactly as long as one of its events is outstanding in
the history.  Reading the status clears the frame flag, writing it the other one.
-/
namespace NesConsole

/-! ## Outstanding events -/

/-- An event has happened and nothing has cleared it since. -/
def Outstanding (raises : List AudioAction → AudioAction → Prop) (clears : AudioAction → Prop)
    (history : List AudioAction) : Prop :=
  ∃ later event earlier, history = later ++ event :: earlier ∧ raises earlier event ∧ ∀ other ∈ later, ¬clears other

section Outstanding

variable {raises : List AudioAction → AudioAction → Prop} {clears : AudioAction → Prop}

theorem not_outstanding_nil : ¬Outstanding raises clears [] := by
  rintro ⟨later, event, earlier, hsplit, -, -⟩
  cases later <;> cases hsplit

theorem outstanding_cons {action : AudioAction} {earlier : List AudioAction} :
    Outstanding raises clears (action :: earlier) ↔
      raises earlier action ∨ (¬clears action ∧ Outstanding raises clears earlier) := by
  constructor
  · rintro ⟨later, event, before, hsplit, hraises, hlater⟩
    cases later with
    | nil =>
      obtain ⟨rfl, rfl⟩ := List.cons.inj hsplit
      exact .inl hraises
    | cons latest later =>
      obtain ⟨rfl, rfl⟩ := List.cons.inj hsplit
      obtain ⟨hlatest, hrest⟩ := List.forall_mem_cons.1 hlater
      exact .inr ⟨hlatest, later, event, before, rfl, hraises, hrest⟩
  · rintro (hraises | ⟨hkept, later, event, before, rfl, hraises, hlater⟩)
    · exact ⟨[], action, earlier, rfl, hraises, fun other hother => by cases hother⟩
    · exact ⟨action :: later, event, before, rfl, hraises, List.forall_mem_cons.2 ⟨hkept, hlater⟩⟩

end Outstanding

/-! ## What the sources fire at -/

namespace AudioAction

open AudioRegisters (lastStored)

/-- A tick at the start of vertical blank with both top bits of `$4017` clear. -/
def FiresFrame (earlier : List AudioAction) (action : AudioAction) : Prop :=
  action = hblank 241 ∧ (lastStored 0x17 earlier).toBitVec.getLsbD 7 = false ∧
    (lastStored 0x17 earlier).toBitVec.getLsbD 6 = false

/-- A tick at which a sample that is not to be repeated runs out and stops, with bit 7 of `$4010` set. -/
def FiresSample (earlier : List AudioAction) (action : AudioAction) : Prop :=
  let dmc := (Apu.after earlier).channels.dmc
  (∃ scanline, action = hblank scanline) ∧ dmc.stopped = false ∧ dmc.dmaLength = 0 ∧
    (lastStored 0x10 earlier).toBitVec.getLsbD 6 = false ∧ (lastStored 0x10 earlier).toBitVec.getLsbD 7 = true ∧
    (Apu.after (action :: earlier)).channels.dmc.stopped = true

def ClearsFrame (action : AudioAction) : Prop := action = read 0x4015 ∨ action = reset

def ClearsSample (action : AudioAction) : Prop := (∃ value, action = write 0x4015 value) ∨ action = reset

end AudioAction

/-! ## What decides about an event -/

theorem AudioRegisters.frameIrqEnabled_eq (value : UInt8) :
    frameIrqEnabled value = (!value.toBitVec.getLsbD 7 && !value.toBitVec.getLsbD 6) := by
  have h : ∀ n : Fin 256, frameIrqEnabled (.ofFin n) =
      (!(UInt8.ofFin n).toBitVec.getLsbD 7 && !(UInt8.ofFin n).toBitVec.getLsbD 6) := by decide +kernel
  exact h value.toFin

namespace Dmc

/-- A tick fires when it finds the sample at its end. -/
theorem hblank_fires (c : Dmc) :
    c.hblank.1 = true ↔ c.stopped = false ∧ c.dmaLength = 0 ∧ c.loopBit = false ∧ c.irqBit = true := by
  unfold hblank
  cases hstopped : c.stopped with
  | true => simp
  | false =>
    by_cases hlength : c.dmaLength = 0
    · cases hloop : c.loopBit with
      | true => simp [hlength]
      | false => simp [hlength]
    · simp [hlength]

theorem hblank_regs (c : Dmc) : c.hblank.2.regs = c.regs := by
  unfold hblank
  repeat' split
  all_goals rfl

theorem setEnabled_regs (c : Dmc) (enabled : Bool) : (c.setEnabled enabled).regs = c.regs := by
  cases enabled <;> rfl

theorem write_control (c : Dmc) (reg : Fin 4) (value : UInt8) :
    (c.write reg value).regs.control = if reg = 0 then value else c.regs.control := by
  have hregs : (c.write reg value).regs = c.regs.set reg value := by
    unfold write
    dsimp only
    split <;> rfl
  rw [hregs, ChannelRegisters.control, Vector.getElem_set]
  simp only [ChannelRegisters.control, Fin.ext_iff, Fin.val_zero]

theorem hblank_stops {c : Dmc} (h : c.hblank.1 = true) : c.hblank.2.stopped = true := by
  obtain ⟨hstopped, hlength, hloop, -⟩ := c.hblank_fires.1 h
  simp [hblank, hstopped, hlength, hloop]

end Dmc

namespace Apu

/-- The interrupts that an action asks for. -/
def requests (apu : Apu) : AudioAction → AudioRequests
  | .hblank scanline => (apu.hblank scanline).1
  | .read _ | .write _ _ | .press _ _ | .reset => {}

/-! ## The sample channel -/

theorem write_control (apu : Apu) (address : UInt16) (value : UInt8) :
    (apu.write address value).channels.dmc.regs.control =
      if address.toNat = 0x4010 then value else apu.channels.dmc.regs.control := by
  rcases apu.write_cases address value with ⟨houtside, h⟩ | ⟨reg, haddress, h⟩
  · rw [h]
    exact (if_neg (houtside 0x10)).symm
  rcases h with ⟨channel, i, hreg, h⟩ | ⟨h15, h⟩ | ⟨h16, h⟩ | ⟨hlast, -, -, h⟩
  · rw [h]
    match channel with
    | 0 | 1 | 2 | 3 =>
      have hother : address.toNat ≠ 0x4010 := by omega
      exact (if_neg hother).symm
    | 4 =>
      have hcontrol : i = 0 ↔ address.toNat = 0x4010 := by omega
      refine (Dmc.write_control ..).trans ?_
      simp only [hcontrol]
  · rw [h, if_neg (by rw [haddress, h15]; decide)]
    exact congrArg ChannelRegisters.control (Dmc.setEnabled_regs ..)
  · have hkept : (apu.write address value).channels = apu.channels := by
      rw [h]
      split <;> rfl
    rw [hkept, if_neg (by rw [haddress, h16]; decide)]
  · rw [h, if_neg (by omega)]

theorem hblank_dmc (apu : Apu) (scanline : UInt16) :
    (apu.hblank scanline).2.channels.dmc = apu.channels.dmc.hblank.2 := by
  rw [hblank_eq]
  dsimp only
  split <;> rfl

/-- The sample channel goes by the byte last stored in `$4010`. -/
theorem after_control (history : List AudioAction) :
    (after history).channels.dmc.regs.control = AudioRegisters.lastStored 0x10 history := by
  induction history with
  | nil => rfl
  | cons action earlier ih =>
    rw [after_cons]
    cases action with
    | read address =>
      rw [act, read_channels]
      exact ih
    | write address value =>
      rw [act, write_control, ih]
      rfl
    | hblank scanline =>
      rw [act, hblank_dmc, Dmc.hblank_regs]
      exact ih
    | press pad held => exact ih
    | reset => rfl

/-! ## What an action does to the flags -/

theorem read_flags (apu : Apu) (address : UInt16) :
    (apu.read address).2.frameInterrupt = (apu.frameInterrupt && decide (address ≠ 0x4015)) ∧
      (apu.read address).2.dmcInterrupt = apu.dmcInterrupt := by
  rcases apu.read_cases address with ⟨rfl, h⟩ | ⟨pad, rfl, h⟩ | ⟨hstatus, -, h⟩
  · simp [h]
  · simp [h, Joypads.port_ne_status]
  · simp [h, hstatus]

theorem write_flags (apu : Apu) (address : UInt16) (value : UInt8) :
    (apu.write address value).frameInterrupt = apu.frameInterrupt ∧
      (apu.write address value).dmcInterrupt = (apu.dmcInterrupt && decide (address ≠ 0x4015)) := by
  rcases apu.write_cases address value with ⟨houtside, h⟩ | ⟨reg, haddress, h⟩
  · have hstatus : address ≠ 0x4015 := fun heq => houtside 0x15 (congrArg UInt16.toNat heq)
    simp [h, hstatus]
  have hstatus : address = 0x4015 ↔ reg = 0x15 :=
    AudioRegisters.index?_iff (AudioRegisters.index?_eq_some_iff.2 haddress) rfl
  simp only [ne_eq, hstatus]
  rcases h with ⟨channel, i, hreg, h⟩ | ⟨h15, h⟩ | ⟨h16, h⟩ | ⟨-, h15, -, h⟩
  · have hother : reg ≠ 0x15 := by omega
    simp [h, hother]
  · simp [h, h15]
  · rw [h, h16]
    split <;> simp
  · simp [h, h15]

/-- An event and a clearing action never come together, so their order within an action does not matter. -/
theorem act_frameInterrupt (apu : Apu) (action : AudioAction) :
    (apu.act action).frameInterrupt = true ↔
      (apu.requests action).frame = true ∨ (¬action.ClearsFrame ∧ apu.frameInterrupt = true) := by
  cases action with
  | read address => simp [act, requests, AudioAction.ClearsFrame, (apu.read_flags address).1, and_comm]
  | write address value => simp [act, requests, AudioAction.ClearsFrame, (apu.write_flags address value).1]
  | hblank scanline => simp [act, requests, AudioAction.ClearsFrame, hblank_eq, or_comm]
  | press pad held => simp [act, requests, AudioAction.ClearsFrame, press]
  | reset => simp [act, requests, AudioAction.ClearsFrame, reset]

theorem act_dmcInterrupt (apu : Apu) (action : AudioAction) :
    (apu.act action).dmcInterrupt = true ↔
      (apu.requests action).dmc = true ∨ (¬action.ClearsSample ∧ apu.dmcInterrupt = true) := by
  cases action with
  | read address => simp [act, requests, AudioAction.ClearsSample, (apu.read_flags address).2]
  | write address value => simp [act, requests, AudioAction.ClearsSample, (apu.write_flags address value).2, and_comm]
  | hblank scanline => simp [act, requests, AudioAction.ClearsSample, hblank_eq, or_comm]
  | press pad held => simp [act, requests, AudioAction.ClearsSample, press]
  | reset => simp [act, requests, AudioAction.ClearsSample, reset]

/-! ## Requests -/

open AudioRegisters (lastStored)

theorem requests_frame (history : List AudioAction) (action : AudioAction) :
    ((after history).requests action).frame = true ↔ action.FiresFrame history := by
  cases action with
  | hblank scanline =>
    have hstored : (after history).registers.get 0x17 = lastStored 0x17 history := after_registers history 0x17
    simp [requests, hblank_eq, AudioAction.FiresFrame, AudioRegisters.frameIrqEnabled_eq, hstored]
  | read _ | write _ _ | press _ _ | reset => simp [requests, AudioAction.FiresFrame]

theorem requests_dmc (history : List AudioAction) (action : AudioAction) :
    ((after history).requests action).dmc = true ↔ action.FiresSample history := by
  cases action with
  | hblank scanline =>
    have hloop : (after history).channels.dmc.loopBit = (lastStored 0x10 history).toBitVec.getLsbD 6 := by
      rw [Dmc.loopBit, after_control, flag_ne 0x40 6 (by decide) rfl]
    have hirq : (after history).channels.dmc.irqBit = (lastStored 0x10 history).toBitVec.getLsbD 7 := by
      rw [Dmc.irqBit, after_control, flag_ne 0x80 7 (by decide) rfl]
    rw [requests, hblank_eq]
    constructor
    · intro hfired
      obtain ⟨hplaying, hlength, honce, hasks⟩ := (Dmc.hblank_fires _).1 hfired
      refine ⟨⟨scanline, rfl⟩, hplaying, hlength, hloop ▸ honce, hirq ▸ hasks, ?_⟩
      rw [after_cons, act, hblank_dmc]
      exact Dmc.hblank_stops hfired
    · rintro ⟨-, hplaying, hlength, honce, hasks, -⟩
      exact (Dmc.hblank_fires _).2 ⟨hplaying, hlength, hloop.trans honce, hirq.trans hasks⟩
  | read _ | write _ _ | press _ _ | reset => simp [requests, AudioAction.FiresSample]

/-- **The frame flag is up as long as one of its events is outstanding.** -/
theorem after_frameInterrupt (history : List AudioAction) :
    (after history).frameInterrupt = true ↔
      Outstanding AudioAction.FiresFrame AudioAction.ClearsFrame history := by
  induction history with
  | nil => simp [not_outstanding_nil]
  | cons action earlier ih => rw [after_cons, act_frameInterrupt, outstanding_cons, requests_frame, ih]

/-- **The sample flag is up as long as one of its events is outstanding.** -/
theorem after_dmcInterrupt (history : List AudioAction) :
    (after history).dmcInterrupt = true ↔
      Outstanding AudioAction.FiresSample AudioAction.ClearsSample history := by
  induction history with
  | nil => simp [not_outstanding_nil]
  | cons action earlier ih => rw [after_cons, act_dmcInterrupt, outstanding_cons, requests_dmc, ih]

/-! ## The status -/

theorem playing_getLsbD (apu : Apu) (channel : Fin 5) :
    apu.channels.playing.toBitVec.getLsbD channel = apu.isPlaying channel := by
  have h : ∀ (on0 on1 on2 on3 on4 : Bool) (i : Fin 5), (on0.toUInt8 ||| on1.toUInt8 <<< 1 ||| on2.toUInt8 <<< 2 |||
      on3.toUInt8 <<< 3 ||| on4.toUInt8 <<< 4).toBitVec.getLsbD i = #v[on0, on1, on2, on3, on4][i] := by decide
  refine (h ..).trans ?_
  match channel with
  | 0 | 1 | 2 | 3 | 4 => rfl

/-- A bit of the status, up to what the channels play. -/
theorem status_getLsbD (apu : Apu) (i : Nat) :
    apu.status.toBitVec.getLsbD i =
      ((decide (i < 5) && (apu.registers.get 0x15).toBitVec.getLsbD i && apu.channels.playing.toBitVec.getLsbD i) ||
        (apu.frameInterrupt && decide (i = 6)) || (apu.dmcInterrupt && decide (i = 7))) := by
  have hmask : ∀ i : Fin 8, (0x1F : UInt8).toBitVec.getLsbD i = decide (i.val < 5) := by decide
  have henabled : apu.registers.enabledChannels.toBitVec.getLsbD i =
      (decide (i < 5) && (apu.registers.get 0x15).toBitVec.getLsbD i) := by
    show (apu.registers.get 0x15 &&& 0x1F).toBitVec.getLsbD i = _
    rw [UInt8.toBitVec_and, BitVec.getLsbD_and, Bool.and_comm]
    by_cases hi : i < 8
    · rw [← hmask ⟨i, hi⟩]
    · simp [BitVec.getLsbD_of_ge _ i (Nat.le_of_not_lt hi)]
  simp only [status, UInt8.toBitVec_or, UInt8.toBitVec_and, BitVec.getLsbD_or, BitVec.getLsbD_and, henabled,
    getLsbD_flag _ 6 (by decide), getLsbD_flag _ 7 (by decide), UInt8.reduceToNat]

/-- **The interrupt flags and the status, over every history.**  A flag is up as long as one of its events is
outstanding; an interrupt is asked for in the tick of the event and at no other time, whatever the flag says; the status
shows both flags and the channels that are enabled and playing, and reading it changes the frame flag only. -/
theorem after_interrupts (history : List AudioAction) :
    ((after history).frameInterrupt = true ↔
      Outstanding AudioAction.FiresFrame AudioAction.ClearsFrame history) ∧
    ((after history).dmcInterrupt = true ↔
      Outstanding AudioAction.FiresSample AudioAction.ClearsSample history) ∧
    (∀ action, (((after history).requests action).frame = true ↔ action.FiresFrame history) ∧
      (((after history).requests action).dmc = true ↔ action.FiresSample history)) ∧
    let (value, apu) := (after history).read 0x4015
    (apu = { after history with frameInterrupt := false }) ∧
      value.toBitVec.getLsbD 7 = (after history).dmcInterrupt ∧
      value.toBitVec.getLsbD 6 = (after history).frameInterrupt ∧
      value.toBitVec.getLsbD 5 = false ∧
      ∀ channel : Fin 5, value.toBitVec.getLsbD channel =
        ((after history).isPlaying channel && (lastStored 0x15 history).toBitVec.getLsbD channel) := by
  refine ⟨after_frameInterrupt history, after_dmcInterrupt history,
    fun action => ⟨requests_frame history action, requests_dmc history action⟩, rfl, ?_, ?_, ?_, ?_⟩
  · refine ((after history).status_getLsbD 7).trans ?_
    simp
  · refine ((after history).status_getLsbD 6).trans ?_
    simp
  · refine ((after history).status_getLsbD 5).trans ?_
    simp
  · intro channel
    refine ((after history).status_getLsbD channel).trans ?_
    have hstored : (after history).registers.get 0x15 = lastStored 0x15 history := after_registers history 0x15
    rw [playing_getLsbD, hstored]
    have hlt : channel.val < 5 := channel.isLt
    have h6 : channel.val ≠ 6 := by omega
    have h7 : channel.val ≠ 7 := by omega
    simp [hlt, h6, h7, Bool.and_comm]

end Apu
end NesConsole
