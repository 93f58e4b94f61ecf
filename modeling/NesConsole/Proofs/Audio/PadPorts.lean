import NesConsole.Proofs.Audio.Histories
/-!
# Reading the joypads

A falling strobe latches what both pads hold, and each read of a pad's port then hands out one bit (`Apu.after_ports`).
What a program gets depends on nothing else: on no read of the other port, and not on what is given for the pad later.
Directions that oppose each other are never reported together.
-/
namespace NesConsole

/-! ## What a pad reports of the buttons given -/

/-- A button that is given counts, unless it is a direction and the opposite one is given too.  The four directions are
the buttons from bit 4 on, and opposite ones differ in the lowest bit of their number. -/
def Buttons.reports (given : Buttons) (button : Nat) : Bool :=
  given.toBitVec.getLsbD button && !(decide (4 ≤ button) && given.toBitVec.getLsbD (button ^^^ 1))

namespace Buttons

theorem effective_getLsbD (given : Buttons) (button : Nat) :
    given.effective.toBitVec.getLsbD button = given.reports button := by
  have h : ∀ (n : Fin 256) (button : Fin 8), (effective (.ofFin n)).toBitVec.getLsbD button =
      reports (.ofFin n) button := by decide +kernel
  by_cases hbutton : button < 8
  · exact h given.toFin ⟨button, hbutton⟩
  · have hge : 8 ≤ button := Nat.le_of_not_lt hbutton
    simp [reports, BitVec.getLsbD_of_ge _ button hge]

theorem reports_ge (given : Buttons) {button : Nat} (h : 8 ≤ button) : given.reports button = false := by
  simp [reports, BitVec.getLsbD_of_ge _ button h]

theorem not_reports_opposite (given : Buttons) {button : Nat} (h : 4 ≤ button) (hreports : given.reports button = true) :
    given.reports (button ^^^ 1) = false := by
  have hopposite : given.toBitVec.getLsbD (button ^^^ 1) = false := by
    simp only [reports, h, decide_true, Bool.true_and, Bool.and_eq_true, Bool.not_eq_true'] at hreports
    exact hreports.2
  rw [reports, hopposite, Bool.false_and]

end Buttons

/-! ## What counts in a history -/

namespace AudioAction

open AudioRegisters (lastStored)

/-- A write to `$4016` that changes its lowest bit from 1 to 0. -/
def strobeFalls (earlier : List AudioAction) : AudioAction → Bool
  | write address value =>
    address = 0x4016 && (lastStored 0x16 earlier).toBitVec.getLsbD 0 && !value.toBitVec.getLsbD 0
  | read _ | hblank _ | press _ _ | reset => false

end AudioAction

namespace Joypads

/-- The buttons last given for a pad. -/
def lastGiven (pad : Fin 2) : List AudioAction → Buttons
  | [] => 0
  | .press number given :: earlier => if number = pad then given else lastGiven pad earlier
  | .read _ :: earlier | .write _ _ :: earlier | .hblank _ :: earlier | .reset :: earlier => lastGiven pad earlier

/-- The buttons that were last given for a pad when the strobe last fell. -/
def latched (pad : Fin 2) : List AudioAction → Buttons
  | [] => 0
  | action :: earlier => if action.strobeFalls earlier then lastGiven pad earlier else latched pad earlier

/-- How often a pad's port was read since the strobe last fell. -/
def readsSince (pad : Fin 2) : List AudioAction → Nat
  | [] => 0
  | action :: earlier =>
    if action.strobeFalls earlier then 0
    else if action = .read (port pad) then readsSince pad earlier + 1
    else readsSince pad earlier

/-- What these reads returned, in their order. -/
def answers (pad : Fin 2) : List AudioAction → List UInt8
  | [] => []
  | action :: earlier =>
    if action.strobeFalls earlier then []
    else if action = .read (port pad) then answers pad earlier ++ [((Apu.after earlier).read (port pad)).1]
    else answers pad earlier

end Joypads

/-! ## One pad -/

def Joypads.get (pads : Joypads) : Fin 2 → Joypad
  | 0 => pads.first
  | 1 => pads.second

namespace Joypad

/-- A pad holds what is to be reported of the buttons given, and of the buttons latched those that were not read yet. -/
structure Reports (pad : Joypad) (given latched : Buttons) (reads : Nat) : Prop where
  held : ∀ button, pad.held.toBitVec.getLsbD button = given.reports button
  shifted : ∀ button, pad.shiftRegister.toBitVec.getLsbD button = latched.reports (reads + button)

namespace Reports

variable {pad : Joypad} {given latched : Buttons} {reads : Nat}

theorem initial : ({} : Joypad).Reports 0 0 0 where
  held := Buttons.effective_getLsbD 0
  shifted button := by rw [Nat.zero_add]; exact Buttons.effective_getLsbD 0 button

theorem press (h : pad.Reports given latched reads) (held : Buttons) : (pad.press held).Reports held latched reads :=
  { h with held := held.effective_getLsbD }

theorem latch (h : pad.Reports given latched reads) : pad.latch.Reports given given 0 where
  held := h.held
  shifted button := by rw [Nat.zero_add]; exact h.held button

theorem shift (h : pad.Reports given latched reads) : pad.shift.2.Reports given latched (reads + 1) where
  held := h.held
  shifted button := by
    have hbit : (pad.shiftRegister >>> 1).toBitVec.getLsbD button = pad.shiftRegister.toBitVec.getLsbD (1 + button) := by
      simp [UInt8.toBitVec_shiftRight, BitVec.getLsbD_ushiftRight]
    exact hbit.trans (by rw [h.shifted, Nat.add_assoc])

theorem shift_bit (h : pad.Reports given latched reads) : pad.shift.1 = (latched.reports reads).toUInt8 := by
  refine (and_one pad.shiftRegister).trans ?_
  exact congrArg Bool.toUInt8 (h.shifted 0)

end Reports
end Joypad

/-! ## Both pads -/

namespace Joypads

theorem get_press (pads : Joypads) (number : Nat) (given : Buttons) (pad : Fin 2) :
    (pads.press number given).get pad = if number = pad then (pads.get pad).press given else pads.get pad := by
  match number with
  | 0 | 1 =>
    match pad with
    | 0 | 1 => rfl
  | number + 2 =>
    have hnone : number + 2 ≠ pad.val := by omega
    exact (if_neg hnone).symm

theorem get_latch (pads : Joypads) (pad : Fin 2) : pads.latch.get pad = (pads.get pad).latch := by
  match pad with
  | 0 | 1 => rfl

theorem get_shift (pads : Joypads) (read pad : Fin 2) :
    (pads.shift read).2.get pad = if read = pad then (pads.get pad).shift.2 else pads.get pad := by
  match read with
  | 0 | 1 =>
    match pad with
    | 0 | 1 => rfl

theorem held_eq (pads : Joypads) (pad : Fin 2) : pads.held pad = (pads.get pad).held := by
  match pad with
  | 0 | 1 => rfl

end Joypads

namespace Apu

open Joypads (port)

/-! ## Accesses -/

theorem read_port (apu : Apu) (pad : Fin 2) : (apu.read (port pad)).1 = (apu.pads.get pad).shift.1 := by
  match pad with
  | 0 | 1 => rfl

theorem read_pads (apu : Apu) (address : UInt16) (pad : Fin 2) :
    (apu.read address).2.pads.get pad =
      if address = port pad then (apu.pads.get pad).shift.2 else apu.pads.get pad := by
  rcases apu.read_cases address with ⟨rfl, h⟩ | ⟨read, rfl, h⟩ | ⟨-, hport, h⟩
  · rw [h, if_neg (Joypads.port_ne_status pad).symm]
  · rw [h, Joypads.get_shift]
    simp only [Joypads.port_inj]
  · rw [h, if_neg (hport pad)]

theorem write_pads (apu : Apu) (address : UInt16) (value : UInt8) :
    (apu.write address value).pads =
      if address = 0x4016 && (apu.registers.get 0x16).toBitVec.getLsbD 0 && !value.toBitVec.getLsbD 0 then
        apu.pads.latch
      else apu.pads := by
  rcases apu.write_cases address value with ⟨houtside, h⟩ | ⟨reg, haddress, h⟩
  · have hport : address ≠ 0x4016 := fun heq => houtside 0x16 (congrArg UInt16.toNat heq)
    simp [h, hport]
  have hport : address = 0x4016 ↔ reg = 0x16 :=
    AudioRegisters.index?_iff (AudioRegisters.index?_eq_some_iff.2 haddress) rfl
  simp only [hport]
  rcases h with ⟨channel, i, hreg, h⟩ | ⟨h15, h⟩ | ⟨h16, h⟩ | ⟨-, -, h16, h⟩
  · have hother : reg ≠ 0x16 := by omega
    simp [h, hother]
  · simp [h, h15]
  · rw [h, h16]
    simp only [eq_self, decide_true, Bool.true_and]
    split <;> rfl
  · simp [h, h16]

/-! ## Histories -/

/-- A write latches the pads when it makes the strobe fall. -/
theorem after_write_pads (history : List AudioAction) (address : UInt16) (value : UInt8) :
    ((after history).write address value).pads =
      if (AudioAction.write address value).strobeFalls history then (after history).pads.latch
      else (after history).pads := by
  rw [write_pads, after_registers]
  rfl

/-- **Every action keeps what the pads report.**  A reset clears the strobe's register, so that the next write cannot make
it fall, but the pads themselves stay as they are. -/
theorem after_pads (history : List AudioAction) (pad : Fin 2) :
    ((after history).pads.get pad).Reports (Joypads.lastGiven pad history) (Joypads.latched pad history)
      (Joypads.readsSince pad history) := by
  induction history with
  | nil =>
    match pad with
    | 0 | 1 => exact Joypad.Reports.initial
  | cons action earlier ih =>
    rw [after_cons]
    cases action with
    | read address =>
      have hports : AudioAction.read address = .read (port pad) ↔ address = port pad := by simp
      rw [act, read_pads]
      simp only [Joypads.lastGiven, Joypads.latched, Joypads.readsSince, AudioAction.strobeFalls, hports]
      by_cases hport : address = port pad
      · simp only [hport, if_true]
        exact ih.shift
      · simp only [hport, if_false]
        exact ih
    | write address value =>
      rw [act, after_write_pads]
      simp only [Joypads.lastGiven, Joypads.latched, Joypads.readsSince]
      cases hfalls : (AudioAction.write address value).strobeFalls earlier with
      | true =>
        simp only [if_true]
        rw [Joypads.get_latch]
        exact ih.latch
      -- Without an edge the write is only stored; the reads go on where they were.
      | false => exact ih
    | hblank scanline =>
      rw [act, hblank_eq]
      exact ih
    | press number given =>
      show (((after earlier).pads.press number given).get pad).Reports _ _ _
      rw [Joypads.get_press]
      simp only [Joypads.lastGiven]
      split
      · exact ih.press given
      · exact ih
    | reset => exact ih

/-- The next read of a port hands out the first button that was not read yet. -/
theorem after_read_port (history : List AudioAction) (pad : Fin 2) :
    ((after history).read (port pad)).1 =
      ((Joypads.latched pad history).reports (Joypads.readsSince pad history)).toUInt8 := by
  rw [read_port, (after_pads history pad).shift_bit]

theorem answers_eq (history : List AudioAction) (pad : Fin 2) :
    Joypads.answers pad history = (List.range (Joypads.readsSince pad history)).map
      fun k => ((Joypads.latched pad history).reports k).toUInt8 := by
  induction history with
  | nil => rfl
  | cons action earlier ih =>
    simp only [Joypads.answers, Joypads.readsSince, Joypads.latched]
    split
    · rfl
    · split
      · rw [ih, after_read_port, List.range_succ, List.map_append]
        rfl
      · exact ih

theorem answers_getElem? {history : List AudioAction} {pad : Fin 2} {k : Nat} {answer : UInt8}
    (h : (Joypads.answers pad history)[k]? = some answer) :
    answer = ((Joypads.latched pad history).reports k).toUInt8 := by
  rw [answers_eq, List.getElem?_map, Option.map_eq_some_iff] at h
  obtain ⟨j, hj, rfl⟩ := h
  obtain ⟨_, hrange⟩ := List.getElem?_eq_some_iff.1 hj
  rw [List.getElem_range] at hrange
  rw [hrange]

theorem not_answered_together (history : List AudioAction) (pad : Fin 2) {button : Nat} (h : 4 ≤ button) :
    ¬((Joypads.answers pad history)[button]? = some 1 ∧ (Joypads.answers pad history)[button ^^^ 1]? = some 1) := by
  rintro ⟨hbutton, hopposite⟩
  have hgiven : (Joypads.latched pad history).reports button = true := by
    have hbit := answers_getElem? hbutton
    cases hreports : (Joypads.latched pad history).reports button with
    | true => rfl
    | false =>
      rw [hreports] at hbit
      cases hbit
  have hbit := answers_getElem? hopposite
  rw [Buttons.not_reports_opposite _ h hgiven] at hbit
  cases hbit

/-- **What programs read from the joypad ports, over every history.**  A pad stores the buttons last given without
directions that oppose each other.  The reads of its port since the strobe last fell hand out the buttons stored then,
one by one, and zeros after the eighth, whatever was done in between; so up and down are never reported together, nor
are left and right. -/
theorem after_ports (history : List AudioAction) (pad : Fin 2) :
    (∀ button, ((after history).pads.held pad).toBitVec.getLsbD button =
      (Joypads.lastGiven pad history).reports button) ∧
    Joypads.answers pad history = ((List.range (Joypads.readsSince pad history)).map fun k =>
      if k < 8 then ((Joypads.latched pad history).reports k).toUInt8 else 0) ∧
    ¬((Joypads.answers pad history)[4]? = some 1 ∧ (Joypads.answers pad history)[5]? = some 1) ∧
    ¬((Joypads.answers pad history)[6]? = some 1 ∧ (Joypads.answers pad history)[7]? = some 1) := by
  refine ⟨?_, ?_, not_answered_together history pad (by decide), not_answered_together history pad (by decide)⟩
  · rw [Joypads.held_eq]
    exact (after_pads history pad).held
  · rw [answers_eq]
    refine List.map_congr_left fun k _ => ?_
    by_cases hk : k < 8
    · rw [if_pos hk]
    · rw [if_neg hk, Buttons.reports_ge _ (Nat.le_of_not_lt hk)]
      rfl

end Apu
end NesConsole
