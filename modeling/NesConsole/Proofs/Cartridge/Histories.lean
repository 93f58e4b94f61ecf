import NesConsole.Proofs.Bits
import NesConsole.Proofs.Cartridge.Windows
/-!
# What a board sees

Of all that is done with a cartridge its board and its bank table see the writes the board claims, the scanlines and the
resets (`Cartridge.act_board`), and both start as a reset leaves them (`Cartridge.ofImages_built`).  What relates the
two to the actions so far is therefore shown for one answer of a board at a time, and `Cartridge.following_invariant`
carries it along a history.  Histories are lists with the latest action first.
-/
namespace NesConsole

/-- The action is a snapshot load, which brings in the history of another cartridge. -/
def CartridgeAction.loads : CartridgeAction → Bool
  | load _ => true
  | read _ | write _ _ | readPattern _ | writePattern _ _ | hblank _ | reset => false

/-- What an action other than a load does to board and table. -/
def Board.respond (board : Board) (banks : Banks) : CartridgeAction → Board × Banks
  | .write address value => if board.claims address then board.write address value banks else (board, banks)
  | .hblank scanline => ((board.hblank scanline).2, banks)
  | .reset => board.reset banks
  | .read _ | .readPattern _ | .writePattern _ _ | .load _ => (board, banks)

/-- Six of the boards answer to all of program space. -/
theorem Board.claims_space {board : Board} (h : board.writeRanges = [(0x8000, 0xFFFF)]) (address : UInt16) :
    board.claims address = decide (0x8000 ≤ address) := by
  have hlast : address ≤ 0xFFFF := UInt16.le_iff_toNat_le.2 (Nat.le_of_lt_succ address.toNat_lt)
  simp [claims, h, hlast]

namespace Cartridge

variable {c : Cartridge}

theorem act_board (c : Cartridge) {action : CartridgeAction} (h : action.loads = false) :
    ((c.act action).board, (c.act action).banks) = c.board.respond c.banks action := by
  cases action with
  | read | readPattern | hblank | reset => rfl
  | write address value =>
    by_cases hclaimed : c.board.claims address = true
    · simp only [act, Cartridge.write, Board.respond, claims, hclaimed, if_true]
      rfl
    · simp only [act, Cartridge.write, Board.respond, claims, hclaimed, Bool.false_eq_true, if_false]
      split <;> rfl
  | writePattern address value =>
    simp only [act, Cartridge.writePattern]
    split <;> rfl
  | load state => cases h

variable {prg chr : Array UInt8} {number : UInt16} {mirroring : Mirroring}

/-- **A cartridge is built by a reset**, on a table for its images that has the given nametables. -/
theorem ofImages_built (h : ofImages prg chr number mirroring = .ok c) :
    ∃ board banks, Board.ofNumber? number = some board ∧ banks.InRange { prg, chr, number } ∧
      banks.mirroring = mirroring ∧ (c.board, c.banks) = board.reset banks := by
  obtain ⟨blank, hblank, rfl⟩ := ofImages_blank h
  refine ⟨blank.board, blank.banks, hblank.board, hblank.fits.banks, ?_, rfl⟩
  rw [hblank.banks]
  rfl

/-- What an answer of the board keeps for one history, a row of answers keeps. -/
theorem Fits.following_invariant {source : CartridgeSource} (Holds : List CartridgeAction → Board × Banks → Prop)
    (answer : ∀ history action board banks, action.loads = false → banks.InRange source →
      Holds history (board, banks) → Holds (action :: history) (board.respond banks action))
    {actions : List CartridgeAction} (hactions : ∀ action ∈ actions, action.loads = false)
    {history : List CartridgeAction} (hc : c.Fits source) (h : Holds history (c.board, c.banks)) :
    Holds (actions.reverse ++ history) ((c.following actions).board, (c.following actions).banks) := by
  induction actions generalizing c history with
  | nil => exact h
  | cons action actions ih =>
    have hfirst : action.loads = false := hactions action List.mem_cons_self
    have hnext : Holds (action :: history) ((c.act action).board, (c.act action).banks) := by
      rw [c.act_board hfirst]
      exact answer history action c.board c.banks hfirst hc.banks h
    rw [List.reverse_cons, List.append_assoc]
    exact ih (fun other hother => hactions other (List.mem_cons_of_mem _ hother)) (hc.act action) hnext

/-- **What holds when a cartridge is built and is kept by every answer of its board holds after every history** without
a load. -/
theorem following_invariant (h : ofImages prg chr number mirroring = .ok c)
    (Holds : List CartridgeAction → Board × Banks → Prop)
    (built : ∀ board banks, Board.ofNumber? number = some board → banks.InRange { prg, chr, number } →
      banks.mirroring = mirroring → Holds [] (board.reset banks))
    (answer : ∀ history action board banks, action.loads = false → banks.InRange { prg, chr, number } →
      Holds history (board, banks) → Holds (action :: history) (board.respond banks action))
    {actions : List CartridgeAction} (hactions : ∀ action ∈ actions, action.loads = false) :
    Holds actions.reverse ((c.following actions).board, (c.following actions).banks) := by
  obtain ⟨board, banks, hboard, hbanks, hmirroring, hbuilt⟩ := ofImages_built h
  have hstart : Holds [] (c.board, c.banks) := hbuilt ▸ built board banks hboard hbanks hmirroring
  simpa only [List.append_nil] using (ofImages_fits h).following_invariant Holds answer hactions hstart

end Cartridge
end NesConsole
