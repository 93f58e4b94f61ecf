import NesConsole.Proofs.Cartridge.BankRegisters
/-!
# What a reset restores

A reset lays out the whole bank table from the number of the board and the sizes of the images, and starts the registers
over (`Board.reset_anew`).  The nametables are the one exception: AxROM and MMC1 choose them anew, the other boards
leave them as they are.  Of these only MMC3 ever changes them, so a reset leads back to power-on except for the
nametables of an MMC3 board (`Cartridge.reset_restores`).
-/
namespace NesConsole
namespace Board

/-! ## A reset -/

/-- The nametables a board chooses at reset, if it does. -/
def resetNametables : Board → Option Mirroring
  | axRom | mmc1 _ => some .single0
  | nrom | uxRom | cnRom | mmc3 _ | gxRom | board87 => none

/-- **A reset keeps nothing of board and table** but, where the board does not choose them, the nametables. -/
theorem reset_anew (board : Board) {t u : Banks} (hprg : t.prgCount = u.prgCount) (hchr : t.chrCount = u.chrCount) :
    board.reset t =
      ((board.reset u).1, { (board.reset u).2 with mirroring := board.resetNametables.getD t.mirroring }) := by
  cases board with
  | nrom | cnRom | gxRom | board87 =>
    simp only [reset, Banks.mapStart_eq, hprg, hchr]
    rfl
  | axRom =>
    simp only [reset, Banks.mapStart_eq, hprg, hchr]
    rfl
  | uxRom =>
    simp only [reset, Banks.mapEnds_eq, hprg, hchr]
    rfl
  | mmc1 m =>
    -- the registers of power-on fix the last bank and select 0 everywhere else
    have hlayout (t : Banks) : Mmc1.layout {} t = (((t.setMirroring .single0).selectPrg16 0 0).selectPrg16 1
      ((t.setMirroring .single0).prgCount16 - 1)).selectChr8 0 := rfl
    simp only [reset, hlayout, Banks.mapEnds_eq, Banks.setMirroring, hprg, hchr]
    rfl
  | mmc3 m =>
    simp only [reset, Mmc3.layout_eq, hprg, hchr]
    rfl

/-- The registers before a reset make no difference to it. -/
theorem reset_ofNumber {board other : Board} (h : ofNumber? board.number = some other) (t : Banks) :
    board.reset t = other.reset t := by
  cases board <;> cases h <;> rfl

/-! ## The nametables -/

/-- The boards that can change the nametables. -/
def setsNametables : Board → Bool
  | mmc1 _ | mmc3 _ | axRom => true
  | nrom | uxRom | cnRom | gxRom | board87 => false

theorem respond_nametables {board : Board} (h : board.setsNametables = false) (t : Banks) (action : CartridgeAction) :
    (board.respond t action).1 = board ∧ (board.respond t action).2.mirroring = t.mirroring := by
  cases board with
  | mmc1 | mmc3 | axRom => cases h
  | nrom | uxRom | cnRom | gxRom | board87 =>
    cases action with
    | read | readPattern | writePattern | hblank | load => exact ⟨rfl, rfl⟩
    | reset => exact ⟨rfl, by simp only [respond, reset, Banks.mapStart_eq, Banks.mapEnds_eq]⟩
    | write address value =>
      simp only [respond, write, Banks.selectPrg16, Banks.selectPrg8, Banks.selectPrg32_eq, Banks.selectChr8_eq]
      split <;> exact ⟨rfl, rfl⟩

end Board

namespace Cartridge

variable {prg chr : Array UInt8} {number : UInt16} {mirroring : Mirroring} {c : Cartridge}

theorem following_nametables (h : ofImages prg chr number mirroring = .ok c) {board : Board}
    (hboard : Board.ofNumber? number = some board) (hsets : board.setsNametables = false)
    {actions : List CartridgeAction} (hactions : ∀ action ∈ actions, action.loads = false) :
    (c.following actions).banks.mirroring = mirroring := by
  have hkept := following_invariant h (fun _ state => state.1 = board ∧ state.2.mirroring = mirroring) ?_ ?_ hactions
  · exact hkept.2
  · intro other banks hother _ hmirroring
    obtain rfl : other = board := Option.some.inj (hother.symm.trans hboard)
    obtain ⟨hsame, hnametables⟩ := Board.respond_nametables hsets banks .reset
    exact ⟨hsame, hnametables.trans hmirroring⟩
  · rintro _ action _ banks - - ⟨rfl, hmirroring⟩
    obtain ⟨hsame, hnametables⟩ := Board.respond_nametables hsets banks action
    exact ⟨hsame, hnametables.trans hmirroring⟩

/-- A reset takes every cartridge built from the same source to this one, its nametables aside. -/
theorem ofImages_reset (h : ofImages prg chr number mirroring = .ok c) :
    ∃ board, Board.ofNumber? number = some board ∧ c.banks.mirroring = board.resetNametables.getD mirroring ∧
      ∀ other : Cartridge, other.Fits { prg, chr, number } → other.reset.board = c.board ∧
        other.reset.banks = { c.banks with mirroring := board.resetNametables.getD other.banks.mirroring } := by
  obtain ⟨board, banks, hboard, hbanks, hmirroring, hbuilt⟩ := ofImages_built h
  refine ⟨board, hboard, ?_, fun other hother => ?_⟩
  · have hanew := hbuilt.trans (board.reset_anew rfl rfl)
    rw [← hbuilt, hmirroring] at hanew
    exact congrArg (fun state : Board × Banks => state.2.mirroring) hanew
  · have hsame : Board.ofNumber? other.board.number = some board := (congrArg Board.ofNumber? hother.number).trans hboard
    have hreset : other.board.reset other.banks =
        (c.board, { c.banks with mirroring := board.resetNametables.getD other.banks.mirroring }) := by
      rw [Board.reset_ofNumber hsame, board.reset_anew (hother.banks.prgCount.trans hbanks.prgCount.symm)
        (hother.banks.chrCount.trans hbanks.chrCount.symm), ← hbuilt]
    exact ⟨congrArg Prod.fst hreset, congrArg Prod.snd hreset⟩

/-- **A reset leads back to power-on**, whatever was done with the cartridge before: the board's registers and the whole
bank table are those right after it was built, except that the nametables of an MMC3 board stay what its last write for
them made them. -/
theorem reset_restores (h : ofImages prg chr number mirroring = .ok c) {actions : List CartridgeAction}
    (hactions : ∀ action ∈ actions, action.loads = false) :
    (c.following actions).reset.board = c.board ∧
      (c.following actions).reset.banks = { c.banks with
        mirroring := if number = Mmc3.number then Mmc3.nametables mirroring actions.reverse else c.banks.mirroring } := by
  obtain ⟨board, hboard, hfirst, hreset⟩ := ofImages_reset h
  have hnumber : board.number = number := Board.ofNumber?_number hboard
  have hnametables : board.resetNametables.getD (c.following actions).banks.mirroring =
      if number = Mmc3.number then Mmc3.nametables mirroring actions.reverse else c.banks.mirroring := by
    cases board with
    | mmc3 m =>
      obtain rfl : number = Mmc3.number := hnumber.symm
      rw [if_pos rfl]
      exact (following_follows h hactions).mirroring
    | mmc1 m =>
      have hother : number ≠ Mmc3.number := hnumber ▸ (by decide : Mmc1.number ≠ Mmc3.number)
      rw [if_neg hother, hfirst]
      rfl
    | axRom =>
      rw [if_neg (hnumber ▸ (by decide)), hfirst]
      rfl
    | nrom | uxRom | cnRom | gxRom | board87 =>
      rw [if_neg (hnumber ▸ (by decide)), hfirst]
      exact following_nametables h hboard rfl hactions
  rw [← hnametables]
  exact hreset _ ((ofImages_fits h).following actions)

/-- Banks and mode go back, the nametables do not. -/
theorem reset_restores_banks :
    ∃ (prg : Array UInt8) (c : Cartridge), prg.size = 0x8000 ∧ ofImages prg #[] Mmc3.number .vertical = .ok c ∧
      (c.following [.write 0x8000 0x46, .write 0x8001 3, .write 0xA000 1]).reset.board = c.board ∧
      (c.following [.write 0x8000 0x46, .write 0x8001 3, .write 0xA000 1]).reset.banks =
        { c.banks with mirroring := .horizontal } := by
  let source : CartridgeSource := { prg := .replicate 0x8000 0xEA, chr := #[], number := Mmc3.number }
  obtain ⟨c, hc⟩ := ofImages_ok source (by simp [source]) (by simp [source, prgBankSize]) rfl rfl .vertical
  exact ⟨source.prg, c, by simp [source], hc, reset_restores hc (by decide)⟩

/-- One write for the nametables is enough to tell a reset from power-on. -/
theorem reset_keeps_nametables :
    ∃ (prg : Array UInt8) (c : Cartridge), prg.size = 0x2000 ∧ ofImages prg #[] Mmc3.number .vertical = .ok c ∧
      (c.following [.write 0xA000 1]).reset.banks ≠ c.banks := by
  let source : CartridgeSource := { prg := .replicate 0x2000 0xEA, chr := #[], number := Mmc3.number }
  obtain ⟨c, hc⟩ := ofImages_ok source (by simp [source]) (by simp [source, prgBankSize]) rfl rfl .vertical
  refine ⟨source.prg, c, by simp [source], hc, fun hsame => ?_⟩
  have hbuilt : c.banks.mirroring = .vertical := (following_follows hc (List.forall_mem_nil _)).mirroring
  have hactions : ∀ action ∈ [.write 0xA000 1, .reset], CartridgeAction.loads action = false := by decide
  have hafter : (c.following [.write 0xA000 1]).reset.banks.mirroring = .horizontal :=
    (following_follows hc hactions).mirroring
  rw [hsame, hbuilt] at hafter
  cases hafter

end Cartridge
end NesConsole
