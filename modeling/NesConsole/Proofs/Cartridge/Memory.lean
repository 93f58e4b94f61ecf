import NesConsole.Proofs.Cartridge.BankRegisters
import NesConsole.Proofs.Cartridge.Latches
/-!
# What a cartridge remembers

Images are never written.  Program RAM keeps the last byte that a write of the processor left in it, and the board takes
its own writes out of these.  Pattern RAM is written and read through the bank table, which may change in between: what
counts is the place in RAM that an address stood for when it was written and the one it stands for when it is read
(`Cartridge.after_memory`).  So data survive a bank switch, and are seen in every window that shows their bank.
-/
namespace NesConsole

namespace Cartridge

/-- The cartridge after a history. -/
def after (c : Cartridge) (history : List CartridgeAction) : Cartridge := c.following history.reverse

/-- The byte last written to an address of program RAM by a write that the board does not take. -/
def lastKept (c : Cartridge) (address : UInt16) : List CartridgeAction → UInt8
  | [] => 0
  | .write written value :: earlier =>
    if written = address ∧ c.claims written = false then value else c.lastKept address earlier
  | .read _ :: earlier | .readPattern _ :: earlier | .writePattern _ _ :: earlier | .hblank _ :: earlier
  | .reset :: earlier | .load _ :: earlier => c.lastKept address earlier

/-- The byte last written to a place of pattern RAM, through whatever address stood for it then. -/
def lastDrawn (c : Cartridge) (place : Nat) : List CartridgeAction → UInt8
  | [] => 0
  | .writePattern written value :: earlier =>
    if (c.after earlier).banks.chrOffset written = place then value else c.lastDrawn place earlier
  | .read _ :: earlier | .write _ _ :: earlier | .readPattern _ :: earlier | .hblank _ :: earlier
  | .reset :: earlier | .load _ :: earlier => c.lastDrawn place earlier

@[simp] theorem after_nil (c : Cartridge) : c.after [] = c := rfl

@[simp] theorem after_cons (c : Cartridge) (action : CartridgeAction) (earlier : List CartridgeAction) :
    c.after (action :: earlier) = (c.after earlier).act action := by
  simp [after, following]

variable {source : CartridgeSource} {prg chr : Array UInt8} {number : UInt16} {mirroring : Mirroring} {c : Cartridge}

theorem Fits.after (h : c.Fits source) (history : List CartridgeAction) : (c.after history).Fits source :=
  h.following history.reverse

/-- The writes that a board takes are those of its number, and stay so. -/
theorem after_claims (h : c.Fits source) (history : List CartridgeAction) (address : UInt16) :
    (c.after history).claims address = c.claims address :=
  Board.claims_number (((h.after history).number).trans h.number.symm) address

/-! ## Program RAM -/

theorem ofImages_prgRam (h : ofImages prg chr number mirroring = .ok c) : c.prgRam = .replicate prgRamSize 0 := by
  obtain ⟨blank, hblank, rfl⟩ := ofImages_blank h
  exact hblank.prgRam

theorem read_prgRam (c : Cartridge) {address : UInt16} (h : InPrgRam address) :
    c.read address = c.prgRam.get (prgRamIndex address) := by
  have hfirst : ¬address < 0x6000 := fun hlt => Nat.not_lt.2 h.1 (UInt16.lt_iff_toNat_lt.1 hlt)
  have hlast : address < 0x8000 := UInt16.lt_iff_toNat_lt.2 h.2
  rw [Cartridge.read, if_neg hfirst, if_pos hlast]
  rfl

theorem prgRamIndex_inj {address other : UInt16} (h : InPrgRam address) (ho : InPrgRam other) :
    prgRamIndex address = prgRamIndex other ↔ address = other := by
  have h1 := h.1
  have h2 := h.2
  have ho1 := ho.1
  have ho2 := ho.2
  rw [← UInt16.toNat_inj, Fin.ext_iff]
  show address.toNat % 0x2000 = other.toNat % 0x2000 ↔ _
  omega

theorem read_write_prgRam (c : Cartridge) {address : UInt16} (h : InPrgRam address) (written : UInt16) (value : UInt8) :
    (c.write written value).read address =
      if written = address ∧ c.claims written = false then value else c.read address := by
  rw [read_prgRam _ h, read_prgRam _ h]
  cases hclaims : c.claims written with
  | true =>
    rw [Cartridge.write, if_pos hclaims, if_neg (by simp)]
    rfl
  | false =>
    rw [write_left c hclaims]
    by_cases hwritten : InPrgRam written
    · simp only [if_pos hwritten, get_setPrgRam, prgRamIndex_inj hwritten h, and_true]
    · have hother : written ≠ address := fun heq => hwritten (heq ▸ h)
      rw [if_neg hwritten, if_neg fun heq => hother heq.1]

theorem after_prgRam (h : ofImages prg chr number mirroring = .ok c) {history : List CartridgeAction}
    (hhistory : ∀ action ∈ history, action.loads = false) {address : UInt16} (haddress : InPrgRam address) :
    (c.after history).read address = c.lastKept address history := by
  induction history with
  | nil =>
    rw [after_nil, read_prgRam c haddress, ofImages_prgRam h]
    exact Vector.getElem_replicate _
  | cons action earlier ih =>
    have hearlier := ih fun other hother => hhistory other (List.mem_cons_of_mem _ hother)
    rw [after_cons]
    cases action with
    | write written value =>
      rw [act, read_write_prgRam _ haddress, hearlier, after_claims (ofImages_fits h), lastKept]
    | writePattern written value =>
      rw [lastKept, ← hearlier, read_prgRam _ haddress, read_prgRam _ haddress, act, Cartridge.writePattern]
      split <;> rfl
    | read | readPattern => exact hearlier
    | hblank | reset =>
      rw [lastKept, ← hearlier, read_prgRam _ haddress, read_prgRam _ haddress]
      rfl
    | load state => cases hhistory _ List.mem_cons_self

/-! ## Pattern RAM -/

theorem after_chr (h : ofImages prg chr number mirroring = .ok c) (hram : chr.size = 0) {history : List CartridgeAction}
    (hhistory : ∀ action ∈ history, action.loads = false) {place : Nat} (hplace : place < chrRamSize) :
    (c.after history).chr[place]? = some (c.lastDrawn place history) := by
  have hfits := ofImages_fits h
  induction history with
  | nil =>
    rw [after_nil, ofImages_pattern h, CartridgeSource.pattern, if_pos hram]
    simp [hplace, lastDrawn]
  | cons action earlier ih =>
    have hearlier := ih fun other hother => hhistory other (List.mem_cons_of_mem _ hother)
    have hload := hhistory action List.mem_cons_self
    rw [after_cons]
    by_cases hwrite : action.writesPattern = true
    · obtain ⟨written, value, rfl⟩ : ∃ written value, action = .writePattern written value := by
        cases action <;> first | exact ⟨_, _, rfl⟩ | cases hwrite
      have hinside := (hfits.after earlier).windows (ofImages_banked h)
      have hisRam : (c.after earlier).chrIsRam = true :=
        (hfits.after earlier).chrIsRam.trans (decide_eq_true hram)
      rw [act, hinside.writePattern _ _ hisRam, Array.getElem?_setIfInBounds, if_pos (hinside.chrOffset written),
        hearlier, lastDrawn]
      split <;> rfl
    · rw [act_chr _ hload (Bool.eq_false_iff.2 hwrite), hearlier]
      cases action <;> first | rfl | exact absurd rfl hwrite

/-- **What a cartridge remembers.**  After every history its images are the ones it was built with; program RAM reads as
the last byte written to an address and not taken by the board; and pattern RAM reads as the last byte written to the
place that the address stands for now. -/
theorem after_memory (h : ofImages prg chr number mirroring = .ok c) {history : List CartridgeAction}
    (hhistory : ∀ action ∈ history, action.loads = false) :
    (c.after history).prg = prg ∧
    (chr.size ≠ 0 → (c.after history).chr = chr) ∧
    (∀ address : UInt16, 0x6000 ≤ address.toNat → address.toNat < 0x8000 →
      (c.after history).read address = c.lastKept address history) ∧
    (chr.size = 0 → ∀ address,
      (c.after history).readPattern address = c.lastDrawn ((c.after history).banks.chrOffset address) history) := by
  have hfits := (ofImages_fits h).after history
  refine ⟨hfits.prg, fun hrom => ?_, fun address hfirst hlast => after_prgRam h hhistory ⟨hfirst, hlast⟩,
    fun hram address => ?_⟩
  · exact hfits.chr (hfits.chrIsRam.trans (decide_eq_false hrom))
  · have hinside := hfits.windows (ofImages_banked h)
    have hplace : (c.after history).banks.chrOffset address < chrRamSize := by
      have hsize := hinside.chrOffset address
      rwa [hfits.chrSize, CartridgeSource.chrSize, if_pos hram] at hsize
    exact Option.some.inj ((hinside.readPattern address).symm.trans (after_chr h hram hhistory hplace))

theorem after_follows (h : ofImages prg chr Mmc3.number mirroring = .ok c) {history : List CartridgeAction}
    (hhistory : ∀ action ∈ history, action.loads = false) :
    Mmc3.Follows { prg, chr, number := Mmc3.number } mirroring history ((c.after history).board, (c.after history).banks) := by
  have hfollows := following_follows h fun action haction => hhistory action (List.mem_reverse.1 haction)
  rwa [List.reverse_reverse] at hfollows

/-- Drawn through the first window of an MMC3 board, and seen through the fifth once that shows the first bank too. -/
theorem after_memory_moved :
    ∃ (prg : Array UInt8) (c : Cartridge), prg.size = 0x2000 ∧ ofImages prg #[] Mmc3.number .vertical = .ok c ∧
      let c := c.after [.write 0x8001 0, .write 0x8000 2, .reset, .write 0x7FFF 0x12, .writePattern 0x0005 0x77]
      c.prg = prg ∧ c.read 0x7FFF = 0x12 ∧ c.readPattern 0x1005 = 0x77 := by
  let source : CartridgeSource := { prg := .replicate 0x2000 0xEA, chr := #[], number := Mmc3.number }
  obtain ⟨c, hc⟩ := ofImages_ok source (by simp [source]) (by simp [source, prgBankSize]) rfl rfl .vertical
  let history : List CartridgeAction :=
    [.write 0x8001 0, .write 0x8000 2, .reset, .write 0x7FFF 0x12, .writePattern 0x0005 0x77]
  have hhistory : ∀ action ∈ history, CartridgeAction.loads action = false := by decide
  have hwritten : c.banks.chrOffset 0x0005 = 5 := by
    have hfollows : Mmc3.Follows source .vertical [] (c.board, c.banks) := after_follows hc (List.forall_mem_nil _)
    have hbank : c.banks.chr[0] = 0 := hfollows.chr 0 (by decide)
    rw [Banks.chrOffset_window _ (show 0 < 8 by decide) (by decide) (by decide), hbank]
    rfl
  have hfollows : Mmc3.Follows source .vertical history ((c.after history).board, (c.after history).banks) :=
    after_follows hc hhistory
  have hread : (c.after history).banks.chrOffset 0x1005 = 5 := by
    have hbank : (c.after history).banks.chr[4] = 0 := (hfollows.chr 4 (by decide)).trans (by decide)
    rw [Banks.chrOffset_window _ (show 4 < 8 by decide) (by decide) (by decide), hbank]
    rfl
  have hunclaimed : c.claims 0x7FFF = false := by
    obtain ⟨m, hboard, -⟩ := hfollows.board
    have hclaims : (c.after history).board.claims 0x7FFF = false := by
      rw [show (c.after history).board = .mmc3 m from hboard]
      rfl
    exact (after_claims (ofImages_fits hc) history 0x7FFF).symm.trans hclaims
  obtain ⟨hprg, -, hkept, hdrawn⟩ := after_memory hc hhistory
  refine ⟨source.prg, c, by simp [source], hc, hprg, ?_, ?_⟩
  · rw [hkept 0x7FFF (by decide) (by decide)]
    simp [history, lastKept, hunclaimed]
  · rw [hdrawn rfl 0x1005, hread]
    exact if_pos hwritten

end Cartridge
end NesConsole
