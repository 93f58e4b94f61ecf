import NesConsole.Proofs.Cartridge.Histories
import NesConsole.Proofs.Cartridge.Selections
/-!
# Cartridges without a switching board

An NROM cartridge shows its program image from the start of program space on, repeated if it is smaller
(`Cartridge.IsNrom.read`), and of all that a processor can write there only program RAM changes.
-/
namespace NesConsole

namespace Banks

/-- After a reset of an NROM board the program windows show the image's first banks, counted modulo the image. -/
theorem mapStart_prgBank (b : Banks) {slot : Nat} (h : slot < 4) :
    (Board.mapStart b).prgBank slot = slot % b.prgCount := by
  rw [mapStart_eq]
  simp only [prgBank, Vector.getElem_ofFn, Nat.mod_eq_of_lt h, Nat.zero_mul, Nat.zero_add]

/-- A row of banks from the image's start is the image itself, repeated. -/
theorem prgOffset_start {b : Banks} {size : Nat} (hsize : size % prgBankSize = 0)
    (hbanks : ∀ slot < 4, b.prgBank slot = slot % (size / prgBankSize)) (address : UInt16) :
    b.prgOffset address = (address &&& 0x7FFF).toNat % size := by
  have hspace : (address &&& 0x7FFF).toNat = address.toNat % 0x8000 := by
    rw [UInt16.toNat_and]
    exact Nat.and_two_pow_sub_one_eq_mod _ 15
  have hslot : address.toNat % 0x8000 / prgBankSize < 4 := by
    unfold prgBankSize
    omega
  have hcount : size = prgBankSize * (size / prgBankSize) :=
    (Nat.mul_div_cancel' (Nat.dvd_of_mod_eq_zero hsize)).symm
  unfold prgOffset
  dsimp only
  rw [hbanks _ hslot, hspace]
  conv => rhs; rw [hcount, Nat.mod_mul]
  rw [Nat.add_comm, Nat.mul_comm]

end Banks

namespace Cartridge

/-- The cartridge is one of this program image on a board that switches nothing.  Only its memories may have changed since
it was built. -/
def IsNrom (prg : Array UInt8) (c : Cartridge) : Prop :=
  ∃ chr mirroring built, ofImages prg chr 0 mirroring = .ok built ∧
    c.board = built.board ∧ c.banks = built.banks ∧ c.prg = built.prg

/-- What is built from an image for an NROM board is reset, and so shows the image from its start. -/
theorem ofImages_nrom {prg chr : Array UInt8} {mirroring : Mirroring} {c : Cartridge}
    (h : ofImages prg chr 0 mirroring = .ok c) :
    prg.size % prgBankSize = 0 ∧ c.board = .nrom ∧ c.prg = prg ∧
      ∀ slot < 4, c.banks.prgBank slot = slot % (prg.size / prgBankSize) := by
  obtain ⟨board, banks, hboard, hbanks, -, hbuilt⟩ := ofImages_built h
  obtain rfl : Board.nrom = board := Option.some.inj hboard
  have htable : c.banks = Board.mapStart banks := congrArg Prod.snd hbuilt
  have hbanked := ofImages_banked h
  refine ⟨hbanked.prg, congrArg Prod.fst hbuilt, (ofImages_fits h).prg, fun slot hslot => ?_⟩
  rw [htable, Banks.mapStart_prgBank _ hslot, hbanks.prgCount, ← hbanked.prgCount_eq]

namespace IsNrom

variable {prg : Array UInt8} {c : Cartridge}

theorem board (h : c.IsNrom prg) : c.board = .nrom := by
  obtain ⟨chr, mirroring, built, hbuilt, hboard, -, -⟩ := h
  exact hboard.trans (ofImages_nrom hbuilt).2.1

theorem claims (h : c.IsNrom prg) (address : UInt16) : c.claims address = false := by
  unfold Cartridge.claims
  rw [h.board]
  rfl

/-- **Program space shows the image**, from its start on and repeated. -/
theorem read (h : c.IsNrom prg) {address : UInt16} (ha : 0x8000 ≤ address) :
    prg[(address &&& 0x7FFF).toNat % prg.size]? = some (c.read address) := by
  obtain ⟨chr, mirroring, built, hbuilt, -, hbanks, hprg⟩ := h
  obtain ⟨hsize, -, hown, hslots⟩ := ofImages_nrom hbuilt
  have hoffset := Banks.prgOffset_start hsize hslots address
  have hread : c.prg[c.banks.prgOffset address % c.prg.size]? = some (c.read address) := by
    unfold Cartridge.read
    rw [if_neg (by grind), if_neg (by grind)]
    exact Array.getElem?_eq_getElem _
  rw [← hread, hbanks, hprg, hown, hoffset, Nat.mod_mod]

end IsNrom
end Cartridge
end NesConsole
