import NesConsole.Proofs.Cartridge.Windows
/-!
# What a selection shows

A wide selection is a row of narrow ones.  Where a row of selections covers a whole space nothing of the table before is
left, and the outcome is written down window by window.  Seen from the addresses, windows that show consecutive narrow
banks show one wide bank of the image (`Cartridge.Fits.showsPrg`, `Cartridge.Fits.showsChr`), also where the image ends
inside it and starts over.
-/
namespace NesConsole

namespace Banks

/-! ## Selections that leave nothing of a table -/

theorem four_windows (prg : Vector Nat 4) : ∃ w0 w1 w2 w3, prg = #v[w0, w1, w2, w3] := by
  obtain ⟨⟨prg⟩, hprg⟩ := prg
  match prg, hprg with
  | [w0, w1, w2, w3], _ => exact ⟨w0, w1, w2, w3, rfl⟩

theorem eight_windows (chr : Vector Nat 8) :
    ∃ w0 w1 w2 w3 w4 w5 w6 w7, chr = #v[w0, w1, w2, w3, w4, w5, w6, w7] := by
  obtain ⟨⟨chr⟩, hchr⟩ := chr
  match chr, hchr with
  | [w0, w1, w2, w3, w4, w5, w6, w7], _ => exact ⟨w0, w1, w2, w3, w4, w5, w6, w7, rfl⟩

theorem selectPrg32_eq (b : Banks) (bank : Nat) :
    b.selectPrg32 bank = { b with prg := .ofFn fun slot => (bank * 4 + slot) % b.prgCount } := by
  obtain ⟨prgCount, chrCount, prg, chr, mirroring⟩ := b
  obtain ⟨w0, w1, w2, w3, rfl⟩ := four_windows prg
  rfl

theorem selectPrg16_halves (b : Banks) (low high : Nat) :
    (b.selectPrg16 0 low).selectPrg16 1 high =
      { b with prg := .ofFn fun slot => ((if slot < 2 then low else high) * 2 + slot % 2) % b.prgCount } := by
  obtain ⟨prgCount, chrCount, prg, chr, mirroring⟩ := b
  obtain ⟨w0, w1, w2, w3, rfl⟩ := four_windows prg
  rfl

theorem selectChr8_eq (b : Banks) (bank : Nat) :
    b.selectChr8 bank = { b with chr := .ofFn fun slot => (bank * 8 + slot) % b.chrCount } := by
  obtain ⟨prgCount, chrCount, prg, chr, mirroring⟩ := b
  obtain ⟨w0, w1, w2, w3, w4, w5, w6, w7, rfl⟩ := eight_windows chr
  rfl

theorem selectChr4_halves (b : Banks) (low high : Nat) :
    (b.selectChr4 0 low).selectChr4 1 high =
      { b with chr := .ofFn fun slot => ((if slot < 4 then low else high) * 4 + slot % 4) % b.chrCount } := by
  obtain ⟨prgCount, chrCount, prg, chr, mirroring⟩ := b
  obtain ⟨w0, w1, w2, w3, w4, w5, w6, w7, rfl⟩ := eight_windows chr
  rfl

theorem mapStart_eq (t : Banks) :
    Board.mapStart t = { t with
      prg := .ofFn fun slot => (0 * 4 + slot) % t.prgCount, chr := .ofFn fun slot => (0 * 8 + slot) % t.chrCount } := by
  unfold Board.mapStart
  rw [selectPrg32_eq, selectChr8_eq]

/-- The first 16 KiB bank below the last one. -/
theorem mapEnds_eq (t : Banks) :
    ((t.selectPrg16 0 0).selectPrg16 1 (t.prgCount16 - 1)).selectChr8 0 = { t with
      prg := .ofFn fun slot => ((if slot < 2 then 0 else max (t.prgCount / 2) 1 - 1) * 2 + slot % 2) % t.prgCount
      chr := .ofFn fun slot => (0 * 8 + slot) % t.chrCount } := by
  rw [selectPrg16_halves, selectChr8_eq]
  rfl

/-! ## Addresses of a window -/

theorem prgOffset_window (b : Banks) {slot : Nat} (hslot : slot < 4) {address : UInt16}
    (hfirst : 0x8000 + slot * prgBankSize ≤ address.toNat) (hlast : address.toNat < 0x8000 + (slot + 1) * prgBankSize) :
    b.prgOffset address = b.prg[slot] * prgBankSize + (address.toNat - (0x8000 + slot * prgBankSize)) := by
  have hspace : address.toNat % 0x8000 / prgBankSize % 4 = slot := by
    unfold prgBankSize at *
    omega
  have hwithin : address.toNat % 0x8000 % prgBankSize = address.toNat - (0x8000 + slot * prgBankSize) := by
    unfold prgBankSize at *
    omega
  simp only [prgOffset, prgBank, hspace, hwithin]

theorem chrOffset_window (b : Banks) {slot : Nat} (hslot : slot < 8) {address : UInt16}
    (hfirst : slot * chrBankSize ≤ address.toNat) (hlast : address.toNat < (slot + 1) * chrBankSize) :
    b.chrOffset address = b.chr[slot] * chrBankSize + (address.toNat - slot * chrBankSize) := by
  have hspace : address.toNat % 0x2000 / chrBankSize % 8 = slot := by
    unfold chrBankSize at *
    omega
  have hwithin : address.toNat % 0x2000 % chrBankSize = address.toNat - slot * chrBankSize := by
    unfold chrBankSize at *
    omega
  simp only [chrOffset, chrBank, hspace, hwithin]

end Banks

namespace Cartridge

/-! ## Banks seen from the addresses -/

/-- The `size` bytes of program space from `first` on are a bank of the image.  Banks are of that size and counted
modulo the image. -/
def ShowsPrg (c : Cartridge) (first size bank : Nat) : Prop :=
  ∀ address : UInt16, first ≤ address.toNat → address.toNat < first + size →
    c.banks.prgOffset address = (bank * size + (address.toNat - first)) % c.prg.size ∧
      c.prg[(bank * size + (address.toNat - first)) % c.prg.size]? = some (c.read address)

/-- The same of pattern space. -/
def ShowsChr (c : Cartridge) (first size bank : Nat) : Prop :=
  ∀ address : UInt16, first ≤ address.toNat → address.toNat < first + size →
    c.banks.chrOffset address = (bank * size + (address.toNat - first)) % c.chr.size ∧
      c.chr[(bank * size + (address.toNat - first)) % c.chr.size]? = some (c.readPattern address)

variable {source : CartridgeSource} {c : Cartridge}

/-- A row of narrow banks that follow each other, each modulo the image, is one wide bank modulo the image. -/
theorem narrow_of_wide {bank n i count size within : Nat} (hwithin : within < size) :
    (bank * n + i) % count * size + within = (bank * (n * size) + (i * size + within)) % (count * size) := by
  have hwide : bank * (n * size) + (i * size + within) = size * (bank * n + i) + within := by
    rw [Nat.mul_comm size, Nat.add_mul, Nat.mul_assoc, Nat.add_assoc]
  have hbank : (size * (bank * n + i) + within) / size = bank * n + i := by
    rw [Nat.mul_add_div (Nat.zero_lt_of_lt hwithin), Nat.div_eq_of_lt hwithin, Nat.add_zero]
  rw [hwide, Nat.mul_comm count, Nat.mod_mul, hbank, Nat.mul_add_mod, Nat.mod_eq_of_lt hwithin, Nat.add_comm,
    Nat.mul_comm size]

theorem Fits.prg_banks (h : c.Fits source) (hb : source.Banked) : c.prg.size = c.banks.prgCount * prgBankSize := by
  rw [h.prg, h.banks.prgCount, hb.prgSize]

theorem Fits.chr_banks (h : c.Fits source) (hb : source.Banked) : c.chr.size = c.banks.chrCount * chrBankSize := by
  rw [h.chrSize, h.banks.chrCount, hb.chrSize]

/-- **A row of program windows that show consecutive narrow banks shows a wide one.** -/
theorem Fits.showsPrg (h : c.Fits source) (hb : source.Banked) {slot n bank : Nat} (hspace : slot + n ≤ 4)
    (hbanks : ∀ i (hi : i < n), c.banks.prg[slot + i] = (bank * n + i) % c.banks.prgCount) :
    c.ShowsPrg (0x8000 + slot * prgBankSize) (n * prgBankSize) bank := by
  intro address hfirst hlast
  obtain ⟨within, hwithin⟩ := Nat.exists_eq_add_of_le hfirst
  have hi : within / prgBankSize < n := (Nat.div_lt_iff_lt_mul (by decide)).2 (by omega)
  have hslot : slot + within / prgBankSize < 4 := by omega
  have hmod : within % prgBankSize < prgBankSize := Nat.mod_lt _ (by decide)
  have hdiv : within / prgBankSize * prgBankSize + within % prgBankSize = within := Nat.div_add_mod' _ _
  have hoffset : c.banks.prgOffset address =
      (bank * (n * prgBankSize) + (address.toNat - (0x8000 + slot * prgBankSize))) % c.prg.size := by
    rw [c.banks.prgOffset_window hslot (by rw [Nat.add_mul]; omega) (by rw [Nat.add_mul, Nat.add_mul]; omega),
      hbanks _ hi, h.prg_banks hb,
      show address.toNat - (0x8000 + (slot + within / prgBankSize) * prgBankSize) = within % prgBankSize by
        rw [Nat.add_mul]; omega,
      show address.toNat - (0x8000 + slot * prgBankSize) = within by omega, narrow_of_wide hmod, hdiv]
  refine ⟨hoffset, ?_⟩
  rw [← hoffset]
  exact (h.windows hb).read address (UInt16.le_iff_toNat_le.2 (Nat.le_trans (Nat.le_add_right _ _) hfirst))

theorem Fits.showsPrg_window (h : c.Fits source) (hb : source.Banked) {slot bank : Nat} (hslot : slot < 4)
    (hbank : c.banks.prg[slot] = bank % c.banks.prgCount) :
    c.ShowsPrg (0x8000 + slot * prgBankSize) prgBankSize bank := by
  have hrow : c.ShowsPrg (0x8000 + slot * prgBankSize) (1 * prgBankSize) bank := h.showsPrg hb hslot fun i hi => by
    obtain rfl : i = 0 := by omega
    rw [Nat.mul_one]
    exact hbank
  rwa [Nat.one_mul] at hrow

/-- **A row of pattern windows that show consecutive narrow banks shows a wide one.** -/
theorem Fits.showsChr (h : c.Fits source) (hb : source.Banked) {slot n bank : Nat} (hspace : slot + n ≤ 8)
    (hbanks : ∀ i (hi : i < n), c.banks.chr[slot + i] = (bank * n + i) % c.banks.chrCount) :
    c.ShowsChr (slot * chrBankSize) (n * chrBankSize) bank := by
  intro address hfirst hlast
  obtain ⟨within, hwithin⟩ := Nat.exists_eq_add_of_le hfirst
  have hi : within / chrBankSize < n := (Nat.div_lt_iff_lt_mul (by decide)).2 (by omega)
  have hslot : slot + within / chrBankSize < 8 := by omega
  have hmod : within % chrBankSize < chrBankSize := Nat.mod_lt _ (by decide)
  have hdiv : within / chrBankSize * chrBankSize + within % chrBankSize = within := Nat.div_add_mod' _ _
  have hoffset : c.banks.chrOffset address =
      (bank * (n * chrBankSize) + (address.toNat - slot * chrBankSize)) % c.chr.size := by
    rw [c.banks.chrOffset_window hslot (by rw [Nat.add_mul]; omega) (by rw [Nat.add_mul, Nat.add_mul]; omega),
      hbanks _ hi, h.chr_banks hb,
      show address.toNat - (slot + within / chrBankSize) * chrBankSize = within % chrBankSize by
        rw [Nat.add_mul]; omega,
      show address.toNat - slot * chrBankSize = within by omega, narrow_of_wide hmod, hdiv]
  refine ⟨hoffset, ?_⟩
  rw [← hoffset]
  exact (h.windows hb).readPattern address

end Cartridge
end NesConsole
