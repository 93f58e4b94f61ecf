import NesConsole.Proofs.Snapshot.Loadable
/-!
# Windows stay inside the images

Whatever is done with a cartridge, every entry of its bank table names a whole bank of the image it selects from
(`Cartridge.following_windows`).  The offset a window leads to is then inside the image by itself, and reducing it
modulo the image, as every access does, changes nothing.
-/
namespace NesConsole

/-- What can be done with an inserted cartridge from either side. -/
inductive CartridgeAction where
  | read (address : UInt16)
  | write (address : UInt16) (value : UInt8)
  | readPattern (address : UInt16)
  | writePattern (address : UInt16) (value : UInt8)
  | hblank (scanline : UInt16)
  | reset
  | load (state : CartridgeState)

/-! ## Whole banks -/

namespace CartridgeSource

/-- The images are made of whole banks, as those of every cartridge are. -/
structure Banked (source : CartridgeSource) : Prop where
  prg_pos : 0 < source.prg.size
  prg : source.prg.size % prgBankSize = 0
  chr : source.chr.size % chrBankSize = 0

theorem chrSize_pos (source : CartridgeSource) : 0 < source.chrSize := by
  unfold chrSize
  split
  · decide
  · next hrom => exact Nat.pos_of_ne_zero hrom

namespace Banked

variable {source : CartridgeSource}

theorem prgSize (h : source.Banked) : source.prg.size = source.prgCount * prgBankSize := by
  have hpos := h.prg_pos
  have hwhole := h.prg
  unfold prgCount prgBankSize at *
  omega

theorem chrSize (h : source.Banked) : source.chrSize = source.chrCount * chrBankSize := by
  have hpos := chrSize_pos source
  have hwhole : source.chrSize % chrBankSize = 0 := by
    unfold CartridgeSource.chrSize
    split
    · rfl
    · exact h.chr
  unfold chrCount chrBankSize at *
  omega

theorem prgCount_eq (h : source.Banked) : source.prg.size / prgBankSize = source.prgCount :=
  Nat.div_eq_of_eq_mul_left (by decide) h.prgSize

theorem chrCount_eq (h : source.Banked) : source.chrSize / chrBankSize = source.chrCount :=
  Nat.div_eq_of_eq_mul_left (by decide) h.chrSize

end Banked
end CartridgeSource

theorem Cartridge.ofImages_banked {prg chr : Array UInt8} {number : UInt16} {mirroring : Mirroring} {c : Cartridge}
    (h : ofImages prg chr number mirroring = .ok c) : CartridgeSource.Banked { prg, chr, number } := by
  unfold ofImages at h
  split at h
  · cases h
  · next hprg =>
    split at h
    · cases h
    · next hchr =>
      have hchr : chr.size % chrBankSize = 0 := Decidable.not_not.1 hchr
      exact ⟨by dsimp only; omega, by dsimp only; omega, hchr⟩

/-! ## Offsets -/

namespace Banks

variable {source : CartridgeSource} {b : Banks}

/-- An offset inside a bank is an offset inside the image. -/
theorem bank_offset_lt {bank count within size : Nat} (hbank : bank < count) (hwithin : within < size) :
    bank * size + within < count * size :=
  calc bank * size + within
      < bank * size + size := Nat.add_lt_add_left hwithin _
    _ = (bank + 1) * size := (Nat.succ_mul _ _).symm
    _ ≤ count * size := Nat.mul_le_mul_right _ hbank

theorem InRange.prgOffset (h : b.InRange source) (address : UInt16) :
    b.prgOffset address < source.prgCount * prgBankSize :=
  bank_offset_lt (h.prg _ (Vector.getElem_mem _)) (Nat.mod_lt _ (by decide))

theorem InRange.chrOffset (h : b.InRange source) (address : UInt16) :
    b.chrOffset address < source.chrCount * chrBankSize :=
  bank_offset_lt (h.chr _ (Vector.getElem_mem _)) (Nat.mod_lt _ (by decide))

end Banks

namespace Cartridge

/-- Every window shows a bank of its image, and every access uses the offset that the window gives as it is. -/
structure WindowsInside (c : Cartridge) : Prop where
  prgBanks : ∀ bank ∈ c.banks.prg, bank < c.prg.size / prgBankSize
  chrBanks : ∀ bank ∈ c.banks.chr, bank < c.chr.size / chrBankSize
  prgOffset : ∀ address, c.banks.prgOffset address < c.prg.size
  chrOffset : ∀ address, c.banks.chrOffset address < c.chr.size
  read : ∀ address, 0x8000 ≤ address → c.prg[c.banks.prgOffset address]? = some (c.read address)
  readPattern : ∀ address, c.chr[c.banks.chrOffset address]? = some (c.readPattern address)
  writePattern : ∀ address value, c.chrIsRam = true →
    (c.writePattern address value).chr = c.chr.setIfInBounds (c.banks.chrOffset address) value

variable {source : CartridgeSource} {c : Cartridge}

theorem Fits.windows (h : c.Fits source) (hb : source.Banked) : c.WindowsInside := by
  have hprg : c.prg.size = source.prgCount * prgBankSize := h.prg ▸ hb.prgSize
  have hchr : c.chr.size = source.chrCount * chrBankSize := h.chrSize.trans hb.chrSize
  have hprgOffset (address : UInt16) : c.banks.prgOffset address < c.prg.size := hprg ▸ h.banks.prgOffset address
  have hchrOffset (address : UInt16) : c.banks.chrOffset address < c.chr.size := hchr ▸ h.banks.chrOffset address
  refine ⟨?_, ?_, hprgOffset, hchrOffset, ?_, ?_, ?_⟩
  · rw [hprg, Nat.mul_div_cancel _ (by decide)]
    exact h.banks.prg
  · rw [hchr, Nat.mul_div_cancel _ (by decide)]
    exact h.banks.chr
  · intro address ha
    unfold Cartridge.read
    rw [if_neg (by grind), if_neg (by grind)]
    simp only [Nat.mod_eq_of_lt (hprgOffset address)]
    exact Array.getElem?_eq_getElem _
  · intro address
    unfold Cartridge.readPattern
    simp only [Nat.mod_eq_of_lt (hchrOffset address)]
    exact Array.getElem?_eq_getElem _
  · intro address value hram
    unfold Cartridge.writePattern
    rw [if_pos hram]
    simp only [Nat.mod_eq_of_lt (hchrOffset address)]
    exact (dif_pos (hchrOffset address)).symm

/-! ## Histories -/

/-- A refused load leaves the cartridge as it is, and so does a read. -/
def act (c : Cartridge) : CartridgeAction → Cartridge
  | .read _ | .readPattern _ => c
  | .write address value => c.write address value
  | .writePattern address value => c.writePattern address value
  | .hblank scanline => (c.hblank scanline).2
  | .reset => c.reset
  | .load state =>
    match c.load state with
    | .ok c' => c'
    | .error _ => c

/-- The cartridge after a row of actions. -/
def following (c : Cartridge) (actions : List CartridgeAction) : Cartridge := actions.foldl act c

theorem Fits.act (h : c.Fits source) (action : CartridgeAction) : (c.act action).Fits source := by
  cases action with
  | read | readPattern => exact h
  | write address value => exact h.write address value
  | writePattern address value => exact h.writePattern address value
  | hblank scanline => exact h.hblank scanline
  | reset => exact h.reset
  | load state =>
    simp only [Cartridge.act]
    split
    · next hl => exact h.load hl
    · exact h

theorem Fits.following (h : c.Fits source) (actions : List CartridgeAction) : (c.following actions).Fits source := by
  induction actions generalizing c with
  | nil => exact h
  | cons action actions ih => exact ih (h.act action)

/-- **No history moves a window out of its image**: the images keep their sizes, every bank selected is one they have,
and the reduction modulo the image never changes an offset. -/
theorem following_windows {prg chr : Array UInt8} {number : UInt16} {mirroring : Mirroring}
    (h : ofImages prg chr number mirroring = .ok c) (actions : List CartridgeAction) :
    (c.following actions).prg = prg ∧ (c.following actions).chr.size = (if chr.size = 0 then chrRamSize else chr.size) ∧
      (c.following actions).WindowsInside := by
  have hfits := (ofImages_fits h).following actions
  exact ⟨hfits.prg, hfits.chrSize, hfits.windows (ofImages_banked h)⟩

/-- A UxROM board with three banks of 8 KiB, asked for a bank far beyond them. -/
theorem following_windows_uxRom :
    ∃ (prg : Array UInt8) (c : Cartridge), prg.size = 0x6000 ∧ ofImages prg #[] 2 .vertical = .ok c ∧
      (c.following [.write 0x8000 0xFF, .hblank 0]).prg = prg ∧
      (c.following [.write 0x8000 0xFF, .hblank 0]).chr.size = chrRamSize ∧
      (c.following [.write 0x8000 0xFF, .hblank 0]).WindowsInside := by
  let source : CartridgeSource := { prg := .replicate 0x6000 0xEA, chr := #[], number := 2 }
  obtain ⟨c, hc⟩ := ofImages_ok source (by simp [source]) (by simp [source, prgBankSize]) rfl rfl .vertical
  exact ⟨source.prg, c, by simp [source], hc, following_windows hc _⟩

end Cartridge
end NesConsole
