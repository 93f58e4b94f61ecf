import NesConsole.Proofs.Cartridge.Fits
import NesConsole.Proofs.Checked
/-!
# The boards' arithmetic is exact

What a board counts, and what it asks of the bank counts, with checks.  A table has at least one bank, an MMC1 board
holds fewer than five bits between writes, and a scanline counter counts down only from above zero; so no check fails on
a cartridge that fits its images.
-/
namespace NesConsole

/-- The table, if bank numbers can be reduced modulo its counts. -/
def Banks.counted? (b : Banks) : Option Banks :=
  if b.prgCount = 0 ∨ b.chrCount = 0 then none else some b

theorem Banks.InRange.counts {source : CartridgeSource} {b : Banks} (h : b.InRange source) :
    0 < b.prgCount ∧ 0 < b.chrCount := by
  rw [h.prgCount, h.chrCount]
  exact ⟨Nat.le_max_right _ _, Nat.le_max_right _ _⟩

theorem Banks.InRange.counted?_eq {source : CartridgeSource} {b : Banks} (h : b.InRange source) :
    b.counted? = some b := by
  obtain ⟨hprg, hchr⟩ := h.counts
  exact if_neg (not_or.2 ⟨Nat.ne_of_gt hprg, Nat.ne_of_gt hchr⟩)

/-- There is at least one program bank of 16 KiB. -/
theorem Banks.sub_prgCount16 (b : Banks) : Checked.sub b.prgCount16 1 = some (b.prgCount16 - 1) :=
  Checked.sub_eq (Nat.le_max_right _ _)

/-! ## Boards with registers -/

namespace Mmc1

def layoutPrg? (m : Mmc1) (banks : Banks) : Option Banks :=
  let bank := (m.prg &&& 0x0F).toNat
  match m.control >>> 2 &&& 0x03 with
  | 0 | 1 => some (banks.selectPrg32 (bank >>> 1))
  | 2 => some ((banks.selectPrg16 0 0).selectPrg16 1 bank)
  | _ => do
    let last ← Checked.sub banks.prgCount16 1
    return (banks.selectPrg16 0 bank).selectPrg16 1 last

def layout? (m : Mmc1) (banks : Banks) : Option Banks := do
  let banks ← m.layoutPrg? (banks.setMirroring m.mirroring)
  return m.layoutChr banks

def write? (m : Mmc1) (address : UInt16) (value : UInt8) (banks : Banks) : Option (Mmc1 × Banks) :=
  if value &&& 0x80 != 0 then do
    let m := { m with control := m.control ||| 0x0C }.clearShift
    let banks ← m.layout? banks
    return (m, banks)
  else do
    let shiftCount ← Checked.addByte m.shiftCount 1
    let m := { m with shift := m.shift >>> 1 ||| (value &&& 1) <<< 4, shiftCount }
    if m.shiftCount < 5 then
      return (m, banks)
    else
      let m := (m.commit address (m.shift &&& 0x1F)).clearShift
      let banks ← m.layout? banks
      return (m, banks)

theorem layout?_eq (m : Mmc1) (banks : Banks) : m.layout? banks = some (m.layout banks) := by
  have hmode : ∀ n : Fin 256, UInt8.ofFin n &&& 0x03 = 0 ∨ UInt8.ofFin n &&& 0x03 = 1 ∨ UInt8.ofFin n &&& 0x03 = 2 ∨
      UInt8.ofFin n &&& 0x03 = 3 := by decide +kernel
  have hprg (banks : Banks) : m.layoutPrg? banks = some (m.layoutPrg banks) := by
    unfold layoutPrg? layoutPrg
    rw [Banks.sub_prgCount16]
    obtain h | h | h | h := hmode (m.control >>> 2).toFin <;>
      · rw [show m.control >>> 2 &&& 0x03 = _ from h]
        rfl
  rw [layout?, hprg]
  rfl

/-- **The bits shifted in are counted exactly.** -/
theorem write?_eq {m : Mmc1} (h : m.shiftCount < 5) (address : UInt16) (value : UInt8) (banks : Banks) :
    m.write? address value banks = some (m.write address value banks) := by
  have hcount : Checked.addByte m.shiftCount 1 = some (m.shiftCount + 1) := by
    have hbits : m.shiftCount.toNat < 5 := UInt8.lt_iff_toNat_lt.1 h
    exact Checked.addByte_eq (Nat.lt_trans (Nat.add_lt_add_right hbits 1) (by decide))
  unfold write? write
  simp only [layout?_eq, hcount, Option.bind_eq_bind, Option.bind_some]
  split
  · rfl
  · split <;> rfl

end Mmc1

namespace Mmc3

def layoutPrg? (m : Mmc3) (table : Banks) : Option Banks := do
  let secondLast := table.prgCount - 2
  let last ← Checked.sub table.prgCount 1
  let swapped ← m.banks[6]?
  let second ← m.banks[7]?
  let table :=
    if m.select &&& 0x40 == 0 then
      (table.selectPrg8 0 swapped.toNat).selectPrg8 2 secondLast
    else
      (table.selectPrg8 0 secondLast).selectPrg8 2 swapped.toNat
  return (table.selectPrg8 1 second.toNat).selectPrg8 3 last

def layout? (m : Mmc3) (table : Banks) : Option Banks := do
  let table ← m.layoutPrg? table
  return m.layoutChr table

/-- Stores a byte in the bank register that the select register names. -/
def setBank? (m : Mmc3) (value : UInt8) : Option Mmc3 :=
  if h : (m.select &&& 0x07).toNat < 8 then
    some { m with banks := m.banks.set (m.select &&& 0x07).toNat value h }
  else
    none

def write? (m : Mmc3) (address : UInt16) (value : UInt8) (table : Banks) : Option (Mmc3 × Banks) :=
  match address &&& 0xE001 with
  | 0x8000 => do
    let m := { m with select := value }
    let table ← m.layout? table
    return (m, table)
  | 0x8001 => do
    let m ← m.setBank? value
    let table ← m.layout? table
    return (m, table)
  | _ => some (m.write address value table)

def hblank? (m : Mmc3) (scanline : UInt16) : Option (Bool × Mmc3) :=
  if clockedBy scanline then do
    let counter ← if m.counter = 0 ∨ m.reload then some m.latch else Checked.subByte m.counter 1
    return (counter == 0 && m.enabled, { m with counter, reload := false })
  else
    some (false, m)

theorem layout?_eq (m : Mmc3) {table : Banks} (h : 0 < table.prgCount) : m.layout? table = some (m.layout table) := by
  rw [layout?, layoutPrg?, Checked.sub_eq h, Vector.getElem?_eq_getElem (show 6 < 8 by decide),
    Vector.getElem?_eq_getElem (show 7 < 8 by decide)]
  rfl

theorem setBank?_eq (m : Mmc3) (value : UInt8) :
    m.setBank? value =
      some { m with banks := m.banks.set (m.select.toNat % 8) value (Nat.mod_lt _ (by decide)) } := by
  have hmask : (m.select &&& 0x07).toNat = m.select.toNat % 8 := Checked.toNat_masked _ 3 rfl
  have hbound : (m.select &&& 0x07).toNat < 8 := hmask ▸ Nat.mod_lt _ (by decide)
  rw [setBank?, dif_pos hbound]
  simp only [hmask]

/-- **MMC3's writes are exact.** -/
theorem write?_eq (m : Mmc3) (address : UInt16) (value : UInt8) {table : Banks} (h : 0 < table.prgCount) :
    m.write? address value table = some (m.write address value table) := by
  unfold write?
  split
  · next hpick =>
    simp only [write, hpick, layout?_eq _ h]
    rfl
  · next hpick =>
    simp only [write, hpick, setBank?_eq, Option.bind_eq_bind, Option.bind_some, layout?_eq _ h]
    rfl
  · rfl

/-- **The scanline counter counts exactly.** -/
theorem hblank?_eq (m : Mmc3) (scanline : UInt16) : m.hblank? scanline = some (m.hblank scanline) := by
  unfold hblank? hblank
  split
  · split
    · rfl
    · next hcounting =>
      obtain ⟨hne, hreload⟩ := not_or.1 hcounting
      have hpos : 1 ≤ m.counter := UInt8.le_iff_toNat_le.2 (Nat.pos_of_ne_zero fun h0 => hne (UInt8.toNat_inj.1 h0))
      rw [Checked.subByte, if_pos hpos]
      simp only [Bool.not_eq_true] at hreload
      obtain ⟨select, banks, mirroring, ramProtect, latch, counter, reload, enabled⟩ := m
      cases hreload
      rfl
  · rfl

end Mmc3

/-! ## Boards -/

namespace Board

/-- A reset board has fresh registers, which lay out the table. -/
def reset? (board : Board) (banks : Banks) : Option (Board × Banks) := do
  let banks ← banks.counted?
  match (board.reset banks).1 with
  | uxRom => do
    let last ← Checked.sub banks.prgCount16 1
    return (uxRom, ((banks.selectPrg16 0 0).selectPrg16 1 last).selectChr8 0)
  | mmc1 m => do return (mmc1 m, ← m.layout? banks)
  | mmc3 m => do return (mmc3 m, ← m.layout? banks)
  | _ => return board.reset banks

def write? (board : Board) (address : UInt16) (value : UInt8) (banks : Banks) : Option (Board × Banks) := do
  let banks ← banks.counted?
  match board with
  | mmc1 m => do
    let (m, banks) ← m.write? address value banks
    return (mmc1 m, banks)
  | mmc3 m => do
    let (m, banks) ← m.write? address value banks
    return (mmc3 m, banks)
  | _ => return board.write address value banks

def hblank? (board : Board) (scanline : UInt16) : Option (Bool × Board) :=
  match board with
  | mmc3 m => do
    let (fired, m) ← m.hblank? scanline
    return (fired, mmc3 m)
  | _ => some (board.hblank scanline)

variable {source : CartridgeSource} {banks : Banks}

theorem reset?_eq (board : Board) (h : banks.InRange source) : board.reset? banks = some (board.reset banks) := by
  rw [reset?, h.counted?_eq, Option.bind_eq_bind, Option.bind_some]
  cases board with
  | mmc1 =>
    dsimp only [reset]
    rw [Mmc1.layout?_eq]
    rfl
  | mmc3 =>
    dsimp only [reset]
    rw [Mmc3.layout?_eq _ h.counts.1]
    rfl
  | uxRom =>
    dsimp only [reset]
    rw [Banks.sub_prgCount16]
    rfl
  | nrom | cnRom | axRom | gxRom | board87 => rfl

theorem write?_eq {board : Board} (hg : board.Genuine) (h : banks.InRange source) (address : UInt16) (value : UInt8) :
    board.write? address value banks = some (board.write address value banks) := by
  rw [write?, h.counted?_eq, Option.bind_eq_bind, Option.bind_some]
  cases board with
  | mmc1 m =>
    dsimp only
    rw [Mmc1.write?_eq hg]
    rfl
  | mmc3 m =>
    dsimp only
    rw [m.write?_eq _ _ h.counts.1]
    rfl
  | nrom | uxRom | cnRom | axRom | gxRom | board87 => rfl

theorem hblank?_eq (board : Board) (scanline : UInt16) : board.hblank? scanline = some (board.hblank scanline) := by
  cases board with
  | mmc3 m =>
    dsimp only [hblank?]
    rw [Mmc3.hblank?_eq]
    rfl
  | nrom | mmc1 | uxRom | cnRom | axRom | gxRom | board87 => rfl

end Board

/-! ## Cartridges -/

namespace Cartridge

def reset? (c : Cartridge) : Option Cartridge := do
  let (board, banks) ← c.board.reset? c.banks
  return { c with board, banks }

theorem image_nonempty (image : Array UInt8) (h : ¬image.size = 0) : 0 < image.size := Nat.pos_of_ne_zero h

theorem image_pos (image : Array UInt8) (h : ¬(image.size = 0 ∨ image.size % prgBankSize ≠ 0)) : 0 < image.size :=
  image_nonempty image (not_or.1 h).1

theorem patternRam_pos : 0 < (Array.replicate chrRamSize (0 : UInt8)).size := by
  rw [Array.size_replicate]
  decide

/-- A cartridge with these images, reset with every check. -/
def ofImages? (prg chr : Array UInt8) (number : UInt16) (mirroring : Mirroring) :
    Option (Except CartridgeError Cartridge) :=
  if hp : prg.size = 0 ∨ prg.size % prgBankSize ≠ 0 then
    some (.error (.programSize prg.size))
  else if chr.size % chrBankSize ≠ 0 then
    some (.error (.patternSize chr.size))
  else
    match Board.ofNumber? number with
    | none => some (.error (.unsupportedBoard number))
    | some board =>
      if hc : chr.size = 0 then
        let banks := Banks.initial prg.size chrRamSize mirroring
        let cartridge : Cartridge :=
          { prg, chr := .replicate chrRamSize 0, chrIsRam := true, banks, board
            prg_pos := image_pos prg hp, chr_pos := patternRam_pos }
        .ok <$> cartridge.reset?
      else
        let banks := Banks.initial prg.size chr.size mirroring
        let cartridge : Cartridge :=
          { prg, chr, chrIsRam := false, banks, board, prg_pos := image_pos prg hp, chr_pos := image_nonempty chr hc }
        .ok <$> cartridge.reset?

def writeBoard? (c : Cartridge) (address : UInt16) (value : UInt8) : Option Cartridge := do
  let (board, banks) ← c.board.write? address value c.banks
  return { c with board, banks }

def hblank? (c : Cartridge) (scanline : UInt16) : Option (Bool × Cartridge) := do
  let (fired, board) ← c.board.hblank? scanline
  return (fired, { c with board })

variable {source : CartridgeSource} {c : Cartridge}

theorem reset?_eq (h : c.banks.InRange source) : c.reset? = some c.reset := by
  rw [reset?, Board.reset?_eq _ h]
  rfl

/-- **No cartridge is built with arithmetic that fails.** -/
theorem ofImages?_eq (prg chr : Array UInt8) (number : UInt16) (mirroring : Mirroring) :
    ofImages? prg chr number mirroring = some (ofImages prg chr number mirroring) := by
  have hbanks := Banks.InRange.initial { prg, chr, number } mirroring
  unfold ofImages? ofImages
  split
  · rfl
  · split
    · rfl
    · cases Board.ofNumber? number with
      | none => rfl
      | some board =>
        dsimp only
        split
        · next hempty =>
          rw [show CartridgeSource.chrSize { prg, chr, number } = chrRamSize from if_pos hempty] at hbanks
          rw [reset?_eq hbanks]
          rfl
        · next hrom =>
          rw [show CartridgeSource.chrSize { prg, chr, number } = chr.size from if_neg hrom] at hbanks
          rw [reset?_eq hbanks]
          rfl

theorem Fits.writeBoard?_eq (h : c.Fits source) (address : UInt16) (value : UInt8) :
    c.writeBoard? address value = some (c.writeBoard address value) := by
  rw [writeBoard?, Board.write?_eq h.board h.banks]
  rfl

theorem hblank?_eq (c : Cartridge) (scanline : UInt16) : c.hblank? scanline = some (c.hblank scanline) := by
  rw [hblank?, Board.hblank?_eq]
  rfl

end Cartridge
end NesConsole
