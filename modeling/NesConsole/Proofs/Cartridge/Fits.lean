import NesConsole.Proofs.Snapshot.Accepted
/-!
# Cartridges and their images

A cartridge stays the one it was built as: its images, the number of its board and the sizes of its bank table never
change, and whatever a board selects lies inside the images.  `Cartridge.Fits` says so, every access keeps it, and of
two cartridges that fit the same source each accepts what the other saves (`Cartridge.load_save`).
-/
namespace NesConsole

/-- What a cartridge is built from. -/
structure CartridgeSource where
  prg : Array UInt8
  /-- Empty for a cartridge with pattern RAM. -/
  chr : Array UInt8
  number : UInt16

namespace CartridgeSource

def chrSize (source : CartridgeSource) : Nat := if source.chr.size = 0 then chrRamSize else source.chr.size

def prgCount (source : CartridgeSource) : Nat := max (source.prg.size / prgBankSize) 1

def chrCount (source : CartridgeSource) : Nat := max (source.chrSize / chrBankSize) 1

end CartridgeSource

/-! ## The bank table -/

namespace Banks

/-- The table is one for these images, and every window shows a bank they have. -/
structure InRange (source : CartridgeSource) (b : Banks) : Prop where
  prgCount : b.prgCount = source.prgCount
  chrCount : b.chrCount = source.chrCount
  prg : ∀ bank ∈ b.prg, bank < source.prgCount
  chr : ∀ bank ∈ b.chr, bank < source.chrCount

namespace InRange

variable {source : CartridgeSource} {b : Banks}

theorem selectPrg8 (h : b.InRange source) (slot bank : Nat) : (b.selectPrg8 slot bank).InRange source :=
  { h with
    prg := fun x hx => by
      rcases @Vector.mem_or_eq_of_mem_set _ _ _ _ _ _ (Nat.mod_lt _ (by decide)) hx with hx | rfl
      · exact h.prg x hx
      · rw [h.prgCount]
        exact Nat.mod_lt _ (Nat.le_max_right _ _) }

theorem selectChr1 (h : b.InRange source) (slot bank : Nat) : (b.selectChr1 slot bank).InRange source :=
  { h with
    chr := fun x hx => by
      rcases @Vector.mem_or_eq_of_mem_set _ _ _ _ _ _ (Nat.mod_lt _ (by decide)) hx with hx | rfl
      · exact h.chr x hx
      · rw [h.chrCount]
        exact Nat.mod_lt _ (Nat.le_max_right _ _) }

theorem foldl {f : Banks → Nat → Banks} (hf : ∀ b i, b.InRange source → (f b i).InRange source) (h : b.InRange source)
    (l : List Nat) : (l.foldl f b).InRange source := by
  induction l generalizing b with
  | nil => exact h
  | cons i l ih => exact ih (hf b i h)

theorem selectPrg16 (h : b.InRange source) (slot bank : Nat) : (b.selectPrg16 slot bank).InRange source :=
  (h.selectPrg8 _ _).selectPrg8 _ _

theorem selectPrg32 (h : b.InRange source) (bank : Nat) : (b.selectPrg32 bank).InRange source :=
  foldl (fun _ _ h => h.selectPrg8 _ _) h _

theorem selectChr2 (h : b.InRange source) (slot bank : Nat) : (b.selectChr2 slot bank).InRange source :=
  (h.selectChr1 _ _).selectChr1 _ _

theorem selectChr4 (h : b.InRange source) (slot bank : Nat) : (b.selectChr4 slot bank).InRange source :=
  foldl (fun _ _ h => h.selectChr1 _ _) h _

theorem selectChr8 (h : b.InRange source) (bank : Nat) : (b.selectChr8 bank).InRange source :=
  foldl (fun _ _ h => h.selectChr1 _ _) h _

theorem setMirroring (h : b.InRange source) (mirroring : Mirroring) : (b.setMirroring mirroring).InRange source :=
  { h with }

theorem initial (source : CartridgeSource) (mirroring : Mirroring) :
    (Banks.initial source.prg.size source.chrSize mirroring).InRange source := by
  refine selectChr8 (selectPrg32 ⟨rfl, rfl, ?_, ?_⟩ 0) 0
  · intro bank hb
    rw [(Vector.mem_replicate.1 hb).2]
    exact Nat.le_max_right _ _
  · intro bank hb
    rw [(Vector.mem_replicate.1 hb).2]
    exact Nat.le_max_right _ _

/-- **A table in range is accepted by every table for the same images.** -/
theorem load_save {other : Banks} (h : b.InRange source) (ho : other.InRange source) : other.load b.save = .ok b := by
  have hp : b.prg.toList.find? (other.prgCount ≤ ·) = none := by
    rw [List.find?_eq_none]
    intro bank hb
    rw [ho.prgCount, decide_eq_true_eq, Nat.not_le]
    exact h.prg bank (Vector.mem_toList_iff.1 hb)
  have hc : b.chr.toList.find? (other.chrCount ≤ ·) = none := by
    rw [List.find?_eq_none]
    intro bank hb
    rw [ho.chrCount, decide_eq_true_eq, Nat.not_le]
    exact h.chr bank (Vector.mem_toList_iff.1 hb)
  simp only [Banks.load, save, hp, hc]
  rw [ho.prgCount, ho.chrCount, ← h.prgCount, ← h.chrCount]

theorem load {other : Banks} {state : BankState} (h : b.InRange source) (hl : b.load state = .ok other) :
    other.InRange source := by
  obtain ⟨hp, hc, rfl⟩ := load_ok hl
  exact { h with
    prg := fun bank hb => h.prgCount ▸ hp bank (Vector.mem_toList_iff.2 hb)
    chr := fun bank hb => h.chrCount ▸ hc bank (Vector.mem_toList_iff.2 hb) }

end InRange
end Banks

/-! ## Boards -/

theorem Mmc1.layout_inRange {source : CartridgeSource} {table : Banks} (m : Mmc1) (h : table.InRange source) :
    (m.layout table).InRange source := by
  have hprg : (m.layoutPrg (table.setMirroring m.mirroring)).InRange source := by
    unfold layoutPrg
    dsimp only
    split
    · exact (h.setMirroring _).selectPrg32 _
    · exact (h.setMirroring _).selectPrg32 _
    · exact ((h.setMirroring _).selectPrg16 _ _).selectPrg16 _ _
    · exact ((h.setMirroring _).selectPrg16 _ _).selectPrg16 _ _
  unfold layout layoutChr
  split
  · exact (hprg.selectChr4 _ _).selectChr4 _ _
  · exact hprg.selectChr8 _

theorem Mmc1.write_inRange {source : CartridgeSource} {table : Banks} (m : Mmc1) (address : UInt16) (value : UInt8)
    (h : table.InRange source) : (m.write address value table).2.InRange source := by
  unfold write
  dsimp only
  split
  · exact layout_inRange _ h
  · split
    · exact h
    · exact layout_inRange _ h

/-- **The fifth bit shifted in is never kept.** -/
theorem Mmc1.write_shiftCount (m : Mmc1) (address : UInt16) (value : UInt8) (table : Banks) :
    (m.write address value table).1.shiftCount < 5 := by
  unfold write
  dsimp only
  split
  · show (0 : UInt8) < 5
    decide
  · split
    · assumption
    · show (0 : UInt8) < 5
      decide

theorem Mmc1.load_save {m : Mmc1} (h : m.shiftCount < 5) : load m.save = .ok m := by
  show ite _ _ _ = _
  rw [if_neg (UInt8.not_le.2 h)]

theorem Mmc3.layout_inRange {source : CartridgeSource} {table : Banks} (m : Mmc3) (h : table.InRange source) :
    (m.layout table).InRange source := by
  have hprg : (m.layoutPrg table).InRange source := by
    unfold layoutPrg
    dsimp only
    split <;> exact (((h.selectPrg8 _ _).selectPrg8 _ _).selectPrg8 _ _).selectPrg8 _ _
  unfold layout layoutChr
  split
  exact (((((hprg.selectChr2 _ _).selectChr2 _ _).selectChr1 _ _).selectChr1 _ _).selectChr1 _ _).selectChr1 _ _

theorem Mmc3.write_inRange {source : CartridgeSource} {table : Banks} (m : Mmc3) (address : UInt16) (value : UInt8)
    (h : table.InRange source) : (m.write address value table).2.InRange source := by
  unfold write
  split
  · exact layout_inRange _ h
  · exact layout_inRange _ h
  · show (applyMirroring _ _).InRange source
    unfold applyMirroring
    split
    · exact h
    · exact h.setMirroring _
  all_goals exact h

theorem toUInt8_ne_zero (flag : Bool) : (flag.toUInt8 != 0) = flag := by
  cases flag <;> decide

theorem Mmc3.load_save (m : Mmc3) : load m.save = .ok m := by
  obtain ⟨select, ⟨⟨banks⟩, size⟩, mirroring, ramProtect, latch, counter, reload, enabled⟩ := m
  match banks, size with
  | [_, _, _, _, _, _, _, _], _ => simp [save, load, toUInt8_ne_zero]

namespace Board

/-- An MMC1 board holds fewer than five bits between writes. -/
def Genuine : Board → Prop
  | mmc1 m => m.shiftCount < 5
  | _ => True

theorem ofNumber?_genuine {number : UInt16} {board : Board} (h : ofNumber? number = some board) : board.Genuine := by
  unfold ofNumber? at h
  split at h <;> cases h <;> first | trivial | (show (0 : UInt8) < 5; decide)

theorem ofNumber?_number {number : UInt16} {board : Board} (h : ofNumber? number = some board) :
    board.number = number := by
  unfold ofNumber? at h
  split at h <;> cases h <;> rfl

theorem write_inRange {source : CartridgeSource} {banks : Banks} (board : Board) (address : UInt16) (value : UInt8)
    (h : banks.InRange source) : (board.write address value banks).2.InRange source := by
  cases board with
  | nrom => exact h
  | mmc1 m => exact m.write_inRange address value h
  | uxRom => exact h.selectPrg16 _ _
  | cnRom | board87 => exact h.selectChr8 _
  | mmc3 m => exact m.write_inRange address value h
  | axRom => exact (h.selectPrg32 _).setMirroring _
  | gxRom => exact (h.selectPrg32 _).selectChr8 _

theorem write_number (board : Board) (address : UInt16) (value : UInt8) (banks : Banks) :
    (board.write address value banks).1.number = board.number := by
  cases board <;> rfl

theorem write_genuine (board : Board) (address : UInt16) (value : UInt8) (banks : Banks) :
    (board.write address value banks).1.Genuine := by
  cases board with
  | mmc1 m => exact m.write_shiftCount address value banks
  | nrom | uxRom | cnRom | mmc3 | axRom | gxRom | board87 => trivial

theorem reset_inRange {source : CartridgeSource} {banks : Banks} (board : Board) (h : banks.InRange source) :
    (board.reset banks).2.InRange source := by
  have hstart : (mapStart banks).InRange source := (h.selectPrg32 0).selectChr8 0
  cases board with
  | nrom | cnRom | gxRom | board87 => exact hstart
  | axRom => exact hstart.setMirroring _
  | uxRom => exact ((h.selectPrg16 _ _).selectPrg16 _ _).selectChr8 _
  | mmc1 => exact Mmc1.layout_inRange {} h
  | mmc3 => exact Mmc3.layout_inRange {} h

theorem reset_number (board : Board) (banks : Banks) : (board.reset banks).1.number = board.number := by
  cases board <;> rfl

theorem reset_genuine (board : Board) (banks : Banks) : (board.reset banks).1.Genuine := by
  cases board with
  | mmc1 => show (0 : UInt8) < 5; decide
  | nrom | uxRom | cnRom | mmc3 | axRom | gxRom | board87 => trivial

theorem claims_number {board other : Board} (h : board.number = other.number) (address : UInt16) :
    board.claims address = other.claims address := by
  have hranges : board.writeRanges = other.writeRanges := by
    cases board <;> cases other <;> first | rfl | simp [number, Mmc1.number, Mmc3.number] at h
  rw [claims, claims, hranges]

theorem hblank_number (board : Board) (scanline : UInt16) : (board.hblank scanline).2.number = board.number := by
  cases board <;> rfl

theorem hblank_genuine {board : Board} (h : board.Genuine) (scanline : UInt16) : (board.hblank scanline).2.Genuine := by
  cases board <;> exact h

theorem load_genuine {board board' : Board} {regs : Array UInt8} (h : board.load regs = .ok board') :
    board'.Genuine := by
  cases board with
  | mmc1 => obtain ⟨m, hm, rfl⟩ := map_eq_ok.1 h; exact (Mmc1.load_ok hm).2
  | mmc3 => obtain ⟨m, -, rfl⟩ := map_eq_ok.1 h; trivial
  | nrom | uxRom | cnRom | axRom | gxRom | board87 =>
    simp only [load] at h
    split at h <;> cases h
    trivial

/-- **A board accepts what another of its number saved.** -/
theorem load_save {board other : Board} (h : board.Genuine) (hn : other.number = board.number) :
    other.load board.save = .ok board := by
  cases board with
  | mmc1 m =>
    cases other with
    | mmc1 => show mmc1 <$> Mmc1.load m.save = _; rw [Mmc1.load_save h]; rfl
    | nrom | uxRom | cnRom | mmc3 | axRom | gxRom | board87 => simp [number, Mmc1.number, Mmc3.number] at hn
  | mmc3 m =>
    cases other with
    | mmc3 => show mmc3 <$> Mmc3.load m.save = _; rw [Mmc3.load_save]; rfl
    | nrom | mmc1 | uxRom | cnRom | axRom | gxRom | board87 => simp [number, Mmc1.number, Mmc3.number] at hn
  | nrom | uxRom | cnRom | axRom | gxRom | board87 =>
    cases other <;> first | rfl | simp [number, Mmc1.number, Mmc3.number] at hn

end Board

/-! ## Cartridges -/

/-- The cartridge is one built from `source`, whatever was done with it since. -/
structure Cartridge.Fits (source : CartridgeSource) (c : Cartridge) : Prop where
  prg : c.prg = source.prg
  number : c.number = source.number
  chrIsRam : c.chrIsRam = decide (source.chr.size = 0)
  chrSize : c.chr.size = source.chrSize
  /-- A pattern image is never written. -/
  chr : c.chrIsRam = false → c.chr = source.chr
  banks : c.banks.InRange source
  board : c.board.Genuine

namespace Cartridge

variable {source : CartridgeSource} {c : Cartridge}

/-- The addresses of program RAM. -/
def InPrgRam (address : UInt16) : Prop := 0x6000 ≤ address.toNat ∧ address.toNat < 0x8000

instance (address : UInt16) : Decidable (InPrgRam address) := inferInstanceAs (Decidable (_ ∧ _))

def setPrgRam (c : Cartridge) (index : Fin prgRamSize) (value : UInt8) : Cartridge :=
  { c with prgRam := c.prgRam.set index value }

theorem get_setPrgRam (c : Cartridge) (index other : Fin prgRamSize) (value : UInt8) :
    (c.setPrgRam index value).prgRam.get other = if index = other then value else c.prgRam.get other := by
  show (c.prgRam.set index value)[other] = if index = other then value else c.prgRam[other]
  simp only [Fin.getElem_fin, Vector.getElem_set, Fin.ext_iff]

/-- What the board leaves of a write. -/
theorem write_left (c : Cartridge) {address : UInt16} (h : c.claims address = false) (value : UInt8) :
    c.write address value = if InPrgRam address then c.setPrgRam (prgRamIndex address) value else c := by
  have hram : (0x6000 ≤ address ∧ address < 0x8000) ↔ InPrgRam address :=
    and_congr UInt16.le_iff_toNat_le UInt16.lt_iff_toNat_lt
  simp only [Cartridge.write, h, Bool.false_eq_true, if_false, hram]
  rfl

namespace Fits

theorem reset (h : c.Fits source) : c.reset.Fits source :=
  { h with
    number := (c.board.reset_number c.banks).trans h.number
    banks := c.board.reset_inRange h.banks
    board := c.board.reset_genuine c.banks }

theorem writeBoard (h : c.Fits source) (address : UInt16) (value : UInt8) : (c.writeBoard address value).Fits source :=
  { h with
    number := (c.board.write_number address value c.banks).trans h.number
    banks := c.board.write_inRange address value h.banks
    board := c.board.write_genuine address value c.banks }

theorem setPrgRam (h : c.Fits source) (index : Fin prgRamSize) (value : UInt8) : (c.setPrgRam index value).Fits source :=
  { h with }

theorem write (h : c.Fits source) (address : UInt16) (value : UInt8) : (c.write address value).Fits source := by
  cases hclaims : c.claims address with
  | true =>
    rw [Cartridge.write, if_pos hclaims]
    exact h.writeBoard address value
  | false =>
    rw [write_left c hclaims]
    split
    · exact h.setPrgRam _ value
    · exact h

theorem writePattern (h : c.Fits source) (address : UInt16) (value : UInt8) :
    (c.writePattern address value).Fits source := by
  unfold Cartridge.writePattern
  split
  · next hram =>
    exact { h with
      chrSize := by simpa only [Array.size_set] using h.chrSize
      chr := fun hrom => by rw [show c.chrIsRam = false from hrom] at hram; cases hram }
  · exact h

theorem hblank (h : c.Fits source) (scanline : UInt16) : (c.hblank scanline).2.Fits source :=
  { h with
    number := (c.board.hblank_number scanline).trans h.number
    board := Board.hblank_genuine h.board scanline }

theorem load {c' : Cartridge} {state : CartridgeState} (h : c.Fits source) (hl : c.load state = .ok c') :
    c'.Fits source := by
  obtain ⟨-, hs, chr, chr_pos, banks, board, -, hsize, hrom, hb, hd, rfl⟩ := load_ok hl
  exact { h with
    number := (Board.number_load hd).trans h.number
    chrSize := hsize.trans h.chrSize
    chr := fun hf => (hrom hf).trans (h.chr hf)
    banks := h.banks.load hb
    board := Board.load_genuine hd }

end Fits

/-- The cartridge is put together from `source` and not yet reset. -/
structure Blank (source : CartridgeSource) (mirroring : Mirroring) (c : Cartridge) : Prop where
  prg : c.prg = source.prg
  chr : c.chr = if source.chr.size = 0 then .replicate chrRamSize 0 else source.chr
  chrIsRam : c.chrIsRam = decide (source.chr.size = 0)
  prgRam : c.prgRam = .replicate prgRamSize 0
  banks : c.banks = .initial source.prg.size source.chrSize mirroring
  board : Board.ofNumber? source.number = some c.board

theorem ofImages_blank {prg chr : Array UInt8} {number : UInt16} {mirroring : Mirroring}
    (h : ofImages prg chr number mirroring = .ok c) : ∃ blank, Blank { prg, chr, number } mirroring blank ∧ blank.reset = c := by
  unfold ofImages at h
  split at h
  · cases h
  · split at h
    · cases h
    · split at h
      · cases h
      · next board hboard =>
        dsimp only at h
        split at h
        · next hempty =>
          cases h
          have hchrSize : CartridgeSource.chrSize { prg, chr, number } = chrRamSize := if_pos hempty
          exact ⟨_, ⟨rfl, (if_pos hempty).symm, (decide_eq_true hempty).symm, rfl, by rw [hchrSize], hboard⟩, rfl⟩
        · next hrom =>
          cases h
          have hchrSize : CartridgeSource.chrSize { prg, chr, number } = chr.size := if_neg hrom
          exact ⟨_, ⟨rfl, (if_neg hrom).symm, (decide_eq_false hrom).symm, rfl, by rw [hchrSize], hboard⟩, rfl⟩

theorem Blank.fits {mirroring : Mirroring} (h : c.Blank source mirroring) : c.Fits source where
  prg := h.prg
  number := Board.ofNumber?_number h.board
  chrIsRam := h.chrIsRam
  chrSize := by
    rw [h.chr, CartridgeSource.chrSize]
    split <;> simp
  chr hrom := by
    have hsize : source.chr.size ≠ 0 := of_decide_eq_false (h.chrIsRam.symm.trans hrom)
    rw [h.chr, if_neg hsize]
  banks := by
    rw [h.banks]
    exact Banks.InRange.initial source mirroring
  board := Board.ofNumber?_genuine h.board

/-- **A cartridge that was built fits what it was built from.** -/
theorem ofImages_fits {prg chr : Array UInt8} {number : UInt16} {mirroring : Mirroring}
    (h : ofImages prg chr number mirroring = .ok c) : c.Fits { prg, chr, number } := by
  obtain ⟨blank, hblank, rfl⟩ := ofImages_blank h
  exact hblank.fits.reset

/-- **A cartridge accepts what another of the same source saved**, and is then the same as that one. -/
theorem load_save {other : Cartridge} (h : c.Fits source) (ho : other.Fits source) : other.load c.save = .ok c := by
  have hn : other.number = c.number := ho.number.trans h.number.symm
  have hram : other.chrIsRam = c.chrIsRam := ho.chrIsRam.trans h.chrIsRam.symm
  have hchr : { other with prgRam := c.prgRam }.loadChrRam c.save.chrRam =
      .ok { other with prgRam := c.prgRam, chr := c.chr, chr_pos := c.chr_pos } := by
    unfold loadChrRam save
    cases hr : c.chrIsRam with
    | true =>
      simp only [hram, hr, if_true]
      exact dif_pos (h.chrSize.trans ho.chrSize.symm)
    | false =>
      have heq : c.chr = other.chr := (h.chr hr).trans (ho.chr (hram.trans hr)).symm
      simp only [hram, hr, heq]
      rfl
  unfold load
  rw [if_neg (show ¬c.save.boardNumber ≠ other.number from not_not_intro hn.symm),
    dif_pos (show c.save.prgRam.size = prgRamSize from c.prgRam.size_toArray)]
  show (loadChrRam { other with prgRam := c.prgRam } c.save.chrRam >>= fun ram => ram.banks.load c.banks.save >>=
    fun banks => ram.board.load c.board.save >>= fun board => pure { ram with banks, board }) = _
  rw [hchr]
  show (other.banks.load c.banks.save >>= fun banks => other.board.load c.board.save >>= fun board => pure _) = _
  rw [h.banks.load_save ho.banks, Board.load_save h.board hn]
  have hprg : other.prg = c.prg := ho.prg.trans h.prg.symm
  obtain ⟨prg, chr, chrIsRam, prgRam, banks, board, prg_pos, chr_pos⟩ := c
  cases hprg
  cases hram
  rfl

end Cartridge
end NesConsole
