import NesConsole.Proofs.Cartridge.Selections
/-!
# Bank units

Boards select banks of seven units, three of program space and four of pattern space, and each unit has a function of its
own.  All of them are a row of narrow selections (`Banks.select_eq_row`), so what a selection does to a window is said once
for every unit (`Banks.bank_select`), and a table is known by its images and what its windows show.
-/
namespace NesConsole

/-! ## Spaces, units and selections -/

/-- The two address spaces of a cartridge. -/
inductive BankSpace where
  | program
  | pattern
  deriving DecidableEq

namespace BankSpace

def windows : BankSpace → Nat
  | program => 4
  | pattern => 8

/-- Bytes of one window. -/
def narrow : BankSpace → Nat
  | program => prgBankSize
  | pattern => chrBankSize

def size (space : BankSpace) : Nat := space.windows * space.narrow

theorem narrow_pos (space : BankSpace) : 0 < space.narrow := by cases space <;> decide

theorem size_pos (space : BankSpace) : 0 < space.size := by cases space <;> decide

/-- The window that an address lies in. -/
def window (space : BankSpace) (address : UInt16) : Nat := address.toNat % space.size / space.narrow

theorem window_lt (space : BankSpace) (address : UInt16) : space.window address < space.windows :=
  (Nat.div_lt_iff_lt_mul space.narrow_pos).2 (Nat.mod_lt _ space.size_pos)

/-- An address by its window, and its place there. -/
theorem window_add (space : BankSpace) (address : UInt16) :
    space.window address * space.narrow + address.toNat % space.narrow = address.toNat % space.size := by
  rw [← Nat.mod_mul_left_mod address.toNat space.windows]
  exact Nat.div_add_mod' _ _

end BankSpace

/-- The units that banks are selected in, by their size in KiB. -/
inductive BankUnit where
  | prg8 | prg16 | prg32
  | chr1 | chr2 | chr4 | chr8
  deriving DecidableEq

namespace BankUnit

def space : BankUnit → BankSpace
  | prg8 | prg16 | prg32 => .program
  | chr1 | chr2 | chr4 | chr8 => .pattern

/-- Windows that a bank of this unit fills. -/
def width : BankUnit → Nat
  | prg8 | chr1 => 1
  | prg16 | chr2 => 2
  | prg32 | chr4 => 4
  | chr8 => 8

/-- Bytes of a bank. -/
def size (unit : BankUnit) : Nat := unit.width * unit.space.narrow

/-- Places that a bank of this unit can be shown at. -/
def slots : BankUnit → Nat
  | prg8 => 4
  | prg16 => 2
  | prg32 => 1
  | chr1 => 8
  | chr2 => 4
  | chr4 => 2
  | chr8 => 1

theorem width_pos (unit : BankUnit) : 0 < unit.width := by cases unit <;> decide

theorem slots_pos (unit : BankUnit) : 0 < unit.slots := by cases unit <;> decide

theorem slots_width (unit : BankUnit) : unit.slots * unit.width = unit.space.windows := by cases unit <;> rfl

/-- Units of one space divide each other. -/
theorem width_dvd {unit unit' : BankUnit} (h : unit.width ≤ unit'.width) : unit.width ∣ unit'.width := by
  cases unit <;> cases unit' <;> revert h <;> decide

end BankUnit

/-- A bank, counted in its unit, and the slot to show it at.  The widest units have only one slot. -/
structure BankSelection where
  unit : BankUnit
  slot : Nat
  bank : Nat
  deriving DecidableEq

namespace BankSelection

/-- The first window of the selection. -/
def first (s : BankSelection) : Nat := s.slot % s.unit.slots * s.unit.width

theorem first_le (s : BankSelection) : s.first + s.unit.width ≤ s.unit.space.windows := by
  rw [first, ← Nat.succ_mul, ← s.unit.slots_width]
  exact Nat.mul_le_mul_right _ (Nat.mod_lt _ s.unit.slots_pos)

/-- The window is one of those selected. -/
def Shows (s : BankSelection) (window : Nat) : Prop := s.first ≤ window ∧ window < s.first + s.unit.width

instance (s : BankSelection) (window : Nat) : Decidable (s.Shows window) := inferInstanceAs (Decidable (_ ∧ _))

/-- The address lies in the selected windows.  It is counted modulo the size of the space, which also counts it from the
start of program space, since that is a multiple of the size. -/
def Covers (s : BankSelection) (address : UInt16) : Prop :=
  let within := address.toNat % s.unit.space.size
  s.first * s.unit.space.narrow ≤ within ∧ within < s.first * s.unit.space.narrow + s.unit.size

instance (s : BankSelection) (address : UInt16) : Decidable (s.Covers address) := inferInstanceAs (Decidable (_ ∧ _))

theorem covers_iff (s : BankSelection) (address : UInt16) :
    s.Covers address ↔ s.Shows (s.unit.space.window address) := by
  have hpos := s.unit.space.narrow_pos
  rw [Covers, Shows, BankSpace.window, BankUnit.size, ← Nat.add_mul, Nat.le_div_iff_mul_le hpos,
    Nat.div_lt_iff_lt_mul hpos]

/-- The place of an address in the selected bank. -/
theorem Covers.within {s : BankSelection} {address : UInt16} (h : s.Covers address) :
    (s.unit.space.window address - s.first) * s.unit.space.narrow + address.toNat % s.unit.space.narrow =
      address.toNat % s.unit.size := by
  obtain ⟨hfirst, hlast⟩ := h
  have hspace : s.unit.space.size = s.unit.slots * s.unit.size := by
    rw [BankSpace.size, ← s.unit.slots_width, BankUnit.size, Nat.mul_assoc]
  have hstart : s.first * s.unit.space.narrow = s.slot % s.unit.slots * s.unit.size := Nat.mul_assoc _ _ _
  have hmod : address.toNat % s.unit.size = address.toNat % s.unit.space.size - s.first * s.unit.space.narrow := by
    obtain ⟨place, hplace⟩ := Nat.exists_eq_add_of_le hfirst
    rw [← Nat.mod_mul_left_mod address.toNat s.unit.slots, ← hspace, hplace, hstart, Nat.mul_add_mod_self_right,
      Nat.add_sub_cancel_left, Nat.mod_eq_of_lt (by omega)]
  rw [hmod, ← s.unit.space.window_add, Nat.sub_mul]
  have hwindow : s.first * s.unit.space.narrow ≤ s.unit.space.window address * s.unit.space.narrow :=
    Nat.mul_le_mul_right _ ((s.covers_iff address).1 ⟨hfirst, hlast⟩).1
  omega

end BankSelection

namespace Banks

/-- The narrow banks of the image that the space shows. -/
def count (b : Banks) : BankSpace → Nat
  | .program => b.prgCount
  | .pattern => b.chrCount

/-- Bytes of the image that the space shows. -/
def image (b : Banks) (space : BankSpace) : Nat := b.count space * space.narrow

/-- The narrow bank in a window. -/
def bank (b : Banks) : BankSpace → Nat → Nat
  | .program => b.prgBank
  | .pattern => b.chrBank

def offset (b : Banks) : BankSpace → UInt16 → Nat
  | .program => b.prgOffset
  | .pattern => b.chrOffset

def select (b : Banks) (s : BankSelection) : Banks :=
  match s.unit with
  | .prg8 => b.selectPrg8 s.slot s.bank
  | .prg16 => b.selectPrg16 s.slot s.bank
  | .prg32 => b.selectPrg32 s.bank
  | .chr1 => b.selectChr1 s.slot s.bank
  | .chr2 => b.selectChr2 s.slot s.bank
  | .chr4 => b.selectChr4 s.slot s.bank
  | .chr8 => b.selectChr8 s.bank

/-! ## Selections as rows of narrow ones -/

def selectNarrow (b : Banks) : BankSpace → Nat → Nat → Banks
  | .program => b.selectPrg8
  | .pattern => b.selectChr1

/-- Shows `n` narrow banks that follow each other from a window on. -/
def selectRow (b : Banks) (space : BankSpace) (first bank n : Nat) : Banks :=
  (List.range n).foldl (fun b i => b.selectNarrow space (first + i) (bank + i)) b

theorem selectRow_succ (b : Banks) (space : BankSpace) (first bank n : Nat) :
    b.selectRow space first bank (n + 1) = (b.selectRow space first bank n).selectNarrow space (first + n) (bank + n) := by
  simp only [selectRow, List.range_succ, List.foldl_append, List.foldl_cons, List.foldl_nil]

/-- **Every selection is a row of narrow ones.** -/
theorem select_eq_row (b : Banks) (s : BankSelection) :
    b.select s = b.selectRow s.unit.space s.first (s.bank * s.unit.width) s.unit.width := by
  obtain ⟨unit, slot, bank⟩ := s
  cases unit with
  | prg8 | chr1 =>
    simp [select, selectRow, selectNarrow, BankSelection.first, BankUnit.width, BankUnit.space, BankUnit.slots, selectPrg8,
      selectChr1]
  | prg16 | chr2 | chr4 => rfl
  | prg32 | chr8 =>
    simp [select, selectRow, selectNarrow, BankSelection.first, BankUnit.width, BankUnit.space, BankUnit.slots,
      selectPrg32, selectChr8, Nat.mod_one]

/-- What a selection leaves as it is. -/
structure SameImages (b b' : Banks) : Prop where
  prgCount : b.prgCount = b'.prgCount
  chrCount : b.chrCount = b'.chrCount
  mirroring : b.mirroring = b'.mirroring

namespace SameImages

variable {b b' : Banks}

theorem count (h : b.SameImages b') (space : BankSpace) : b.count space = b'.count space := by
  cases space with
  | program => exact h.prgCount
  | pattern => exact h.chrCount

theorem narrow (h : b.SameImages b') (space : BankSpace) (slot bank : Nat) :
    (b.selectNarrow space slot bank).SameImages b' := by
  cases space <;> exact ⟨h.prgCount, h.chrCount, h.mirroring⟩

theorem row (b : Banks) (space : BankSpace) (first bank n : Nat) : (b.selectRow space first bank n).SameImages b := by
  induction n with
  | zero => exact ⟨rfl, rfl, rfl⟩
  | succ n ih =>
    rw [selectRow_succ]
    exact ih.narrow space (first + n) (bank + n)

theorem select (b : Banks) (s : BankSelection) : (b.select s).SameImages b := by
  rw [select_eq_row]
  exact row b _ _ _ _

theorem trans {b'' : Banks} (h : b.SameImages b') (h' : b'.SameImages b'') : b.SameImages b'' :=
  ⟨h.prgCount.trans h'.prgCount, h.chrCount.trans h'.chrCount, h.mirroring.trans h'.mirroring⟩

theorem symm (h : b.SameImages b') : b'.SameImages b := ⟨h.prgCount.symm, h.chrCount.symm, h.mirroring.symm⟩

theorem foldl (b : Banks) (selections : List BankSelection) : (selections.foldl Banks.select b).SameImages b := by
  induction selections generalizing b with
  | nil => exact ⟨rfl, rfl, rfl⟩
  | cons s selections ih => exact (ih (b.select s)).trans (select b s)

/-- Tables of the same images are the same if every window shows the same bank. -/
theorem eq_of_bank (h : b.SameImages b')
    (hbank : ∀ space : BankSpace, ∀ window < space.windows, b.bank space window = b'.bank space window) : b = b' := by
  have hprg : b.prg = b'.prg := by
    ext window hwindow
    have hbank := hbank .program window hwindow
    simp only [bank, prgBank, Nat.mod_eq_of_lt hwindow] at hbank
    exact hbank
  have hchr : b.chr = b'.chr := by
    ext window hwindow
    have hbank := hbank .pattern window hwindow
    simp only [bank, chrBank, Nat.mod_eq_of_lt hwindow] at hbank
    exact hbank
  obtain ⟨hprgCount, hchrCount, hmirroring⟩ := h
  cases b
  cases b'
  simp_all only

end SameImages

/-! ## What the windows show -/

theorem bank_selectNarrow (b : Banks) (space space' : BankSpace) {slot bank window : Nat} (hslot : slot < space.windows)
    (hwindow : window < space'.windows) :
    (b.selectNarrow space slot bank).bank space' window =
      if space' = space ∧ window = slot then bank % b.count space else b.bank space' window := by
  cases space <;> cases space' <;>
    simp only [BankSpace.windows] at hslot hwindow <;>
    simp [selectNarrow, Banks.bank, selectPrg8, selectChr1, prgBank, chrBank, count, Vector.getElem_set,
      Nat.mod_eq_of_lt, hslot, hwindow, eq_comm]

/-- By induction on the length of the row, which is written from its first window on. -/
theorem bank_selectRow (b : Banks) (space space' : BankSpace) {first bank n window : Nat}
    (hrow : first + n ≤ space.windows) (hwindow : window < space'.windows) :
    (b.selectRow space first bank n).bank space' window =
      if space' = space ∧ first ≤ window ∧ window < first + n then (bank + (window - first)) % b.count space
      else b.bank space' window := by
  induction n with
  | zero => rw [if_neg (by omega)]; rfl
  | succ n ih =>
    rw [selectRow_succ, bank_selectNarrow _ _ _ (by omega) hwindow, (SameImages.row b _ _ _ _).count, ih (by omega)]
    by_cases hspace : space' = space
    · by_cases hlast : window = first + n
      · subst hlast
        rw [if_pos ⟨hspace, rfl⟩, if_pos ⟨hspace, by omega, by omega⟩, Nat.add_sub_cancel_left]
      · rw [if_neg (by simp [hlast])]
        congr 1
        simp only [hspace, true_and, eq_iff_iff]
        omega
    · simp [hspace]

/-- **What a selection does to a window**: those it selects show the narrow banks its bank is made of, in their order, and
the others keep theirs. -/
theorem bank_select (b : Banks) (s : BankSelection) (space : BankSpace) {window : Nat} (hwindow : window < space.windows) :
    (b.select s).bank space window =
      if space = s.unit.space ∧ s.Shows window then
        (s.bank * s.unit.width + (window - s.first)) % b.count s.unit.space
      else b.bank space window := by
  rw [select_eq_row]
  exact b.bank_selectRow s.unit.space space s.first_le hwindow

end Banks
end NesConsole
