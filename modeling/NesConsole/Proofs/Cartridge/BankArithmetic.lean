import Mathlib.Data.Nat.ModEq
import NesConsole.Proofs.Cartridge.BankUnits
/-!
# Bank selection is linear

Seen from the addresses, the windows of a selection show one bank of its unit, counted modulo the image and not modulo a
number of banks, so it may start over in the middle.  How wide a unit is does not matter otherwise: a selection is any row
of narrower ones that belong to it and leave out no window (`Banks.foldl_parts`), and its bank counts modulo the number of
banks, where the image has a whole number of them (`Banks.select_modEq`).
-/
namespace NesConsole

namespace Banks

/-! ## What the addresses show -/

theorem offset_eq (b : Banks) (space : BankSpace) (address : UInt16) :
    b.offset space address =
      b.bank space (space.window address) * space.narrow + address.toNat % space.narrow := by
  cases space with
  | program =>
    show b.prgBank _ * prgBankSize + address.toNat % (4 * prgBankSize) % prgBankSize = _
    rw [Nat.mod_mul_left_mod]
    rfl
  | pattern =>
    show b.chrBank _ * chrBankSize + address.toNat % (8 * chrBankSize) % chrBankSize = _
    rw [Nat.mod_mul_left_mod]
    rfl

theorem offset_select (b : Banks) {s : BankSelection} {address : UInt16} (h : s.Covers address) :
    (b.select s).offset s.unit.space address =
      (s.bank * s.unit.size + address.toNat % s.unit.size) % b.image s.unit.space := by
  have hshows := (s.covers_iff address).1 h
  rw [offset_eq, bank_select _ _ _ (BankSpace.window_lt _ _), if_pos ⟨rfl, hshows⟩,
    Cartridge.narrow_of_wide (Nat.mod_lt _ s.unit.space.narrow_pos), h.within]
  rfl

theorem offset_select_outside (b : Banks) {s : BankSelection} {space : BankSpace} {address : UInt16}
    (h : space = s.unit.space → ¬s.Covers address) : (b.select s).offset space address = b.offset space address := by
  have hkept : ¬(space = s.unit.space ∧ s.Shows (space.window address)) := by
    rintro ⟨rfl, hshows⟩
    exact h rfl ((s.covers_iff address).2 hshows)
  rw [offset_eq, bank_select _ _ _ (space.window_lt address), if_neg hkept, offset_eq]

end Banks

/-! ## Narrower selections -/

namespace BankSelection

/-- One of the selections that a wider one is made of: it selects some of its windows, and the bank that belongs there. -/
structure IsPart (part s : BankSelection) : Prop where
  space : part.unit.space = s.unit.space
  first : s.first ≤ part.first
  last : part.first + part.unit.width ≤ s.first + s.unit.width
  bank : part.bank * part.unit.width = s.bank * s.unit.width + (part.first - s.first)

/-- The `i`-th of the selections of a narrower unit that a selection is made of. -/
def piece (s : BankSelection) (unit : BankUnit) (i : Nat) : BankSelection :=
  let pieces := s.unit.width / unit.width
  { unit, slot := s.slot % s.unit.slots * pieces + i, bank := s.bank * pieces + i }

def split (s : BankSelection) (unit : BankUnit) : List BankSelection :=
  (List.range (s.unit.width / unit.width)).map (s.piece unit)

end BankSelection

namespace Banks

/-- By induction on the parts: of two that show a window the later one counts, and both show the same bank there. -/
theorem bank_foldl_parts (b : Banks) {s : BankSelection} {parts : List BankSelection}
    (hparts : ∀ part ∈ parts, part.IsPart s) (space : BankSpace) {window : Nat} (hwindow : window < space.windows) :
    (parts.foldl select b).bank space window =
      if space = s.unit.space ∧ ∃ part ∈ parts, part.Shows window then
        (s.bank * s.unit.width + (window - s.first)) % b.count s.unit.space
      else b.bank space window := by
  induction parts generalizing b with
  | nil => simp
  | cons part parts ih =>
    obtain ⟨hpart, hparts⟩ := List.forall_mem_cons.1 hparts
    rw [List.foldl_cons, ih (b.select part) hparts, (SameImages.select b part).count, bank_select _ _ _ hwindow,
      hpart.space, hpart.bank]
    by_cases hlater : space = s.unit.space ∧ ∃ part ∈ parts, part.Shows window
    · obtain ⟨hspace, later, hmem, hshows⟩ := hlater
      rw [if_pos ⟨hspace, later, hmem, hshows⟩, if_pos ⟨hspace, later, List.mem_cons_of_mem _ hmem, hshows⟩]
    · rw [if_neg hlater]
      by_cases hhere : space = s.unit.space ∧ part.Shows window
      · obtain ⟨hspace, hshows⟩ := hhere
        have hplace : part.first - s.first + (window - part.first) = window - s.first := by
          have hstart := hpart.first
          have hreached := hshows.1
          omega
        rw [if_pos ⟨hspace, hshows⟩, if_pos ⟨hspace, part, List.mem_cons_self, hshows⟩, Nat.add_assoc, hplace]
      · have hkept : ¬(space = s.unit.space ∧ ∃ other ∈ part :: parts, other.Shows window) := by
          rintro ⟨hspace, other, hmem, hshows⟩
          obtain rfl | hmem := List.mem_cons.1 hmem
          · exact hhere ⟨hspace, hshows⟩
          · exact hlater ⟨hspace, other, hmem, hshows⟩
        rw [if_neg hhere, if_neg hkept]

/-- **A selection is any row of its parts that leaves out no window**, whatever their units and their order. -/
theorem foldl_parts (b : Banks) {s : BankSelection} {parts : List BankSelection} (hparts : ∀ part ∈ parts, part.IsPart s)
    (hall : ∀ window, s.Shows window → ∃ part ∈ parts, part.Shows window) : parts.foldl select b = b.select s := by
  refine SameImages.eq_of_bank ((SameImages.foldl b parts).trans (SameImages.select b s).symm) ?_
  intro space window hwindow
  have hshows : (∃ part ∈ parts, part.Shows window) ↔ s.Shows window := by
    refine ⟨?_, hall window⟩
    rintro ⟨part, hmem, hfirst, hlast⟩
    exact ⟨Nat.le_trans (hparts part hmem).first hfirst, Nat.lt_of_lt_of_le hlast (hparts part hmem).last⟩
  rw [bank_foldl_parts b hparts space hwindow, bank_select b s space hwindow]
  simp only [hshows]

end Banks

namespace BankSelection

variable {s : BankSelection} {unit : BankUnit}

theorem width_split (hwidth : unit.width ≤ s.unit.width) : s.unit.width / unit.width * unit.width = s.unit.width :=
  Nat.div_mul_cancel (BankUnit.width_dvd hwidth)

/-- A narrower unit has as many slots more as its banks are smaller. -/
theorem slots_split (hspace : unit.space = s.unit.space) (hwidth : unit.width ≤ s.unit.width) :
    unit.slots = s.unit.slots * (s.unit.width / unit.width) := by
  apply Nat.eq_of_mul_eq_mul_right unit.width_pos
  rw [unit.slots_width, hspace, ← s.unit.slots_width, Nat.mul_assoc, width_split hwidth]

theorem first_piece (hspace : unit.space = s.unit.space) (hwidth : unit.width ≤ s.unit.width) {i : Nat}
    (hi : i < s.unit.width / unit.width) : (s.piece unit i).first = s.first + i * unit.width := by
  have hslot : s.slot % s.unit.slots * (s.unit.width / unit.width) + i < unit.slots := by
    rw [slots_split hspace hwidth]
    exact Banks.bank_offset_lt (Nat.mod_lt _ s.unit.slots_pos) hi
  show (_ + i) % unit.slots * unit.width = s.slot % s.unit.slots * s.unit.width + i * unit.width
  rw [Nat.mod_eq_of_lt hslot, Nat.add_mul, Nat.mul_assoc, width_split hwidth]

theorem piece_isPart (hspace : unit.space = s.unit.space) (hwidth : unit.width ≤ s.unit.width) {i : Nat}
    (hi : i < s.unit.width / unit.width) : (s.piece unit i).IsPart s := by
  have hfirst := first_piece hspace hwidth hi
  have hlast : i * unit.width + unit.width ≤ s.unit.width := by
    rw [← Nat.succ_mul]
    exact (Nat.mul_le_mul_right _ hi).trans_eq (width_split hwidth)
  refine ⟨hspace, by omega, ?_, ?_⟩
  · show (s.piece unit i).first + unit.width ≤ s.first + s.unit.width
    omega
  · show (s.bank * (s.unit.width / unit.width) + i) * unit.width = _
    rw [hfirst, Nat.add_sub_cancel_left, Nat.add_mul, Nat.mul_assoc, width_split hwidth]

/-- Every window selected is selected by the piece that it lies in. -/
theorem exists_piece (hspace : unit.space = s.unit.space) (hwidth : unit.width ≤ s.unit.width) {window : Nat}
    (h : s.Shows window) : ∃ i < s.unit.width / unit.width, (s.piece unit i).Shows window := by
  obtain ⟨hfirst, hlast⟩ := h
  have hi : (window - s.first) / unit.width < s.unit.width / unit.width := by
    rw [Nat.div_lt_iff_lt_mul unit.width_pos, width_split hwidth]
    omega
  have hplace : (window - s.first) / unit.width * unit.width + (window - s.first) % unit.width = window - s.first :=
    Nat.div_add_mod' _ _
  have hmod : (window - s.first) % unit.width < unit.width := Nat.mod_lt _ unit.width_pos
  refine ⟨_, hi, ?_⟩
  rw [Shows, first_piece hspace hwidth hi]
  show _ ∧ window < _ + unit.width
  omega

end BankSelection

namespace Banks

/-- **A selection is made of the selections of a narrower unit**, in any order. -/
theorem foldl_split (b : Banks) {s : BankSelection} {unit : BankUnit} (hspace : unit.space = s.unit.space)
    (hwidth : unit.width ≤ s.unit.width) {pieces : List BankSelection} (h : pieces.Perm (s.split unit)) :
    pieces.foldl select b = b.select s := by
  apply b.foldl_parts
  · intro piece hpiece
    obtain ⟨i, hi, rfl⟩ := List.mem_map.1 (h.mem_iff.1 hpiece)
    exact BankSelection.piece_isPart hspace hwidth (List.mem_range.1 hi)
  · intro window hshows
    obtain ⟨i, hi, hpiece⟩ := BankSelection.exists_piece hspace hwidth hshows
    exact ⟨s.piece unit i, h.mem_iff.2 (List.mem_map_of_mem (List.mem_range.2 hi)), hpiece⟩

/-! ## Congruent banks -/

/-- **Banks are counted modulo the image**, if it is made of whole banks. -/
theorem select_modEq (b : Banks) (s : BankSelection) {bank : Nat} (hwhole : s.unit.size ∣ b.image s.unit.space)
    (h : bank ≡ s.bank [MOD b.image s.unit.space / s.unit.size]) : b.select { s with bank } = b.select s := by
  have hpos := s.unit.space.narrow_pos
  have hdvd : s.unit.width ∣ b.count s.unit.space := Nat.dvd_of_mul_dvd_mul_right hpos hwhole
  have hbanks : b.image s.unit.space / s.unit.size = b.count s.unit.space / s.unit.width := Nat.mul_div_mul_right _ _ hpos
  have hnarrow : bank * s.unit.width ≡ s.bank * s.unit.width [MOD b.count s.unit.space] := by
    rw [hbanks] at h
    have hscaled := h.mul_right' s.unit.width
    rwa [Nat.div_mul_cancel hdvd] at hscaled
  refine SameImages.eq_of_bank ((SameImages.select b _).trans (SameImages.select b s).symm) ?_
  intro space window hwindow
  rw [bank_select b _ space hwindow, bank_select b s space hwindow]
  have hshown : (bank * s.unit.width + (window - s.first)) % b.count s.unit.space =
      (s.bank * s.unit.width + (window - s.first)) % b.count s.unit.space := hnarrow.add_right _
  exact if_congr Iff.rfl hshown rfl

/-! ## Linearity -/

theorem image_initial {p c : Nat} (hp : 1 ≤ p) (hc : 1 ≤ c) (mirroring : Mirroring) :
    (initial (p * prgBankSize) (c * chrBankSize) mirroring).image .program = p * prgBankSize ∧
      (initial (p * prgBankSize) (c * chrBankSize) mirroring).image .pattern = c * chrBankSize := by
  constructor
  · show max (p * prgBankSize / prgBankSize) 1 * prgBankSize = _
    rw [Nat.mul_div_cancel _ (by decide), Nat.max_eq_left hp]
  · show max (c * chrBankSize / chrBankSize) 1 * chrBankSize = _
    rw [Nat.mul_div_cancel _ (by decide), Nat.max_eq_left hc]

/-- **Bank selection is linear modulo the image.**  A table for images of `p` and `c` narrow banks wraps at their sizes,
whatever is selected.  A selection shows, at each address it covers, the byte of the image at `bank * size` and the place
of the address in its bank, modulo the image, and leaves all other addresses as they are.  It is made of the selections of
any narrower unit, in any order; and where the image is made of whole banks, only the bank number modulo their number
counts. -/
theorem select_linear (b : Banks) (s : BankSelection) :
    (∀ p c mirroring, 1 ≤ p → 1 ≤ c →
      (initial (p * prgBankSize) (c * chrBankSize) mirroring).image .program = p * prgBankSize ∧
        (initial (p * prgBankSize) (c * chrBankSize) mirroring).image .pattern = c * chrBankSize) ∧
    (∀ space, (b.select s).image space = b.image space) ∧
    (∀ address, s.Covers address →
      (b.select s).offset s.unit.space address =
        (s.bank * s.unit.size + address.toNat % s.unit.size) % b.image s.unit.space) ∧
    (∀ space address, (space = s.unit.space → ¬s.Covers address) →
      (b.select s).offset space address = b.offset space address) ∧
    (∀ unit : BankUnit, unit.space = s.unit.space → unit.width ≤ s.unit.width →
      ∀ pieces : List BankSelection, pieces.Perm (s.split unit) → pieces.foldl select b = b.select s) ∧
    (∀ bank, s.unit.size ∣ b.image s.unit.space → bank ≡ s.bank [MOD b.image s.unit.space / s.unit.size] →
      b.select { s with bank } = b.select s) := by
  refine ⟨?_, ?_, ?_, ?_, ?_, ?_⟩
  · intro p c mirroring hp hc
    exact image_initial hp hc mirroring
  · intro space
    exact congrArg (· * space.narrow) ((SameImages.select b s).count space)
  · intro address hcovers
    exact b.offset_select hcovers
  · intro space address houtside
    exact b.offset_select_outside houtside
  · intro unit hspace hwidth pieces hpieces
    exact b.foldl_split hspace hwidth hpieces
  · intro bank hwhole hbank
    exact b.select_modEq s hwhole hbank

/-- A 16 KiB bank that starts in the last 8 KiB of the image and goes on at its beginning. -/
theorem select_linear_wraps :
    let b := initial (3 * prgBankSize) (1 * chrBankSize) .vertical
    let s : BankSelection := { unit := .prg16, slot := 1, bank := 1 }
    let low : BankSelection := { unit := .prg8, slot := 2, bank := 2 }
    let high : BankSelection := { unit := .prg8, slot := 3, bank := 3 }
    b.image .program = 0x6000 ∧
      (s.Covers 0xE000 ∧ (b.select s).offset .program 0xE000 = 0) ∧
      (¬s.Covers 0xBFFF ∧ (b.select s).offset .program 0xBFFF = b.offset .program 0xBFFF) ∧
      ([high, low].Perm (s.split .prg8) ∧ [high, low].foldl select b = b.select s) ∧
      low.unit.size ∣ b.image .program ∧ 5 ≡ low.bank [MOD b.image .program / low.unit.size] ∧
      b.select { low with bank := 5 } = b.select low := by
  intro b s low high
  obtain ⟨himages, -, hcovered, houtside, hsplit, -⟩ := select_linear b s
  obtain ⟨-, -, -, -, -, hcongruent⟩ := select_linear b low
  have himage : b.image .program = 0x6000 := (himages 3 1 .vertical (by decide) (by decide)).1
  have hinside : s.Covers 0xE000 := by decide
  have hbehind : ¬s.Covers 0xBFFF := by decide
  have hpieces : [high, low].Perm (s.split .prg8) := by
    rw [show s.split .prg8 = [low, high] by decide]
    exact .swap low high []
  have hwhole : low.unit.size ∣ b.image .program := by rw [himage]; decide
  have hbank : 5 ≡ low.bank [MOD b.image .program / low.unit.size] := by rw [himage]; decide
  have hoffset := hcovered 0xE000 hinside
  rw [show b.image s.unit.space = 0x6000 from himage] at hoffset
  exact ⟨himage, ⟨hinside, hoffset.trans (by decide)⟩, ⟨hbehind, houtside .program 0xBFFF fun _ => hbehind⟩,
    ⟨hpieces, hsplit .prg8 rfl (by decide) _ hpieces⟩, hwhole, hbank, hcongruent 5 hwhole hbank⟩

end Banks
end NesConsole
