import NesConsole.Proofs.Cartridge.Selections
import NesConsole.Proofs.Cartridge.Histories
/-!
# MMC3 banks follow the registers

An MMC3 board selects banks anew whenever its select register or one of its eight bank registers is written.  What is
mapped is therefore a function of the last values written to them, however long ago, and the nametables are one of the
last value written for them (`Cartridge.following_registers`).  A reset puts the bank registers back, but not the
nametables.
-/
namespace NesConsole
namespace Mmc3

/-! ## The last values written -/

/-- An even (`parity` 0) or odd address of the 8 KiB from `first` on. -/
def IsPort (first parity : Nat) (address : UInt16) : Prop :=
  first ≤ address.toNat ∧ address.toNat < first + 0x2000 ∧ address.toNat % 2 = parity

instance (first parity : Nat) (address : UInt16) : Decidable (IsPort first parity address) :=
  inferInstanceAs (Decidable (_ ∧ _))

def lastSelect : List CartridgeAction → UInt8
  | [] | .reset :: _ => 0
  | .write address value :: earlier => if IsPort 0x8000 0 address then value else lastSelect earlier
  | .read _ :: earlier | .readPattern _ :: earlier | .writePattern _ _ :: earlier | .hblank _ :: earlier
  | .load _ :: earlier => lastSelect earlier

/-- The bank registers at power-on. -/
def initialBank : Fin 8 → UInt8
  | 0 => 0
  | 1 => 2
  | 2 => 4
  | 3 => 5
  | 4 => 6
  | 5 => 7
  | 6 => 0
  | 7 => 1

/-- The low three bits of the select register say which register a value is for. -/
def lastBank : List CartridgeAction → Fin 8 → UInt8
  | [], register | .reset :: _, register => initialBank register
  | .write address value :: earlier, register =>
    if IsPort 0x8000 1 address ∧ (lastSelect earlier).toNat % 8 = register then value else lastBank earlier register
  | .read _ :: earlier, register | .readPattern _ :: earlier, register | .writePattern _ _ :: earlier, register
  | .hblank _ :: earlier, register | .load _ :: earlier, register => lastBank earlier register

/-- Vertical for an even value, as long as none is written those of the cartridge. -/
def lastNametables (built : Mirroring) : List CartridgeAction → Mirroring
  | [] => built
  | .write address value :: earlier =>
    if IsPort 0xA000 0 address then if value.toBitVec.getLsbD 0 then .horizontal else .vertical
    else lastNametables built earlier
  | .read _ :: earlier | .readPattern _ :: earlier | .writePattern _ _ :: earlier | .hblank _ :: earlier
  | .reset :: earlier | .load _ :: earlier => lastNametables built earlier

/-- A board wired for four screens has no use for the value. -/
def nametables (built : Mirroring) (history : List CartridgeAction) : Mirroring :=
  if built = .fourScreen then .fourScreen else lastNametables built history

/-! ## What the registers map -/

/-- The 8 KiB program bank of a window. -/
def prgBank (select : UInt8) (bank : Fin 8 → UInt8) (count slot : Nat) : Nat :=
  let swapped := select.toBitVec.getLsbD 6
  match slot with
  | 0 => if swapped then count - 2 else (bank 6).toNat
  | 1 => (bank 7).toNat
  | 2 => if swapped then (bank 6).toNat else count - 2
  | _ => count - 1

/-- The 1 KiB pattern bank of a window. -/
def chrBank (select : UInt8) (bank : Fin 8 → UInt8) (slot : Nat) : Nat :=
  match if select.toBitVec.getLsbD 7 then (slot + 4) % 8 else slot with
  | 0 => (bank 0).toNat / 2 * 2
  | 1 => (bank 0).toNat / 2 * 2 + 1
  | 2 => (bank 1).toNat / 2 * 2
  | 3 => (bank 1).toNat / 2 * 2 + 1
  | 4 => (bank 2).toNat
  | 5 => (bank 3).toNat
  | 6 => (bank 4).toNat
  | _ => (bank 5).toNat

theorem layoutPrg_eq (m : Mmc3) (t : Banks) :
    m.layoutPrg t =
      { t with prg := .ofFn fun slot => prgBank m.select (m.banks[·]) t.prgCount slot % t.prgCount } := by
  obtain ⟨prgCount, chrCount, prg, chr, mirroring⟩ := t
  obtain ⟨w0, w1, w2, w3, rfl⟩ := Banks.four_windows prg
  unfold layoutPrg prgBank
  rw [flag_eq 0x40 6 (by decide) rfl]
  cases m.select.toBitVec.getLsbD 6 <;> rfl

theorem layoutChr_eq (m : Mmc3) (t : Banks) :
    m.layoutChr t = { t with chr := .ofFn fun slot => chrBank m.select (m.banks[·]) slot % t.chrCount } := by
  have hlow : (m.banks[0] >>> 1).toNat = m.banks[0].toNat / 2 := Nat.shiftRight_eq_div_pow _ 1
  have hhigh : (m.banks[1] >>> 1).toNat = m.banks[1].toNat / 2 := Nat.shiftRight_eq_div_pow _ 1
  obtain ⟨prgCount, chrCount, prg, chr, mirroring⟩ := t
  obtain ⟨w0, w1, w2, w3, w4, w5, w6, w7, rfl⟩ := Banks.eight_windows chr
  unfold layoutChr chrBank
  rw [flag_eq 0x80 7 (by decide) rfl, hlow, hhigh]
  cases m.select.toBitVec.getLsbD 7 <;> rfl

theorem layout_eq (m : Mmc3) (t : Banks) :
    m.layout t = { t with
      prg := .ofFn fun slot => prgBank m.select (m.banks[·]) t.prgCount slot % t.prgCount
      chr := .ofFn fun slot => chrBank m.select (m.banks[·]) slot % t.chrCount } := by
  unfold layout
  rw [layoutPrg_eq, layoutChr_eq]

/-! ## A write -/

/-- The bits of an address that pick a register. -/
theorem masked (address : UInt16) :
    (address &&& 0xE001).toNat = address.toNat / 0x2000 * 0x2000 + address.toNat % 2 := by
  have hlow : ∀ i < 13, Nat.testBit 0xE001 i = decide (i < 1) := by decide
  have hhigh : ∀ i < 16, 13 ≤ i → Nat.testBit 0xE001 i = true := by decide
  have hsmall : address.toNat % 2 < 2 ^ 13 := by omega
  rw [UInt16.toNat_and]
  -- the mask has bits at both ends and none between, so no one remainder or quotient is it
  refine Nat.eq_of_testBit_eq fun i => ?_
  rw [Nat.testBit_and, Nat.mul_comm, show 0x2000 = 2 ^ 13 from rfl, Nat.testBit_two_pow_mul_add _ hsmall]
  split
  · next hi =>
    rw [show (0xE001 : UInt16).toNat = 0xE001 from rfl, hlow i hi, show 2 = 2 ^ 1 from rfl, Nat.testBit_mod_two_pow,
      Bool.and_comm]
  · next hi =>
    rw [Nat.testBit_div_two_pow, Nat.sub_add_cancel (by omega), show (0xE001 : UInt16).toNat = 0xE001 from rfl]
    by_cases hword : i < 16
    · rw [hhigh i hword (by omega), Bool.and_true]
    · rw [Nat.testBit_lt_two_pow (Nat.lt_of_lt_of_le address.toNat_lt (Nat.pow_le_pow_right (by decide) (by omega))),
        Bool.false_and]

theorem isPort_iff {port : UInt16} {parity : Nat} (hport : port.toNat % 0x2000 = parity) (hparity : parity < 2)
    (address : UInt16) : address &&& 0xE001 = port ↔ IsPort (port.toNat - parity) parity address := by
  have hmasked := masked address
  rw [← UInt16.toNat_inj, hmasked]
  unfold IsPort
  omega

theorem select_iff (address : UInt16) : address &&& 0xE001 = 0x8000 ↔ IsPort 0x8000 0 address :=
  isPort_iff rfl (by decide) address

theorem bank_iff (address : UInt16) : address &&& 0xE001 = 0x8001 ↔ IsPort 0x8000 1 address :=
  isPort_iff rfl (by decide) address

theorem nametables_iff (address : UInt16) : address &&& 0xE001 = 0xA000 ↔ IsPort 0xA000 0 address :=
  isPort_iff rfl (by decide) address

/-- **What a write can do to registers and table**: one of the two registers is set and the table laid out anew, the
nametables are set, or neither is touched. -/
theorem write_cases (m : Mmc3) (address : UInt16) (value : UInt8) (t : Banks) :
    (IsPort 0x8000 0 address ∧
      m.write address value t = ({ m with select := value }, { m with select := value }.layout t)) ∨
    (IsPort 0x8000 1 address ∧ ∃ banks : Vector UInt8 8,
      (∀ r : Fin 8, banks[r] = if m.select.toNat % 8 = r then value else m.banks[r]) ∧
      m.write address value t = ({ m with banks }, { m with banks }.layout t)) ∨
    (IsPort 0xA000 0 address ∧ m.write address value t =
      ({ m with mirroring := value &&& 1 }, applyMirroring (value &&& 1) t)) ∨
    (¬IsPort 0x8000 0 address ∧ ¬IsPort 0x8000 1 address ∧ ¬IsPort 0xA000 0 address ∧
      (m.write address value t).1.select = m.select ∧ (m.write address value t).1.banks = m.banks ∧
      (m.write address value t).2 = t) := by
  rw [← select_iff, ← bank_iff, ← nametables_iff]
  unfold write
  split
  · next h => exact .inl ⟨h, rfl⟩
  · next h =>
    refine .inr (.inl ⟨h, _, fun r => ?_, rfl⟩)
    exact Vector.getElem_set ..
  · next h => exact .inr (.inr (.inl ⟨h, rfl⟩))
  -- the other five ports set registers that banks and nametables do not depend on
  all_goals
    refine .inr (.inr (.inr ⟨?_, ?_, ?_, rfl, rfl, rfl⟩)) <;> simp_all

/-! ## Histories -/

/-- The two registers hold the last values written to them. -/
structure Remembers (history : List CartridgeAction) (m : Mmc3) : Prop where
  select : m.select = lastSelect history
  banks : ∀ r : Fin 8, m.banks[r] = lastBank history r

/-- The board's registers and its table are those of a history. -/
structure Follows (source : CartridgeSource) (built : Mirroring) (history : List CartridgeAction)
    (state : Board × Banks) : Prop where
  board : ∃ m, state.1 = .mmc3 m ∧ m.Remembers history
  prg : ∀ slot (hslot : slot < 4),
    state.2.prg[slot] = prgBank (lastSelect history) (lastBank history) source.prgCount slot % source.prgCount
  chr : ∀ slot (hslot : slot < 8),
    state.2.chr[slot] = chrBank (lastSelect history) (lastBank history) slot % source.chrCount
  mirroring : state.2.mirroring = nametables built history

variable {source : CartridgeSource} {built : Mirroring} {history : List CartridgeAction} {m : Mmc3} {banks : Banks}

/-- A table laid out anew depends on nothing but the registers. -/
theorem Remembers.layout (h : m.Remembers history) (hbanks : banks.InRange source)
    (hmirroring : banks.mirroring = nametables built history) :
    Follows source built history (.mmc3 m, m.layout banks) := by
  have hbank : (m.banks[·]) = lastBank history := funext h.banks
  rw [layout_eq, hbank, h.select, hbanks.prgCount, hbanks.chrCount]
  exact ⟨⟨m, rfl, h⟩, fun slot hslot => Vector.getElem_ofFn hslot, fun slot hslot => Vector.getElem_ofFn hslot,
    hmirroring⟩

/-- Power-on, which a reset leads to as well. -/
theorem remembers_initial (h : history = [] ∨ ∃ earlier, history = .reset :: earlier) : Remembers history {} := by
  have hbanks : ∀ r : Fin 8, (Mmc3.banks {})[r] = initialBank r := by decide
  rcases h with rfl | ⟨earlier, rfl⟩
  · exact ⟨rfl, hbanks⟩
  · exact ⟨rfl, hbanks⟩

/-- What leaves both registers alone leaves the banks alone. -/
theorem Follows.keep {board : Board} {other : Banks} {action : CartridgeAction}
    (h : Follows source built history (board, banks)) (hselect : lastSelect (action :: history) = lastSelect history)
    (hbank : lastBank (action :: history) = lastBank history) (hm : m.Remembers history) (hprg : other.prg = banks.prg)
    (hchr : other.chr = banks.chr) (hmirroring : other.mirroring = nametables built (action :: history)) :
    Follows source built (action :: history) (.mmc3 m, other) := by
  refine ⟨⟨m, rfl, hm.select.trans hselect.symm, hbank ▸ hm.banks⟩, fun slot hslot => ?_, fun slot hslot => ?_,
    hmirroring⟩
  · rw [hselect, hbank, ← h.prg slot hslot]
    simp only [hprg]
  · rw [hselect, hbank, ← h.chr slot hslot]
    simp only [hchr]

theorem nametables_write {address : UInt16} {value : UInt8} (h : ¬IsPort 0xA000 0 address) :
    nametables built (.write address value :: history) = nametables built history := by
  simp only [nametables, lastNametables, if_neg h]

theorem lastNametables_ne (h : built ≠ .fourScreen) (history : List CartridgeAction) :
    lastNametables built history ≠ .fourScreen := by
  induction history with
  | nil => exact h
  | cons action earlier ih =>
    cases action with
    | write address value =>
      simp only [lastNametables]
      split
      · split <;> decide
      · exact ih
    | read | readPattern | writePattern | hblank | reset | load => exact ih

/-- Four screens are recognised by the nametables the table has. -/
theorem nametables_eq_fourScreen : nametables built history = .fourScreen ↔ built = .fourScreen := by
  unfold nametables
  split
  · next hfour => simp [hfour]
  · next hfour => exact ⟨fun h => absurd h (lastNametables_ne hfour history), fun h => absurd h hfour⟩

theorem applyMirroring_eq (hmirroring : banks.mirroring = nametables built history) {address : UInt16}
    (hport : IsPort 0xA000 0 address) (value : UInt8) :
    applyMirroring (value &&& 1) banks =
      { banks with mirroring := nametables built (.write address value :: history) } := by
  unfold applyMirroring
  rw [hmirroring]
  split
  · next hfour =>
    have hbuilt := nametables_eq_fourScreen.1 hfour
    rw [nametables, if_pos hbuilt, ← hfour, ← hmirroring]
  · next hfour =>
    have hbuilt := mt nametables_eq_fourScreen.2 hfour
    rw [nametables, if_neg hbuilt, flag_eq 1 0 (by decide) rfl]
    simp only [lastNametables, if_pos hport]
    cases value.toBitVec.getLsbD 0 <;> rfl

/-- A write sets at most one of the values a history is asked for, so the others are still the last ones. -/
theorem Follows.write (hbanks : banks.InRange source) (h : Follows source built history (.mmc3 m, banks))
    (address : UInt16) (value : UInt8) :
    Follows source built (.write address value :: history) ((Board.mmc3 m).write address value banks) := by
  obtain ⟨m', hm', hm⟩ := h.board
  obtain rfl : m = m' := Board.mmc3.inj hm'
  simp only [Board.write]
  obtain ⟨hport, hwrite⟩ | ⟨hport, written, hwritten, hwrite⟩ | ⟨hport, hwrite⟩ |
    ⟨hselect, hbank, hport, hm1, hm2, ht⟩ := m.write_cases address value banks
  · have hother : ¬IsPort 0x8000 1 address ∧ ¬IsPort 0xA000 0 address := by
      unfold IsPort at *
      omega
    have hnew : Remembers (.write address value :: history) { m with select := value } :=
      ⟨(if_pos hport).symm, fun r => (hm.banks r).trans (if_neg fun hr => hother.1 hr.1).symm⟩
    rw [hwrite]
    exact hnew.layout hbanks (h.mirroring.trans (nametables_write hother.2).symm)
  · have hother : ¬IsPort 0x8000 0 address ∧ ¬IsPort 0xA000 0 address := by
      unfold IsPort at *
      omega
    have hnew : Remembers (.write address value :: history) { m with banks := written } := by
      refine ⟨hm.select.trans (if_neg hother.1).symm, fun r => ?_⟩
      simp only [lastBank, hport, true_and, hwritten, hm.select, hm.banks]
    rw [hwrite]
    exact hnew.layout hbanks (h.mirroring.trans (nametables_write hother.2).symm)
  · have hother : ¬IsPort 0x8000 0 address ∧ ¬IsPort 0x8000 1 address := by
      unfold IsPort at *
      omega
    rw [hwrite, applyMirroring_eq h.mirroring hport]
    exact h.keep (if_neg hother.1) (funext fun r => if_neg fun hr => hother.2 hr.1) ⟨hm.select, hm.banks⟩ rfl rfl rfl
  · have hnew : Remembers history (m.write address value banks).1 :=
      ⟨hm1.trans hm.select, by rw [hm2]; exact hm.banks⟩
    rw [ht]
    exact h.keep (if_neg hselect) (funext fun r => if_neg fun hr => hbank hr.1) hnew rfl rfl
      (h.mirroring.trans (nametables_write hport).symm)

theorem hblank_remembers (h : m.Remembers history) (scanline : UInt16) : (m.hblank scanline).2.Remembers history := by
  unfold hblank
  split
  · dsimp only
    split <;> exact ⟨h.select, h.banks⟩
  · exact h

/-- **Registers and table stay those of the history**, action by action. -/
theorem Follows.respond {board : Board} {action : CartridgeAction} (hload : action.loads = false)
    (hbanks : banks.InRange source) (h : Follows source built history (board, banks)) :
    Follows source built (action :: history) (board.respond banks action) := by
  obtain ⟨m, hboard, hm⟩ := h.board
  obtain rfl : board = .mmc3 m := hboard
  cases action with
  | read | readPattern | writePattern => exact h.keep rfl rfl hm rfl rfl h.mirroring
  | hblank scanline => exact h.keep rfl rfl (hblank_remembers hm scanline) rfl rfl h.mirroring
  | reset => exact (remembers_initial (.inr ⟨_, rfl⟩)).layout hbanks h.mirroring
  | write address value =>
    simp only [Board.respond]
    split
    · exact h.write hbanks address value
    · next hclaim =>
      have hbelow : ¬0x8000 ≤ address.toNat := by
        rw [Board.claims_space rfl, decide_eq_true_eq] at hclaim
        exact fun hspace => hclaim (UInt16.le_iff_toNat_le.2 hspace)
      refine h.keep (if_neg ?_) (funext fun r => if_neg ?_) hm rfl rfl ?_
      · exact fun hport => hbelow hport.1
      · exact fun hport => hbelow hport.1.1
      · rw [nametables_write fun hport => hbelow (Nat.le_trans (by decide) hport.1)]
        exact h.mirroring
  | load state => cases hload

/-! ## What the windows show -/

theorem chrBank_wide (select : UInt8) (bank : Fin 8 → UInt8) {i j : Nat} (hi : i < 2) (hj : j < 2) :
    chrBank select bank ((if select.toBitVec.getLsbD 7 then 4 else 0) + i * 2 + j) =
      (bank ⟨i, by omega⟩).toNat / 2 * 2 + j := by
  have hcases : (i = 0 ∨ i = 1) ∧ (j = 0 ∨ j = 1) := by omega
  unfold chrBank
  obtain ⟨rfl | rfl, rfl | rfl⟩ := hcases <;> cases select.toBitVec.getLsbD 7 <;> rfl

theorem chrBank_narrow (select : UInt8) (bank : Fin 8 → UInt8) {i : Nat} (hi : i < 4) :
    chrBank select bank ((if select.toBitVec.getLsbD 7 then 0 else 4) + i) = (bank ⟨i + 2, by omega⟩).toNat := by
  have hcases : i = 0 ∨ i = 1 ∨ i = 2 ∨ i = 3 := by omega
  unfold chrBank
  obtain rfl | rfl | rfl | rfl := hcases <;> cases select.toBitVec.getLsbD 7 <;> rfl

end Mmc3

namespace Cartridge

/-- What a program sees of the registers of an MMC3 board.  Bank numbers count modulo the image. -/
structure ShowsRegisters (c : Cartridge) (select : UInt8) (bank : Fin 8 → UInt8) : Prop where
  /-- Bit 6 exchanges the window of the sixth register with the one of the second-to-last bank. -/
  switched : c.ShowsPrg (if select.toBitVec.getLsbD 6 then 0xC000 else 0x8000) 0x2000 (bank 6).toNat
  secondLast : c.ShowsPrg (if select.toBitVec.getLsbD 6 then 0x8000 else 0xC000) 0x2000 (c.prg.size / 0x2000 - 2)
  middle : c.ShowsPrg 0xA000 0x2000 (bank 7).toNat
  last : c.ShowsPrg 0xE000 0x2000 (c.prg.size / 0x2000 - 1)
  /-- Bit 7 exchanges the halves of pattern space. -/
  wide : ∀ i (hi : i < 2), c.ShowsChr ((if select.toBitVec.getLsbD 7 then 0x1000 else 0) + i * 0x800) 0x800
    ((bank ⟨i, by omega⟩).toNat / 2)
  narrow : ∀ i (hi : i < 4), c.ShowsChr ((if select.toBitVec.getLsbD 7 then 0 else 0x1000) + i * 0x400) 0x400
    (bank ⟨i + 2, by omega⟩).toNat

variable {source : CartridgeSource} {built : Mirroring} {history : List CartridgeAction} {c : Cartridge}

theorem Fits.showsRegisters (hfits : c.Fits source) (hb : source.Banked)
    (h : Mmc3.Follows source built history (c.board, c.banks)) :
    c.ShowsRegisters (Mmc3.lastSelect history) (Mmc3.lastBank history) := by
  have hcount : c.prg.size / 0x2000 = source.prgCount := by
    rw [hfits.prg]
    exact hb.prgCount_eq
  have hprg (slot : Nat) (hslot : slot < 4) {bank : Nat}
      (hbank : Mmc3.prgBank (Mmc3.lastSelect history) (Mmc3.lastBank history) source.prgCount slot = bank) :
      c.ShowsPrg (0x8000 + slot * prgBankSize) prgBankSize bank := by
    refine hfits.showsPrg_window hb hslot ?_
    rw [hfits.banks.prgCount, ← hbank]
    exact h.prg slot hslot
  have hchr (slot n : Nat) (hspace : slot + n ≤ 8) {first bank : Nat} (hfirst : slot * chrBankSize = first)
      (hbank : ∀ i < n, Mmc3.chrBank (Mmc3.lastSelect history) (Mmc3.lastBank history) (slot + i) = bank * n + i) :
      c.ShowsChr first (n * chrBankSize) bank := by
    subst hfirst
    refine hfits.showsChr hb hspace fun i hi => ?_
    rw [hfits.banks.chrCount, ← hbank i hi]
    exact h.chr (slot + i) (by omega)
  refine ⟨?_, ?_, hprg 1 (by decide) rfl, ?_, fun i hi => ?_, fun i hi => ?_⟩
  · cases hswapped : (Mmc3.lastSelect history).toBitVec.getLsbD 6
    · exact hprg 0 (by decide) (by simp only [Mmc3.prgBank, hswapped]; rfl)
    · exact hprg 2 (by decide) (by simp only [Mmc3.prgBank, hswapped]; rfl)
  · rw [hcount]
    cases hswapped : (Mmc3.lastSelect history).toBitVec.getLsbD 6
    · exact hprg 2 (by decide) (by simp only [Mmc3.prgBank, hswapped]; rfl)
    · exact hprg 0 (by decide) (by simp only [Mmc3.prgBank, hswapped]; rfl)
  · rw [hcount]
    exact hprg 3 (by decide) rfl
  · refine hchr ((if (Mmc3.lastSelect history).toBitVec.getLsbD 7 then 4 else 0) + i * 2) 2 (by split <;> omega) ?_
      fun j hj => Mmc3.chrBank_wide _ _ hi hj
    unfold chrBankSize
    split <;> omega
  · refine hchr ((if (Mmc3.lastSelect history).toBitVec.getLsbD 7 then 0 else 4) + i) 1 (by split <;> omega) ?_
      fun j hj => ?_
    · unfold chrBankSize
      split <;> omega
    · obtain rfl : j = 0 := by omega
      exact (Mmc3.chrBank_narrow _ _ hi).trans (Nat.mul_one _).symm

variable {prg chr : Array UInt8}

theorem following_follows (h : ofImages prg chr Mmc3.number built = .ok c) {actions : List CartridgeAction}
    (hactions : ∀ action ∈ actions, action.loads = false) :
    Mmc3.Follows { prg, chr, number := Mmc3.number } built actions.reverse
      ((c.following actions).board, (c.following actions).banks) := by
  refine following_invariant h (Mmc3.Follows _ built) (fun board banks hboard hbanks hmirroring => ?_)
    (fun history action board banks hload hbanks hfollows => hfollows.respond hload hbanks) hactions
  obtain rfl : Board.mmc3 {} = board := Option.some.inj hboard
  refine (Mmc3.remembers_initial (.inl rfl)).layout hbanks (hmirroring.trans ?_)
  unfold Mmc3.nametables
  split
  · next hfour => exact hfour
  · rfl

/-- **What an MMC3 board maps is a function of the last values written to its registers**, whatever is done with the
cartridge. -/
theorem following_registers (h : ofImages prg chr Mmc3.number built = .ok c) {actions : List CartridgeAction}
    (hactions : ∀ action ∈ actions, action.loads = false) :
    (c.following actions).ShowsRegisters (Mmc3.lastSelect actions.reverse) (Mmc3.lastBank actions.reverse) ∧
      (c.following actions).banks.mirroring = Mmc3.nametables built actions.reverse := by
  have hfollows := following_follows h hactions
  exact ⟨((ofImages_fits h).following actions).showsRegisters (ofImages_banked h) hfollows, hfollows.mirroring⟩

/-- Register 6 is written before the select that moves its window. -/
theorem following_registers_swapped :
    ∃ (prg : Array UInt8) (c : Cartridge), prg.size = 0x8000 ∧ ofImages prg #[] Mmc3.number .vertical = .ok c ∧
      let c := c.following [.write 0x8000 6, .write 0x9FFF 1, .hblank 0, .write 0xBFFE 1, .write 0x8000 0x40]
      c.ShowsRegisters 0x40 (#v[0, 2, 4, 5, 6, 7, 1, 1][·]) ∧ c.banks.mirroring = .horizontal := by
  let source : CartridgeSource := { prg := .replicate 0x8000 0xEA, chr := #[], number := Mmc3.number }
  obtain ⟨c, hc⟩ := ofImages_ok source (by simp [source]) (by simp [source, prgBankSize]) rfl rfl .vertical
  refine ⟨source.prg, c, by simp [source], hc, ?_⟩
  have hregisters : ∀ r : Fin 8, Mmc3.lastBank [.write 0x8000 0x40, .write 0xBFFE 1, .hblank 0, .write 0x9FFF 1,
      .write 0x8000 6] r = #v[0, 2, 4, 5, 6, 7, 1, 1][r] := by decide
  obtain ⟨hbanks, hmirroring⟩ := following_registers hc (show ∀ action ∈ [.write 0x8000 6, .write 0x9FFF 1, .hblank 0,
    .write 0xBFFE 1, .write 0x8000 0x40], CartridgeAction.loads action = false by decide)
  exact ⟨funext hregisters ▸ hbanks, hmirroring⟩

end Cartridge
end NesConsole
