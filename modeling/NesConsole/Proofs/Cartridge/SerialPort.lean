import NesConsole.Proofs.Cartridge.Selections
import NesConsole.Proofs.Cartridge.Histories
/-!
# MMC1 as a serial port

What a program sees of an MMC1 board is a port that collects five bits and four registers behind it.  The board keeps
the bits in a shift register whose mark is pushed out by the fifth, next to a count of its own, and writes its bank
table only where a value is complete.  `SerialPort.stored` says how a port is kept, `SerialPort.stored_write` that a
write to the board is one to the port, and `Cartridge.following_serialPort` that this goes on through every history,
with a bank table that is at all times the one laid out from the registers.
-/
namespace NesConsole

/-- An MMC1 board as a program sees it. -/
structure SerialPort where
  /-- The bits written so far of a value, the first one first. -/
  pending : List Bool := []
  control : BitVec 5 := 0x0C
  chr0 : BitVec 5 := 0
  chr1 : BitVec 5 := 0
  prg : BitVec 4 := 0
  pending_lt : pending.length < 5 := by decide

namespace SerialPort

/-! ## Writing -/

/-- Bits 13 and 14 of the address pick the register. -/
def commit (p : SerialPort) (address : UInt16) (value : BitVec 5) : SerialPort :=
  match address.toBitVec.extractLsb' 13 2 with
  | 0 => { p with control := value }
  | 1 => { p with chr0 := value }
  | 2 => { p with chr1 := value }
  | _ => { p with prg := value.setWidth 4 }

/-- The first bit written is the least significant one. -/
def write (p : SerialPort) (address : UInt16) (value : UInt8) : SerialPort :=
  if value.toBitVec.getLsbD 7 then
    { p with pending := [], control := p.control ||| 0x0C, pending_lt := by decide }
  else
    let bits := p.pending ++ [value.toBitVec.getLsbD 0]
    if h : bits.length < 5 then
      { p with pending := bits, pending_lt := h }
    else
      { p.commit address ((BitVec.ofBoolListLE bits).setWidth 5) with pending := [], pending_lt := by decide }

/-- Whether a write gives the board something to map: the fifth bit of a value, or a write that drops the others. -/
def completes (p : SerialPort) (value : UInt8) : Bool := value.toBitVec.getLsbD 7 || p.pending.length == 4

/-- The port's answer to what is done with its cartridge. -/
def respond (p : SerialPort) : CartridgeAction → SerialPort
  | .write address value => if 0x8000 ≤ address then p.write address value else p
  | .reset => {}
  | .read _ | .readPattern _ | .writePattern _ _ | .hblank _ | .load _ => p

/-- The port after a history. -/
def after : List CartridgeAction → SerialPort
  | [] => {}
  | action :: history => (after history).respond action

/-! ## What the registers map -/

/-- The 8 KiB program bank of a window.  Bits 2 and 3 of control choose between one 32 KiB bank, the first 16 KiB bank
below a switched one, and a switched one below the last. -/
def prgBank (p : SerialPort) (count slot : Nat) : Nat :=
  match p.control.getLsbD 3, p.control.getLsbD 2 with
  | false, _ => p.prg.toNat / 2 * 4 + slot
  | true, false => if slot < 2 then slot else p.prg.toNat * 2 + (slot - 2)
  | true, true => if slot < 2 then p.prg.toNat * 2 + slot else (max (count / 2) 1 - 1) * 2 + (slot - 2)

/-- The 1 KiB pattern bank of a window.  Bit 4 of control chooses between two 4 KiB banks and one of 8 KiB. -/
def chrBank (p : SerialPort) (slot : Nat) : Nat :=
  if p.control.getLsbD 4 then
    if slot < 4 then p.chr0.toNat * 4 + slot else p.chr1.toNat * 4 + (slot - 4)
  else
    p.chr0.toNat / 2 * 8 + slot

def mirroring (p : SerialPort) : Mirroring :=
  match p.control.getLsbD 1, p.control.getLsbD 0 with
  | false, false => .single0
  | false, true => .single1
  | true, false => .vertical
  | true, true => .horizontal

/-- The bank table for images of so many banks. -/
def layout (p : SerialPort) (prgCount chrCount : Nat) : BankState where
  prg := .ofFn fun slot => p.prgBank prgCount slot % prgCount
  chr := .ofFn fun slot => p.chrBank slot % chrCount
  mirroring := p.mirroring

/-! ## How a board keeps a port -/

/-- The shift register after these bits: a mark that the fifth bit pushes out. -/
def shifted (bits : List Bool) : UInt8 :=
  bits.foldl (fun shift bit => shift >>> 1 ||| bit.toUInt8 <<< (4 : UInt8)) (0x10 : UInt8)

/-- A register in a byte of its own. -/
def widened {n : Nat} (register : BitVec n) : UInt8 := .ofBitVec (register.setWidth 8)

def stored (p : SerialPort) : Mmc1 where
  shift := shifted p.pending
  shiftCount := .ofNat p.pending.length
  control := widened p.control
  chr0 := widened p.chr0
  chr1 := widened p.chr1
  prg := widened p.prg

/-- Power-on, which a reset leads to as well. -/
theorem stored_initial : ({} : SerialPort).stored = {} := by decide

/-! ### What the board's masks cut out of a kept register -/

theorem toNat_widened : ∀ r : BitVec 5, (widened r).toNat = r.toNat := by decide

theorem toNat_widened_prg : ∀ r : BitVec 4, (widened r &&& 0x0F).toNat = r.toNat := by decide

theorem toNat_widened_half : ∀ r : BitVec 5, ((widened r &&& 0x1E) >>> 1).toNat = r.toNat / 2 := by decide

theorem widened_setWidth : ∀ r : BitVec 5, widened r &&& 0x0F = widened (r.setWidth 4) := by decide

theorem widened_or : ∀ r : BitVec 5, widened r ||| 0x0C = widened (r ||| 0x0C) := by decide

theorem widened_chrMode : ∀ r : BitVec 5, (widened r &&& 0x10 != 0) = r.getLsbD 4 := by decide

theorem widened_prgMode : ∀ r : BitVec 5, widened r >>> 2 &&& 0x03 =
    (r.getLsbD 3).toUInt8 <<< (1 : UInt8) ||| (r.getLsbD 2).toUInt8 := by decide

theorem widened_nametables : ∀ r : BitVec 5, widened r &&& 0x03 =
    (r.getLsbD 1).toUInt8 <<< (1 : UInt8) ||| (r.getLsbD 0).toUInt8 := by decide

/-! ### The layout -/

theorem mirroring_stored (p : SerialPort) : p.stored.mirroring = p.mirroring := by
  unfold Mmc1.mirroring mirroring
  simp only [stored, widened_nametables]
  cases p.control.getLsbD 1 <;> cases p.control.getLsbD 0 <;> rfl

theorem layoutPrg_stored (p : SerialPort) (t : Banks) :
    p.stored.layoutPrg t = { t with prg := .ofFn fun slot => p.prgBank t.prgCount slot % t.prgCount } := by
  have hhalf : p.prg.toNat >>> 1 = p.prg.toNat / 2 := Nat.shiftRight_eq_div_pow _ 1
  unfold Mmc1.layoutPrg prgBank
  simp only [stored, widened_prgMode, toNat_widened_prg, hhalf]
  cases p.control.getLsbD 3
  · cases p.control.getLsbD 2 <;> exact Banks.selectPrg32_eq t _
  · cases p.control.getLsbD 2
    · refine (Banks.selectPrg16_halves t _ _).trans (congrArg (fun prg => { t with prg }) ?_)
      ext slot hslot
      simp only [Vector.getElem_ofFn]
      grind
    · refine (Banks.selectPrg16_halves t _ _).trans (congrArg (fun prg => { t with prg }) ?_)
      ext slot hslot
      simp only [Vector.getElem_ofFn, Banks.prgCount16]
      grind

theorem layoutChr_stored (p : SerialPort) (t : Banks) :
    p.stored.layoutChr t = { t with chr := .ofFn fun slot => p.chrBank slot % t.chrCount } := by
  unfold Mmc1.layoutChr chrBank
  simp only [stored, widened_chrMode, toNat_widened, toNat_widened_half]
  split
  · refine (Banks.selectChr4_halves t _ _).trans (congrArg (fun chr => { t with chr }) ?_)
    ext slot hslot
    simp only [Vector.getElem_ofFn]
    grind
  · exact Banks.selectChr8_eq t _

/-- **The board lays out its table from the registers alone.** -/
theorem layout_stored (p : SerialPort) (t : Banks) : (p.stored.layout t).save = p.layout t.prgCount t.chrCount := by
  unfold Mmc1.layout
  rw [layoutPrg_stored, layoutChr_stored, mirroring_stored]
  rfl

/-! ### A write -/

theorem shifted_snoc (bits : List Bool) (bit : Bool) :
    shifted (bits ++ [bit]) = shifted bits >>> 1 ||| bit.toUInt8 <<< 4 := by
  unfold shifted
  rw [List.foldl_append]
  rfl

theorem shifted_five : ∀ b0 b1 b2 b3 b4 : Bool, shifted [b0, b1, b2, b3, b4] &&& 0x1F =
    widened ((BitVec.ofBoolListLE [b0, b1, b2, b3, b4]).setWidth 5) := by decide

/-- The fifth bit pushes the mark out: what is left are the five bits in the order written. -/
theorem shifted_full {bits : List Bool} (h : bits.length = 5) :
    shifted bits &&& 0x1F = widened ((BitVec.ofBoolListLE bits).setWidth 5) := by
  match bits, h with
  | [b0, b1, b2, b3, b4], _ => exact shifted_five b0 b1 b2 b3 b4

/-- A bit is shifted in where the list of pending ones grows. -/
theorem stored_shift (p : SerialPort) (value : UInt8) :
    ({ p.stored with
        shift := p.stored.shift >>> 1 ||| (value &&& 1) <<< 4, shiftCount := p.stored.shiftCount + 1 } : Mmc1) =
      { p.stored with
        shift := shifted (p.pending ++ [value.toBitVec.getLsbD 0])
        shiftCount := .ofNat (p.pending ++ [value.toBitVec.getLsbD 0]).length } := by
  rw [shifted_snoc, and_one, List.length_append, UInt8.ofNat_add]
  rfl

/-- In program space bits 13 and 14 of an address are all that tells its highest three bits apart. -/
theorem commit_stored (p : SerialPort) (shift count : UInt8) {address : UInt16} (ha : 0x8000 ≤ address)
    (value : BitVec 5) :
    (({ p.stored with shift, shiftCount := count } : Mmc1).commit address (widened value)).clearShift =
      { p.commit address value with pending := [], pending_lt := by decide }.stored := by
  have hmin : 0x8000 ≤ address.toNat := UInt16.le_iff_toNat_le.1 ha
  have hmax : address.toNat < 0x10000 := address.toNat_lt
  have hhigh : (address >>> 13).toNat = address.toNat / 0x2000 := by
    rw [UInt16.toNat_shiftRight]
    exact Nat.shiftRight_eq_div_pow _ 13
  have hlow : (address.toBitVec.extractLsb' 13 2).toNat = address.toNat / 0x2000 % 4 := by
    rw [BitVec.extractLsb'_toNat, Nat.shiftRight_eq_div_pow]
    rfl
  have hregister : address.toNat / 0x2000 = 4 ∨ address.toNat / 0x2000 = 5 ∨ address.toNat / 0x2000 = 6 ∨
      address.toNat / 0x2000 = 7 := by omega
  unfold Mmc1.commit commit
  rcases hregister with h | h | h | h <;> rw [h] at hhigh hlow
  · rw [show address >>> 13 = 4 from UInt16.toNat_inj.1 hhigh,
      show address.toBitVec.extractLsb' 13 2 = 0 from BitVec.eq_of_toNat_eq hlow]
    rfl
  · rw [show address >>> 13 = 5 from UInt16.toNat_inj.1 hhigh,
      show address.toBitVec.extractLsb' 13 2 = 1 from BitVec.eq_of_toNat_eq hlow]
    rfl
  · rw [show address >>> 13 = 6 from UInt16.toNat_inj.1 hhigh,
      show address.toBitVec.extractLsb' 13 2 = 2 from BitVec.eq_of_toNat_eq hlow]
    rfl
  · rw [show address >>> 13 = 7 from UInt16.toNat_inj.1 hhigh,
      show address.toBitVec.extractLsb' 13 2 = 3 from BitVec.eq_of_toNat_eq hlow]
    exact congrArg (fun prg => { p.stored with shift := 0x10, shiftCount := 0, prg }) (widened_setWidth value)

theorem write_clear (p : SerialPort) (address : UInt16) {value : UInt8} (h : value.toBitVec.getLsbD 7 = true) :
    p.write address value = { p with pending := [], control := p.control ||| 0x0C, pending_lt := by decide } :=
  if_pos h

theorem write_bit (p : SerialPort) (address : UInt16) {value : UInt8} (h : ¬value.toBitVec.getLsbD 7 = true)
    (hfew : (p.pending ++ [value.toBitVec.getLsbD 0]).length < 5) :
    p.write address value = { p with pending := p.pending ++ [value.toBitVec.getLsbD 0], pending_lt := hfew } :=
  (if_neg h).trans (dif_pos hfew)

theorem write_last (p : SerialPort) (address : UInt16) {value : UInt8} (h : ¬value.toBitVec.getLsbD 7 = true)
    (hfull : ¬(p.pending ++ [value.toBitVec.getLsbD 0]).length < 5) :
    p.write address value =
      { p.commit address ((BitVec.ofBoolListLE (p.pending ++ [value.toBitVec.getLsbD 0])).setWidth 5) with
        pending := [], pending_lt := by decide } :=
  (if_neg h).trans (dif_neg hfull)

/-- **A write to the board is one to the port it keeps**, and the table is laid out anew exactly where a value is
complete. -/
theorem stored_write (p : SerialPort) {address : UInt16} (ha : 0x8000 ≤ address) (value : UInt8) (t : Banks) :
    p.stored.write address value t =
      ((p.write address value).stored, if p.completes value then (p.write address value).stored.layout t else t) := by
  have hpending := p.pending_lt
  have hbits : (p.pending ++ [value.toBitVec.getLsbD 0]).length = p.pending.length + 1 := List.length_append
  -- the board counts in a byte, which five bits do not overflow
  have hcount : UInt8.ofNat (p.pending ++ [value.toBitVec.getLsbD 0]).length < 5 ↔
      (p.pending ++ [value.toBitVec.getLsbD 0]).length < 5 := by
    rw [UInt8.lt_iff_toNat_lt, UInt8.toNat_ofNat_of_lt' (Nat.lt_of_le_of_lt (by omega : _ ≤ 5) (by decide))]
    rfl
  unfold Mmc1.write
  rw [flag_ne 0x80 7 (by decide) rfl, stored_shift]
  by_cases h7 : value.toBitVec.getLsbD 7 = true
  · rw [if_pos h7, if_pos (by simp [completes, h7]), p.write_clear address h7]
    have hcleared := congrArg (fun control => { p.stored with control, shift := 0x10, shiftCount := 0 })
      (widened_or p.control)
    exact congrArg (fun m : Mmc1 => (m, m.layout t)) hcleared
  · rw [if_neg h7]
    by_cases hfew : (p.pending ++ [value.toBitVec.getLsbD 0]).length < 5
    · have hpart : ¬p.completes value = true := by
        simp only [completes, h7, Bool.false_or, beq_iff_eq]
        omega
      rw [if_pos (hcount.2 hfew), if_neg hpart, p.write_bit address h7 hfew]
      rfl
    · have hwhole : p.completes value = true := by
        simp only [completes, Bool.or_eq_true, beq_iff_eq]
        omega
      rw [if_neg (mt hcount.1 hfew), if_pos hwhole, p.write_last address h7 hfew]
      dsimp only
      rw [shifted_full (by omega), commit_stored p _ _ ha]

/-- What is not complete changes no register, and so nothing that is mapped. -/
theorem layout_write (p : SerialPort) (address : UInt16) {value : UInt8} (h : p.completes value = false)
    (prgCount chrCount : Nat) : (p.write address value).layout prgCount chrCount = p.layout prgCount chrCount := by
  have hpending := p.pending_lt
  simp only [completes, Bool.or_eq_false_iff, beq_eq_false_iff_ne] at h
  rw [p.write_bit address (Bool.not_eq_true _ ▸ h.1) (by rw [List.length_append, List.length_singleton]; omega)]
  rfl

/-! ## Histories -/

/-- The board keeps this port, and the table is the one its registers lay out. -/
structure IsKept (source : CartridgeSource) (p : SerialPort) (state : Board × Banks) : Prop where
  board : state.1 = .mmc1 p.stored
  banks : state.2.save = p.layout source.prgCount source.chrCount

variable {source : CartridgeSource} {p : SerialPort} {banks : Banks}

/-- A reset keeps nothing of the board before. -/
theorem isKept_reset (m : Mmc1) (hbanks : banks.InRange source) :
    IsKept source {} ((Board.mmc1 m).reset banks) := by
  refine ⟨congrArg Board.mmc1 stored_initial.symm, ?_⟩
  show (Mmc1.layout {} banks).save = _
  rw [← stored_initial, layout_stored, hbanks.prgCount, hbanks.chrCount]

theorem write_part (p : SerialPort) {address : UInt16} (ha : 0x8000 ≤ address) {value : UInt8}
    (h : p.completes value = false) (banks : Banks) :
    ((Board.mmc1 p.stored).write address value banks).2 = banks := by
  simp only [Board.write, p.stored_write ha, h]
  rfl

theorem IsKept.write (hbanks : banks.InRange source) (h : IsKept source p (.mmc1 p.stored, banks)) {address : UInt16}
    (ha : 0x8000 ≤ address) (value : UInt8) :
    IsKept source (p.write address value) ((Board.mmc1 p.stored).write address value banks) := by
  simp only [Board.write, p.stored_write ha]
  refine ⟨rfl, ?_⟩
  dsimp only
  split
  · rw [layout_stored, hbanks.prgCount, hbanks.chrCount]
  · next hpart => rw [h.banks, p.layout_write address (Bool.not_eq_true _ ▸ hpart)]

/-- **What the board does is what the port does**, action by action. -/
theorem IsKept.respond {board : Board} {action : CartridgeAction} (hload : action.loads = false)
    (hbanks : banks.InRange source) (h : IsKept source p (board, banks)) :
    IsKept source (p.respond action) (board.respond banks action) := by
  obtain rfl : board = .mmc1 p.stored := h.board
  cases action with
  | read | readPattern | writePattern => exact h
  | hblank scanline => exact ⟨rfl, h.banks⟩
  | reset => exact isKept_reset p.stored hbanks
  | write address value =>
    have hclaims : (Board.mmc1 p.stored).claims address = decide (0x8000 ≤ address) := Board.claims_space rfl address
    simp only [Board.respond, SerialPort.respond, hclaims, decide_eq_true_eq]
    split
    · next ha => exact h.write hbanks ha value
    · exact h
  | load state => cases hload

end SerialPort

namespace Cartridge

variable {prg chr : Array UInt8} {mirroring : Mirroring} {c : Cartridge}

theorem following_isKept (h : ofImages prg chr Mmc1.number mirroring = .ok c) {actions : List CartridgeAction}
    (hactions : ∀ action ∈ actions, action.loads = false) :
    SerialPort.IsKept { prg, chr, number := Mmc1.number } (.after actions.reverse)
      ((c.following actions).board, (c.following actions).banks) := by
  refine following_invariant h (fun history => SerialPort.IsKept _ (.after history))
    (fun board banks hboard hbanks _ => ?_)
    (fun history action board banks hload hbanks hkept => hkept.respond hload hbanks) hactions
  obtain rfl : Board.mmc1 {} = board := Option.some.inj hboard
  exact SerialPort.isKept_reset {} hbanks

/-- **An MMC1 board is a serial port**: whatever is done with the cartridge, the board keeps the port that the same
writes and resets lead to, the table and the nametables are those its registers lay out, and no write before the fifth
bit of a value changes what is mapped. -/
theorem following_serialPort (h : ofImages prg chr Mmc1.number mirroring = .ok c) {actions : List CartridgeAction}
    (hactions : ∀ action ∈ actions, action.loads = false) :
    (c.following actions).board = .mmc1 (SerialPort.after actions.reverse).stored ∧
      (c.following actions).banks.save = (SerialPort.after actions.reverse).layout
        (prg.size / prgBankSize) ((c.following actions).chr.size / chrBankSize) ∧
      ∀ address value, 0x8000 ≤ address → value.toBitVec.getLsbD 7 = false →
        (SerialPort.after actions.reverse).pending.length < 4 →
        ((c.following actions).write address value).banks = (c.following actions).banks := by
  have hkept := following_isKept h hactions
  have hboard : (c.following actions).board = .mmc1 (SerialPort.after actions.reverse).stored := hkept.board
  have hfits := (ofImages_fits h).following actions
  have hbanked := ofImages_banked h
  refine ⟨hboard, hkept.banks.trans ?_, fun address value ha htop hfew => ?_⟩
  · rw [← hbanked.prgCount_eq, ← hbanked.chrCount_eq, ← hfits.chrSize]
  · have hpart : (SerialPort.after actions.reverse).completes value = false := by
      simp only [SerialPort.completes, htop, Bool.false_or, beq_eq_false_iff_ne]
      exact Nat.ne_of_lt hfew
    have hclaims : (c.following actions).claims address = true := by
      unfold Cartridge.claims
      rw [hboard, Board.claims_space rfl]
      exact decide_eq_true ha
    unfold Cartridge.write
    rw [if_pos hclaims]
    show ((c.following actions).board.write address value _).2 = _
    rw [hboard]
    exact SerialPort.write_part _ ha hpart _

/-- Five bits to the program register, a sixth pending, and a write with bit 7 set after a scanline. -/
theorem following_serialPort_five :
    ∃ (prg : Array UInt8) (c : Cartridge), prg.size = 0x10000 ∧ ofImages prg #[] Mmc1.number .vertical = .ok c ∧
      (c.following [.write 0xE000 1, .write 0xE000 0, .write 0x8000 0, .write 0xE000 0, .write 0xE000 0,
        .write 0xA000 1, .hblank 0, .write 0xFFFF 0x80, .write 0xC000 1]).board =
          .mmc1 { prg := 1, shift := 0x18, shiftCount := 1 } := by
  let source : CartridgeSource := { prg := .replicate 0x10000 0xEA, chr := #[], number := Mmc1.number }
  obtain ⟨c, hc⟩ := ofImages_ok source (by simp [source]) (by simp [source, prgBankSize]) rfl rfl .vertical
  refine ⟨source.prg, c, by simp [source], hc, ?_⟩
  rw [(following_serialPort hc (by decide)).1]
  exact congrArg Board.mmc1 (by decide)

end Cartridge
end NesConsole
