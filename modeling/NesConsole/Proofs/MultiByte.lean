import Mathlib.Data.Nat.Digits.Defs
import NesConsole.Processor.Registers
import NesConsole.Proofs.Bits
/-!
# Numbers of several bytes

Bytes, the lowest first, stand for a number, and in two's complement for a signed one.  Adding byte by byte and handing
each carry on to the next byte adds the numbers: the bytes and the last carry are the sum, and the last overflow tells
whether the signed sum can be represented (`Sums.cons`).
-/
namespace NesConsole

def littleEndian (bytes : List UInt8) : Nat := Nat.ofDigits 0x100 (bytes.map UInt8.toNat)

/-- The number below `0x100 ^ n` in two's complement. -/
def signed (n value : Nat) : Int := (value : Int).bmod (0x100 ^ n)

/-- Whether a number can be represented by `n` bytes in two's complement. -/
def Representable (n : Nat) (z : Int) : Prop := -(0x100 ^ n : Nat) ≤ 2 * z ∧ 2 * z < (0x100 ^ n : Nat)

instance (n : Nat) (z : Int) : Decidable (Representable n z) := inferInstanceAs (Decidable (_ ∧ _))

theorem littleEndian_cons (byte : UInt8) (bytes : List UInt8) :
    littleEndian (byte :: bytes) = byte.toNat + 0x100 * littleEndian bytes :=
  Nat.ofDigits_cons

theorem littleEndian_lt (bytes : List UInt8) : littleEndian bytes < 0x100 ^ bytes.length := by
  induction bytes with
  | nil => decide
  | cons byte bytes ih =>
    have hbyte : byte.toNat < 0x100 := byte.toNat_lt
    rw [littleEndian_cons, List.length_cons, Nat.pow_succ]
    omega

theorem signed_eq {n value : Nat} (h : value < 0x100 ^ n) :
    signed n value = if 2 * value < 0x100 ^ n then (value : Int) else value - (0x100 ^ n : Nat) := by
  have hmod : (value : Int) % (0x100 ^ n : Nat) = value := Int.emod_eq_of_lt (by omega) (by omega)
  rw [signed, Int.bmod_def, hmod]
  split <;> split <;> omega

theorem even_pow {n : Nat} (hn : n ≠ 0) : 0x100 ^ n % 2 = 0 := by
  obtain ⟨k, rfl⟩ := Nat.exists_eq_succ_of_ne_zero hn
  rw [Nat.pow_succ]
  omega

/-- The sign of a number is the sign of its upper bytes. -/
theorem signed_cons {n : Nat} (hn : n ≠ 0) (byte : UInt8) {value : Nat} (h : value < 0x100 ^ n) :
    signed (n + 1) (byte.toNat + 0x100 * value) = byte.toNat + 0x100 * signed n value := by
  have hbyte : byte.toNat < 0x100 := byte.toNat_lt
  have heven := even_pow hn
  have hpow : 0x100 ^ (n + 1) = 0x100 ^ n * 0x100 := Nat.pow_succ _ _
  rw [signed_eq h, signed_eq (by omega), hpow]
  split <;> split <;> omega

/-! ## Complements -/

theorem littleEndian_complement (bytes : List UInt8) :
    littleEndian (bytes.map (~~~·)) = 0x100 ^ bytes.length - 1 - littleEndian bytes := by
  induction bytes with
  | nil => rfl
  | cons byte bytes ih =>
    have hbyte : byte.toNat < 0x100 := byte.toNat_lt
    have hbytes := littleEndian_lt bytes
    have hnot : (~~~byte).toNat = 0xFF - byte.toNat := UInt8.toNat_not byte
    rw [List.map_cons, littleEndian_cons, littleEndian_cons, ih, hnot, List.length_cons, Nat.pow_succ]
    omega

theorem signed_complement {n value : Nat} (hn : n ≠ 0) (h : value < 0x100 ^ n) :
    signed n (0x100 ^ n - 1 - value) = -1 - signed n value := by
  have heven := even_pow hn
  rw [signed_eq h, signed_eq (by omega)]
  split <;> split <;> omega

/-! ## One byte -/

theorem addToA_total (r : Registers) (value : UInt8) :
    r.a.toNat + value.toNat + r.p.carry.toNat =
      (r.addToA value).a.toNat + 0x100 * (r.addToA value).p.carry.toNat := by
  have ha : r.a.toNat < 0x100 := r.a.toNat_lt
  have hvalue : value.toNat < 0x100 := value.toNat_lt
  have hcarry : r.p.carry.toNat ≤ 1 := Bool.toNat_le _
  show _ = (UInt8.ofNat (r.a.toNat + value.toNat + r.p.carry.toNat)).toNat +
    0x100 * (decide (0xFF < r.a.toNat + value.toNat + r.p.carry.toNat)).toNat
  rw [UInt8.toNat_ofNat']
  by_cases hover : 0xFF < r.a.toNat + value.toNat + r.p.carry.toNat
  · rw [decide_eq_true hover, Bool.toNat_true]
    omega
  · rw [decide_eq_false hover, Bool.toNat_false]
    omega

theorem getLsbD_sign (byte : UInt8) : byte.toBitVec.getLsbD 7 = decide (0x80 ≤ byte.toNat) := by
  have h : ∀ n : Fin 256, (UInt8.ofFin n).toBitVec.getLsbD 7 = decide (0x80 ≤ (UInt8.ofFin n).toNat) := by
    decide +kernel
  exact h byte.toFin

/-- V is set when the addends have one sign and their sum the other. -/
theorem addToA_overflow (r : Registers) (value : UInt8) :
    (r.addToA value).p.overflow = true ↔
      ¬Representable 1 (signed 1 r.a.toNat + signed 1 value.toNat + r.p.carry.toNat) := by
  have ha : r.a.toNat < 0x100 := r.a.toNat_lt
  have hvalue : value.toNat < 0x100 := value.toNat_lt
  have hcarry : r.p.carry.toNat ≤ 1 := Bool.toNat_le _
  have htotal := addToA_total r value
  have hlast : (r.addToA value).p.carry.toNat ≤ 1 := Bool.toNat_le _
  have hresult : (r.addToA value).a.toNat < 0x100 := (r.addToA value).a.toNat_lt
  have hover : (r.addToA value).p.overflow =
      ((r.a ^^^ (r.addToA value).a) &&& (value ^^^ (r.addToA value).a) &&& 0x80 != 0) := rfl
  rw [hover, flag_ne 0x80 7 (by decide) rfl, UInt8.toBitVec_and, BitVec.getLsbD_and, UInt8.toBitVec_xor,
    UInt8.toBitVec_xor, BitVec.getLsbD_xor, BitVec.getLsbD_xor, getLsbD_sign, getLsbD_sign, getLsbD_sign,
    signed_eq (by omega), signed_eq (by omega), Representable]
  simp only [Bool.and_eq_true, bne_iff_ne, ne_eq, decide_eq_decide]
  split <;> split <;> omega

/-! ## Many bytes -/

/-- Addition byte by byte from this carry gave these sums, this last carry and this last overflow. -/
structure Sums (start : Bool) (as bs sums : List UInt8) (carry overflow : Bool) : Prop where
  length : bs.length = as.length ∧ sums.length = as.length
  total : littleEndian as + littleEndian bs + start.toNat = littleEndian sums + 0x100 ^ as.length * carry.toNat
  overflow : overflow = true ↔
    ¬Representable as.length
      (signed as.length (littleEndian as) + signed as.length (littleEndian bs) + start.toNat)

namespace Sums

theorem one (r : Registers) (value : UInt8) :
    Sums r.p.carry [r.a] [value] [(r.addToA value).a] (r.addToA value).p.carry (r.addToA value).p.overflow where
  length := ⟨rfl, rfl⟩
  total := addToA_total r value
  overflow := addToA_overflow r value

/-- **The next byte takes the carry over.** -/
theorem cons {as bs sums : List UInt8} {carry overflow : Bool} (r : Registers) (value : UInt8) (hne : as ≠ [])
    (h : Sums (r.addToA value).p.carry as bs sums carry overflow) :
    Sums r.p.carry (r.a :: as) (value :: bs) ((r.addToA value).a :: sums) carry overflow where
  length := ⟨congrArg (· + 1) h.length.1, congrArg (· + 1) h.length.2⟩
  total := by
    have hbyte := addToA_total r value
    have htotal := h.total
    simp only [littleEndian_cons, List.length_cons, Nat.pow_succ]
    cases carry <;> simp only [Bool.toNat_true, Bool.toNat_false] at htotal ⊢ <;> omega
  overflow := by
    have hbyte := addToA_total r value
    have hlt := (r.addToA value).a.toNat_lt
    have hn : as.length ≠ 0 := mt List.length_eq_zero_iff.1 hne
    have has := littleEndian_lt as
    have hbs := h.length.1 ▸ littleEndian_lt bs
    rw [h.overflow, List.length_cons, littleEndian_cons, littleEndian_cons, signed_cons hn _ has, signed_cons hn _ hbs]
    -- the bounds are multiples of 0x100, which the lowest byte of the sum cannot reach over
    have heven := even_pow hn
    unfold Representable
    rw [Nat.pow_succ]
    omega

variable {as bs sums : List UInt8} {carry overflow : Bool}

theorem sums_lt {start : Bool} (h : Sums start as bs sums carry overflow) :
    littleEndian sums < 0x100 ^ as.length :=
  h.length.2 ▸ littleEndian_lt sums

/-- **From a carry that is clear, numbers are added.** -/
theorem added (h : Sums false as bs sums carry overflow) :
    (littleEndian sums : Int) = (littleEndian as + littleEndian bs : Int) % (0x100 ^ as.length : Nat) ∧
      (carry = true ↔ 0x100 ^ as.length ≤ littleEndian as + littleEndian bs) ∧
      (overflow = true ↔ ¬Representable as.length
        (signed as.length (littleEndian as) + signed as.length (littleEndian bs))) := by
  have hlt := h.sums_lt
  have htotal := h.total
  rw [Bool.toNat_false, Nat.add_zero] at htotal
  refine ⟨?_, ?_, ?_⟩
  · rw [← Int.natCast_add, htotal, ← Int.natCast_emod, Nat.add_mul_mod_self_left, Nat.mod_eq_of_lt hlt]
  · cases carry with
    | false =>
      rw [Bool.toNat_false] at htotal
      exact iff_of_false Bool.false_ne_true (by omega)
    | true =>
      rw [Bool.toNat_true] at htotal
      exact iff_of_true rfl (by omega)
  · rw [h.overflow, Bool.toNat_false, Int.natCast_zero, Int.add_zero]

/-- **From a carry that is set, and with complements, they are subtracted**, and the last carry tells that nothing was
borrowed. -/
theorem subtracted (hne : as ≠ []) (h : Sums true as (bs.map (~~~·)) sums carry overflow) :
    (littleEndian sums : Int) = (littleEndian as - littleEndian bs : Int) % (0x100 ^ as.length : Nat) ∧
      (carry = true ↔ littleEndian bs ≤ littleEndian as) ∧
      (overflow = true ↔ ¬Representable as.length
        (signed as.length (littleEndian as) - signed as.length (littleEndian bs))) := by
  have hlength : bs.length = as.length := (List.length_map _).symm.trans h.length.1
  have hn : as.length ≠ 0 := mt List.length_eq_zero_iff.1 hne
  have hlt := h.sums_lt
  have hbs : littleEndian bs < 0x100 ^ as.length := hlength ▸ littleEndian_lt bs
  have htotal := h.total
  have hover := h.overflow
  rw [littleEndian_complement, hlength, Bool.toNat_true] at htotal hover
  refine ⟨?_, ?_, ?_⟩
  · have hdifference : (littleEndian as - littleEndian bs : Int) =
        littleEndian sums + (0x100 ^ as.length : Nat) * (carry.toNat - 1) := by
      cases carry <;> simp only [Bool.toNat_true, Bool.toNat_false] at htotal ⊢ <;> omega
    rw [hdifference, Int.add_mul_emod_self_left, Int.emod_eq_of_lt (by omega) (by omega)]
  · cases carry with
    | false =>
      rw [Bool.toNat_false] at htotal
      exact iff_of_false Bool.false_ne_true (by omega)
    | true =>
      rw [Bool.toNat_true] at htotal
      exact iff_of_true rfl (by omega)
  · rw [hover, signed_complement hn hbs]
    have hsum (x y : Int) : x + (-1 - y) + (1 : Nat) = x - y := by omega
    rw [hsum]

end Sums
end NesConsole
