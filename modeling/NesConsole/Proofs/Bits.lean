/-!
# Bits and fields

Most registers are bytes whose bits have meanings of their own, and some make up a longer word together.  Programs cut
the fields out with masks and shifts; these lemmas read the results as bits and as numbers.
-/
namespace NesConsole

/-- A single bit cut out of a written value. -/
theorem flag_eq (mask : UInt8) (i : Nat) (hi : i < 8) (hmask : mask = 1 <<< UInt8.ofNat i) (value : UInt8) :
    (value &&& mask == 0) = !value.toBitVec.getLsbD i := by
  have h : ∀ n : Fin 256, ∀ i : Fin 8,
      (UInt8.ofFin n &&& 1 <<< UInt8.ofNat i == 0) = !(UInt8.ofFin n).toBitVec.getLsbD i := by decide +kernel
  exact hmask ▸ h value.toFin ⟨i, hi⟩

theorem flag_ne (mask : UInt8) (i : Nat) (hi : i < 8) (hmask : mask = 1 <<< UInt8.ofNat i) (value : UInt8) :
    (value &&& mask != 0) = value.toBitVec.getLsbD i := by
  rw [bne, flag_eq mask i hi hmask, Bool.not_not]

theorem and_one (value : UInt8) : value &&& 1 = (value.toBitVec.getLsbD 0).toUInt8 := by
  have h : ∀ n : Fin 256, UInt8.ofFin n &&& 1 = ((UInt8.ofFin n).toBitVec.getLsbD 0).toUInt8 := by decide +kernel
  exact h value.toFin

/-- A flag put in a byte of its own. -/
theorem getLsbD_flag (on : Bool) (place : UInt8) (hplace : place < 8) (i : Nat) :
    (on.toUInt8 <<< place).toBitVec.getLsbD i = (on && decide (i = place.toNat)) := by
  have h : ∀ (on : Bool) (n i : Fin 8),
      (on.toUInt8 <<< UInt8.ofNat n).toBitVec.getLsbD i = (on && decide (i.val = n.val)) := by decide
  have hlt : place.toNat < 8 := UInt8.lt_iff_toNat_lt.1 hplace
  by_cases hi : i < 8
  · have hbit := h on ⟨place.toNat, hlt⟩ ⟨i, hi⟩
    rwa [UInt8.ofNat_toNat] at hbit
  · rw [BitVec.getLsbD_of_ge _ i (Nat.le_of_not_lt hi), decide_eq_false (by omega), Bool.and_false]

/-- The low `n` bits as a number. -/
theorem toNat_low (mask : UInt8) (n : Nat) (hmask : mask.toNat = 1 <<< n - 1) (value : UInt8) :
    (value &&& mask).toNat = value.toNat % 1 <<< n := by
  rw [UInt8.toNat_and, hmask, Nat.one_shiftLeft, Nat.and_two_pow_sub_one_eq_mod]

theorem toNat_lowWord (mask : UInt16) (n : Nat) (hmask : mask.toNat = 1 <<< n - 1) (word : UInt16) :
    (word &&& mask).toNat = word.toNat % 1 <<< n := by
  rw [UInt16.toNat_and, hmask, Nat.one_shiftLeft, Nat.and_two_pow_sub_one_eq_mod]

theorem toNat_shiftRight_four (value : UInt8) : (value >>> 4).toNat = value.toNat / 16 := by
  rw [UInt8.toNat_shiftRight, Nat.shiftRight_eq_div_pow]
  rfl

/-! ## Pages and words -/

theorem page_or {page offset : Nat} (h : offset < 0x100) : page * 0x100 ||| offset = page * 0x100 + offset := by
  rw [Nat.mul_comm]
  exact (Nat.two_pow_add_eq_or_of_lt (i := 8) h page).symm

theorem toNat_page (word : UInt16) : (word &&& 0xFF00).toNat = word.toNat / 0x100 * 0x100 := by
  have hlt : word.toNat < 0x10000 := word.toNat_lt
  have hdiv : (word.toNat &&& 0xFF00) / 0x100 = word.toNat / 0x100 &&& 0xFF := Nat.and_div_two_pow (n := 8)
  have hmask : word.toNat / 0x100 &&& 0xFF = word.toNat / 0x100 % 0x100 := Nat.and_two_pow_sub_one_eq_mod _ 8
  have hmod : (word.toNat &&& 0xFF00) % 0x100 = word.toNat % 0x100 &&& 0 := Nat.and_mod_two_pow (n := 8)
  have hlow : word.toNat % 0x100 &&& 0 = 0 := Nat.and_zero _
  show word.toNat &&& 0xFF00 = _
  omega

theorem toNat_word (low high : UInt8) :
    (high.toUInt16 <<< 8 ||| low.toUInt16).toNat = low.toNat + 0x100 * high.toNat := by
  have hlow : low.toNat < 0x100 := low.toNat_lt
  have hhigh : high.toNat < 0x100 := high.toNat_lt
  have hshift : (high.toUInt16 <<< 8).toNat = high.toNat * 0x100 := by
    rw [UInt16.toNat_shiftLeft, UInt8.toNat_toUInt16]
    show high.toNat <<< 8 % 0x10000 = _
    rw [Nat.shiftLeft_eq]
    omega
  rw [UInt16.toNat_or, hshift, UInt8.toNat_toUInt16, page_or hlow]
  omega

/-- A word is put together again from its bytes. -/
theorem word_bytes (word : UInt16) : (word >>> 8).toUInt8.toUInt16 <<< 8 ||| word.toUInt8.toUInt16 = word := by
  have hlt : word.toNat < 0x10000 := word.toNat_lt
  have hhigh : (word >>> 8).toUInt8.toNat = word.toNat / 0x100 := by
    rw [UInt16.toNat_toUInt8, UInt16.toNat_shiftRight, Nat.shiftRight_eq_div_pow]
    show word.toNat / 0x100 % 0x100 = _
    omega
  rw [← UInt16.toNat_inj, toNat_word, hhigh, UInt16.toNat_toUInt8]
  omega

/-- The successor of a word, without a carry into its page. -/
theorem toNat_succ_inPage (word : UInt16) :
    (word &&& 0xFF00 ||| (word + 1) &&& 0x00FF).toNat = word.toNat / 0x100 * 0x100 + (word.toNat + 1) % 0x100 := by
  have hlow : ((word + 1) &&& 0x00FF).toNat = (word.toNat + 1) % 0x100 := by
    rw [toNat_lowWord 0x00FF 8 rfl, UInt16.toNat_add]
    show (word.toNat + 1) % 0x10000 % 0x100 = _
    omega
  rw [UInt16.toNat_or, toNat_page, hlow, page_or (Nat.mod_lt _ (by decide))]

end NesConsole
