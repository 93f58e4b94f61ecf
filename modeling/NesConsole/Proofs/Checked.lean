import NesConsole.Bus
/-!
# Checked arithmetic

Counters are words of a fixed width whose sums and differences wrap, and tables are indexed by masked bytes.  These are
the same operations with a check in front: they give nothing where the exact result is not a word of that width, where a
byte is shifted out altogether, where a divisor is zero, or where an index lies behind the end of its table.
-/
namespace NesConsole
namespace Checked

/-- Whether a number is a signed word. -/
def IsSigned (n : Int) : Prop := -0x8000 ≤ n ∧ n < 0x8000

instance (n : Int) : Decidable (IsSigned n) :=
  inferInstanceAs (Decidable (_ ∧ _))

def addSigned (a b : Int16) : Option Int16 :=
  if IsSigned (a.toInt + b.toInt) then some (a + b) else none

def subSigned (a b : Int16) : Option Int16 :=
  if IsSigned (a.toInt - b.toInt) then some (a - b) else none

def byte (n : Nat) : Option UInt8 :=
  if n < 0x100 then some (UInt8.ofNat n) else none

def addByte (a b : UInt8) : Option UInt8 := byte (a.toNat + b.toNat)

def subByte (a b : UInt8) : Option UInt8 :=
  if b ≤ a then some (a - b) else none

def addWord (a b : UInt16) : Option UInt16 :=
  if a.toNat + b.toNat < 0x10000 then some (a + b) else none

def subWord (a b : UInt16) : Option UInt16 :=
  if b ≤ a then some (a - b) else none

def shiftWord (word : UInt16) (count : UInt8) : Option UInt16 :=
  if count < 16 then some (word >>> count.toUInt16) else none

def sub (a b : Nat) : Option Nat :=
  if b ≤ a then some (a - b) else none

def div (a b : Nat) : Option Nat :=
  if b = 0 then none else some (a / b)

theorem byte_eq {n : Nat} (h : n < 0x100) : byte n = some (UInt8.ofNat n) := if_pos h

theorem sub_eq {a b : Nat} (h : b ≤ a) : sub a b = some (a - b) := if_pos h

theorem div_succ (a b : Nat) : div a (b + 1) = some (a / (b + 1)) := if_neg (Nat.succ_ne_zero b)

theorem addByte_eq {a b : UInt8} (h : a.toNat + b.toNat < 0x100) : addByte a b = some (a + b) := by
  rw [addByte, byte_eq h, UInt8.ofNat_add, UInt8.ofNat_toNat, UInt8.ofNat_toNat]

theorem addByte_ofNat {m n : Nat} (h : m + n < 0x100) :
    addByte (UInt8.ofNat m) (UInt8.ofNat n) = some (UInt8.ofNat (m + n)) := by
  have hm : m < 0x100 := Nat.lt_of_le_of_lt (Nat.le_add_right m n) h
  have hn : n < 0x100 := Nat.lt_of_le_of_lt (Nat.le_add_left n m) h
  rw [addByte, UInt8.toNat_ofNat_of_lt' hm, UInt8.toNat_ofNat_of_lt' hn, byte_eq h]

/-- The low bits of an index. -/
theorem toNat_masked (index : UInt8) {mask : UInt8} (bits : Nat) (h : mask.toNat + 1 = 1 <<< bits) :
    (index &&& mask).toNat = index.toNat % (mask.toNat + 1) := by
  have hmask : mask.toNat = 1 <<< bits - 1 := Nat.eq_sub_of_add_eq h
  rw [UInt8.toNat_and, h, hmask, Nat.one_shiftLeft]
  exact Nat.and_two_pow_sub_one_eq_mod _ bits

end Checked
end NesConsole
