import NesConsole.FlatMemory
/-!
# Reading flat memory

What a byte of flat memory is after a write, and after bytes were placed.
-/
namespace NesConsole
namespace FlatMemory

theorem get_write (memory : FlatMemory) (address : UInt16) (value : UInt8) (other : UInt16) :
    (Bus.write memory address value).get other = if other = address then value else memory.get other := by
  have hbound : other.toNat < 0x10000 := other.toNat_lt
  change (memory.bytes.set address.toNat value address.toNat_lt)[other.toNat] = _
  rw [Vector.getElem_set]
  by_cases h : other = address
  · rw [if_pos h, if_pos (congrArg UInt16.toNat h.symm)]
  · rw [if_neg h, if_neg fun heq => h (UInt16.toNat_inj.1 heq.symm)]
    rfl

theorem get_set (memory : FlatMemory) (address : UInt16) (value : UInt8) (other : UInt16) :
    (memory.set address value).get other = if other = address then value else memory.get other :=
  memory.get_write address value other

/-- Distances along memory, which comes round at its top. -/
theorem distance_self (address : UInt16) : (address - (address + 1)).toNat = 0xFFFF := by
  simp only [UInt16.toNat_sub, UInt16.toNat_add, UInt16.reduceToNat]
  omega

theorem distance_succ {address start : UInt16} (h : address ≠ start) :
    (address - start).toNat = (address - (start + 1)).toNat + 1 := by
  have hne : address.toNat ≠ start.toNat := mt UInt16.toNat_inj.1 h
  have haddress : address.toNat < 0x10000 := address.toNat_lt
  have hstart : start.toNat < 0x10000 := start.toNat_lt
  simp only [UInt16.toNat_sub, UInt16.toNat_add, UInt16.reduceToNat]
  omega

/-- **Placed bytes are found where they were placed**, as far as the last does not come round to the first. -/
theorem get_load (memory : FlatMemory) (start : UInt16) {bytes : List UInt8} (h : bytes.length ≤ 0x10000)
    (address : UInt16) :
    (memory.load start bytes).get address = bytes[(address - start).toNat]?.getD (memory.get address) := by
  induction bytes generalizing memory start with
  | nil => rfl
  | cons byte rest ih =>
    rw [List.length_cons] at h
    rw [load, ih (memory.set start byte) (start + 1) (Nat.le_of_succ_le h), get_set]
    by_cases hfirst : address = start
    · subst hfirst
      rw [distance_self, if_pos rfl, UInt16.sub_self, List.getElem?_eq_none (Nat.le_of_succ_le_succ h)]
      rfl
    · rw [distance_succ hfirst, if_neg hfirst, List.getElem?_cons_succ]

@[simp] theorem get_empty (address : UInt16) : ({} : FlatMemory).get address = 0 := Vector.getElem_replicate _

end FlatMemory
end NesConsole
