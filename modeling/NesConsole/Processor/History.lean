/-!
# The step history

A bounded log of lines, newest first: a write beyond the capacity drops the oldest line.
-/
namespace NesConsole

structure History where
  capacity : Nat
  /-- Newest first, never more than `capacity`. -/
  newest : List String := []
  bounded : newest.length ≤ capacity := by simp

namespace History

def write (h : History) (line : String) : History where
  capacity := h.capacity
  newest := (line :: h.newest).take h.capacity
  bounded := List.length_take_le _ _

/-- The last `count` lines, oldest first. -/
def recent (h : History) (count : Nat) : List String :=
  (h.newest.take count).reverse

def size (h : History) : Nat := h.newest.length

def isEmpty (h : History) : Bool := h.newest.isEmpty

def clear (h : History) : History := { capacity := h.capacity }

end History
end NesConsole
