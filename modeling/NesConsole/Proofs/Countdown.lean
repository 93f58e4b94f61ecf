/-!
# Countdowns

Some parts of the console count down to zero and then start over from the top, so that a round takes one step more than
the top says.  Where such a counter is after a number of steps follows from one fact that every step keeps: the steps made
and those still to come fill whole rounds.
-/
namespace NesConsole

/-- A counter that goes round from `top` down to zero has `left` steps to go, `n` steps after it stood at zero. -/
structure Countdown (top left n : Nat) : Prop where
  left_le : left ≤ top
  rounds : top + 1 ∣ left + n

namespace Countdown

variable {top left n : Nat}

theorem down (h : Countdown top left n) (hpos : 0 < left) : Countdown top (left - 1) (n + 1) := by
  have hnext : left - 1 + (n + 1) = left + n := by omega
  exact ⟨Nat.le_trans (Nat.sub_le _ _) h.left_le, hnext ▸ h.rounds⟩

theorem restart (h : Countdown top left n) (hzero : left = 0) : Countdown top top (n + 1) := by
  have hnext : top + (n + 1) = left + n + (top + 1) := by omega
  exact ⟨Nat.le_refl _, hnext ▸ Nat.dvd_add h.rounds (Nat.dvd_refl _)⟩

theorem left_eq (h : Countdown top left n) : (left : Int) = -(n : Int) % ((top + 1 : Nat) : Int) := by
  obtain ⟨rounds, hrounds⟩ := h.rounds
  have hle := h.left_le
  have hcast : ((left + n : Nat) : Int) = ((top + 1 : Nat) : Int) * (rounds : Int) := by
    rw [hrounds, Int.natCast_mul]
  have hneg : -(n : Int) = left + ((top + 1 : Nat) : Int) * -(rounds : Int) := by
    rw [Int.mul_neg, ← hcast]
    omega
  rw [hneg, Int.add_mul_emod_self_left, Int.emod_eq_of_lt (by omega) (by omega)]

theorem left_eq_zero_iff (h : Countdown top left n) : left = 0 ↔ top + 1 ∣ n := by
  have hrounds := h.rounds
  constructor
  · intro hzero
    rwa [hzero, Nat.zero_add] at hrounds
  · intro hn
    exact Nat.eq_zero_of_dvd_of_lt ((Nat.dvd_add_iff_left hn).2 hrounds) (Nat.lt_succ_of_le h.left_le)

end Countdown
end NesConsole
