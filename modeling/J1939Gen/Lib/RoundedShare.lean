import Mathlib

/-!
# A share of an amount, rounded half up

The `k / m` part of `n` in natural numbers.

* `share_zero`, `share_full`: nothing and everything are exact.
* `share_mono`, `share_le`: more parts give more, and never more than `n`.
-/

namespace RoundedShare

/-- `k / m` of `n`, rounded to the nearest natural number, halves up. -/
def share (k n m : ℕ) : ℕ := (k * n + m / 2) / m

variable {k k' n m : ℕ}

theorem share_zero (hm : 0 < m) : share 0 n m = 0 := by
  rw [share, Nat.zero_mul, Nat.zero_add]
  exact Nat.div_eq_of_lt (Nat.div_lt_self hm (by omega))

theorem share_full (hm : 0 < m) : share m n m = n := by
  rw [share, Nat.mul_add_div hm, Nat.div_eq_of_lt (Nat.div_lt_self hm (by omega)), Nat.add_zero]

/-- Nothing has no share. -/
theorem share_none (hm : 0 < m) : share k 0 m = 0 := by
  rw [share, Nat.mul_zero, Nat.zero_add]
  exact Nat.div_eq_of_lt (Nat.div_lt_self hm (by omega))

theorem share_mono (h : k ≤ k') : share k n m ≤ share k' n m := by
  apply Nat.div_le_div_right
  have := Nat.mul_le_mul_right n h
  omega

theorem share_le (hm : 0 < m) (h : k ≤ m) : share k n m ≤ n := by
  calc share k n m ≤ share m n m := share_mono h
    _ = n := share_full hm

end RoundedShare
