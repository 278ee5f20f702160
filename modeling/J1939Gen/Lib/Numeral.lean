import Mathlib.Data.Nat.Digits.Lemmas
import Mathlib.Tactic.Ring

/-!
# Numerals

Numbers as lists of digits, the most significant first.

* `peel`: the digits a loop of divisions takes off, the least significant first.
* `fixed`: a given count of digits, with leading zeros.
* `value`: what a reader makes of digits, from the left.
* `value_peel`, `value_fixed`: the reader gets the number back.
-/

namespace Numeral

/-! ## The loop of divisions -/

/-- The digits of `n` in base `b`, the least significant first and at least one, in at most
`fuel` divisions. -/
def peel (b : ℕ) : ℕ → ℕ → List ℕ
  | 0, _ => []
  | fuel + 1, n => n % b :: if n / b = 0 then [] else peel b fuel (n / b)

theorem length_peel_le (b fuel n : ℕ) : (peel b fuel n).length ≤ fuel := by
  induction fuel generalizing n with
  | zero => exact le_refl 0
  | succ fuel ih =>
    have hrest := ih (n / b)
    rw [peel, List.length_cons]
    split
    · rw [List.length_nil]
      omega
    · omega

theorem peel_ne_nil (b fuel n : ℕ) : peel b (fuel + 1) n ≠ [] := List.cons_ne_nil _ _

theorem peel_lt {b : ℕ} (hb : 0 < b) (fuel n : ℕ) : ∀ d ∈ peel b fuel n, d < b := by
  induction fuel generalizing n with
  | zero => exact fun d hd => absurd hd List.not_mem_nil
  | succ fuel ih =>
    intro d hd
    rw [peel, List.mem_cons] at hd
    obtain rfl | hd := hd
    · exact Nat.mod_lt n hb
    · split at hd
      · exact absurd hd List.not_mem_nil
      · exact ih (n / b) d hd

/-- Enough divisions lose no digit. -/
theorem ofDigits_peel {b fuel n : ℕ} (hn : n < b ^ fuel) : Nat.ofDigits b (peel b fuel n) = n := by
  induction fuel generalizing n with
  | zero =>
    rw [pow_zero] at hn
    rw [peel, Nat.ofDigits_nil]
    omega
  | succ fuel ih =>
    have hdiv : n / b < b ^ fuel := Nat.div_lt_of_lt_mul (by rwa [pow_succ, Nat.mul_comm] at hn)
    have hsplit := Nat.mod_add_div n b
    rw [peel, Nat.ofDigits_cons]
    split
    · next hzero =>
      rw [hzero, Nat.mul_zero, Nat.add_zero] at hsplit
      rw [Nat.ofDigits_nil, Nat.mul_zero, Nat.add_zero, hsplit]
    · rw [ih hdiv, hsplit]

/-! ## A given count of digits -/

/-- The `k` low digits of `n` in base `b`, the most significant first. -/
def fixed (b k n : ℕ) : List ℕ := (List.range k).map fun i => n / b ^ (k - 1 - i) % b

theorem length_fixed (b k n : ℕ) : (fixed b k n).length = k := by
  rw [fixed, List.length_map, List.length_range]

theorem fixed_lt {b : ℕ} (hb : 0 < b) (k n : ℕ) : ∀ d ∈ fixed b k n, d < b := by
  intro d hd
  obtain ⟨i, -, rfl⟩ := List.mem_map.mp hd
  exact Nat.mod_lt _ hb

/-- The low digit comes last. -/
theorem fixed_succ (b k n : ℕ) : fixed b (k + 1) n = fixed b k (n / b) ++ [n % b] := by
  rw [fixed, List.range_succ, List.map_append, List.map_singleton, fixed]
  congr 1
  · apply List.map_congr_left
    intro i hi
    have hlt := List.mem_range.mp hi
    rw [Nat.div_div_eq_div_mul, ← pow_succ', show k + 1 - 1 - i = k - 1 - i + 1 by omega]
  · rw [show k + 1 - 1 - k = 0 by omega, pow_zero, Nat.div_one]

/-! ## The reader -/

/-- The number digits make up, read from the left. -/
def value (b : ℕ) (digits : List ℕ) : ℕ := digits.foldl (fun v d => v * b + d) 0

theorem value_concat (b : ℕ) (digits : List ℕ) (d : ℕ) :
    value b (digits ++ [d]) = value b digits * b + d := by
  rw [value, List.foldl_append]
  rfl

theorem value_reverse (b : ℕ) (digits : List ℕ) :
    value b digits.reverse = Nat.ofDigits b digits := by
  induction digits with
  | nil => rfl
  | cons d digits ih =>
    rw [List.reverse_cons, value_concat, ih, Nat.ofDigits_cons]
    ring

/-- What the loop took off, put in order, reads as the number. -/
theorem value_peel {b fuel n : ℕ} (hn : n < b ^ fuel) : value b (peel b fuel n).reverse = n := by
  rw [value_reverse, ofDigits_peel hn]

theorem value_fixed (b k n : ℕ) : value b (fixed b k n) = n % b ^ k := by
  induction k generalizing n with
  | zero => rw [pow_zero, Nat.mod_one]; rfl
  | succ k ih =>
    rw [fixed_succ, value_concat, ih, pow_succ', Nat.mod_mul]
    ring

end Numeral
