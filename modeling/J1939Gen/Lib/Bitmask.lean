import Mathlib

/-!
# Sets of small numbers stored as byte masks

A mask is an array of bytes; number `i` is a member when bit `i % 8` of byte
`i / 8` is set. The operations are the usual C idioms
`mask[i / 8] & (1u << (i % 8))` and `mask[i / 8] |= …`, `&= ~…`.

* `test_assign`: assigning one bit changes the membership of that number only.
* `ext_test`: a mask is its members.
* `card_succ`: the number of members below a bound, as a counting loop finds it.
-/

namespace Bitmask

/-- A byte array indexed from zero. -/
abbrev Mask := ℕ → UInt8

/-- `memset(mask, 0, …)`. -/
def zero : Mask := fun _ => 0

/-- `(uint8_t)(1u << (i % 8u))`. -/
def bit (i : ℕ) : UInt8 := 1 <<< UInt8.ofNat (i % 8)

/-- `(mask[i / 8u] & (uint8_t)(1u << (i % 8u))) != 0u`. -/
def test (m : Mask) (i : ℕ) : Bool := (m (i / 8) &&& bit i) != 0

/-- `mask[i / 8u] |= bit` for `on`, `mask[i / 8u] &= ~bit` otherwise. -/
def assign (m : Mask) (i : ℕ) (on : Bool) : Mask :=
  Function.update m (i / 8) (if on then m (i / 8) ||| bit i else m (i / 8) &&& ~~~(bit i))

theorem toNat_bit (i : ℕ) : (bit i).toNat = 2 ^ (i % 8) := by
  have h : i % 8 < 8 := Nat.mod_lt _ (by norm_num)
  unfold bit
  generalize i % 8 = k at h
  interval_cases k <;> rfl

/-- Membership is a bit of the byte read as a number. -/
theorem test_eq_testBit (m : Mask) (i : ℕ) : test m i = (m (i / 8)).toNat.testBit (i % 8) := by
  have h0 : (m (i / 8) &&& bit i = 0) ↔ (m (i / 8)).toNat.testBit (i % 8) = false := by
    rw [← UInt8.toNat_inj, UInt8.toNat_and, toNat_bit, Nat.and_two_pow]
    simp
  cases hb : (m (i / 8)).toNat.testBit (i % 8) with
  | false => simp [test, h0.mpr hb]
  | true =>
    have hne : m (i / 8) &&& bit i ≠ 0 := fun h => by simp [h0.mp h] at hb
    simp [test, hne]

theorem testBit_not_bit (i k : ℕ) (hk : k < 8) :
    (~~~(bit i)).toNat.testBit k = !decide (k = i % 8) := by
  have h : i % 8 < 8 := Nat.mod_lt _ (by norm_num)
  unfold bit
  generalize i % 8 = j at h
  interval_cases j <;> interval_cases k <;> rfl

@[simp] theorem test_zero (i : ℕ) : test zero i = false := by
  simp [test, zero]

/-- Assigning bit `i` is a point update of the membership function. -/
theorem test_assign (m : Mask) (i j : ℕ) (on : Bool) :
    test (assign m i on) j = if j = i then on else test m j := by
  have hj : j % 8 < 8 := Nat.mod_lt _ (by norm_num)
  rw [test_eq_testBit, test_eq_testBit, assign]
  by_cases hq : j / 8 = i / 8
  · rw [hq, Function.update_self]
    have hr : j % 8 = i % 8 ↔ j = i := by omega
    cases on with
    | true =>
      rw [if_pos rfl, UInt8.toNat_or, Nat.testBit_or, toNat_bit, Nat.testBit_two_pow]
      by_cases h : j = i
      · simp [h]
      · simp [h, hr, eq_comm (a := i % 8)]
    | false =>
      rw [if_neg (by simp), UInt8.toNat_and, Nat.testBit_and, testBit_not_bit _ _ hj]
      by_cases h : j = i
      · simp [h]
      · simp [h, hr]
  · have h : j ≠ i := by rintro rfl; exact hq rfl
    rw [Function.update_of_ne hq, if_neg h]

@[simp] theorem test_assign_self (m : Mask) (i : ℕ) (on : Bool) : test (assign m i on) i = on := by
  rw [test_assign, if_pos rfl]

theorem test_assign_of_ne (m : Mask) {i j : ℕ} (on : Bool) (h : j ≠ i) :
    test (assign m i on) j = test m j := by
  rw [test_assign, if_neg h]

/-- Two masks with the same members are the same bytes. -/
theorem ext_test {m m' : Mask} (h : ∀ j, test m j = test m' j) : m = m' := by
  funext i
  rw [← UInt8.toNat_inj]
  refine Nat.eq_of_testBit_eq fun k => ?_
  by_cases hk : k < 8
  · have := h (8 * i + k)
    rwa [test_eq_testBit, test_eq_testBit, show (8 * i + k) / 8 = i by omega,
      show (8 * i + k) % 8 = k by omega] at this
  · have hb : ∀ b : UInt8, b.toNat.testBit k = false := by
      intro b
      have hlt : b.toNat < 2 ^ k :=
        lt_of_lt_of_le (UInt8.toNat_lt b) (Nat.pow_le_pow_right (by norm_num) (by omega : 8 ≤ k))
      exact Nat.testBit_eq_false_of_lt hlt
    rw [hb, hb]

/-- A mask whose members are all below `n` has nothing above bit `n % 8` in
    the byte that holds `n`: the tail check `(tail >> (n % 8u)) != 0u`. -/
theorem tail_shiftRight_eq_zero (m : Mask) (n : ℕ)
    (h : ∀ i, n ≤ i → i < 8 * (n / 8 + 1) → test m i = false) :
    m (n / 8) >>> UInt8.ofNat (n % 8) = 0 := by
  have hn : n % 8 < 8 := Nat.mod_lt _ (by norm_num)
  rw [← UInt8.toNat_inj, UInt8.toNat_shiftRight]
  have hk : (UInt8.ofNat (n % 8)).toNat % 8 = n % 8 := by
    simp only [UInt8.toNat_ofNat']
    omega
  rw [hk, UInt8.toNat_zero]
  refine Nat.eq_of_testBit_eq fun k => ?_
  rw [Nat.testBit_shiftRight, Nat.zero_testBit]
  by_cases hlt : n % 8 + k < 8
  · have := h (n + k) (by omega) (by omega)
    rwa [test_eq_testBit, show (n + k) / 8 = n / 8 by omega,
      show (n + k) % 8 = n % 8 + k by omega] at this
  · have hb : (m (n / 8)).toNat < 2 ^ (n % 8 + k) :=
      lt_of_lt_of_le (UInt8.toNat_lt _) (Nat.pow_le_pow_right (by norm_num) (by omega))
    exact Nat.testBit_eq_false_of_lt hb

/-! ## Counting members -/

/-- The number of members below `n`. -/
def card (m : Mask) (n : ℕ) : ℕ := ((Finset.range n).filter fun i => test m i = true).card

@[simp] theorem card_zero (n : ℕ) : card zero n = 0 := by
  simp [card]

/-- `card` as the C counting loop computes it. -/
theorem card_succ (m : Mask) (n : ℕ) :
    card m (n + 1) = card m n + if test m n then 1 else 0 := by
  unfold card
  rw [Finset.range_add_one, Finset.filter_insert]
  split_ifs with h
  · rw [Finset.card_insert_of_notMem (by simp)]
  · rfl

end Bitmask
