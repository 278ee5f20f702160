import J1939Gen.Lib.Bitmask

/-!
# Bit fields of a byte buffer

A field of `n ≤ 32` bits starting at bit `start` of a byte buffer, least
significant bit first, written and read bit by bit.

* `test_write`: what a field write does to every bit of the buffer.
* `read_write`: a field reads back as written.
* `read_congr`: a read depends on the bits of its field only.
* `write_read`, `write_comm`: writing back what was read changes nothing, and
  writes of disjoint fields commute.
-/

namespace BitField

open Bitmask

/-- Write the low `n` bits of `v` at bit `start`. -/
def write (m : Mask) (start n : ℕ) (v : UInt32) : Mask :=
  (List.range n).foldl (fun m i => assign m (start + i) ((v >>> UInt32.ofNat i) &&& 1 != 0)) m

/-- Read `n` bits at bit `start`. -/
def read (m : Mask) (start n : ℕ) : UInt32 :=
  (List.range n).foldl
    (fun r i => if test m (start + i) then r ||| (1 <<< UInt32.ofNat i) else r) 0

theorem bit_eq_testBit (v : UInt32) {i : ℕ} (h : i < 32) :
    ((v >>> UInt32.ofNat i) &&& 1 != 0) = v.toNat.testBit i := by
  have hi : (UInt32.ofNat i).toNat % 32 = i := by
    simp only [UInt32.toNat_ofNat']
    omega
  have hz : ((v >>> UInt32.ofNat i) &&& 1 = 0) ↔ v.toNat.testBit i = false := by
    rw [← UInt32.toNat_inj, UInt32.toNat_and, UInt32.toNat_shiftRight, hi,
      show (1 : UInt32).toNat = 1 from rfl, show (0 : UInt32).toNat = 0 from rfl,
      Nat.and_one_is_mod, Nat.testBit, Nat.shiftRight_eq_div_pow]
    simp only [Nat.one_and_eq_mod_two, bne_eq_false_iff_eq]
  cases hb : v.toNat.testBit i with
  | false => simp [hz.mpr hb]
  | true =>
    have hne : (v >>> UInt32.ofNat i) &&& 1 ≠ 0 := fun h0 => by simp [hz.mp h0] at hb
    simpa using hne

/-- A field write sets the bits of the field and no other bit. -/
theorem test_write (m : Mask) (start : ℕ) {n : ℕ} (hn : n ≤ 32) (v : UInt32) (j : ℕ) :
    test (write m start n v) j =
      if start ≤ j ∧ j < start + n then v.toNat.testBit (j - start) else test m j := by
  unfold write
  induction n with
  | zero => rw [if_neg (by omega)]; rfl
  | succ n ih =>
    rw [List.range_succ, List.foldl_append, List.foldl_cons, List.foldl_nil, test_assign,
      ih (by omega), bit_eq_testBit v (by omega)]
    by_cases hj : j = start + n
    · subst hj
      rw [if_pos rfl, if_pos (by omega), Nat.add_sub_cancel_left]
    · rw [if_neg hj]
      by_cases hin : start ≤ j ∧ j < start + n
      · rw [if_pos hin, if_pos (by omega)]
      · rw [if_neg hin, if_neg (by omega)]

theorem testBit_read (m : Mask) (start : ℕ) {n : ℕ} (hn : n ≤ 32) (i : ℕ) :
    (read m start n).toNat.testBit i = (decide (i < n) && test m (start + i)) := by
  unfold read
  induction n with
  | zero => simp
  | succ n ih =>
    have hshift : ((1 : UInt32) <<< UInt32.ofNat n).toNat = 2 ^ n := by
      rw [UInt32.toNat_shiftLeft]
      simp only [UInt32.toNat_ofNat', UInt32.reduceToNat]
      rw [Nat.mod_eq_of_lt (show n < 2 ^ 32 by omega), Nat.mod_eq_of_lt (show n < 32 by omega),
        Nat.one_shiftLeft, Nat.mod_eq_of_lt (Nat.pow_lt_pow_right (by norm_num) (by omega))]
    rw [List.range_succ, List.foldl_append, List.foldl_cons, List.foldl_nil]
    cases ht : test m (start + n) with
    | false =>
      rw [if_neg (by simp), ih (by omega)]
      by_cases hi : i = n
      · simp [hi, ht]
      · simp [show i < n + 1 ↔ i < n by omega]
    | true =>
      rw [if_pos rfl, UInt32.toNat_or, Nat.testBit_or, ih (by omega), hshift, Nat.testBit_two_pow]
      by_cases hi : i = n
      · simp [hi, ht]
      · simp [show i < n + 1 ↔ i < n by omega, Ne.symm hi]

/-- A field reads back as written, when the value fits. -/
theorem read_write (m : Mask) (start : ℕ) {n : ℕ} (hn : n ≤ 32) {v : UInt32}
    (hv : v.toNat < 2 ^ n) : read (write m start n v) start n = v := by
  rw [← UInt32.toNat_inj]
  refine Nat.eq_of_testBit_eq fun i => ?_
  rw [testBit_read _ _ hn, test_write _ _ hn]
  by_cases hi : i < n
  · rw [if_pos (by omega), Nat.add_sub_cancel_left]
    simp [hi]
  · have hlt : v.toNat < 2 ^ i :=
      lt_of_lt_of_le hv (Nat.pow_le_pow_right (by norm_num) (by omega))
    simp [hi, Nat.testBit_eq_false_of_lt hlt]

theorem read_congr {m m' : Mask} {start n : ℕ} (hn : n ≤ 32)
    (h : ∀ i < n, test m (start + i) = test m' (start + i)) :
    read m start n = read m' start n := by
  rw [← UInt32.toNat_inj]
  refine Nat.eq_of_testBit_eq fun i => ?_
  rw [testBit_read _ _ hn, testBit_read _ _ hn]
  by_cases hi : i < n
  · rw [h i hi]
  · simp [hi]

/-- Writing back the value of a field changes nothing. -/
theorem write_read (m : Mask) (start : ℕ) {n : ℕ} (hn : n ≤ 32) :
    write m start n (read m start n) = m := by
  apply ext_test
  intro j
  rw [test_write _ _ hn]
  by_cases hj : start ≤ j ∧ j < start + n
  · rw [if_pos hj, testBit_read _ _ hn, Nat.add_sub_cancel' hj.1]
    simp [show j - start < n by omega]
  · rw [if_neg hj]

/-- Writes of disjoint fields commute. -/
theorem write_comm (m : Mask) {start n start' n' : ℕ} (hn : n ≤ 32) (hn' : n' ≤ 32)
    (v v' : UInt32) (hd : start + n ≤ start' ∨ start' + n' ≤ start) :
    write (write m start n v) start' n' v' = write (write m start' n' v') start n v := by
  apply ext_test
  intro j
  rw [test_write _ _ hn', test_write _ _ hn, test_write _ _ hn, test_write _ _ hn']
  by_cases hj : start ≤ j ∧ j < start + n
  · rw [if_pos hj, if_pos hj, if_neg (by omega)]
  · rw [if_neg hj, if_neg hj]

theorem read_lt (m : Mask) (start : ℕ) {n : ℕ} (hn : n ≤ 32) :
    (read m start n).toNat < 2 ^ n := by
  apply Nat.lt_pow_two_of_testBit
  intro i hi
  rw [testBit_read _ _ hn]
  simp [show ¬ i < n by omega]

end BitField
