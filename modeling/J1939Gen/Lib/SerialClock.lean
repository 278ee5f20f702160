import Mathlib

/-!
# Wrapping 32-bit clocks and serial numbers

`(int32_t)(a - b)` compares two readings of a free-running 32-bit counter. The
comparison is right as long as the two instants are less than `2 ^ 31` apart;
an unsigned difference is right as long as they are less than `2 ^ 32` apart.
Instants are natural numbers here and `UInt32.ofNat` is the counter's reading.
-/

namespace SerialClock

/-- `(int32_t)(now - deadline) >= 0`. -/
def reached (now deadline : UInt32) : Bool := decide (0 ≤ (now - deadline).toInt32)

/-- `(int32_t)(a - b) < 0`. -/
def before (a b : UInt32) : Bool := decide ((a - b).toInt32 < 0)

/-- `(int32_t)(a - b) > 0`. -/
def newer (a b : UInt32) : Bool := decide (0 < (a - b).toInt32)

theorem toInt_toInt32 (x : UInt32) :
    x.toInt32.toInt = if x.toNat < 2 ^ 31 then (x.toNat : ℤ) else (x.toNat : ℤ) - 2 ^ 32 := by
  have h : x.toInt32.toInt = x.toBitVec.toInt := rfl
  rw [h, BitVec.toInt_eq_toNat_cond]
  simp only [UInt32.toNat_toBitVec]
  split_ifs <;> first | rfl | omega

theorem reached_iff (now deadline : UInt32) :
    reached now deadline = true ↔ (now - deadline).toNat < 2 ^ 31 := by
  have hlt := (now - deadline).toNat_lt
  rw [reached, decide_eq_true_iff, Int32.le_iff_toInt_le, toInt_toInt32]
  simp only [Int32.toInt_zero]
  split_ifs <;> omega

theorem before_iff (a b : UInt32) : before a b = true ↔ 2 ^ 31 ≤ (a - b).toNat := by
  have hlt := (a - b).toNat_lt
  rw [before, decide_eq_true_iff, Int32.lt_iff_toInt_lt, toInt_toInt32]
  simp only [Int32.toInt_zero]
  split_ifs <;> omega

theorem newer_iff (a b : UInt32) :
    newer a b = true ↔ 0 < (a - b).toNat ∧ (a - b).toNat < 2 ^ 31 := by
  have hlt := (a - b).toNat_lt
  rw [newer, decide_eq_true_iff, Int32.lt_iff_toInt_lt, toInt_toInt32]
  simp only [Int32.toInt_zero]
  split_ifs <;> omega

/-- The unsigned difference of two readings is the elapsed time. -/
theorem toNat_sub_ofNat {a b : ℕ} (h : b ≤ a) (hlt : a - b < 2 ^ 32) :
    (UInt32.ofNat a - UInt32.ofNat b).toNat = a - b := by
  rw [UInt32.toNat_sub]
  simp only [UInt32.toNat_ofNat']
  omega

theorem ofNat_sub_ofNat {a b : ℕ} (h : b ≤ a) :
    UInt32.ofNat a - UInt32.ofNat b = UInt32.ofNat (a - b) := by
  rw [← UInt32.toNat_inj, UInt32.toNat_sub]
  simp only [UInt32.toNat_ofNat']
  omega

theorem ofNat_add_ofNat (a b : ℕ) : UInt32.ofNat a + UInt32.ofNat b = UInt32.ofNat (a + b) := by
  rw [← UInt32.toNat_inj, UInt32.toNat_add]
  simp only [UInt32.toNat_ofNat']
  omega

theorem reached_ofNat {a b : ℕ} (h1 : a < b + 2 ^ 31) (h2 : b ≤ a + 2 ^ 31) :
    reached (UInt32.ofNat a) (UInt32.ofNat b) = true ↔ b ≤ a := by
  rw [reached_iff, UInt32.toNat_sub]
  simp only [UInt32.toNat_ofNat']
  omega

theorem before_ofNat {a b : ℕ} (h1 : a < b + 2 ^ 31) (h2 : b ≤ a + 2 ^ 31) :
    before (UInt32.ofNat a) (UInt32.ofNat b) = true ↔ a < b := by
  rw [before_iff, UInt32.toNat_sub]
  simp only [UInt32.toNat_ofNat']
  omega

/-! ## Instants

Within `2 ^ 32` of an origin, a reading names one instant. -/

/-- The instant, at or after `t₀`, at which the counter reads `x`. -/
def instant (t₀ : ℕ) (x : UInt32) : ℕ := t₀ + (x - UInt32.ofNat t₀).toNat

theorem le_instant (t₀ : ℕ) (x : UInt32) : t₀ ≤ instant t₀ x := Nat.le_add_right ..

@[simp] theorem ofNat_instant (t₀ : ℕ) (x : UInt32) : UInt32.ofNat (instant t₀ x) = x := by
  rw [instant, ← ofNat_add_ofNat, UInt32.ofNat_toNat, UInt32.add_comm, UInt32.sub_add_cancel]

theorem instant_ofNat {t₀ t : ℕ} (h : t₀ ≤ t) (hlt : t < t₀ + 2 ^ 32) :
    instant t₀ (UInt32.ofNat t) = t := by
  rw [instant, toNat_sub_ofNat h (by omega)]
  omega

theorem reached_instant {t₀ now : ℕ} {x : UInt32} (h1 : t₀ ≤ now) (h2 : now < t₀ + 2 ^ 31)
    (h3 : instant t₀ x ≤ now + 2 ^ 31) :
    reached (UInt32.ofNat now) x = true ↔ instant t₀ x ≤ now := by
  have := le_instant t₀ x
  rw [← reached_ofNat (a := now) (b := instant t₀ x) (by omega) h3, ofNat_instant]

theorem before_instant {t₀ : ℕ} {x y : UInt32} (hx : instant t₀ x < t₀ + 2 ^ 31)
    (hy : instant t₀ y < t₀ + 2 ^ 31) :
    before x y = true ↔ instant t₀ x < instant t₀ y := by
  have h1 := le_instant t₀ x
  have h2 := le_instant t₀ y
  rw [← before_ofNat (a := instant t₀ x) (b := instant t₀ y) (by omega) (by omega),
    ofNat_instant, ofNat_instant]

/-- The successor of a serial number is newer, also when it wraps to zero. -/
theorem newer_add_one (a : UInt32) : newer (a + 1) a = true := by
  rw [newer_iff, show a + 1 - a = 1 by grind]
  decide

/-- A serial number is not newer than its successor. -/
theorem not_newer_add_one (a : UInt32) : newer a (a + 1) = false := by
  rw [← Bool.not_eq_true, newer_iff, show a - (a + 1) = -1 by grind]
  decide

end SerialClock
