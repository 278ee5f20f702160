import Mathlib

/-!
# Periodic instants

The instants `first`, `first + period`, `first + 2 * period`, … and how many of
them lie up to a given time.

* `count_eq`: the count is the number of the first instant after that time.
* `Next.stay`, `Next.of_passed`: the first instant to come, as time passes.
-/

namespace PeriodicGrid

/-- The number of instants that are not later than `now`. -/
def count (first period now : ℕ) : ℕ :=
  ((Finset.range (now + 1)).filter fun k => first + k * period ≤ now).card

/-- `k` instants have passed when instant number `k` is the first one to come. -/
theorem count_eq {first period now k : ℕ} (hp : 0 < period) (hnext : now < first + k * period)
    (hpast : ∀ j < k, first + j * period ≤ now) : count first period now = k := by
  have hset : (Finset.range (now + 1)).filter (fun j => first + j * period ≤ now) =
      Finset.range k := by
    ext j
    rw [Finset.mem_filter, Finset.mem_range, Finset.mem_range]
    constructor
    · rintro ⟨-, hj⟩
      by_contra hge
      have : k * period ≤ j * period := Nat.mul_le_mul_right _ (not_lt.mp hge)
      omega
    · intro hj
      have h1 := hpast j hj
      have : j * 1 ≤ j * period := Nat.mul_le_mul_left _ hp
      exact ⟨by omega, h1⟩
  rw [count, hset, Finset.card_range]

/-- Instant number `k` is the first one after `now`. -/
structure Next (first period now k : ℕ) : Prop where
  ahead : now < first + k * period
  past : ∀ j < k, first + j * period ≤ now

theorem Next.count_eq {first period now k : ℕ} (h : Next first period now k) (hp : 0 < period) :
    count first period now = k :=
  PeriodicGrid.count_eq hp h.ahead h.past

/-- The first instant to come is at most one period away, unless none has passed. -/
theorem Next.le {first period now k : ℕ} (h : Next first period now k) :
    first + k * period ≤ now + period ∨ k = 0 := by
  cases k with
  | zero => exact .inr rfl
  | succ k =>
    have := h.past k (Nat.lt_succ_self k)
    rw [Nat.succ_mul]
    exact .inl (by omega)

theorem Next.zero {first period now : ℕ} (h : now < first) : Next first period now 0 :=
  ⟨by simpa using h, by simp⟩

/-- Nothing passes before the next instant. -/
theorem Next.stay {first period now now' k : ℕ} (h : Next first period now k) (hle : now ≤ now')
    (hlt : now' < first + k * period) : Next first period now' k :=
  ⟨hlt, fun j hj => (h.past j hj).trans hle⟩

/-- Counting the whole periods since any instant that has passed finds the next
one to come. -/
theorem Next.of_passed {first period now' k : ℕ} (hp : 0 < period)
    (hpassed : first + k * period ≤ now') :
    Next first period now' (k + (now' - (first + k * period)) / period + 1) := by
  set due := first + k * period with hdue
  set late := (now' - due) / period with hlate
  have hmul : period * late + (now' - due) % period = now' - due := Nat.div_add_mod _ _
  have hmod : (now' - due) % period < period := Nat.mod_lt _ hp
  rw [Nat.mul_comm] at hmul
  constructor
  · have : (k + late + 1) * period = k * period + late * period + period := by ring
    omega
  · intro j hj
    have : j * period ≤ (k + late) * period := Nat.mul_le_mul_right _ (by omega)
    have hsum : (k + late) * period = k * period + late * period := by ring
    omega

end PeriodicGrid
