import J1939Gen.Generator.Model
import J1939Gen.Lib.RoundedShare

/-!
# The arithmetic of the global percent

`App_Gen_Global_Percent_To_Raw` computes a share of the record's range in 64-bit
words. No intermediate value leaves its word, so it is the share in natural
numbers, in every branch.

* `toNat_percentStep`: the rounded step, without overflow.
* `toNat_globalPercentToRaw`: the mapping in exact integers.
* `globalPercentToRaw_bounds`: it stays inside the range.
* `percentMapping`: the whole contract.
-/

namespace J1939Gen.Generator

open RoundedShare

/-- `step`, the last computation of `App_Gen_Global_Percent_To_Raw`. -/
def percentStep (rawMin rawMax : UInt32) (percentageBp : UInt16) : UInt64 :=
  (percentageBp.toUInt64 * (rawMax.toUInt64 - rawMin.toUInt64) +
    globalPercentMaxBp.toUInt64 / 2) / globalPercentMaxBp.toUInt64

section Range

variable {rawMin rawMax : UInt32} (h : rawMin ≤ rawMax)
include h

/-- The products stay below `2^64` for every 16-bit percentage. -/
theorem toNat_percentStep (bp : UInt16) :
    (percentStep rawMin rawMax bp).toNat = share bp.toNat (rawMax.toNat - rawMin.toNat) 10000 := by
  rw [UInt32.le_iff_toNat_le] at h
  have hmax := rawMax.toNat_lt
  have hbp := bp.toNat_lt
  have hdelta : (rawMax.toUInt64 - rawMin.toUInt64).toNat = rawMax.toNat - rawMin.toNat := by
    rw [UInt64.toNat_sub_of_le]
    · simp
    · rw [UInt64.le_iff_toNat_le]
      simpa using h
  have hprod : bp.toNat * (rawMax.toNat - rawMin.toNat) ≤ 2 ^ 16 * 2 ^ 32 :=
    Nat.mul_le_mul (by omega) (by omega)
  rw [percentStep, UInt64.toNat_div, UInt64.toNat_add, UInt64.toNat_mul, hdelta]
  show (bp.toNat * (rawMax.toNat - rawMin.toNat) % 2 ^ 64 + 5000) % 2 ^ 64 / 10000 = _
  rw [Nat.mod_eq_of_lt (by omega), Nat.mod_eq_of_lt (by omega)]
  rfl

/-- Up to 10000 basis points the step and the sum fit 32 bits. -/
theorem toNat_percentSum {bp : UInt16} (hbp : bp.toNat ≤ 10000) :
    (rawMin + (percentStep rawMin rawMax bp).toUInt32).toNat =
      rawMin.toNat + share bp.toNat (rawMax.toNat - rawMin.toNat) 10000 := by
  have hstep := toNat_percentStep h bp
  have hle : share bp.toNat (rawMax.toNat - rawMin.toNat) 10000 ≤ rawMax.toNat - rawMin.toNat :=
    share_le (by omega) hbp
  have hmax := rawMax.toNat_lt
  rw [UInt32.le_iff_toNat_le] at h
  rw [UInt32.toNat_add, UInt64.toNat_toUInt32, hstep]
  omega

/-- The mapping in exact integers: the early returns are values of the formula. -/
theorem toNat_globalPercentToRaw (bp : UInt16) :
    (globalPercentToRaw rawMin rawMax bp).toNat =
      rawMin.toNat + share (min bp.toNat 10000) (rawMax.toNat - rawMin.toNat) 10000 := by
  unfold globalPercentToRaw
  by_cases hflat : rawMax ≤ rawMin ∨ bp = 0
  · rw [if_pos hflat]
    rcases hflat with hflat | rfl
    · rw [UInt32.le_iff_toNat_le] at hflat
      rw [Nat.sub_eq_zero_of_le hflat, share_none (by omega), Nat.add_zero]
    · show rawMin.toNat = rawMin.toNat + share (min 0 10000) _ 10000
      rw [Nat.zero_min, share_zero (by omega), Nat.add_zero]
  rw [if_neg hflat]
  by_cases hfull : bp ≥ globalPercentMaxBp
  · rw [if_pos hfull]
    have hge : 10000 ≤ bp.toNat := UInt16.le_iff_toNat_le.mp hfull
    rw [min_eq_right hge, share_full (by omega)]
    rw [UInt32.le_iff_toNat_le] at h
    omega
  · rw [if_neg hfull]
    have hlt : bp.toNat < 10000 := UInt16.lt_iff_toNat_lt.mp (UInt16.not_le.mp hfull)
    rw [min_eq_left hlt.le]
    exact toNat_percentSum h hlt.le

/-- `App_Gen_Global_Percent_To_Raw` stays inside the record's range. -/
theorem globalPercentToRaw_bounds (bp : UInt16) :
    rawMin ≤ globalPercentToRaw rawMin rawMax bp ∧
      globalPercentToRaw rawMin rawMax bp ≤ rawMax := by
  have hle : share (min bp.toNat 10000) (rawMax.toNat - rawMin.toNat) 10000 ≤
      rawMax.toNat - rawMin.toNat := share_le (by omega) (min_le_right _ _)
  rw [UInt32.le_iff_toNat_le, UInt32.le_iff_toNat_le, toNat_globalPercentToRaw h]
  rw [UInt32.le_iff_toNat_le] at h
  omega

end Range

/-- The contract of the mapping (`app_generator.h:130-142`) for one range. -/
structure PercentMapping (rawMin rawMax : UInt32) : Prop where
  exact : ∀ bp : UInt16, (globalPercentToRaw rawMin rawMax bp).toNat = rawMin.toNat +
    (min bp.toNat 10000 * (rawMax.toNat - rawMin.toNat) + 5000) / 10000
  noOverflow : ∀ bp : UInt16,
    bp.toNat * (rawMax.toNat - rawMin.toNat) + 5000 < 2 ^ 64 ∧
    (percentStep rawMin rawMax bp).toNat =
      (bp.toNat * (rawMax.toNat - rawMin.toNat) + 5000) / 10000 ∧
    (bp.toNat ≤ 10000 → (percentStep rawMin rawMax bp).toNat < 2 ^ 32 ∧
      rawMin.toNat + (percentStep rawMin rawMax bp).toNat < 2 ^ 32)
  inRange : ∀ bp, rawMin ≤ globalPercentToRaw rawMin rawMax bp ∧
    globalPercentToRaw rawMin rawMax bp ≤ rawMax
  monotone : ∀ bp bp', bp ≤ bp' →
    globalPercentToRaw rawMin rawMax bp ≤ globalPercentToRaw rawMin rawMax bp'
  low : globalPercentToRaw rawMin rawMax 0 = rawMin
  high : ∀ bp, 10000 ≤ bp → globalPercentToRaw rawMin rawMax bp = rawMax
  shortcuts : ∀ bp : UInt16, bp ≤ 10000 → globalPercentToRaw rawMin rawMax bp =
    rawMin + (percentStep rawMin rawMax bp).toUInt32

/-- The mapping of every range: exact, inside it, monotone, and exact at both
    ends; the shortcuts agree with the formula. -/
theorem percentMapping {rawMin rawMax : UInt32} (h : rawMin ≤ rawMax) :
    PercentMapping rawMin rawMax where
  exact := toNat_globalPercentToRaw h
  noOverflow bp := by
    have hmax := rawMax.toNat_lt
    have hbp := bp.toNat_lt
    have hprod : bp.toNat * (rawMax.toNat - rawMin.toNat) ≤ 2 ^ 16 * 2 ^ 32 :=
      Nat.mul_le_mul (by omega) (by omega)
    have hstep := toNat_percentStep h bp
    refine ⟨by omega, hstep, fun hle => ?_⟩
    have hshare : share bp.toNat (rawMax.toNat - rawMin.toNat) 10000 ≤
        rawMax.toNat - rawMin.toNat := share_le (by omega) hle
    rw [UInt32.le_iff_toNat_le] at h
    omega
  inRange := globalPercentToRaw_bounds h
  monotone bp bp' hle := by
    rw [UInt16.le_iff_toNat_le] at hle
    rw [UInt32.le_iff_toNat_le, toNat_globalPercentToRaw h, toNat_globalPercentToRaw h]
    exact Nat.add_le_add_left (share_mono (min_le_min_right _ hle)) _
  low := by
    rw [← UInt32.toNat_inj, toNat_globalPercentToRaw h]
    show rawMin.toNat + share (min 0 10000) _ 10000 = rawMin.toNat
    rw [Nat.zero_min, share_zero (by omega), Nat.add_zero]
  high bp hge := by
    have hge : 10000 ≤ bp.toNat := UInt16.le_iff_toNat_le.mp hge
    rw [← UInt32.toNat_inj, toNat_globalPercentToRaw h, min_eq_right hge, share_full (by omega)]
    rw [UInt32.le_iff_toNat_le] at h
    omega
  shortcuts bp hle := by
    have hle : bp.toNat ≤ 10000 := UInt16.le_iff_toNat_le.mp hle
    rw [← UInt32.toNat_inj, toNat_globalPercentToRaw h, toNat_percentSum h hle, min_eq_left hle]

/-- The widest range. -/
theorem percentMapping_full : (0 : UInt32) ≤ 0xFFFFFFFF ∧ PercentMapping 0 0xFFFFFFFF :=
  ⟨by decide, percentMapping (by decide)⟩

end J1939Gen.Generator
