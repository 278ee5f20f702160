import Mathlib.Data.Nat.Basic
import Mathlib.Tactic.Ring

/-!
# CAN bit timing

The search of `HAL/hal_can_stm32f1.c` for a bit timing that divides the peripheral
clock exactly. The registers it is written to are outside the model.

* `calcBitTiming_sound`: a timing that is returned is exact and legal.
* `calcBitTiming_none_iff`: nothing is returned exactly when no bit of 8 to 20 quanta
  divides the clock; the loop asks for 21 to 25 too and never takes one, since the
  segment before the sample point is then too long.
* `timingLaw_iff`: when the search keeps its word.
-/

namespace J1939Gen

/-- `hal_can_bit_timing_t` (`hal_can.h:26-33`). -/
structure BitTiming where
  pclkHz : UInt32
  prescaler : UInt32
  seg1Tq : UInt8
  seg2Tq : UInt8
  sjwTq : UInt8
  totalTq : UInt8
deriving DecidableEq, Repr

/-- `prv_timing_preset_t`. -/
structure TimingPreset where
  pclkHz : UInt32
  bitrateBps : UInt32
  prescaler : UInt16
  seg1Tq : UInt8
  seg2Tq : UInt8
deriving DecidableEq, Repr

/-- `CAN_SJW_TQ`. -/
def canSjwTq : UInt8 := 1

/-- `k_presets` (`hal_can_stm32f1.c:39-44`). -/
def timingPresets : List TimingPreset :=
  [⟨36000000, 250000, 9, 13, 2⟩, ⟨36000000, 500000, 4, 15, 2⟩,
    ⟨32000000, 250000, 8, 13, 2⟩, ⟨32000000, 500000, 4, 13, 2⟩]

/-- What `prv_calc_bit_timing` fills in from a preset. -/
def TimingPreset.timing (p : TimingPreset) : BitTiming where
  pclkHz := p.pclkHz
  prescaler := p.prescaler.toUInt32
  seg1Tq := p.seg1Tq
  seg2Tq := p.seg2Tq
  sjwTq := canSjwTq
  totalTq := 1 + p.seg1Tq + p.seg2Tq

/-- One turn of the search loop, `none` for `continue` (`hal_can_stm32f1.c:68-84`). -/
def tryQuanta (pclk bitrate tq : UInt32) : Option BitTiming :=
  if pclk % (tq * bitrate) ≠ 0 then none
  else
    let seg2 := (tq + 4) / 8
    let seg2 := if seg2 < 1 then 1 else seg2
    let seg1 := tq - 1 - seg2
    let brp := pclk / (tq * bitrate)
    if seg1 > 16 ∨ seg2 > 8 ∨ brp > 1024 then none
    else
      some
        { pclkHz := pclk, prescaler := brp, seg1Tq := seg1.toUInt8, seg2Tq := seg2.toUInt8
          sjwTq := canSjwTq, totalTq := tq.toUInt8 }

/-- The values the loop counter takes, `25` down to `8`. -/
def searchedQuanta : List UInt32 :=
  [25, 24, 23, 22, 21, 20, 19, 18, 17, 16, 15, 14, 13, 12, 11, 10, 9, 8]

/-- `prv_calc_bit_timing` (`hal_can_stm32f1.c:49-86`). -/
def calcBitTiming (pclk bitrate : UInt32) : Option BitTiming :=
  match timingPresets.find? fun p => p.pclkHz = pclk ∧ p.bitrateBps = bitrate with
  | some p => some p.timing
  | none =>
    if bitrate = 0 then none
    else searchedQuanta.findSome? (tryQuanta pclk bitrate)

/-! ## What the controller can be set to -/

/-- A setting of the controller that divides `pclk` into bits of `bitrate` with nothing left,
within the ranges of its registers. -/
structure LegalTiming (pclk bitrate prescaler seg1 seg2 total : ℕ) : Prop where
  clock : pclk = bitrate * prescaler * total
  quanta : total = 1 + seg1 + seg2
  seg1_range : 1 ≤ seg1 ∧ seg1 ≤ 16
  seg2_range : 1 ≤ seg2 ∧ seg2 ≤ 8
  prescaler_range : 1 ≤ prescaler ∧ prescaler ≤ 1024

/-- A bit of `total` quanta divides the clock exactly, with a prescaler the register holds. -/
def FitsQuanta (pclk bitrate total : ℕ) : Prop :=
  total * bitrate ∣ pclk ∧ pclk / (total * bitrate) ≤ 1024

instance (pclk bitrate total : ℕ) : Decidable (FitsQuanta pclk bitrate total) :=
  inferInstanceAs (Decidable (_ ∧ _))

theorem LegalTiming.fits {pclk bitrate prescaler seg1 seg2 total : ℕ} (hb : 0 < bitrate)
    (h : LegalTiming pclk bitrate prescaler seg1 seg2 total) :
    FitsQuanta pclk bitrate total := by
  have hq := h.quanta
  have hclock : pclk = total * bitrate * prescaler := by
    rw [h.clock]
    ring
  have hpos : 0 < total * bitrate := Nat.mul_pos (by omega) hb
  refine ⟨⟨prescaler, hclock⟩, ?_⟩
  rw [hclock, Nat.mul_div_cancel_left _ hpos]
  exact h.prescaler_range.2

/-- A fitting total with legal segments makes a legal setting. -/
theorem FitsQuanta.legal {pclk bitrate seg1 seg2 total : ℕ} (hpclk : 0 < pclk)
    (h : FitsQuanta pclk bitrate total) (hq : total = 1 + seg1 + seg2)
    (h1 : 1 ≤ seg1 ∧ seg1 ≤ 16) (h2 : 1 ≤ seg2 ∧ seg2 ≤ 8) :
    LegalTiming pclk bitrate (pclk / (total * bitrate)) seg1 seg2 total := by
  have hmul : pclk / (total * bitrate) * (total * bitrate) = pclk := Nat.div_mul_cancel h.1
  refine ⟨?_, hq, h1, h2, ?_, h.2⟩
  · calc pclk = pclk / (total * bitrate) * (total * bitrate) := hmul.symm
      _ = bitrate * (pclk / (total * bitrate)) * total := by ring
  · apply Nat.pos_of_ne_zero
    intro hzero
    rw [hzero, Nat.zero_mul] at hmul
    omega

/-! ## One turn of the search -/

section

variable {bitrate tq : UInt32} (hlo : 8 ≤ tq.toNat) (hhi : tq.toNat ≤ 25)

/-- The product the code divides by does not wrap. -/
theorem toNat_quanta_mul (hhi : tq.toNat ≤ 25) (hbr : bitrate.toNat ≤ 1000000) :
    (tq * bitrate).toNat = tq.toNat * bitrate.toNat := by
  rw [UInt32.toNat_mul]
  apply Nat.mod_eq_of_lt
  calc tq.toNat * bitrate.toNat ≤ 25 * 1000000 := Nat.mul_le_mul hhi hbr
    _ < 2 ^ 32 := by decide

include hlo hhi in
theorem toNat_seg2 :
    (if (tq + 4) / 8 < 1 then 1 else (tq + 4) / 8).toNat = (tq.toNat + 4) / 8 := by
  have hdiv : ((tq + 4) / 8).toNat = (tq.toNat + 4) / 8 := by
    rw [UInt32.toNat_div, UInt32.toNat_add, show (4 : UInt32).toNat = 4 from rfl,
      show (8 : UInt32).toNat = 8 from rfl, Nat.mod_eq_of_lt (by omega)]
  have hone : ¬ (tq + 4) / 8 < 1 := by
    rw [UInt32.lt_iff_toNat_lt, hdiv, show (1 : UInt32).toNat = 1 from rfl]
    omega
  rw [if_neg hone, hdiv]

include hlo hhi in
theorem toNat_seg1 :
    (tq - 1 - (if (tq + 4) / 8 < 1 then 1 else (tq + 4) / 8)).toNat =
      tq.toNat - 1 - (tq.toNat + 4) / 8 := by
  have hseg2 := toNat_seg2 hlo hhi
  have hone : (1 : UInt32).toNat = 1 := rfl
  have hsub : (tq - 1).toNat = tq.toNat - 1 := by
    rw [UInt32.toNat_sub_of_le _ _ (UInt32.le_iff_toNat_le.2 (by omega)), hone]
  rw [UInt32.toNat_sub_of_le _ _ (UInt32.le_iff_toNat_le.2 (by omega)), hsub, hseg2]

include hlo hhi in
/-- A turn of the loop takes a fitting total of at most 20 quanta and no other: from 21 quanta
on the segment before the sample point passes 16. -/
theorem tryQuanta_cases (pclk : UInt32) (hbr : bitrate.toNat ≤ 1000000) :
    (tq.toNat ≤ 20 ∧ FitsQuanta pclk.toNat bitrate.toNat tq.toNat ∧
      ∃ t, tryQuanta pclk bitrate tq = some t ∧ t.totalTq.toNat = tq.toNat ∧
        t.prescaler.toNat = pclk.toNat / (tq.toNat * bitrate.toNat) ∧
        t.seg1Tq.toNat = tq.toNat - 1 - (tq.toNat + 4) / 8 ∧
        t.seg2Tq.toNat = (tq.toNat + 4) / 8) ∨
      ¬ (tq.toNat ≤ 20 ∧ FitsQuanta pclk.toNat bitrate.toNat tq.toNat) ∧
        tryQuanta pclk bitrate tq = none := by
  have hprod := toNat_quanta_mul hhi hbr
  have hseg1 := toNat_seg1 hlo hhi
  have hseg2 := toNat_seg2 hlo hhi
  have hmod : pclk % (tq * bitrate) = 0 ↔ tq.toNat * bitrate.toNat ∣ pclk.toNat := by
    rw [← UInt32.toNat_inj, UInt32.toNat_mod, hprod, Nat.dvd_iff_mod_eq_zero]
    rfl
  have hbrp : (pclk / (tq * bitrate)).toNat = pclk.toNat / (tq.toNat * bitrate.toNat) := by
    rw [UInt32.toNat_div, hprod]
  unfold tryQuanta
  by_cases hdvd : tq.toNat * bitrate.toNat ∣ pclk.toNat
  · rw [if_neg (not_not.2 (hmod.2 hdvd))]
    dsimp only
    generalize (if (tq + 4) / 8 < 1 then 1 else (tq + 4) / 8) = seg2 at hseg1 hseg2 ⊢
    generalize tq - 1 - seg2 = seg1 at hseg1 ⊢
    generalize pclk / (tq * bitrate) = brp at hbrp ⊢
    have hreject : seg1 > 16 ∨ seg2 > 8 ∨ brp > 1024 ↔
        ¬ (tq.toNat ≤ 20 ∧ FitsQuanta pclk.toNat bitrate.toNat tq.toNat) := by
      simp only [gt_iff_lt, UInt32.lt_iff_toNat_lt, hseg1, hseg2, hbrp,
        show (16 : UInt32).toNat = 16 from rfl, show (8 : UInt32).toNat = 8 from rfl,
        show (1024 : UInt32).toNat = 1024 from rfl, FitsQuanta, hdvd, true_and]
      omega
    by_cases hfits : tq.toNat ≤ 20 ∧ FitsQuanta pclk.toNat bitrate.toNat tq.toNat
    · left
      rw [if_neg (fun h => hreject.1 h hfits)]
      refine ⟨hfits.1, hfits.2, _, rfl, ?_, hbrp, ?_, ?_⟩
      · rw [UInt32.toNat_toUInt8]
        omega
      · rw [UInt32.toNat_toUInt8, hseg1]
        omega
      · rw [UInt32.toNat_toUInt8, hseg2]
        omega
    · right
      rw [if_pos (hreject.2 hfits)]
      exact ⟨hfits, rfl⟩
  · right
    rw [if_pos (fun h => hdvd (hmod.1 h))]
    exact ⟨fun h => hdvd h.2.1, rfl⟩

end

/-! ## The search -/

theorem searchedQuanta_range : ∀ tq ∈ searchedQuanta, 8 ≤ tq.toNat ∧ tq.toNat ≤ 25 := by
  have hall : (searchedQuanta.all fun tq => decide (8 ≤ tq.toNat ∧ tq.toNat ≤ 25)) = true := by
    decide
  intro tq htq
  exact of_decide_eq_true (List.all_eq_true.mp hall tq htq)

theorem mem_searchedQuanta {total : ℕ} (hlo : 8 ≤ total) (hhi : total ≤ 25) :
    UInt32.ofNat total ∈ searchedQuanta ∧ (UInt32.ofNat total).toNat = total := by
  have hall : ∀ n : Fin 18, UInt32.ofNat (n.val + 8) ∈ searchedQuanta ∧
      (UInt32.ofNat (n.val + 8)).toNat = n.val + 8 := by decide
  have hn := hall ⟨total - 8, by omega⟩
  simp only [show total - 8 + 8 = total by omega] at hn
  exact hn

/-- The setting a timing stands for. -/
def BitTiming.Legal (t : BitTiming) (pclk bitrate : UInt32) : Prop :=
  LegalTiming pclk.toNat bitrate.toNat t.prescaler.toNat t.seg1Tq.toNat t.seg2Tq.toNat
    t.totalTq.toNat

/-- The presets obey the law of the search. -/
theorem timingPresets_legal {p : TimingPreset} (h : p ∈ timingPresets) :
    p.timing.Legal p.pclkHz p.bitrateBps ∧ 8 ≤ p.timing.totalTq.toNat ∧
      p.timing.totalTq.toNat ≤ 20 := by
  simp only [timingPresets, List.mem_cons, List.not_mem_nil, or_false] at h
  rcases h with rfl | rfl | rfl | rfl <;>
    exact ⟨⟨by decide, by decide, by decide, by decide, by decide⟩, by decide, by decide⟩

section

variable {pclk bitrate : UInt32} (hpclk : 0 < pclk.toNat) (hb : 0 < bitrate.toNat)
  (hbr : bitrate.toNat ≤ 1000000)

include hpclk hb hbr in
/-- A timing that is returned is exact and legal, and has at most 20 quanta. -/
theorem calcBitTiming_sound {t : BitTiming} (h : calcBitTiming pclk bitrate = some t) :
    t.Legal pclk bitrate ∧ 8 ≤ t.totalTq.toNat ∧ t.totalTq.toNat ≤ 20 := by
  unfold calcBitTiming at h
  cases hfind : timingPresets.find? fun p => p.pclkHz = pclk ∧ p.bitrateBps = bitrate with
  | some p =>
    rw [hfind] at h
    obtain rfl : p.timing = t := Option.some.inj h
    have hmatch := List.find?_some hfind
    simp only [decide_eq_true_eq] at hmatch
    have hlegal := timingPresets_legal (List.mem_of_find?_eq_some hfind)
    rwa [hmatch.1, hmatch.2] at hlegal
  | none =>
    rw [hfind] at h
    dsimp only at h
    rw [if_neg (by rintro rfl; exact absurd hb (by decide))] at h
    obtain ⟨tq, htq, htry⟩ := List.exists_of_findSome?_eq_some h
    obtain ⟨hlo, hhi⟩ := searchedQuanta_range tq htq
    rcases tryQuanta_cases hlo hhi pclk hbr with
      ⟨h20, hfits, t', ht', htotal, hpre, hseg1, hseg2⟩ | ⟨-, hnone⟩
    · obtain rfl : t' = t := Option.some.inj (ht'.symm.trans htry)
      refine ⟨?_, by omega, by omega⟩
      unfold BitTiming.Legal
      rw [htotal, hpre, hseg1, hseg2]
      exact hfits.legal hpclk (by omega) (by omega) (by omega)
    · rw [hnone] at htry
      exact absurd htry (by simp)

include hpclk hb hbr in
/-- The search fails exactly when no bit of 8 to 20 quanta divides the clock. -/
theorem calcBitTiming_none_iff :
    calcBitTiming pclk bitrate = none ↔
      ∀ total, 8 ≤ total → total ≤ 20 → ¬ FitsQuanta pclk.toNat bitrate.toNat total := by
  constructor
  · intro h total hlo hhi hfits
    unfold calcBitTiming at h
    cases hfind : timingPresets.find? fun p => p.pclkHz = pclk ∧ p.bitrateBps = bitrate with
    | some p =>
      rw [hfind] at h
      exact absurd h (by simp)
    | none =>
      rw [hfind] at h
      dsimp only at h
      rw [if_neg (by rintro rfl; exact absurd hb (by decide))] at h
      obtain ⟨hmem, hval⟩ := mem_searchedQuanta hlo (by omega)
      have hnone := List.findSome?_eq_none_iff.1 h _ hmem
      have hlo' : 8 ≤ (UInt32.ofNat total).toNat := by omega
      rcases tryQuanta_cases hlo' (by omega) pclk hbr with
        ⟨-, -, t, ht, -⟩ | ⟨hnot, -⟩
      · rw [hnone] at ht
        exact absurd ht (by simp)
      · rw [hval] at hnot
        exact hnot ⟨hhi, hfits⟩
  · intro h
    rw [Option.eq_none_iff_forall_ne_some]
    intro t ht
    obtain ⟨hlegal, hlo, hhi⟩ := calcBitTiming_sound hpclk hb hbr ht
    exact h _ hlo hhi (hlegal.fits hb)

end

/-! ## When the search keeps its word -/

/-- What is asked of the search at one clock and bitrate: nothing it divides by wraps or
is zero, what it returns is legal, and it fails only where no bit of 8 to 25 quanta has
a legal setting. -/
structure TimingLaw (pclk bitrate : UInt32) : Prop where
  exact_divisors : ∀ tq ∈ searchedQuanta,
    (tq * bitrate).toNat = tq.toNat * bitrate.toNat ∧ tq * bitrate ≠ 0
  sound : ∀ t, calcBitTiming pclk bitrate = some t → t.Legal pclk bitrate
  complete : calcBitTiming pclk bitrate = none →
    ∀ prescaler seg1 seg2 total, 8 ≤ total → total ≤ 25 →
      ¬ LegalTiming pclk.toNat bitrate.toNat prescaler seg1 seg2 total

/-- A bit of 21 to 25 quanta is divided by the controller and not by the search. -/
theorem FitsQuanta.legal_long {pclk bitrate total : ℕ} (hpclk : 0 < pclk)
    (h : FitsQuanta pclk bitrate total) (hlo : 21 ≤ total) (hhi : total ≤ 25) :
    LegalTiming pclk bitrate (pclk / (total * bitrate)) 16 (total - 17) total :=
  h.legal hpclk (by omega) (by omega) (by omega)

/-- The search keeps its word exactly where a clock that 21 to 25 quanta divide is one that
8 to 20 quanta divide too. -/
theorem timingLaw_iff {pclk bitrate : UInt32} (hpclk : 0 < pclk.toNat)
    (hb : 1 ≤ bitrate.toNat) (hbr : bitrate.toNat ≤ 1000000) :
    TimingLaw pclk bitrate ↔
      ((∃ total, 21 ≤ total ∧ total ≤ 25 ∧ FitsQuanta pclk.toNat bitrate.toNat total) →
        ∃ total, 8 ≤ total ∧ total ≤ 20 ∧ FitsQuanta pclk.toNat bitrate.toNat total) := by
  constructor
  · rintro law ⟨total, hlo, hhi, hfits⟩
    by_contra hshort
    have hnone := (calcBitTiming_none_iff hpclk hb hbr).2
      fun n h8 h20 hn => hshort ⟨n, h8, h20, hn⟩
    exact law.complete hnone _ _ _ total (by omega) hhi (hfits.legal_long hpclk hlo hhi)
  · intro h
    refine ⟨?_, fun t ht => (calcBitTiming_sound hpclk hb hbr ht).1, ?_⟩
    · intro tq htq
      obtain ⟨hlo, hhi⟩ := searchedQuanta_range tq htq
      have hprod := toNat_quanta_mul hhi hbr
      refine ⟨hprod, fun hzero => ?_⟩
      have hpos : 0 < tq.toNat * bitrate.toNat := Nat.mul_pos (by omega) hb
      rw [hzero] at hprod
      exact absurd hprod (Nat.ne_of_lt hpos)
    · intro hnone prescaler seg1 seg2 total hlo hhi hlegal
      have hshort := (calcBitTiming_none_iff hpclk hb hbr).1 hnone
      have hfits := hlegal.fits hb
      by_cases h20 : total ≤ 20
      · exact hshort total hlo h20 hfits
      · obtain ⟨n, h8, hn20, hn⟩ := h ⟨total, by omega, hhi, hfits⟩
        exact hshort n h8 hn20 hn

/-- The two clock plans at the two bitrates of the product. -/
theorem timingLaw_iff_board :
    TimingLaw 36000000 250000 ∧ TimingLaw 32000000 500000 :=
  ⟨(timingLaw_iff (by decide) (by decide) (by decide)).2 fun _ => ⟨16, by decide⟩,
    (timingLaw_iff (by decide) (by decide) (by decide)).2 fun _ => ⟨16, by decide⟩⟩

/-- 36 MHz and 288 kbit/s: 25 quanta of five clocks make a bit, and the search returns
nothing. -/
theorem calcBitTiming_misses :
    calcBitTiming 36000000 288000 = none ∧ LegalTiming 36000000 288000 5 16 8 25 ∧
      ¬ TimingLaw 36000000 288000 := by
  have hnone : calcBitTiming 36000000 288000 = none := by decide
  have hlegal : LegalTiming 36000000 288000 5 16 8 25 :=
    ⟨by decide, by decide, by decide, by decide, by decide⟩
  refine ⟨hnone, hlegal, fun law => ?_⟩
  exact law.complete hnone 5 16 8 25 (by decide) (by decide) hlegal

end J1939Gen
