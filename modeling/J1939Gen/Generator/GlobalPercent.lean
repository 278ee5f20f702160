import J1939Gen.Generator.Runs
import J1939Gen.Scheduler.Packing

/-!
# The global percent over the active records

`App_Gen_Set_Global_Percent` is one transaction of the value store over a copy
of the active bank. On a reachable generator without an open transaction none of
its writes can be refused, so its error branches are dead.

* `setGlobalPercent_ok`: what the call computes, on the invariant.
* `affected_add_excluded`: the two counts are those of the active records.
* `globalPercent_applies`: the whole contract, after any operations.
-/

namespace J1939Gen.Generator

open ValueStore Scheduler

/-! ## The two counts -/

/-- How many records `App_Gen_Set_Global_Percent` affects. -/
def affectedCount (g : Gen) : ℕ :=
  (List.range signalCount).countP fun i => isActive g.store i && isGlobalControl i

/-- How many active records it leaves alone. -/
def excludedCount (g : Gen) : ℕ :=
  (List.range signalCount).countP fun i => isActive g.store i && !isGlobalControl i

theorem affected_add_excluded (g : Gen) :
    affectedCount g + excludedCount g = getSignalCount g.store := by
  unfold affectedCount excludedCount getSignalCount
  rw [List.countP_eq_countP_filter_add (List.range signalCount) (isActive g.store) isGlobalControl,
    List.countP_filter, List.countP_filter]

theorem countP_range_lt (p : ℕ → Bool) : (List.range signalCount).countP p < 2 ^ 16 := by
  have h := List.countP_le_length (p := p) (l := List.range signalCount)
  rw [List.length_range] at h
  have hcount : signalCount = 179 := rfl
  omega

/-- Neither count wraps. -/
theorem toNat_affectedCount (g : Gen) : (UInt16.ofNat (affectedCount g)).toNat = affectedCount g :=
  (UInt16.toNat_ofNat').trans (Nat.mod_eq_of_lt (countP_range_lt _))

theorem toNat_excludedCount (g : Gen) : (UInt16.ofNat (excludedCount g)).toNat = excludedCount g :=
  (UInt16.toNat_ofNat').trans (Nat.mod_eq_of_lt (countP_range_lt _))

/-! ## The call -/

variable {B : Build} {g : Gen} {c : Contents}

/-- Without an affected record the call only counts. -/
theorem setGlobalPercent_none (hi : g.config.state = .idle) {bp : UInt16}
    (hbp : bp ≤ globalPercentMaxBp) (h0 : affectedCount g = 0) :
    setGlobalPercent g bp =
      (g, .ok, ⟨getGeneration g.store, 0, UInt16.ofNat (excludedCount g)⟩) := by
  rw [affectedCount] at h0
  unfold setGlobalPercent
  dsimp only
  rw [if_neg (by simp [hi]), if_neg (by simpa using hbp), if_pos h0]
  rfl

/-- With an affected record the call is one committed transaction. -/
theorem setGlobalPercent_ok (h : Inv B g c) (hi : g.config.state = .idle) {bp : UInt16}
    (hbp : bp ≤ globalPercentMaxBp) (h0 : affectedCount g ≠ 0) :
    ∃ store, setGlobalPercent g bp = ({ g with store := store }, .ok,
        ⟨getGeneration store, UInt16.ofNat (affectedCount g), UInt16.ofNat (excludedCount g)⟩) ∧
      store.txnState = .idle ∧ Holds store (percentOn bp (List.range signalCount) c) ∧
      store.generation = if g.store.generation + 1 = 0 then 1 else g.store.generation + 1 := by
  obtain ⟨hbegin, s', hloop, hcommit, hidle, hholds, hgen⟩ :=
    percentUpdate_ok h.active.holds (h.txn.storeIdle hi) bp
  refine ⟨(commit s').1, ?_, hidle, hholds, hgen⟩
  rw [affectedCount] at h0
  unfold setGlobalPercent
  dsimp only
  rw [if_neg (by simp [hi]), if_neg (by simpa using hbp), if_neg h0, if_neg (by simp [hbegin]),
    hloop]
  dsimp only
  rw [if_neg (by simp), if_neg (by simp [hcommit])]
  rfl

/-! ## What the readers see -/

/-- The records of a configuration that the global percent sets, and the ones it
    leaves. -/
theorem percentOn_range (bp : UInt16) (c : Contents) {i : ℕ} (hi : i < signalCount) :
    percentOn bp (List.range signalCount) c i =
      if (c i).isSome = true ∧ isGlobalControl i = true then some (.scalar (percentRaw bp i))
      else c i := by
  unfold percentOn
  simp only [List.mem_range, hi, true_and]

/-- A scalar record has no blob. -/
theorem getBlob_scalar {store : Store} (hw : store.active.Wf) {i : ℕ} (hb : isBlob i = false) :
    getBlob store i = none := by
  unfold getBlob
  refine if_pos (.inr fun hslot => ?_)
  rw [(hw.slot i hslot).2.1] at hb
  cases hb

/-- What `App_Gen_Set_Global_Percent` is promised to do to `g`. -/
structure PercentApplied (g : Gen) (bp : UInt16) (g' : Gen) (status : TxnStatus)
    (report : PercentReport) : Prop where
  status : status = .ok
  controlled : ∀ i, isActive g.store i = true → isGlobalControl i = true →
    getRaw g'.store i =
      some (globalPercentToRaw (signalAt i).rawMin (signalAt i).rawMax bp) ∧
    (signalAt i).rawMin ≤ globalPercentToRaw (signalAt i).rawMin (signalAt i).rawMax bp ∧
    globalPercentToRaw (signalAt i).rawMin (signalAt i).rawMax bp ≤ (signalAt i).rawMax
  others : ∀ i, ¬ (isActive g.store i = true ∧ isGlobalControl i = true) →
    getRaw g'.store i = getRaw g.store i
  blob : ∀ i, getBlob g'.store i = getBlob g.store i
  activeSet : ∀ i, isActive g'.store i = isActive g.store i
  -- the scheduler, the profile id and everything else outside the value store
  frame : g' = { g with store := g'.store }
  nothingStaged : g'.store.txnState = .idle
  generation : affectedCount g ≠ 0 → g'.store.generation =
    if g.store.generation + 1 = 0 then 1 else g.store.generation + 1
  untouched : affectedCount g = 0 → g' = g
  reportGeneration : report.generation = getGeneration g'.store
  reportAffected : report.affected.toNat = affectedCount g
  reportExcluded : report.excluded.toNat = excludedCount g
  reportTotal : report.affected.toNat + report.excluded.toNat = getSignalCount g.store

/-- On the invariant the call does what it promises. -/
theorem percentApplied (h : Inv B g c) (hi : g.config.state = .idle) {bp : UInt16}
    (hbp : bp ≤ globalPercentMaxBp) :
    PercentApplied g bp (setGlobalPercent g bp).1 (setGlobalPercent g bp).2.1
      (setGlobalPercent g bp).2.2 := by
  have htotal := affected_add_excluded g
  have haff := toNat_affectedCount g
  have hexc := toNat_excludedCount g
  have hrange : ∀ i, isActive g.store i = true →
      (signalAt i).rawMin ≤ globalPercentToRaw (signalAt i).rawMin (signalAt i).rawMax bp ∧
      globalPercentToRaw (signalAt i).rawMin (signalAt i).rawMax bp ≤ (signalAt i).rawMax :=
    fun i ha => globalPercentToRaw_bounds (rawMin_le_rawMax (isActive_lt ha)) bp
  by_cases h0 : affectedCount g = 0
  · rw [setGlobalPercent_none hi hbp h0]
    -- no active record is under global control
    have hnone : ∀ i, isActive g.store i = true → isGlobalControl i = true → False := by
      intro i ha hg
      rw [affectedCount, List.countP_eq_zero] at h0
      exact h0 i (List.mem_range.mpr (isActive_lt ha)) (by rw [ha, hg]; rfl)
    rw [h0] at htotal
    refine ⟨rfl, fun i ha hg => (hnone i ha hg).elim, fun _ _ => rfl, fun _ => rfl, fun _ => rfl,
      rfl, h.txn.storeIdle hi, fun hne => absurd h0 hne, fun _ => rfl, rfl, ?_, hexc, ?_⟩
    · rw [h0]
      rfl
    · rw [hexc]
      exact htotal
  · obtain ⟨store, heq, hidle, hholds, hgen⟩ := setGlobalPercent_ok h hi hbp h0
    rw [heq]
    obtain ⟨hact, hraw, hblob, -⟩ := h.active.holds.shows
    obtain ⟨hact', hraw', hblob', -⟩ := hholds.shows
    have hset : ∀ i, percentOn bp (List.range signalCount) c i =
        if isActive g.store i = true ∧ isGlobalControl i = true then
          some (.scalar (percentRaw bp i)) else c i := by
      intro i
      rw [hact]
      by_cases hlt : i < signalCount
      · exact percentOn_range bp c hlt
      · have hc : (c i).isSome = false := by
          rw [← hact, isActive, decide_eq_false hlt, Bool.false_and]
        unfold percentOn
        rw [if_neg (by simp [hc]), if_neg (by simp [hc])]
    refine ⟨rfl, fun i ha hg => ⟨?_, hrange i ha⟩, fun i hn => ?_, fun i => ?_, fun i => ?_, rfl,
      hidle, fun _ => hgen, fun hz => absurd hz h0, rfl, haff, hexc, ?_⟩
    · rw [hraw' i, hset i, if_pos ⟨ha, hg⟩]
      rfl
    · rw [hraw' i, hset i, if_neg hn, hraw i]
    · rw [hblob' i, hset i, hblob i]
      by_cases hs : isActive g.store i = true ∧ isGlobalControl i = true
      · -- a record under global control is a scalar, before and after
        rw [if_pos hs]
        have hb := globalControl_scalar (isActive_lt hs.1) hs.2
        have hc := getBlob_scalar h.active.holds.wf hb
        rw [hblob i] at hc
        exact hc.symm
      · rw [if_neg hs]
    · rw [hact' i, hact i]
      exact isSome_percentOn bp (List.range signalCount) c i
    · rw [haff, hexc]
      exact htotal

/-- **The global percent applies atomically.** After any operations that left no
    transaction open, every percentage up to 10000 basis points is applied. -/
theorem globalPercent_applies (B : SupportedBuild) (baudKbps : UInt32) (ops : List Op)
    (bp : UInt16) (hopen : configTransactionOpen (after B.val baudKbps ops) = false)
    (hbp : bp ≤ globalPercentMaxBp) :
    PercentApplied (after B.val baudKbps ops) bp
      (setGlobalPercent (after B.val baudKbps ops) bp).1
      (setGlobalPercent (after B.val baudKbps ops) bp).2.1
      (setGlobalPercent (after B.val baudKbps ops) bp).2.2 := by
  obtain ⟨c, h⟩ := inv_after B baudKbps ops
  have hi : (after B.val baudKbps ops).config.state = .idle := by
    simpa [configTransactionOpen] using hopen
  exact percentApplied h hi hbp

theorem setConstantRaw_config (B : Build) (g : Gen) (key : UInt16) (raw nowMs : UInt32) :
    (setConstantRaw B g key raw nowMs).1.config = g.config := by
  unfold setConstantRaw
  by_cases hi : g.config.state = .idle
  swap
  · rw [if_pos hi]
  rw [if_neg (by simp [hi])]
  cases indexFromKey key with
  | none => rfl
  | some i =>
    dsimp only
    unfold setConstant
    dsimp only
    generalize checkRaw (signalAt i).signalKey raw = status
    cases status <;> dsimp only <;> split_ifs <;> rfl

/-- Half of the range of `EEC1_SPN190`, set to 1500 rpm before. -/
theorem globalPercent_applies_half :
    let g := after build179 500 [.setConstantRaw 103 12000 0]
    (configTransactionOpen g = false ∧ 5000 ≤ globalPercentMaxBp) ∧
      PercentApplied g 5000 (setGlobalPercent g 5000).1 (setGlobalPercent g 5000).2.1
        (setGlobalPercent g 5000).2.2 := by
  have hopen : configTransactionOpen (after build179 500 [.setConstantRaw 103 12000 0]) = false := by
    rw [configTransactionOpen, after, List.foldl_cons, List.foldl_nil, step, setConstantRaw_config]
    rfl
  exact ⟨⟨hopen, by decide⟩, globalPercent_applies ⟨build179, by simp⟩ 500
    [.setConstantRaw 103 12000 0] 5000 hopen (by decide)⟩

end J1939Gen.Generator
