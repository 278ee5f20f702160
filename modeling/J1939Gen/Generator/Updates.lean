import J1939Gen.Generator.Staging
import J1939Gen.Generator.Percent

/-!
# One-call transactions

The commands that change the active configuration without a staged transaction:
a single constant, the global percent and the clear. Each opens a transaction of
the value store, writes and commits; on an idle store none of them can fail.

* `storeUpdate_ok`, `storeClear_spec`: one record set, everything cleared.
* `percentUpdate_ok`: every record under global control set.
-/

namespace J1939Gen

open Bitmask ByteMem ValueStore

namespace ValueStore

theorem Draft.complete_of_untouched {d : Draft} (h : d.written = none) : d.Complete := by
  intro w hw
  rw [h] at hw
  cases hw

/-- A scalar write to an untouched draft. -/
theorem DraftRel.setScalar {s : Store} {c : Contents} (h : DraftRel s ⟨c, none⟩) {key : UInt16}
    {raw : UInt32} {i : ℕ} (hk : indexFromKey key = some i) (hc : checkIndex i raw = .ok) :
    ∃ s', ValueStore.setRaw s key raw = (s', .ok) ∧ SameActive s s' ∧
      DraftRel s' ⟨c.set i (.scalar raw), none⟩ := by
  have hrel := h.setRaw hk hc
  have hsame := apiWrite_sameActive s (.setRaw key raw)
  have hok : (ValueStore.setRaw s key raw).2 = .ok := by rw [setRaw_accept h.opened hk hc]
  simp only [Draft.apply, hk] at hrel
  exact ⟨_, Prod.ext rfl hok, hsame, hrel⟩

end ValueStore

namespace Generator

open Scheduler

/-! ## One record, no record -/

/-- `prv_store_update` sets one scalar of the active configuration. -/
theorem storeUpdate_ok {s : Store} {c : Contents} (h : Holds s c) (hidle : s.txnState = .idle)
    {key : UInt16} {raw : UInt32} {i : ℕ} (hk : indexFromKey key = some i)
    (hc : checkIndex i raw = .ok) :
    ∃ s', storeUpdate s key true raw = (s', .ok) ∧ s'.txnState = .idle ∧
      Holds s' (c.set i (.scalar raw)) := by
  obtain ⟨hbegin, hdraft⟩ := begin_draft hidle h.wf .copyActive
  rw [h.view] at hdraft
  obtain ⟨s', hset, -, hdraft'⟩ := DraftRel.setScalar hdraft hk hc
  obtain ⟨hok, hidle', hholds, -⟩ := hdraft'.commit_complete (Draft.complete_of_untouched rfl)
  unfold storeUpdate
  dsimp only
  rw [if_neg (by simp [hbegin]), if_pos rfl, hset]
  dsimp only
  rw [if_neg (by simp)]
  refine ⟨(ValueStore.commit s').1, ?_, hidle', hholds⟩
  rw [← hok]

/-- `prv_store_clear` commits the empty configuration. -/
theorem storeClear_spec {s : Store} (h : s.active.Wf) :
    (storeClear s).txnState = .idle ∧ Holds (storeClear s) Contents.empty := by
  have hdraft := (begin_draft (s := ValueStore.abort s) rfl h .empty).2
  obtain ⟨-, hidle, hholds, -⟩ := hdraft.commit_complete (Draft.complete_of_untouched rfl)
  unfold storeClear
  exact ⟨hidle, hholds⟩

/-! ## The global percent -/

/-- The raw value the global percent gives record `i`. -/
def percentRaw (percentageBp : UInt16) (i : ℕ) : UInt32 :=
  globalPercentToRaw (signalAt i).rawMin (signalAt i).rawMax percentageBp

theorem checkIndex_percentRaw {i : ℕ} (hi : i < signalCount) (h : isGlobalControl i = true)
    (bp : UInt16) : checkIndex i (percentRaw bp i) = .ok := by
  obtain ⟨h1, h2⟩ := globalPercentToRaw_bounds (rawMin_le_rawMax hi) bp
  exact checkIndex_ok_iff.mpr ⟨globalControl_scalar hi h, h1, h2⟩

/-- The configuration with the records of `idx` under global control set. -/
def percentOn (bp : UInt16) (idx : List ℕ) (c : Contents) : Contents := fun i =>
  if i ∈ idx ∧ (c i).isSome = true ∧ isGlobalControl i = true then
    some (.scalar (percentRaw bp i))
  else c i

theorem isSome_percentOn (bp : UInt16) (idx : List ℕ) (c : Contents) (i : ℕ) :
    (percentOn bp idx c i).isSome = (c i).isSome := by
  unfold percentOn
  split_ifs with h
  · simp [h.2.1]
  · rfl

/-- The loop of `App_Gen_Set_Global_Percent` sets the records it passes. -/
theorem foldl_globalPercentStep {s₀ : Store} {c : Contents} (h : Holds s₀ c) (bp : UInt16)
    (idx : List ℕ) (hidx : ∀ i ∈ idx, i < signalCount) {s : Store} (hs : SameActive s₀ s)
    {done : List ℕ} (hd : DraftRel s ⟨percentOn bp done c, none⟩) :
    ∃ s', idx.foldl (globalPercentStep bp) (s, true) = (s', true) ∧ SameActive s₀ s' ∧
      DraftRel s' ⟨percentOn bp (idx ++ done) c, none⟩ := by
  induction idx generalizing s done with
  | nil => exact ⟨s, rfl, hs, hd⟩
  | cons i idx ih =>
    have hi := hidx i (by simp)
    have hact : isActive s i = (c i).isSome := (h.of_sameActive hs).isActive_eq i
    have hswap : percentOn bp (idx ++ i :: done) c = percentOn bp (i :: idx ++ done) c := by
      funext j
      unfold percentOn
      simp only [List.mem_append, List.mem_cons]
      congr 2
      rw [eq_iff_iff]
      tauto
    rw [List.foldl_cons, globalPercentStep, ← hswap]
    dsimp only
    by_cases hset : (c i).isSome = true ∧ isGlobalControl i = true
    · obtain ⟨s', heq, hsame, hdraft⟩ := hd.setScalar (indexFromKey_signalKey hi)
        (checkIndex_percentRaw hi hset.2 bp)
      rw [if_neg (by simp [hact, hset]), ← percentRaw, heq]
      refine ih (fun j hj => hidx j (by simp [hj])) (hs.trans hsame) ?_
      have hcontents : (percentOn bp done c).set i (.scalar (percentRaw bp i)) =
          percentOn bp (i :: done) c := by
        funext j
        by_cases hji : j = i
        · subst hji
          simp [Contents.set, percentOn, hset]
        · rw [Contents.set, Function.update_of_ne hji]
          simp [percentOn, hji]
      rw [← hcontents]
      exact hdraft
    · have hskip : isActive s i = false ∨ isGlobalControl i = false := by
        rw [hact]
        by_cases ha : (c i).isSome = true
        · exact .inr (by simpa using fun hg => hset ⟨ha, hg⟩)
        · exact .inl (by simpa using ha)
      rw [if_pos (.inr hskip)]
      refine ih (fun j hj => hidx j (by simp [hj])) hs ?_
      have hcontents : percentOn bp done c = percentOn bp (i :: done) c := by
        funext j
        by_cases hji : j = i
        · subst hji
          simp only [percentOn, if_neg (fun h : _ ∧ _ ∧ _ => hset h.2)]
        · simp [percentOn, hji]
      rw [← hcontents]
      exact hd

/-- The transaction of `App_Gen_Set_Global_Percent` cannot fail on an idle
    store, and is one step of the generation. -/
theorem percentUpdate_ok {s : Store} {c : Contents} (h : Holds s c) (hidle : s.txnState = .idle)
    (bp : UInt16) :
    (begin s .copyActive).2 = .ok ∧ ∃ s',
      (List.range signalCount).foldl (globalPercentStep bp) ((begin s .copyActive).1, true) =
        (s', true) ∧
      (ValueStore.commit s').2 = .ok ∧ (ValueStore.commit s').1.txnState = .idle ∧
      Holds (ValueStore.commit s').1 (percentOn bp (List.range signalCount) c) ∧
      (ValueStore.commit s').1.generation =
        if s.generation + 1 = 0 then 1 else s.generation + 1 := by
  obtain ⟨hbegin, hdraft⟩ := begin_draft hidle h.wf .copyActive
  rw [h.view] at hdraft
  have hnone : percentOn bp [] c = c := by
    funext i
    simp [percentOn]
  have hd : DraftRel (begin s .copyActive).1 ⟨percentOn bp [] c, none⟩ := by
    rw [hnone]
    exact hdraft
  obtain ⟨s', heq, hsame, hd'⟩ := foldl_globalPercentStep h bp (List.range signalCount)
    (fun i hi => List.mem_range.mp hi) (begin_sameActive s .copyActive) hd
  rw [List.append_nil] at hd'
  obtain ⟨hok, hidle', hholds, hgen⟩ := hd'.commit_complete (Draft.complete_of_untouched rfl)
  rw [hsame.2] at hgen
  exact ⟨hbegin, s', heq, hok, hidle', hholds, hgen⟩

end Generator

end J1939Gen
