import J1939Gen.Generator.Model
import J1939Gen.Scheduler.Steps
import J1939Gen.ValueStore.Refine

/-!
# Which PGNs a configuration schedules

The PGNs of a configuration are those that own an active record. Adding a
record to the scheduler adds its PGN, and the rebuild after a commit schedules
exactly the PGNs of the committed configuration.

* `Scheduled.add`: one record is added when its PGN fits.
* `rebuild_spec`: the rebuild never fails within the PGN capacity.
* `getActivePgnCount_eq`, `getSignalCount_eq`: what the counting loops return.
-/

namespace J1939Gen

open Bitmask ValueStore

namespace ValueStore

/-! ## The records and the PGNs of a configuration -/

/-- The indices of the active records. -/
def Contents.active (c : Contents) : Finset ℕ :=
  (Finset.range signalCount).filter fun i => (c i).isSome = true

/-- The PGNs that own an active record. -/
def Contents.pgns (c : Contents) : Finset ℕ := c.active.image fun i => (signalAt i).pgnIndex

/-- The number of active scalar records. -/
def Contents.scalars (c : Contents) : ℕ := (c.active.filter fun i => isBlob i = false).card

/-- The number of active blob records. -/
def Contents.blobs (c : Contents) : ℕ := (c.active.filter fun i => isBlob i = true).card

theorem Contents.mem_active {c : Contents} {i : ℕ} :
    i ∈ c.active ↔ i < signalCount ∧ (c i).isSome = true := by
  simp [Contents.active]

theorem Contents.count_eq (c : Contents) : c.count = c.active.card := rfl

theorem Contents.scalars_add_blobs (c : Contents) : c.scalars + c.blobs = c.count := by
  have h := Finset.card_filter_add_card_filter_not (s := c.active) fun i => isBlob i = false
  simp only [Bool.not_eq_false] at h
  exact h

theorem Contents.count_le (c : Contents) : c.count ≤ signalCount := by
  have h := Finset.card_filter_le (Finset.range signalCount) fun i => (c i).isSome = true
  rwa [Finset.card_range] at h

theorem Contents.pgns_lt {c : Contents} {p : ℕ} (h : p ∈ c.pgns) : p < pgnCount := by
  obtain ⟨i, hi, rfl⟩ := Finset.mem_image.mp h
  exact pgnIndex_lt (Contents.mem_active.mp hi).1

theorem Contents.card_pgns_le (c : Contents) : c.pgns.card ≤ pgnCount := by
  have h : c.pgns ⊆ Finset.range pgnCount := fun p hp => Finset.mem_range.mpr (c.pgns_lt hp)
  simpa using Finset.card_le_card h

theorem Contents.active_empty : Contents.empty.active = ∅ := by
  simp [Contents.active, Contents.empty]

/-- The configuration with record `i` set to `e`. -/
def Contents.set (c : Contents) (i : ℕ) (e : Entry) : Contents := Function.update c i (some e)

section Update

variable {c : Contents} {i : ℕ} (hi : i < signalCount) (e : Entry)
include hi

theorem Contents.active_set : (c.set i e).active = insert i c.active := by
  ext j
  rw [Finset.mem_insert, Contents.mem_active, Contents.mem_active]
  by_cases hji : j = i
  · subst hji
    simp [Contents.set, hi]
  · rw [Contents.set, Function.update_of_ne hji]
    simp [hji]

theorem Contents.pgns_set :
    (c.set i e).pgns = insert (signalAt i).pgnIndex c.pgns := by
  rw [Contents.pgns, Contents.active_set hi, Finset.image_insert]
  rfl

/-- One more active record counts once in the records of its kind. -/
theorem Contents.scalars_set (hb : isBlob i = false) :
    (c.set i e).scalars =
        (if i ∈ c.active then c.scalars else c.scalars + 1) ∧
      (c.set i e).blobs = c.blobs := by
  rw [Contents.scalars, Contents.blobs, Contents.active_set hi]
  constructor
  · rw [Finset.filter_insert, if_pos hb]
    by_cases hmem : i ∈ c.active
    · rw [if_pos hmem, Finset.insert_eq_of_mem (Finset.mem_filter.mpr ⟨hmem, hb⟩)]
      rfl
    · rw [if_neg hmem, Finset.card_insert_of_notMem fun h => hmem (Finset.mem_filter.mp h).1]
      rfl
  · rw [Finset.filter_insert, if_neg (by simp [hb])]
    rfl

theorem Contents.blobs_set (hb : isBlob i = true) :
    (c.set i e).blobs = (if i ∈ c.active then c.blobs else c.blobs + 1) ∧
      (c.set i e).scalars = c.scalars := by
  rw [Contents.scalars, Contents.blobs, Contents.active_set hi]
  constructor
  · rw [Finset.filter_insert, if_pos hb]
    by_cases hmem : i ∈ c.active
    · rw [if_pos hmem, Finset.insert_eq_of_mem (Finset.mem_filter.mpr ⟨hmem, hb⟩)]
      rfl
    · rw [if_neg hmem, Finset.card_insert_of_notMem fun h => hmem (Finset.mem_filter.mp h).1]
      rfl
  · rw [Finset.filter_insert, if_neg (by simp [hb])]
    rfl

theorem Contents.count_set :
    (c.set i e).count = if i ∈ c.active then c.count else c.count + 1 := by
  rw [Contents.count_eq, Contents.active_set hi, Contents.count_eq]
  by_cases hmem : i ∈ c.active
  · rw [if_pos hmem, Finset.insert_eq_of_mem hmem]
  · rw [if_neg hmem, Finset.card_insert_of_notMem hmem]

end Update

theorem Holds.isActive_eq {s : Store} {c : Contents} (h : Holds s c) (i : ℕ) :
    isActive s i = (c i).isSome := h.shows.1 i

theorem Holds.mem_active {s : Store} {c : Contents} (h : Holds s c) {i : ℕ} :
    i ∈ c.active ↔ i < signalCount ∧ isActive s i = true := by
  rw [Contents.mem_active, h.isActive_eq]

end ValueStore

namespace Scheduler

/-! ## The PGN table -/

/-- The PGN table has exactly these PGNs, each of them once. -/
structure Scheduled (s : Sched) (P : Finset ℕ) : Prop where
  nodup : s.indices.Nodup
  mem : ∀ p, p ∈ s.indices ↔ p ∈ P

theorem Scheduled.clear : Scheduled Sched.clear ∅ := by
  constructor <;> simp [Sched.indices, Sched.clear]

theorem Scheduled.congr {s s' : Sched} {P : Finset ℕ} (h : Scheduled s P)
    (hs : s'.indices = s.indices) : Scheduled s' P := by
  constructor
  · rw [hs]; exact h.nodup
  · rw [hs]; exact h.mem

theorem Scheduled.length_pgns {s : Sched} {P : Finset ℕ} (h : Scheduled s P) :
    s.pgns.length = P.card := by
  have hP : s.indices.toFinset = P := by
    ext p
    rw [List.mem_toFinset, h.mem]
  rw [← hP, List.toFinset_card_of_nodup h.nodup, Sched.indices, List.length_map]

theorem findPgn_isSome (s : Sched) (p : ℕ) : (s.findPgn p).isSome = true ↔ p ∈ s.indices := by
  unfold Sched.findPgn Sched.indices
  rw [List.find?_isSome, List.mem_map]
  simp only [beq_iff_eq]

/-- Every PGN of the catalog is schedulable. -/
theorem pgnIsSchedulable_of_lt {p : ℕ} (h : p < pgnCount) : pgnIsSchedulable (pgnAt p) = true := by
  obtain ⟨h1, h2⟩ := pgn_periodic h
  simp only [pgnIsSchedulable, decide_eq_true_eq, gt_iff_lt, UInt16.lt_iff_toNat_lt,
    UInt16.le_iff_toNat_le]
  exact ⟨h1, h2⟩

theorem pgnIndexIsSchedulable_of_lt {p : ℕ} (h : p < pgnCount) :
    pgnIndexIsSchedulable p = true := by
  simp [pgnIndexIsSchedulable, h, pgnIsSchedulable_of_lt h]

/-- `J1939_Sched_Can_Add_Catalog_Signal` for a record that is active, or for
    which the store has room. -/
theorem Scheduled.canAdd {B : Build} {s : Sched} {P : Finset ℕ} (h : Scheduled s P)
    {store : Store} {i : ℕ} (hi : i < signalCount)
    (hroom : isActive store i = true ∨ getSignalCount store < B.signalCapacity) :
    s.canAddCatalogSignal B store i = true ↔
      (signalAt i).pgnIndex ∈ P ∨ P.card < B.pgnCapacity := by
  unfold Sched.canAddCatalogSignal
  rw [if_neg (by omega), if_neg (by rcases hroom with h' | h' <;> simp [h'])]
  simp only [pgnIsSchedulable_of_lt (pgnIndex_lt hi), Bool.true_eq_false, if_false,
    decide_eq_true_eq, findPgn_isSome, h.mem, h.length_pgns]

/-- Adding an active record adds its PGN, once. -/
theorem Scheduled.add {B : Build} {s : Sched} {P : Finset ℕ} (h : Scheduled s P)
    {store : Store} {i : ℕ} (hi : i < signalCount) (hact : isActive store i = true)
    (hcap : (insert (signalAt i).pgnIndex P).card ≤ B.pgnCapacity) (nowMs : UInt32) :
    ∃ s', s.addCatalogSignal B store i nowMs = (s', true) ∧
      Scheduled s' (insert (signalAt i).pgnIndex P) := by
  have hroom : (signalAt i).pgnIndex ∈ P ∨ P.card < B.pgnCapacity := by
    by_cases hmem : (signalAt i).pgnIndex ∈ P
    · exact .inl hmem
    · rw [Finset.card_insert_of_notMem hmem] at hcap
      exact .inr hcap
  unfold Sched.addCatalogSignal
  rw [if_neg (by simp [(h.canAdd hi (.inl hact)).mpr hroom])]
  simp only [pgnIsSchedulable_of_lt (pgnIndex_lt hi), Bool.true_eq_false, if_false]
  unfold Sched.addPgn
  by_cases hmem : (signalAt i).pgnIndex ∈ P
  · obtain ⟨e, he⟩ := Option.isSome_iff_exists.mp
      ((findPgn_isSome s _).mpr ((h.mem _).mpr hmem))
    rw [he, Finset.insert_eq_of_mem hmem]
    exact ⟨s, rfl, h⟩
  · have hnone : s.findPgn (signalAt i).pgnIndex = none := by
      rw [← Option.not_isSome_iff_eq_none, findPgn_isSome, h.mem]
      exact hmem
    have hlen : ¬ s.pgns.length ≥ B.pgnCapacity := by
      rw [h.length_pgns]
      exact not_le.mpr (hroom.resolve_left hmem)
    rw [hnone]
    simp only [if_neg hlen]
    refine ⟨_, rfl, ?_, ?_⟩
    · simp only [Sched.indices, List.map_append, List.map_cons, List.map_nil]
      refine List.nodup_append.mpr ⟨h.nodup, List.nodup_singleton _, ?_⟩
      intro p hp q hq heq
      rw [List.mem_singleton] at hq
      rw [heq, hq] at hp
      exact hmem ((h.mem _).mp hp)
    · intro p
      have hp : p ∈ s.pgns.map PgnEntry.catalogPgnIndex ↔ p ∈ P := h.mem p
      simp only [Sched.indices, List.map_append, List.map_cons, List.map_nil, List.mem_append,
        List.mem_singleton, Finset.mem_insert, hp]
      exact or_comm

end Scheduler

namespace Generator

open Scheduler

/-! ## The rebuild -/

/-- The loop of the rebuild, over the records `idx`: it schedules their PGNs. -/
theorem foldl_rebuildStep {B : Build} {store : Store} {c : Contents} (h : Holds store c)
    (hcap : c.pgns.card ≤ B.pgnCapacity) (clock : ℕ → UInt32) (idx : List ℕ)
    (hidx : ∀ i ∈ idx, i < signalCount) {s : Sched} {P : Finset ℕ} (hs : Scheduled s P)
    (hP : P ⊆ c.pgns) :
    ∃ s', idx.foldl (rebuildStep B store clock) (s, true) = (s', true) ∧
      Scheduled s' (P ∪ (c.active.filter (· ∈ idx)).image fun i => (signalAt i).pgnIndex) := by
  induction idx generalizing s P with
  | nil => exact ⟨s, rfl, by simpa using hs⟩
  | cons i idx ih =>
    have hi := hidx i (by simp)
    have hrest : ∀ j ∈ idx, j < signalCount := fun j hj => hidx j (by simp [hj])
    rw [List.foldl_cons, rebuildStep]
    by_cases hact : isActive store i = true
    · have hmem : i ∈ c.active := h.mem_active.mpr ⟨hi, hact⟩
      have hsub : insert (signalAt i).pgnIndex P ⊆ c.pgns := by
        intro p hp
        rcases Finset.mem_insert.mp hp with rfl | hp
        · exact Finset.mem_image_of_mem _ hmem
        · exact hP hp
      obtain ⟨s', heq, hs'⟩ := hs.add hi hact ((Finset.card_le_card hsub).trans hcap) (clock i)
      obtain ⟨s'', heq', hs''⟩ := ih hrest hs' hsub
      rw [if_pos hact, heq]
      refine ⟨s'', heq', ?_⟩
      have hset : c.active.filter (· ∈ i :: idx) = insert i (c.active.filter (· ∈ idx)) := by
        ext j
        by_cases hji : j = i
        · subst hji
          simp [hmem]
        · simp [hji]
      rw [hset, Finset.image_insert, Finset.union_insert, ← Finset.insert_union]
      exact hs''
    · obtain ⟨s', heq, hs'⟩ := ih hrest hs hP
      rw [if_neg hact]
      refine ⟨s', heq, ?_⟩
      have hset : c.active.filter (· ∈ i :: idx) = c.active.filter (· ∈ idx) := by
        refine Finset.filter_congr fun j hj => ?_
        have hji : j ≠ i := by
          rintro rfl
          exact hact (h.mem_active.mp hj).2
        simp [hji]
      rw [hset]
      exact hs'

/-- Within the PGN capacity the rebuild schedules exactly the PGNs of the active
    configuration. -/
theorem rebuild_spec {B : Build} {store : Store} {c : Contents} (h : Holds store c)
    (hcap : c.pgns.card ≤ B.pgnCapacity) (clock : ℕ → UInt32) :
    ∃ s', rebuild B store clock = (s', true) ∧ Scheduled s' c.pgns := by
  obtain ⟨s', heq, hs'⟩ := foldl_rebuildStep h hcap clock (List.range signalCount)
    (fun i hi => List.mem_range.mp hi) Scheduled.clear (Finset.empty_subset _)
  refine ⟨s', heq, ?_⟩
  have hall : c.active.filter (· ∈ List.range signalCount) = c.active := by
    refine Finset.filter_true_of_mem fun i hi => ?_
    exact List.mem_range.mpr (Contents.mem_active.mp hi).1
  rw [hall, Finset.empty_union] at hs'
  exact hs'

/-! ## The counting loops -/

/-- `J1939_Sched_Get_Signal_Count` counts the active records. -/
theorem getSignalCount_eq {store : Store} {c : Contents} (h : Holds store c) :
    getSignalCount store = c.count := by
  unfold getSignalCount
  rw [List.countP_eq_length_filter, Contents.count_eq,
    ← List.toFinset_card_of_nodup (List.nodup_range.filter _)]
  congr 1
  ext i
  rw [List.mem_toFinset, List.mem_filter, List.mem_range, h.mem_active]

/-- The loop of `App_Gen_Get_Active_PGN_Count`: the mask and the count are those
    of the PGNs of the records seen so far. -/
theorem foldl_activePgnStep {store : Store} {c : Contents} (h : Holds store c) (n : ℕ)
    (hn : n ≤ signalCount) :
    let r := (List.range n).foldl (activePgnStep store) (zero, 0)
    let P := (c.active.filter (· < n)).image fun i => (signalAt i).pgnIndex
    (∀ p, test r.1 p = decide (p ∈ P)) ∧ r.2 = UInt8.ofNat P.card := by
  induction n with
  | zero => simp
  | succ n ih =>
    obtain ⟨h1, h2⟩ := ih (by omega)
    rw [List.range_succ, List.foldl_append, List.foldl_cons, List.foldl_nil]
    generalize (List.range n).foldl (activePgnStep store) (zero, 0) = r at h1 h2 ⊢
    dsimp only at h1 h2 ⊢
    by_cases hact : isActive store n = true
    · have hset : c.active.filter (· < n + 1) = insert n (c.active.filter (· < n)) := by
        have hmem : n ∈ c.active := h.mem_active.mpr ⟨by omega, hact⟩
        ext j
        rw [Finset.mem_insert, Finset.mem_filter, Finset.mem_filter]
        by_cases hjn : j = n
        · subst hjn
          simp [hmem]
        · have : j < n + 1 ↔ j < n := by omega
          simp [hjn, this]
      rw [hset, Finset.image_insert]
      by_cases hp : test r.1 (signalAt n).pgnIndex = true
      · rw [activePgnStep, if_pos (.inr hp)]
        rw [h1, decide_eq_true_eq] at hp
        rw [Finset.insert_eq_of_mem hp]
        exact ⟨h1, h2⟩
      · rw [activePgnStep, if_neg (by simp [hact, hp])]
        rw [h1, decide_eq_true_eq] at hp
        rw [Finset.card_insert_of_notMem hp]
        constructor
        · intro p
          by_cases hpn : p = (signalAt n).pgnIndex
          · subst hpn
            simp
          · rw [test_assign_of_ne _ _ hpn, h1]
            simp [hpn]
        · rw [h2, UInt8.ofNat_add]
          rfl
    · have hset : c.active.filter (· < n + 1) = c.active.filter (· < n) := by
        refine Finset.filter_congr fun j hj => ?_
        have hjn : j ≠ n := by
          rintro rfl
          exact hact (h.mem_active.mp hj).2
        omega
      rw [hset, activePgnStep, if_pos (.inl (by simpa using hact))]
      exact ⟨h1, h2⟩

/-- `App_Gen_Get_Active_PGN_Count` counts the PGNs of the active records. -/
theorem getActivePgnCount_eq {g : Gen} {c : Contents} (h : Holds g.store c) :
    getActivePgnCount g = UInt8.ofNat c.pgns.card := by
  have hloop := (foldl_activePgnStep h signalCount (le_refl _)).2
  have hall : c.active.filter (· < signalCount) = c.active :=
    Finset.filter_true_of_mem fun i hi => (Contents.mem_active.mp hi).1
  rw [hall] at hloop
  exact hloop

end Generator

end J1939Gen
