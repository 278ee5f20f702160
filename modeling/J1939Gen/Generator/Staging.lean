import J1939Gen.Generator.Schedule

/-!
# The staged transaction

While a transaction is open, the masks and counters of the generator describe
the draft of the value store. A staging call is refused, and then poisons the
transaction, or it adds one record to both.

* `Staged`: what the masks and counters say.
* `stageConstantRaw_cases`, `stageBlobChunk_cases`, `stageStringChunk_cases`:
  refused or accepted.
* `stageConstantRaw_accept`, `stageBlobChunk_accept`: when a call is accepted.
-/

namespace J1939Gen.Generator

open Bitmask ByteMem ValueStore Scheduler

/-! ## The masks and counters -/

/-- The masks and counters of an open transaction describe its contents. -/
structure Staged (B : Build) (c : Config) (d : Contents) : Prop where
  signals : ∀ i < signalCount, test c.signalMask i = (d i).isSome
  pgns : ∀ p, test c.pgnMask p = decide (p ∈ d.pgns)
  scalars : c.stagedCount = UInt16.ofNat d.scalars
  blobs : c.blobCount = UInt8.ofNat d.blobs
  pgnCount : c.stagedPgnCount = UInt8.ofNat d.pgns.card
  schedulable : c.schedulablePgnCount = UInt8.ofNat d.pgns.card
  signalCapacity : d.count ≤ B.signalCapacity
  pgnCapacity : d.pgns.card ≤ B.pgnCapacity

theorem Contents.blobs_le (d : Contents) : d.blobs ≤ 1 := by
  refine Finset.card_le_one.mpr fun i hi j hj => ?_
  obtain ⟨hi, hbi⟩ := Finset.mem_filter.mp hi
  obtain ⟨hj, hbj⟩ := Finset.mem_filter.mp hj
  rw [(isBlob_iff (Contents.mem_active.mp hi).1).mp hbi,
    (isBlob_iff (Contents.mem_active.mp hj).1).mp hbj]

/-- The staged counts do not wrap. -/
theorem Staged.toNat_count {B : Build} {c : Config} {d : Contents} (h : Staged B c d) :
    c.stagedCount.toNat = d.scalars ∧ c.blobCount.toNat = d.blobs ∧
      (c.stagedCount + c.blobCount.toUInt16).toNat = d.count := by
  have hcount : d.count ≤ 179 := d.count_le
  have hsum := d.scalars_add_blobs
  have h1 : c.stagedCount.toNat = d.scalars := by
    rw [h.scalars, UInt16.toNat_ofNat', Nat.mod_eq_of_lt (by omega)]
  have h2 : c.blobCount.toNat = d.blobs := by
    rw [h.blobs, UInt8.toNat_ofNat', Nat.mod_eq_of_lt (by omega)]
  refine ⟨h1, h2, ?_⟩
  rw [UInt16.toNat_add, UInt8.toNat_toUInt16, h1, h2, Nat.mod_eq_of_lt (by omega), hsum]

theorem Staged.toNat_pgns {B : Build} {c : Config} {d : Contents} (h : Staged B c d) :
    c.stagedPgnCount.toNat = d.pgns.card ∧ c.schedulablePgnCount.toNat = d.pgns.card := by
  have hcard : d.pgns.card ≤ 60 := d.card_pgns_le
  rw [h.pgnCount, h.schedulable, UInt8.toNat_ofNat', Nat.mod_eq_of_lt (by omega)]
  exact ⟨rfl, rfl⟩

/-- Fresh counters describe the empty draft. -/
theorem Staged.fresh (B : Build) {c : Config} (h1 : c.signalMask = zero) (h2 : c.pgnMask = zero)
    (h3 : c.stagedCount = 0) (h4 : c.blobCount = 0) (h5 : c.stagedPgnCount = 0)
    (h6 : c.schedulablePgnCount = 0) : Staged B c Contents.empty where
  signals i _ := by rw [h1, test_zero]; rfl
  pgns p := by
    rw [h2, test_zero, Contents.pgns, Contents.active_empty]
    simp
  scalars := by rw [h3, Contents.scalars, Contents.active_empty]; rfl
  blobs := by rw [h4, Contents.blobs, Contents.active_empty]; rfl
  pgnCount := by rw [h5, Contents.pgns, Contents.active_empty]; rfl
  schedulable := by rw [h6, Contents.pgns, Contents.active_empty]; rfl
  signalCapacity := by rw [Contents.count_eq, Contents.active_empty]; exact Nat.zero_le _
  pgnCapacity := by rw [Contents.pgns, Contents.active_empty]; exact Nat.zero_le _

/-- `prv_config_admit` compares the draft with the capacities. -/
theorem Staged.admit {B : Build} {c : Config} {d : Contents} (h : Staged B c d) {i : ℕ}
    (hi : i < signalCount) :
    ( c.admit B i = .ok ↔ (i ∈ d.active ∨ d.count < B.signalCapacity) ∧
      ((signalAt i).pgnIndex ∈ d.pgns ∨ d.pgns.card < B.pgnCapacity)) ∧
    ( c.admit B i ≠ .ok → c.admit B i = .resourceFull) := by
  have hmem : test c.signalMask i = decide (i ∈ d.active) := by
    rw [h.signals i hi, Bool.eq_iff_iff, decide_eq_true_eq, Contents.mem_active]
    simp [hi]
  have hsched := pgnIndexIsSchedulable_of_lt (pgnIndex_lt hi)
  unfold Config.admit
  simp only [hmem, h.pgns, hsched, h.toNat_count.2.2, h.toNat_pgns.2, decide_eq_false_iff_not,
    true_and]
  by_cases h1 : i ∉ d.active ∧ d.count ≥ B.signalCapacity
  · rw [if_pos h1]
    refine ⟨iff_of_false (by simp) fun h' => ?_, fun _ => rfl⟩
    rcases h'.1 with hin | hlt
    · exact h1.1 hin
    · omega
  rw [if_neg h1]
  by_cases h2 : (signalAt i).pgnIndex ∉ d.pgns ∧ d.pgns.card ≥ B.pgnCapacity
  · rw [if_pos h2]
    refine ⟨iff_of_false (by simp) fun h' => ?_, fun _ => rfl⟩
    rcases h'.2 with hin | hlt
    · exact h2.1 hin
    · omega
  rw [if_neg h2]
  refine ⟨iff_of_true rfl ⟨?_, ?_⟩, fun hne => absurd rfl hne⟩
  · by_contra hn
    rw [not_or, not_lt] at hn
    exact h1 hn
  · by_contra hn
    rw [not_or, not_lt] at hn
    exact h2 hn

/-- The fields of the transaction that marking a record leaves alone. -/
structure SameTarget (c c' : Config) : Prop where
  state : c'.state = c.state
  profileId : c'.profileId = c.profileId
  expectedCount : c'.expectedCount = c.expectedCount
  expectedBlobCount : c'.expectedBlobCount = c.expectedBlobCount

theorem markPgn_target (c : Config) (p : ℕ) : SameTarget c (c.markPgn p) := by
  unfold Config.markPgn
  split_ifs <;> exact ⟨rfl, rfl, rfl, rfl⟩

theorem mark_target (c : Config) (i : ℕ) : SameTarget c (c.mark i).1 := by
  obtain ⟨h1, h2, h3, h4⟩ := markPgn_target c (signalAt i).pgnIndex
  unfold Config.mark
  dsimp only
  split_ifs <;> exact ⟨h1, h2, h3, h4⟩

theorem markScalar_target (c : Config) (i : ℕ) : SameTarget c (c.markScalar i) := by
  obtain ⟨h1, h2, h3, h4⟩ := mark_target c i
  unfold Config.markScalar
  dsimp only
  split_ifs <;> exact ⟨h1, h2, h3, h4⟩

theorem markBlob_target (c : Config) (i : ℕ) : SameTarget c (c.markBlob i) := by
  obtain ⟨h1, h2, h3, h4⟩ := mark_target c i
  unfold Config.markBlob
  dsimp only
  split_ifs <;> exact ⟨h1, h2, h3, h4⟩

/-- The PGN of a marked record joins the staged PGNs. -/
theorem Staged.markPgn {B : Build} {c : Config} {d : Contents} (h : Staged B c d) {p : ℕ}
    (hp : p < J1939Gen.pgnCount) :
    ∃ m n, c.markPgn p = { c with pgnMask := m, stagedPgnCount := n, schedulablePgnCount := n } ∧
      (∀ q, test m q = decide (q ∈ insert p d.pgns)) ∧ n = UInt8.ofNat (insert p d.pgns).card := by
  unfold Config.markPgn
  by_cases hmem : p ∈ d.pgns
  · rw [if_pos (by rw [h.pgns]; simpa using hmem), Finset.insert_eq_of_mem hmem]
    refine ⟨c.pgnMask, c.stagedPgnCount, ?_, h.pgns, h.pgnCount⟩
    have hsame : c.schedulablePgnCount = c.stagedPgnCount := h.schedulable.trans h.pgnCount.symm
    cases c
    dsimp only at hsame ⊢
    rw [hsame]
  · rw [if_neg (by rw [h.pgns]; simpa using hmem), if_pos (pgnIndexIsSchedulable_of_lt hp),
      Finset.card_insert_of_notMem hmem]
    refine ⟨assign c.pgnMask p true, c.stagedPgnCount + 1, ?_, ?_, ?_⟩
    · rw [h.schedulable, ← h.pgnCount]
    · intro q
      by_cases hq : q = p
      · subst hq
        simp
      · rw [test_assign_of_ne _ _ hq, h.pgns]
        simp [hq]
    · rw [h.pgnCount, UInt8.ofNat_add]
      rfl

section Mark

variable {B : Build} {c : Config} {d : Contents} (h : Staged B c d) {i : ℕ} (hi : i < signalCount)
include h hi

/-- What `prv_config_mark` does to masks and PGN counts, and whether the record
    is new. -/
theorem Staged.mark (e : Entry) :
    ∃ m m' n, c.mark i = ({ c with
        signalMask := m, pgnMask := m', stagedPgnCount := n, schedulablePgnCount := n },
        decide (i ∉ d.active)) ∧
      (∀ j < signalCount, test m j = ((d.set i e) j).isSome) ∧
      (∀ p, test m' p = decide (p ∈ (d.set i e).pgns)) ∧
      n = UInt8.ofNat (d.set i e).pgns.card := by
  obtain ⟨m', n, heq, h1, h2⟩ := h.markPgn (pgnIndex_lt hi)
  have hnew : test c.signalMask i = decide (i ∈ d.active) := by
    rw [h.signals i hi, Bool.eq_iff_iff, decide_eq_true_eq, Contents.mem_active]
    simp [hi]
  rw [← Contents.pgns_set hi e] at h1 h2
  unfold Config.mark
  simp only [heq, hnew]
  by_cases hmem : i ∈ d.active
  · rw [if_pos (by simpa using hmem)]
    refine ⟨c.signalMask, m', n, by simp [hmem], fun j hj => ?_, h1, h2⟩
    rw [h.signals j hj]
    by_cases hji : j = i
    · subst hji
      rw [(Contents.mem_active.mp hmem).2]
      simp [Contents.set]
    · rw [Contents.set, Function.update_of_ne hji]
  · rw [if_neg (by simpa using hmem)]
    refine ⟨assign c.signalMask i true, m', n, by simp [hmem], fun j hj => ?_, h1, h2⟩
    by_cases hji : j = i
    · subst hji
      simp [Contents.set]
    · rw [test_assign_of_ne _ _ hji, h.signals j hj, Contents.set, Function.update_of_ne hji]

theorem Staged.capacity_set (hadm : c.admit B i = .ok) (e : Entry) :
    (d.set i e).count ≤ B.signalCapacity ∧ (d.set i e).pgns.card ≤ B.pgnCapacity := by
  have hadmit := h.admit hi
  obtain ⟨h1, h2⟩ := hadmit.1.mp hadm
  constructor
  · rw [Contents.count_set hi]
    by_cases hmem : i ∈ d.active
    · rw [if_pos hmem]
      exact h.signalCapacity
    · rw [if_neg hmem]
      exact h1.resolve_left hmem
  · rw [Contents.pgns_set hi]
    by_cases hmem : (signalAt i).pgnIndex ∈ d.pgns
    · rw [Finset.insert_eq_of_mem hmem]
      exact h.pgnCapacity
    · rw [Finset.card_insert_of_notMem hmem]
      exact h2.resolve_left hmem

/-- An admitted scalar joins the masks and the counters. -/
theorem Staged.markScalar (hadm : c.admit B i = .ok) (hb : isBlob i = false) (e : Entry) :
    Staged B (c.markScalar i) (d.set i e) := by
  obtain ⟨m, m', n, heq, h1, h2, h3⟩ := h.mark hi e
  obtain ⟨hc1, hc2⟩ := h.capacity_set hi hadm e
  obtain ⟨hs, hbl⟩ := Contents.scalars_set hi e hb (c := d)
  unfold Config.markScalar
  simp only [heq]
  by_cases hmem : i ∈ d.active
  · rw [if_pos hmem] at hs
    rw [if_neg (by simpa using hmem)]
    exact ⟨h1, h2, by rw [hs]; exact h.scalars, by rw [hbl]; exact h.blobs, h3, h3, hc1, hc2⟩
  · rw [if_neg hmem] at hs
    rw [if_pos (by simpa using hmem)]
    refine ⟨h1, h2, ?_, by rw [hbl]; exact h.blobs, h3, h3, hc1, hc2⟩
    rw [hs, UInt16.ofNat_add, ← h.scalars]
    rfl

/-- An admitted blob chunk joins the masks and the counters. -/
theorem Staged.markBlob (hadm : c.admit B i = .ok) (hb : isBlob i = true) (e : Entry) :
    Staged B (c.markBlob i) (d.set i e) := by
  obtain ⟨m, m', n, heq, h1, h2, h3⟩ := h.mark hi e
  obtain ⟨hc1, hc2⟩ := h.capacity_set hi hadm e
  obtain ⟨hbl, hs⟩ := Contents.blobs_set hi e hb (c := d)
  unfold Config.markBlob
  simp only [heq]
  by_cases hmem : i ∈ d.active
  · rw [if_pos hmem] at hbl
    rw [if_neg (by simpa using hmem)]
    exact ⟨h1, h2, by rw [hs]; exact h.scalars, by rw [hbl]; exact h.blobs, h3, h3, hc1, hc2⟩
  · rw [if_neg hmem] at hbl
    rw [if_pos (by simpa using hmem)]
    refine ⟨h1, h2, by rw [hs]; exact h.scalars, ?_, h3, h3, hc1, hc2⟩
    rw [hbl, UInt8.ofNat_add, ← h.blobs]
    rfl

end Mark

/-! ## Refused or accepted -/

/-- The state `prv_config_reject` leaves, whatever it returns. -/
def Gen.rejected (g : Gen) : Gen := (configReject g .rejected).1

/-- What a refused staging call leaves: nothing changed, or the open transaction
    is poisoned. The readers of the store see no difference. -/
inductive Refused (g : Gen) : Gen → Prop
  | unchanged (hn : g.config.state ≠ .opened) : Refused g g
  | poisoned (ho : g.config.state = .opened) {store : Store} (hs : SameActive g.store store) :
      Refused g (Gen.rejected { g with store := store })

theorem Refused.reject {g : Gen} (ho : g.config.state = .opened) : Refused g g.rejected :=
  .poisoned ho (SameActive.refl g.store)

theorem configReady_eq {g : Gen} : configReady g = .ok ↔ g.config.state = .opened := by
  unfold configReady
  cases g.config.state <;> simp

/-- The scalars of the catalog are its records that are not blobs. -/
theorem isScalar_eq {i : ℕ} (hi : i < signalCount) : isScalar i = !isBlob i := by
  unfold isScalar
  rw [if_neg (by omega)]
  cases hb : isBlob i with
  | true => simp
  | false =>
    obtain ⟨h1, h2, h3⟩ := scalar_layout hi hb
    have hp := (pgnAt (signalAt i).pgnIndex).payloadLength.toNat_lt
    have hs := (signalAt i).startBit.toNat_lt
    simp only [decide_eq_true_eq, gt_iff_lt, UInt16.lt_iff_toNat_lt, UInt16.le_iff_toNat_le,
      UInt32.le_iff_toNat_le, UInt32.toNat_add, UInt32.toNat_mul, UInt16.toNat_toUInt32,
      UInt16.reduceToNat, UInt32.reduceToNat, Bool.not_false, true_and]
    omega

/-- A scalar is staged when its key and its value are good, the profile allows
    it, it is admitted and the store takes it. -/
structure AcceptsScalar (B : Build) (g : Gen) (key : UInt16) (raw : UInt32) (i : ℕ) : Prop where
  opened : g.config.state = .opened
  known : indexFromKey key = some i
  allowed : g.config.profileAllows i = true
  scalar : isBlob i = false
  range : checkIndex i raw = .ok
  admitted : g.config.admit B i = .ok
  stored : (setRaw g.store key raw).2 = .ok

/-- The state after an accepted scalar. -/
def Gen.withScalar (g : Gen) (key : UInt16) (raw : UInt32) (i : ℕ) : Gen :=
  { g with store := (setRaw g.store key raw).1, config := g.config.markScalar i }

theorem stageConstantRaw_accept {B : Build} {g : Gen} {key : UInt16} {raw : UInt32} {i : ℕ}
    (h : AcceptsScalar B g key raw i) :
    stageConstantRaw B g key raw = (g.withScalar key raw i, .ok) := by
  have hi := (indexFromKey_eq_some h.known).1
  have hcheck : checkRaw key raw = .ok := by rw [checkRaw, h.known]; exact h.range
  unfold stageConstantRaw
  rw [if_neg (by simp [configReady_eq.mpr h.opened]), h.known]
  dsimp only
  rw [if_neg (by simp [h.allowed]), if_neg (by simp [isScalar_eq hi, h.scalar]),
    if_neg (by simp [hcheck]), if_neg (by simp [hcheck]), if_neg (by simp [h.admitted]),
    if_neg (by simp [h.stored])]
  rfl

/-- `App_Gen_Stage_Constant_Raw` refuses, or it stages one scalar. -/
theorem stageConstantRaw_cases (B : Build) (g : Gen) (key : UInt16) (raw : UInt32) :
    ((stageConstantRaw B g key raw).2 ≠ .ok ∧ Refused g (stageConstantRaw B g key raw).1) ∨
      ∃ i, AcceptsScalar B g key raw i := by
  by_cases ho : g.config.state = .opened
  swap
  · left
    have hready : configReady g ≠ .ok := fun h => ho (configReady_eq.mp h)
    rw [stageConstantRaw, if_pos hready]
    exact ⟨hready, .unchanged ho⟩
  cases hk : indexFromKey key with
  | none =>
    left
    rw [stageConstantRaw, if_neg (by simp [configReady_eq.mpr ho]), hk]
    exact ⟨by simp [configReject], .reject ho⟩
  | some i =>
    by_cases hacc : AcceptsScalar B g key raw i
    · exact .inr ⟨i, hacc⟩
    left
    have hi := (indexFromKey_eq_some hk).1
    have hcheck : checkRaw key raw = checkIndex i raw := by rw [checkRaw, hk]
    rw [stageConstantRaw, if_neg (by simp [configReady_eq.mpr ho]), hk]
    dsimp only
    by_cases h1 : g.config.profileAllows i = false
    · rw [if_pos h1]
      exact ⟨by simp [configReject], .reject ho⟩
    rw [if_neg h1]
    by_cases h2 : isScalar i = false
    · rw [if_pos h2]
      exact ⟨by simp [configReject], .reject ho⟩
    rw [if_neg h2]
    by_cases h3 : checkRaw key raw = .valueOutOfRange
    · rw [if_pos h3]
      exact ⟨by simp [configReject], .reject ho⟩
    rw [if_neg h3]
    by_cases h4 : checkRaw key raw = .ok
    swap
    · rw [if_pos h4]
      exact ⟨by simp [configReject], .reject ho⟩
    rw [if_neg (by simp [h4])]
    by_cases h5 : g.config.admit B i = .ok
    swap
    · rw [if_pos h5]
      exact ⟨h5, .reject ho⟩
    rw [if_neg (by simp [h5])]
    by_cases h6 : (setRaw g.store key raw).2 = .ok
    · have hb : isBlob i = false := by simpa [isScalar_eq hi] using h2
      exact absurd ⟨ho, hk, by simpa using h1, hb, hcheck ▸ h4, h5, h6⟩ hacc
    rw [if_pos h6]
    exact ⟨by simp [configReject], .poisoned ho (apiWrite_sameActive g.store (.setRaw key raw))⟩

/-- A blob chunk is staged when its key is good, the profile allows it, its
    window is well formed, it is admitted and the store takes it. -/
structure AcceptsChunk (B : Build) (g : Gen) (key : UInt16) (total offset : UInt8)
    (chunk : Mem) (i : ℕ) : Prop where
  opened : g.config.state = .opened
  known : indexFromKey key = some i
  allowed : g.config.profileAllows i = true
  blob : isBlob i = true
  window : offset < total
  padding : (bytes chunk (chunkCount total offset).toNat
    (3 - (chunkCount total offset).toNat)).any (· ≠ 0) = false
  admitted : g.config.admit B i = .ok
  stored : (writeBlob g.store key total.toUInt16 offset.toUInt16 (some chunk)
    (chunkCount total offset).toUInt16).2 = .ok

/-- The state after an accepted blob chunk. -/
def Gen.withChunk (g : Gen) (key : UInt16) (total offset : UInt8) (chunk : Mem) (i : ℕ) : Gen :=
  { g with
    store := (writeBlob g.store key total.toUInt16 offset.toUInt16 (some chunk)
      (chunkCount total offset).toUInt16).1
    config := g.config.markBlob i }

theorem stageBlobChunk_accept {B : Build} {g : Gen} {key : UInt16} {total offset : UInt8}
    {chunk : Mem} {i : ℕ} (h : AcceptsChunk B g key total offset chunk i) :
    stageBlobChunk B g key total offset (some chunk) =
      (g.withChunk key total offset chunk i, .ok,
        stagedBlobBytes (g.withChunk key total offset chunk i).store) := by
  unfold stageBlobChunk
  dsimp only
  rw [if_neg (by simp [configReady_eq.mpr h.opened]), h.known]
  dsimp only
  rw [if_neg (by simp [h.allowed]), if_neg (by simp [h.blob]), if_neg (UInt8.not_le.mpr h.window),
    if_neg (by rw [h.padding]; simp), if_neg (by simp [h.admitted]), h.stored]
  rfl

/-- `App_Gen_Stage_Blob_Chunk` refuses, or it stages one chunk. -/
theorem stageBlobChunk_cases (B : Build) (g : Gen) (key : UInt16) (total offset : UInt8)
    (chunk : Option Mem) :
    ((stageBlobChunk B g key total offset chunk).2.1 ≠ .ok ∧
        Refused g (stageBlobChunk B g key total offset chunk).1) ∨
      ∃ c i, chunk = some c ∧ AcceptsChunk B g key total offset c i := by
  by_cases ho : g.config.state = .opened
  swap
  · left
    have hready : configReady g ≠ .ok := fun h => ho (configReady_eq.mp h)
    unfold stageBlobChunk
    dsimp only
    rw [if_pos hready]
    exact ⟨hready, .unchanged ho⟩
  have hready : ¬ configReady g ≠ .ok := by simp [configReady_eq.mpr ho]
  cases chunk with
  | none =>
    left
    unfold stageBlobChunk
    dsimp only
    rw [if_neg hready]
    exact ⟨by simp, .reject ho⟩
  | some c =>
    cases hk : indexFromKey key with
    | none =>
      left
      unfold stageBlobChunk
      dsimp only
      rw [if_neg hready, hk]
      exact ⟨by simp, .reject ho⟩
    | some i =>
      by_cases hacc : AcceptsChunk B g key total offset c i
      · exact .inr ⟨c, i, rfl, hacc⟩
      left
      unfold stageBlobChunk
      dsimp only
      rw [if_neg hready, hk]
      dsimp only
      by_cases h1 : g.config.profileAllows i = false
      · rw [if_pos h1]
        exact ⟨by simp, .reject ho⟩
      rw [if_neg h1]
      by_cases h2 : isBlob i = false
      · rw [if_pos h2]
        exact ⟨by simp, .reject ho⟩
      rw [if_neg h2]
      by_cases h3 : offset ≥ total
      · rw [if_pos h3]
        exact ⟨by simp, .reject ho⟩
      rw [if_neg h3]
      by_cases h4 : (bytes c (chunkCount total offset).toNat
          (3 - (chunkCount total offset).toNat)).any (· ≠ 0) = true
      · rw [if_pos h4]
        exact ⟨by simp, .reject ho⟩
      rw [if_neg h4]
      by_cases h5 : g.config.admit B i = .ok
      swap
      · rw [if_pos h5]
        exact ⟨h5, .reject ho⟩
      rw [if_neg (by simp [h5])]
      have hsame := apiWrite_sameActive g.store (.writeBlob key total.toUInt16 offset.toUInt16
        (some c) (chunkCount total offset).toUInt16)
      have h6 : (writeBlob g.store key total.toUInt16 offset.toUInt16 (some c)
          (chunkCount total offset).toUInt16).2 ≠ .ok := fun h6 =>
        hacc ⟨ho, hk, by simpa using h1, by simpa using h2, UInt8.not_le.mp h3, by simpa using h4,
          h5, h6⟩
      unfold apiWrite at hsame
      dsimp only at hsame
      generalize writeBlob g.store key total.toUInt16 offset.toUInt16 (some c)
        (chunkCount total offset).toUInt16 = r at h6 hsame ⊢
      obtain ⟨store, status⟩ := r
      dsimp only at h6 hsame ⊢
      cases status with
      | ok => exact absurd rfl h6
      | valueOutOfRange => exact ⟨by simp, .poisoned ho hsame⟩
      | resourceFull => exact ⟨by simp, .poisoned ho hsame⟩
      | unknownKey => exact ⟨by simp, .poisoned ho hsame⟩
      | unsupportedSignal => exact ⟨by simp, .poisoned ho hsame⟩
      | noTransaction => exact ⟨by simp, .poisoned ho hsame⟩
      | transactionOpen => exact ⟨by simp, .poisoned ho hsame⟩
      | transactionRejected => exact ⟨by simp, .poisoned ho hsame⟩
      | blobIncomplete => exact ⟨by simp, .poisoned ho hsame⟩

/-- `App_Gen_Stage_String_Chunk` refuses, or it hands the chunk on to
    `App_Gen_Stage_Blob_Chunk`. -/
theorem stageStringChunk_cases (B : Build) (g : Gen) (key : UInt16) (total offset : UInt8)
    (chunk : Option Mem) :
    ((stageStringChunk B g key total offset chunk).2.1 ≠ .ok ∧
        Refused g (stageStringChunk B g key total offset chunk).1) ∨
      stageStringChunk B g key total offset chunk = stageBlobChunk B g key total offset chunk := by
  by_cases ho : g.config.state = .opened
  swap
  · left
    have hready : configReady g ≠ .ok := fun h => ho (configReady_eq.mp h)
    unfold stageStringChunk
    dsimp only
    rw [if_pos hready]
    exact ⟨hready, .unchanged ho⟩
  unfold stageStringChunk
  dsimp only
  rw [if_neg (by simp [configReady_eq.mpr ho])]
  cases chunk with
  | none => exact .inl ⟨by simp, .reject ho⟩
  | some c =>
    dsimp only
    cases hk : indexFromKey key with
    | none => exact .inl ⟨by simp, .reject ho⟩
    | some i =>
      dsimp only
      split_ifs
      · exact .inl ⟨by simp, .reject ho⟩
      · exact .inl ⟨by simp, .reject ho⟩
      · exact .inl ⟨by simp, .reject ho⟩
      · exact .inr rfl

end J1939Gen.Generator
