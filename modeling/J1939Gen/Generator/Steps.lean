import J1939Gen.Generator.Invariant
import J1939Gen.Scheduler.Freshness

/-!
# One lemma per operation

What each operation of `app_generator.h` does to the two sides of the
invariant. An operation that reports an error leaves the active side untouched;
a commit publishes the draft exactly when the counters are met and the blob is
complete.

* `commitConfig_ok`, `commitConfig_failed`: when a commit succeeds, and what it
  leaves.
* `setConstant_cases`, `setGlobalPercent_cases`: done, or nothing changed.
* `Inv.loadDefaults`: the demo records fit every supported build.
-/

namespace J1939Gen.Generator

open Bitmask ByteMem ValueStore Scheduler

variable {B : Build} {g : Gen} {c : Contents}

/-! ## Begin -/

theorem profileStatus_ok {n : UInt16} {m profileId : UInt8}
    (h : profileStatus B n m profileId = .ok) : profileId = profileIdCustom ∨
      ∃ p, customerProfileFind profileId = some p ∧ (n, m) = profileRecordCounts p := by
  unfold profileStatus at h
  by_cases hc : profileId = profileIdCustom
  · exact .inl hc
  rw [if_neg hc] at h
  cases hp : customerProfileFind profileId with
  | none =>
    rw [hp] at h
    cases h
  | some p =>
    rw [hp] at h
    dsimp only at h
    by_cases hn : (n, m) = profileRecordCounts p
    · exact .inr ⟨p, rfl, hn⟩
    · rw [if_pos hn] at h
      cases h

/-- What an accepted begin leaves: an open transaction on the empty draft. -/
structure Begun (B : Build) (g g' : Gen) (n : UInt16) (m profileId : UInt8) : Prop where
  stopped : g.isRunning = false
  idle : g.config.state = .idle
  untouched : Untouched g g'
  drafted : Drafted B g' ⟨Contents.empty, none⟩
  expectedCount : g'.config.expectedCount = n
  expectedBlobCount : g'.config.expectedBlobCount = m
  profileId : g'.config.profileId = profileId

/-- `App_Gen_Begin_Profile_Config` changes nothing, or it opens a transaction. -/
theorem TxnInv.begin_cases (h : TxnInv B g) (hw : g.store.active.Wf) (n : UInt16)
    (m profileId : UInt8) :
    ((beginProfileConfig B g n m profileId).2 ≠ .ok ∧
        (beginProfileConfig B g n m profileId).1 = g) ∨
      (beginProfileConfig B g n m profileId).2 = .ok ∧
        Begun B g (beginProfileConfig B g n m profileId).1 n m profileId := by
  unfold beginProfileConfig
  by_cases h1 : g.isRunning = true
  · rw [if_pos h1]
    exact .inl ⟨by simp, rfl⟩
  rw [if_neg h1]
  by_cases h2 : g.config.state = .idle
  swap
  · rw [if_pos h2]
    exact .inl ⟨by simp, rfl⟩
  rw [if_neg (by simp [h2])]
  by_cases h3 : profileStatus B n m profileId = .ok
  swap
  · rw [if_pos h3]
    exact .inl ⟨h3, rfl⟩
  rw [if_neg (by simp [h3])]
  by_cases h4 : m > maxBlobRecords ∨ (n + m.toUInt16).toNat > B.signalCapacity
  · rw [if_pos h4]
    exact .inl ⟨by simp, rfl⟩
  rw [if_neg h4]
  obtain ⟨hok, hdraft⟩ := begin_draft (h.storeIdle h2) hw .empty
  have hsame := begin_sameActive g.store .empty
  dsimp only
  rw [if_neg (by simp [hok])]
  refine .inr ⟨rfl, by simpa using h1, h2, ⟨hsame, rfl, rfl, rfl⟩, ⟨rfl, hdraft, ?_, ?_⟩, rfl, rfl,
    rfl⟩
  · exact Staged.fresh B rfl rfl rfl rfl rfl rfl
  · rcases profileStatus_ok h3 with hc | ⟨p, hp, hcounts⟩
    · exact .inl hc
    · refine .inr ⟨p, hp, hcounts, ?_⟩
      rw [Contents.active_empty]
      exact Finset.empty_subset _

theorem beginProfileConfig_cases (h : Inv B g c) (n : UInt16) (m profileId : UInt8) :
    ((beginProfileConfig B g n m profileId).2 ≠ .ok ∧
        (beginProfileConfig B g n m profileId).1 = g) ∨
      (beginProfileConfig B g n m profileId).2 = .ok ∧
        Begun B g (beginProfileConfig B g n m profileId).1 n m profileId :=
  h.txn.begin_cases h.active.holds.wf n m profileId

theorem Begun.txnInv {g' : Gen} {n : UInt16} {m profileId : UInt8}
    (h : Begun B g g' n m profileId) : TxnInv B g' :=
  h.drafted.txnInv (h.untouched.isRunning.trans h.stopped)

theorem Inv.beginProfileConfig (h : Inv B g c) (n : UInt16) (m profileId : UInt8) :
    Inv B (Generator.beginProfileConfig B g n m profileId).1 c ∧
      Untouched g (Generator.beginProfileConfig B g n m profileId).1 := by
  rcases beginProfileConfig_cases h n m profileId with ⟨-, heq⟩ | ⟨-, hbegun⟩
  · rw [heq]
    exact ⟨h, .refl g⟩
  · exact ⟨h.of_untouched hbegun.untouched hbegun.txnInv, hbegun.untouched⟩

/-! ## Staging -/

theorem TxnInv.withScalar (h : TxnInv B g) {key : UInt16} {raw : UInt32} {i : ℕ}
    (ha : AcceptsScalar B g key raw i) : TxnInv B (g.withScalar key raw i) := by
  obtain ⟨d, hd⟩ := h.opened ha.opened
  exact (hd.withScalar ha).txnInv (h.stopped (by rw [ha.opened]; simp))

theorem TxnInv.withChunk (h : TxnInv B g) {key : UInt16} {total offset : UInt8} {chunk : Mem}
    {i : ℕ} (ha : AcceptsChunk B g key total offset chunk i) :
    TxnInv B (g.withChunk key total offset chunk i) := by
  obtain ⟨d, hd⟩ := h.opened ha.opened
  exact (hd.withChunk ha).txnInv (h.stopped (by rw [ha.opened]; simp))

/-- A refused staging call leaves the active side and at most poisons the other. -/
theorem TxnInv.stage_refused {g' : Gen} (h : TxnInv B g) (hr : Refused g g') :
    TxnInv B g' ∧ Untouched g g' :=
  ⟨h.refused hr, hr.untouched⟩

theorem TxnInv.stageConstantRaw (h : TxnInv B g) (key : UInt16) (raw : UInt32) :
    TxnInv B (Generator.stageConstantRaw B g key raw).1 ∧
      Untouched g (Generator.stageConstantRaw B g key raw).1 := by
  rcases stageConstantRaw_cases B g key raw with ⟨-, hr⟩ | ⟨i, ha⟩
  · exact h.stage_refused hr
  · rw [stageConstantRaw_accept ha]
    exact ⟨h.withScalar ha, AcceptsScalar.untouched⟩

theorem TxnInv.stageBlobChunk (h : TxnInv B g) (key : UInt16) (total offset : UInt8)
    (chunk : Option Mem) : TxnInv B (Generator.stageBlobChunk B g key total offset chunk).1 ∧
      Untouched g (Generator.stageBlobChunk B g key total offset chunk).1 := by
  rcases stageBlobChunk_cases B g key total offset chunk with ⟨-, hr⟩ | ⟨data, i, rfl, ha⟩
  · exact h.stage_refused hr
  · rw [stageBlobChunk_accept ha]
    exact ⟨h.withChunk ha, AcceptsChunk.untouched⟩

theorem TxnInv.stageStringChunk (h : TxnInv B g) (key : UInt16) (total offset : UInt8)
    (chunk : Option Mem) : TxnInv B (Generator.stageStringChunk B g key total offset chunk).1 ∧
      Untouched g (Generator.stageStringChunk B g key total offset chunk).1 := by
  rcases stageStringChunk_cases B g key total offset chunk with ⟨-, hr⟩ | heq
  · exact h.stage_refused hr
  · rw [heq]
    exact h.stageBlobChunk key total offset chunk

/-- A staging call on the invariant. -/
theorem Inv.staged {g' : Gen} (h : Inv B g c) (hs : TxnInv B g' ∧ Untouched g g') :
    Inv B g' c ∧ Untouched g g' :=
  ⟨h.of_untouched hs.2 hs.1, hs.2⟩

theorem Inv.stageConstantRaw (h : Inv B g c) (key : UInt16) (raw : UInt32) :
    Inv B (Generator.stageConstantRaw B g key raw).1 c ∧
      Untouched g (Generator.stageConstantRaw B g key raw).1 :=
  h.staged (h.txn.stageConstantRaw key raw)

theorem Inv.stageBlobChunk (h : Inv B g c) (key : UInt16) (total offset : UInt8)
    (chunk : Option Mem) : Inv B (Generator.stageBlobChunk B g key total offset chunk).1 c ∧
      Untouched g (Generator.stageBlobChunk B g key total offset chunk).1 :=
  h.staged (h.txn.stageBlobChunk key total offset chunk)

theorem Inv.stageStringChunk (h : Inv B g c) (key : UInt16) (total offset : UInt8)
    (chunk : Option Mem) : Inv B (Generator.stageStringChunk B g key total offset chunk).1 c ∧
      Untouched g (Generator.stageStringChunk B g key total offset chunk).1 :=
  h.staged (h.txn.stageStringChunk key total offset chunk)

/-! ## Commit and abort -/

/-- The condition of a commit: the counters are met and every byte of a staged
    blob was written. -/
structure Commits (g : Gen) (d : Draft) : Prop where
  scalars : g.config.stagedCount = g.config.expectedCount
  blobs : g.config.blobCount = g.config.expectedBlobCount
  complete : d.Complete

theorem Drafted.matchesProfile {d : Draft} (h : Drafted B g d)
    (hs : g.config.stagedCount = g.config.expectedCount)
    (hb : g.config.blobCount = g.config.expectedBlobCount) :
    ¬ (g.config.profileId ≠ profileIdCustom ∧
      g.config.matchesProfile (customerProfileFind g.config.profileId) = false) := by
  rintro ⟨hne, hm⟩
  rcases h.locked hs hb with hc | ⟨p, hp, hactive⟩
  · exact hne hc
  · rw [hp, (h.staged.matchesProfile p).mpr hactive] at hm
    cases hm

/-- What a successful commit leaves. -/
structure Committed (B : Build) (g g' : Gen) (d : Contents) : Prop where
  active : Configured B g' d
  locked : Locked g'.activeProfileId d
  config : g'.config.state = .idle
  store : g'.store.txnState = .idle
  isRunning : g'.isRunning = g.isRunning
  activeProfileId : g'.activeProfileId = g.config.profileId
  generation : g'.store.generation = if g.store.generation + 1 = 0 then 1 else g.store.generation + 1

/-- A commit whose condition holds publishes the draft, and reports its records
    and its PGNs. -/
theorem commitConfig_ok {d : Draft} (h : Drafted B g d) (hc : Commits g d) (clock : ℕ → UInt32) :
    ∃ g', commitConfig B g clock = (g', .ok, ⟨g'.store.generation, UInt16.ofNat d.contents.count,
        UInt8.ofNat d.contents.pgns.card⟩) ∧ Committed B g g' d.contents := by
  obtain ⟨hok, hidle, hholds, hgen⟩ := h.draft.commit_complete hc.complete
  obtain ⟨sched, heq, hsched⟩ := rebuild_spec hholds h.staged.pgnCapacity clock
  have hcount : g.config.stagedCount + g.config.blobCount.toUInt16 =
      UInt16.ofNat d.contents.count := by
    apply UInt16.toNat_inj.mp
    have hle : d.contents.count ≤ 179 := d.contents.count_le
    rw [h.staged.toNat_count.2.2, UInt16.toNat_ofNat', Nat.mod_eq_of_lt (by omega)]
  unfold commitConfig Gen.closeConfig
  dsimp only
  rw [if_neg (by simp [h.opened]), if_neg (by simp [h.opened]),
    if_neg (by simp [hc.scalars, hc.blobs]), if_neg (h.matchesProfile hc.scalars hc.blobs),
    if_neg (by simp [hok]), heq]
  dsimp only
  rw [if_neg (by simp), ← hcount, ← h.staged.pgnCount]
  generalize (commit g.store).1 = store at hidle hholds hgen ⊢
  exact ⟨_, rfl, ⟨hholds, hsched, h.staged.signalCapacity, h.staged.pgnCapacity⟩,
    h.locked hc.scalars hc.blobs, rfl, hidle, rfl, rfl, hgen⟩

/-- A commit whose condition fails reports it, and the active side is
    untouched. -/
theorem commitConfig_failed (h : TxnInv B g) (hn : ∀ d, Drafted B g d → ¬ Commits g d)
    (clock : ℕ → UInt32) :
    (commitConfig B g clock).2.1 ∈ [TxnStatus.notOpen, .rejected, .countMismatch, .blobIncomplete] ∧
      Untouched g (commitConfig B g clock).1 ∧
      (commitConfig B g clock).1.config.state = .idle ∧
      (commitConfig B g clock).1.store.txnState = .idle := by
  unfold commitConfig Gen.closeConfig
  dsimp only
  by_cases h1 : g.config.state = .idle
  · rw [if_pos h1]
    exact ⟨by simp, .refl g, h1, h.storeIdle h1⟩
  rw [if_neg h1]
  have habandon : Untouched g { g with
      store := abort g.store, config := { g.config with state := .idle } } :=
    ⟨abort_sameActive g.store, rfl, rfl, rfl⟩
  by_cases h2 : g.config.state = .rejected
  · rw [if_pos h2]
    exact ⟨by simp, habandon, rfl, rfl⟩
  rw [if_neg h2]
  by_cases h3 : g.config.stagedCount ≠ g.config.expectedCount ∨
      g.config.blobCount ≠ g.config.expectedBlobCount
  · rw [if_pos h3]
    exact ⟨by simp, habandon, rfl, rfl⟩
  rw [if_neg h3]
  rw [not_or, not_not, not_not] at h3
  have ho : g.config.state = .opened := by
    cases hst : g.config.state with
    | idle => exact absurd hst h1
    | opened => rfl
    | rejected => exact absurd hst h2
  obtain ⟨d, hd⟩ := h.opened ho
  have hincomplete := hd.draft.commit_incomplete fun hcomplete =>
    hn d hd ⟨h3.1, h3.2, hcomplete⟩
  have hsame : SameActive g.store (commit g.store).1 := commit_sameActive (by simp [hincomplete])
  have hidle := commit_idle g.store
  rw [if_neg (hd.matchesProfile h3.1 h3.2), if_pos (by simp [hincomplete]), hincomplete]
  generalize (commit g.store).1 = store at hsame hidle ⊢
  exact ⟨by simp, ⟨hsame, rfl, rfl, rfl⟩, rfl, hidle⟩

/-- `App_Gen_Commit_Config` publishes a draft, or leaves the active side
    untouched. -/
theorem Inv.commitConfig (h : Inv B g c) (clock : ℕ → UInt32) :
    (∃ c', Inv B (Generator.commitConfig B g clock).1 c') ∧
      ((Generator.commitConfig B g clock).2.1 ≠ .ok →
        Untouched g (Generator.commitConfig B g clock).1) := by
  by_cases hc : ∃ d, Drafted B g d ∧ Commits g d
  · obtain ⟨d, hd, hcommits⟩ := hc
    obtain ⟨g', heq, hcommitted⟩ := commitConfig_ok hd hcommits clock
    rw [heq]
    refine ⟨⟨d.contents, hcommitted.active, .of_idle hcommitted.config hcommitted.store,
      hcommitted.locked, ?_⟩, ?_⟩
    · intro hr
      rw [hcommitted.isRunning, h.txn.stopped (by rw [hd.opened]; simp)] at hr
      cases hr
    · intro hne
      exact absurd rfl hne
  · obtain ⟨-, hu, h1, h2⟩ := commitConfig_failed h.txn (fun d hd hcommits => hc ⟨d, hd, hcommits⟩)
      clock
    exact ⟨⟨c, h.of_untouched hu (.of_idle h1 h2)⟩, fun _ => hu⟩

theorem abortConfig_untouched (g : Gen) : Untouched g (abortConfig g) :=
  ⟨abort_sameActive g.store, rfl, rfl, rfl⟩

theorem Inv.abortConfig (h : Inv B g c) : Inv B (Generator.abortConfig g) c :=
  h.of_untouched (abortConfig_untouched g) (.of_idle rfl rfl)

/-! ## Single constants -/

/-- There is room for record `i`: it is active or the capacities allow one
    more. -/
structure Fits (B : Build) (c : Contents) (i : ℕ) : Prop where
  signals : i ∈ c.active ∨ c.count < B.signalCapacity
  pgns : (signalAt i).pgnIndex ∈ c.pgns ∨ c.pgns.card < B.pgnCapacity

theorem Configured.canAdd (h : Configured B g c) {i : ℕ} (hi : i < signalCount) :
    g.sched.canAddCatalogSignal B g.store i = true ↔ Fits B c i := by
  have hmem := h.holds.mem_active (i := i)
  by_cases hroom : isActive g.store i = true ∨ getSignalCount g.store < B.signalCapacity
  · rw [h.scheduled.canAdd hi hroom]
    rw [getSignalCount_eq h.holds] at hroom
    refine ⟨fun hp => ⟨?_, hp⟩, fun hf => hf.pgns⟩
    exact hroom.imp (fun ha => hmem.mpr ⟨hi, ha⟩) id
  · rw [not_or, not_lt, Bool.not_eq_true] at hroom
    refine iff_of_false ?_ fun hf => ?_
    · unfold Sched.canAddCatalogSignal
      rw [if_neg (by omega), if_pos hroom]
      simp
    · rw [getSignalCount_eq h.holds] at hroom
      rcases hf.signals with ha | hlt
      · rw [(hmem.mp ha).2] at hroom
        cases hroom.1
      · omega

theorem Fits.capacity {i : ℕ} (h : Fits B c i) (hi : i < signalCount)
    (h1 : c.count ≤ B.signalCapacity) (h2 : c.pgns.card ≤ B.pgnCapacity) (e : Entry) :
    (c.set i e).count ≤ B.signalCapacity ∧ (c.set i e).pgns.card ≤ B.pgnCapacity := by
  constructor
  · rw [Contents.count_set hi]
    by_cases hmem : i ∈ c.active
    · rw [if_pos hmem]
      exact h1
    · rw [if_neg hmem]
      exact h.signals.resolve_left hmem
  · rw [Contents.pgns_set hi]
    by_cases hmem : (signalAt i).pgnIndex ∈ c.pgns
    · rw [Finset.insert_eq_of_mem hmem]
      exact h2
    · rw [Finset.card_insert_of_notMem hmem]
      exact h.pgns.resolve_left hmem

/-- What a single constant that was set leaves. -/
structure ConstantSet (B : Build) (g g' : Gen) (c' : Contents) : Prop where
  active : Configured B g' c'
  store : g'.store.txnState = .idle
  config : g'.config = g.config
  isRunning : g'.isRunning = g.isRunning

/-- A constant in range for which there is room is set. -/
theorem setConstant_ok (h : Configured B g c) (hs : g.store.txnState = .idle) {i : ℕ}
    (hi : i < signalCount) (hshort : isShortScalar i = true) {raw : UInt32}
    (hraw : checkIndex i raw = .ok) (hfits : Fits B c i) (nowMs : UInt32) :
    ∃ g', setConstant B g i raw nowMs = (g', .ok) ∧ g'.activeProfileId = profileIdCustom ∧
      ConstantSet B g g' (c.set i (.scalar raw)) := by
  have hkey := indexFromKey_signalKey hi
  have hcheck : checkRaw (signalAt i).signalKey raw = .ok := by rw [checkRaw, hkey]; exact hraw
  obtain ⟨store, hstore, hidle, hholds⟩ := storeUpdate_ok h.holds hs hkey hraw
  obtain ⟨hcount, hpgns⟩ := hfits.capacity hi h.signalCapacity h.pgnCapacity (.scalar raw)
  have hset := Contents.pgns_set hi (.scalar raw) (c := c)
  have hact : isActive store i = true := by
    rw [hholds.isActive_eq]
    simp [Contents.set]
  obtain ⟨sched, hadd, hsched⟩ := h.scheduled.add hi hact (by rw [← hset]; exact hpgns) nowMs
  unfold setConstant
  rw [if_neg (by omega), if_neg (by simp [hshort])]
  dsimp only
  rw [hcheck]
  dsimp only
  rw [if_neg (by simp [(h.canAdd hi).mpr hfits]), hstore]
  dsimp only
  rw [if_neg (by simp), hadd]
  refine ⟨_, rfl, rfl, ⟨hholds, ?_, hcount, hpgns⟩, hidle, rfl, rfl⟩
  rw [hset]
  exact hsched

/-- `prv_set_constant` sets one scalar, or nothing changes. -/
theorem setConstant_cases (h : Configured B g c) (hs : g.store.txnState = .idle) (i : ℕ)
    (raw nowMs : UInt32) :
    ((setConstant B g i raw nowMs).2 ≠ .ok ∧ (setConstant B g i raw nowMs).1 = g) ∨
      (setConstant B g i raw nowMs).2 = .ok ∧ i < signalCount ∧
        (setConstant B g i raw nowMs).1.activeProfileId = profileIdCustom ∧
        ConstantSet B g (setConstant B g i raw nowMs).1 (c.set i (.scalar raw)) := by
  by_cases hi : i < signalCount
  swap
  · rw [setConstant, if_pos (by omega)]
    exact .inl ⟨by simp, rfl⟩
  by_cases hshort : isShortScalar i = true
  swap
  · rw [setConstant, if_neg (by omega), if_pos (by simpa using hshort)]
    exact .inl ⟨by simp, rfl⟩
  have hcheck : checkRaw (signalAt i).signalKey raw = checkIndex i raw := by
    rw [checkRaw, indexFromKey_signalKey hi]
  by_cases hgood : checkIndex i raw = .ok ∧ Fits B c i
  · obtain ⟨g', heq, hcustom, hset⟩ := setConstant_ok h hs hi hshort hgood.1 hgood.2 nowMs
    rw [heq]
    exact .inr ⟨rfl, hi, hcustom, hset⟩
  left
  rw [setConstant, if_neg (by omega), if_neg (by simp [hshort])]
  dsimp only
  rw [hcheck]
  cases hst : checkIndex i raw with
  | ok =>
    dsimp only
    have hno : g.sched.canAddCatalogSignal B g.store i = false := by
      rw [← Bool.not_eq_true, h.canAdd hi]
      exact fun hf => hgood ⟨hst, hf⟩
    rw [if_pos hno]
    exact ⟨by simp, rfl⟩
  | unknownKey => exact ⟨by simp, rfl⟩
  | valueOutOfRange => exact ⟨by simp, rfl⟩
  | unsupportedSignal => exact ⟨by simp, rfl⟩
  | resourceFull => exact ⟨by simp, rfl⟩
  | noTransaction => exact ⟨by simp, rfl⟩
  | transactionOpen => exact ⟨by simp, rfl⟩
  | transactionRejected => exact ⟨by simp, rfl⟩
  | blobIncomplete => exact ⟨by simp, rfl⟩

theorem ConstantSet.inv {g' : Gen} {c' : Contents} (h : ConstantSet B g g' c')
    (hi : g.config.state = .idle) (hp : g'.activeProfileId = profileIdCustom)
    (hr : g.isRunning = true → 0 < c'.count) : Inv B g' c' where
  active := h.active
  txn := .of_idle (by rw [h.config]; exact hi) h.store
  locked := .inl hp
  running hrun := hr (by rw [← h.isRunning]; exact hrun)

theorem Contents.count_set_pos {i : ℕ} (hi : i < signalCount) (e : Entry) :
    0 < (c.set i e).count := by
  rw [Contents.count_eq, Contents.active_set hi]
  exact Finset.card_pos.mpr ⟨i, Finset.mem_insert_self i _⟩

/-- A single constant is set, or nothing changes. -/
theorem Inv.setConstant (h : Inv B g c) (hi : g.config.state = .idle) (i : ℕ)
    (raw nowMs : UInt32) :
    (∃ c', Inv B (Generator.setConstant B g i raw nowMs).1 c') ∧
      ((Generator.setConstant B g i raw nowMs).2 ≠ .ok →
        (Generator.setConstant B g i raw nowMs).1 = g) := by
  rcases setConstant_cases h.active (h.txn.storeIdle hi) i raw nowMs with
    ⟨-, heq⟩ | ⟨hok, hlt, hcustom, hset⟩
  · rw [heq]
    exact ⟨⟨c, h⟩, fun _ => rfl⟩
  · exact ⟨⟨_, hset.inv hi hcustom fun _ => Contents.count_set_pos hlt _⟩,
      fun hne => absurd hok hne⟩

theorem Inv.setConstantRaw (h : Inv B g c) (key : UInt16) (raw nowMs : UInt32) :
    (∃ c', Inv B (Generator.setConstantRaw B g key raw nowMs).1 c') ∧
      ((Generator.setConstantRaw B g key raw nowMs).2 ≠ .ok →
        (Generator.setConstantRaw B g key raw nowMs).1 = g) := by
  unfold Generator.setConstantRaw
  by_cases hi : g.config.state = .idle
  swap
  · rw [if_pos hi]
    exact ⟨⟨c, h⟩, fun _ => rfl⟩
  rw [if_neg (by simp [hi])]
  cases indexFromKey key with
  | none => exact ⟨⟨c, h⟩, fun _ => rfl⟩
  | some i => exact h.setConstant hi i raw nowMs

theorem Inv.configSignal (h : Inv B g c) (req : SignalRequest) (nowMs : UInt32) :
    ∃ c', Inv B (Generator.configSignal B g req nowMs).1 c' := by
  unfold Generator.configSignal
  by_cases hi : g.config.state = .idle
  swap
  · rw [if_pos hi]
    exact ⟨c, h⟩
  rw [if_neg (by simp [hi])]
  dsimp only
  by_cases h1 : req.pgn = 0 ∧ (findUniqueCatalogIndex req.spn).2 > 1
  · rw [if_pos h1]
    exact ⟨c, h⟩
  rw [if_neg h1]
  cases if req.pgn ≠ 0 then catalogFindSignalIndex req.pgn req.spn
      else (findUniqueCatalogIndex req.spn).1 with
  | none => exact ⟨c, h⟩
  | some i =>
    dsimp only
    by_cases h2 : isShortScalar i = false
    · rw [if_pos h2]
      exact ⟨c, h⟩
    rw [if_neg h2]
    by_cases h3 : req.type = .constant
    · rw [if_pos h3]
      exact (h.setConstant hi i (req.rawFromPhysical i) nowMs).1
    · rw [if_neg h3]
      exact ⟨c, h⟩

/-! ## The global percent -/

theorem Contents.active_congr {c' : Contents} (h : ∀ i, (c' i).isSome = (c i).isSome) :
    c'.active = c.active := by
  unfold Contents.active
  refine Finset.filter_congr fun i _ => ?_
  rw [h]

/-- The active side depends on the values only through the store. -/
theorem Configured.revalue (h : Configured B g c) {c' : Contents}
    (hc : ∀ i, (c' i).isSome = (c i).isSome) {store : Store} (hs : Holds store c') :
    Configured B { g with store := store } c' := by
  have hact := Contents.active_congr hc
  have hpgns : c'.pgns = c.pgns := by rw [Contents.pgns, hact]; rfl
  have hcount : c'.count = c.count := by rw [Contents.count_eq, hact]; rfl
  refine ⟨hs, ?_, ?_, ?_⟩
  · rw [hpgns]; exact h.scheduled
  · rw [hcount]; exact h.signalCapacity
  · rw [hpgns]; exact h.pgnCapacity

/-- `App_Gen_Set_Global_Percent` changes values only: it sets the records under
    global control, or nothing changes. -/
theorem percent_cases (h : Holds g.store c)
    (hs : g.config.state = .idle → g.store.txnState = .idle) (bp : UInt16) :
    (setGlobalPercent g bp).1 = g ∨
      (setGlobalPercent g bp).2.1 = .ok ∧ g.config.state = .idle ∧
        ∃ store, (setGlobalPercent g bp).1 = { g with store := store } ∧ store.txnState = .idle ∧
          Holds store (percentOn bp (List.range signalCount) c) := by
  unfold setGlobalPercent
  dsimp only
  by_cases hi : g.config.state = .idle
  swap
  · rw [if_pos hi]
    exact .inl rfl
  rw [if_neg (by simp [hi])]
  by_cases h1 : bp > globalPercentMaxBp
  · rw [if_pos h1]
    exact .inl rfl
  rw [if_neg h1]
  by_cases h2 : ((List.range signalCount).countP fun i =>
      isActive g.store i && isGlobalControl i) = 0
  · rw [if_pos h2]
    exact .inl rfl
  rw [if_neg h2]
  obtain ⟨hbegin, s', hloop, hcommit, hidle, hholds, -⟩ :=
    percentUpdate_ok h (hs hi) bp
  rw [if_neg (by simp [hbegin]), hloop]
  dsimp only
  rw [if_neg (by simp), if_neg (by simp [hcommit])]
  exact .inr ⟨rfl, hi, _, rfl, hidle, hholds⟩

theorem setGlobalPercent_cases (h : Inv B g c) (bp : UInt16) :
    (setGlobalPercent g bp).1 = g ∨
      (setGlobalPercent g bp).2.1 = .ok ∧ g.config.state = .idle ∧
        ∃ store, (setGlobalPercent g bp).1 = { g with store := store } ∧ store.txnState = .idle ∧
          Holds store (percentOn bp (List.range signalCount) c) :=
  percent_cases h.active.holds h.txn.storeIdle bp

theorem Inv.setGlobalPercent (h : Inv B g c) (bp : UInt16) :
    (∃ c', Inv B (Generator.setGlobalPercent g bp).1 c') ∧
      ((Generator.setGlobalPercent g bp).2.1 ≠ .ok →
        (Generator.setGlobalPercent g bp).1 = g) := by
  rcases setGlobalPercent_cases h bp with heq | ⟨hok, hi, store, heq, hidle, hholds⟩
  · rw [heq]
    exact ⟨⟨c, h⟩, fun _ => rfl⟩
  · have hsome := isSome_percentOn bp (List.range signalCount) c
    have hact := Contents.active_congr hsome
    refine ⟨⟨percentOn bp (List.range signalCount) c, ?_⟩, fun hne => absurd hok hne⟩
    rw [heq]
    refine ⟨h.active.revalue hsome hholds, .of_idle hi hidle, ?_, fun hr => ?_⟩
    · rcases h.locked with hcustom | ⟨p, hp, hrecords⟩
      · exact .inl hcustom
      · exact .inr ⟨p, hp, hact.trans hrecords⟩
    · rw [Contents.count_eq, hact]
      exact h.running hr

/-! ## Clear and defaults -/

attribute [local irreducible] storeClear

theorem Contents.count_empty : Contents.empty.count = 0 := by
  rw [Contents.count_eq, Contents.active_empty]; rfl

/-- The empty configuration, with nothing scheduled. -/
theorem Configured.cleared (B : Build) {g : Gen} (h1 : Holds g.store Contents.empty)
    (h2 : g.sched = Sched.clear) : Configured B g Contents.empty := by
  have hpgns : Contents.empty.pgns = ∅ := by rw [Contents.pgns, Contents.active_empty]; rfl
  refine ⟨h1, ?_, ?_, ?_⟩
  · rw [hpgns, h2]
    exact Scheduled.clear
  · rw [Contents.count_empty]
    exact Nat.zero_le _
  · rw [hpgns]
    exact Nat.zero_le _

theorem inv_init (B : Build) (baudKbps : UInt32) : Inv B (init baudKbps) Contents.empty where
  active := .cleared B storeRel_init.holds rfl
  txn := .of_idle rfl rfl
  locked := .inl rfl
  running h := by cases h

theorem Inv.clear (h : Inv B g c) : Inv B (Generator.clear g) Contents.empty := by
  obtain ⟨hidle, hholds⟩ := storeClear_spec (s := (Generator.abortConfig g).store) h.active.holds.wf
  exact ⟨.cleared B hholds rfl, .of_idle rfl hidle, .inl rfl, fun hr => by cases hr⟩

/-- One default is set or skipped; the active records only become more. -/
theorem addDefaultConstant_grows (h : Configured B g c) (hs : g.store.txnState = .idle)
    (clock : ℕ → UInt32) (default : UInt16 × UInt32) :
    ∃ c', ConstantSet B g (addDefaultConstant B clock g default) c' ∧ c.count ≤ c'.count := by
  unfold addDefaultConstant
  cases hk : indexFromKey default.1 with
  | none => exact ⟨c, ⟨h, hs, rfl, rfl⟩, le_refl _⟩
  | some i =>
    dsimp only
    rcases setConstant_cases h hs i default.2 (clock i) with ⟨-, heq⟩ | ⟨-, hi, -, hset⟩
    · rw [heq]
      exact ⟨c, ⟨h, hs, rfl, rfl⟩, le_refl _⟩
    · refine ⟨_, hset, ?_⟩
      rw [Contents.count_set hi]
      split_ifs
      · exact le_refl _
      · exact Nat.le_succ _

theorem ConstantSet.trans {g' g'' : Gen} {c' c'' : Contents} (h : ConstantSet B g g' c')
    (h' : ConstantSet B g' g'' c'') : ConstantSet B g g'' c'' :=
  ⟨h'.active, h'.store, h'.config.trans h.config, h'.isRunning.trans h.isRunning⟩

theorem foldl_addDefaultConstant (h : Configured B g c) (hs : g.store.txnState = .idle)
    (clock : ℕ → UInt32) (defaults : List (UInt16 × UInt32)) :
    ∃ c', ConstantSet B g (defaults.foldl (addDefaultConstant B clock) g) c' ∧
      c.count ≤ c'.count := by
  induction defaults generalizing g c with
  | nil => exact ⟨c, ⟨h, hs, rfl, rfl⟩, le_refl _⟩
  | cons default defaults ih =>
    obtain ⟨c', hset, hle⟩ := addDefaultConstant_grows h hs clock default
    obtain ⟨c'', hset', hle'⟩ := ih hset.active hset.store
    exact ⟨c'', hset.trans hset', hle.trans hle'⟩

/-- The first default fits an empty configuration. -/
theorem addDefaultConstant_first (hB : 0 < B.signalCapacity ∧ 0 < B.pgnCapacity)
    (h : Configured B g Contents.empty) (hs : g.store.txnState = .idle) (clock : ℕ → UInt32) :
    ∃ c', ConstantSet B g (addDefaultConstant B clock g (103, 12000)) c' ∧ 0 < c'.count := by
  have hkey : indexFromKey 103 = some 23 := by decide
  have hfits : Fits B Contents.empty 23 := by
    refine ⟨.inr ?_, .inr ?_⟩
    · rw [Contents.count_empty]
      exact hB.1
    · rw [Contents.pgns, Contents.active_empty]
      exact hB.2
  have hraw : checkIndex 23 12000 = .ok := by decide
  obtain ⟨g', heq, -, hset⟩ := setConstant_ok h hs (by decide) (by decide) hraw hfits (clock 23)
  unfold addDefaultConstant
  rw [hkey]
  dsimp only
  rw [heq]
  exact ⟨_, hset, Contents.count_set_pos (by decide) _⟩

/-- After `App_Gen_Load_Defaults` something is active, so a generator that was
    running may keep running. -/
theorem Inv.loadDefaults {B : SupportedBuild} (h : Inv B.val g c) (clock : ℕ → UInt32) :
    ∃ c', Inv B.val (Generator.loadDefaults B.val g clock) c' ∧ 0 < c'.count := by
  obtain ⟨hidle, hholds⟩ := storeClear_spec (s := (Generator.abortConfig g).store) h.active.holds.wf
  have hclear : Configured B.val { Generator.abortConfig g with
      sched := Sched.clear, store := storeClear (Generator.abortConfig g).store } Contents.empty :=
    .cleared B.val hholds rfl
  obtain ⟨c₁, hfirst, hpos⟩ := addDefaultConstant_first B.pos hclear hidle clock
  obtain ⟨c₂, hrest, hle⟩ := foldl_addDefaultConstant hfirst.active hfirst.store clock
    [(97, 125), (144, 15360)]
  have hset := hfirst.trans hrest
  refine ⟨c₂, ⟨⟨hset.active.holds, hset.active.scheduled, hset.active.signalCapacity,
    hset.active.pgnCapacity⟩, .of_idle ?_ hset.store, .inl rfl, fun _ => hpos.trans_le hle⟩,
    hpos.trans_le hle⟩
  exact congrArg Config.state hset.config

/-! ## Life cycle -/

theorem Inv.setBaud (h : Inv B g c) (baudKbps : UInt32) :
    Inv B (Generator.setBaud g baudKbps) c where
  active := ⟨h.active.holds, h.active.scheduled.congr rfl, h.active.signalCapacity,
    h.active.pgnCapacity⟩
  txn := ⟨h.txn.idle, fun ho => (h.txn.opened ho).imp fun _ hd => ⟨ho, hd.draft, hd.staged,
    hd.target⟩, h.txn.stopped⟩
  locked := h.locked
  running := h.running

theorem Inv.stop (h : Inv B g c) : Inv B (Generator.stop g) c where
  active := ⟨h.active.holds, h.active.scheduled.congr rfl, h.active.signalCapacity,
    h.active.pgnCapacity⟩
  txn := ⟨h.txn.idle, fun ho => (h.txn.opened ho).imp fun _ hd => ⟨ho, hd.draft, hd.staged,
    hd.target⟩, fun _ => rfl⟩
  locked := h.locked
  running hr := by cases hr

/-- `App_Gen_Active_Profile_Can_Start`, on the invariant. -/
theorem activeProfileCanStart_iff (h : Inv B g c) :
    activeProfileCanStart g = true ↔ g.config.state = .idle ∧ 0 < c.count := by
  unfold activeProfileCanStart hasConfiguredSignals
  rw [decide_eq_true_eq, decide_eq_true_eq, getSignalCount_eq h.active.holds]

theorem Inv.start (h : Inv B g c) (durationSec nowMs : UInt32) :
    Inv B (Generator.start g durationSec nowMs) c := by
  unfold Generator.start
  by_cases hcan : activeProfileCanStart g = true
  · rw [if_neg (by simp [hcan])]
    obtain ⟨hi, hpos⟩ := (activeProfileCanStart_iff h).mp hcan
    refine ⟨⟨h.active.holds, h.active.scheduled.congr ?_, h.active.signalCapacity,
      h.active.pgnCapacity⟩, .of_idle hi (h.txn.storeIdle hi), h.locked, fun _ => hpos⟩
    exact resetTimers_indices nowMs
  · rw [if_pos (by simpa using hcan)]
    exact h

theorem Inv.stopElapsed (h : Inv B g c) (nowMs : UInt32) :
    Inv B (Generator.stopElapsed g nowMs) c := by
  unfold Generator.stopElapsed
  split_ifs
  · exact h.stop
  · exact h

theorem Inv.process (h : Inv B g c) (nowMs : UInt32) (link : ℕ → LinkStatus) :
    Inv B (Generator.process g nowMs link).1 c := by
  unfold Generator.process
  have h' := h.stopElapsed nowMs
  generalize Generator.stopElapsed g nowMs = g' at h' ⊢
  dsimp only
  split_ifs
  · exact h'
  · refine ⟨⟨h'.active.holds, h'.active.scheduled.congr ?_, h'.active.signalCapacity,
      h'.active.pgnCapacity⟩, ⟨h'.txn.idle, fun ho => ?_, h'.txn.stopped⟩, h'.locked, h'.running⟩
    · exact tick_indices g'.store nowMs link g'.sched
    · exact (h'.txn.opened ho).imp fun _ hd => ⟨ho, hd.draft, hd.staged, hd.target⟩

theorem Inv.noteBusRecovered (h : Inv B g c) : Inv B (Generator.noteBusRecovered g) c := by
  unfold Generator.noteBusRecovered
  split_ifs
  · exact ⟨⟨h.active.holds, h.active.scheduled, h.active.signalCapacity, h.active.pgnCapacity⟩,
      ⟨h.txn.idle, fun ho => (h.txn.opened ho).imp fun _ hd => ⟨ho, hd.draft, hd.staged,
        hd.target⟩, h.txn.stopped⟩, h.locked, h.running⟩
  · exact h

end J1939Gen.Generator
