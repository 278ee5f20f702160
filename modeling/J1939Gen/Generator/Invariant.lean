import J1939Gen.Generator.Updates

/-!
# The invariant of the generator

The active side of the generator is one configuration: the value store holds it,
the scheduler has its PGNs and the active profile names its records. The
transaction side is idle, or stages a draft that the counters and the profile
lock describe.

* `Inv`: both sides.
* `Untouched`: the active side did not change.
* `Drafted.withScalar`, `Drafted.withChunk`: what an accepted staging call adds.
* `Drafted.matchesProfile`: the profile check of the commit never fails.
-/

namespace J1939Gen

open Bitmask ByteMem ValueStore

/-- The builds that compile (`j1939_build_profile.h:53-98`). -/
def SupportedBuild : Type := {B : Build // B ∈ [build179, build100, build40]}

theorem SupportedBuild.pos (B : SupportedBuild) :
    0 < B.val.signalCapacity ∧ 0 < B.val.pgnCapacity := by
  obtain ⟨B, hB⟩ := B
  fin_cases hB <;> decide

/-- The records of a profile. -/
def CustomerProfile.records (p : CustomerProfile) : Finset ℕ :=
  (Finset.range J1939Gen.signalCount).filter fun i => p.hasKey (signalAt i).signalKey = true

namespace Generator

open Scheduler

/-! ## Profiles -/

/-- The loop of `prv_profile_record_counts`. -/
theorem foldl_profileRecordCounts (p : CustomerProfile) (n : ℕ) :
    (List.range n).foldl (fun acc i =>
      if p.hasKey (signalAt i).signalKey = false then acc
      else if isBlob i then (acc.1, acc.2 + 1)
      else (acc.1 + 1, acc.2)) ((0, 0) : UInt16 × UInt8) =
    (UInt16.ofNat (((Finset.range n).filter fun i => p.hasKey (signalAt i).signalKey = true).filter
        fun i => isBlob i = false).card,
      UInt8.ofNat (((Finset.range n).filter fun i => p.hasKey (signalAt i).signalKey = true).filter
        fun i => isBlob i = true).card) := by
  induction n with
  | zero => rfl
  | succ n ih =>
    rw [List.range_succ, List.foldl_append, ih, List.foldl_cons, List.foldl_nil,
      Finset.range_add_one, Finset.filter_insert]
    have hn : ∀ P : ℕ → Prop, ∀ [DecidablePred P], n ∉ ((Finset.range n).filter fun i =>
        p.hasKey (signalAt i).signalKey = true).filter P := by
      intro P _ hmem
      have := (Finset.mem_filter.mp (Finset.mem_filter.mp hmem).1).1
      simp at this
    by_cases hk : p.hasKey (signalAt n).signalKey = true
    · rw [if_neg (by simp [hk]), if_pos hk, Finset.filter_insert, Finset.filter_insert]
      by_cases hb : isBlob n = true
      · rw [if_pos hb, if_neg (by simp [hb]), if_pos hb, Finset.card_insert_of_notMem (hn _),
          UInt8.ofNat_add]
        rfl
      · rw [if_neg hb, if_pos (by simpa using hb), if_neg hb, Finset.card_insert_of_notMem (hn _),
          UInt16.ofNat_add]
        rfl
    · rw [if_pos (by simpa using hk), if_neg hk]

/-- `prv_profile_record_counts` counts the scalars and the blobs. -/
theorem profileRecordCounts_eq (p : CustomerProfile) :
    profileRecordCounts p = (UInt16.ofNat (p.records.filter fun i => isBlob i = false).card,
      UInt8.ofNat (p.records.filter fun i => isBlob i = true).card) :=
  foldl_profileRecordCounts p signalCount

/-- A locked profile id names a profile, and the configuration has exactly the
    records of it. -/
def Locked (profileId : UInt8) (c : Contents) : Prop :=
  profileId = profileIdCustom ∨
    ∃ p, customerProfileFind profileId = some p ∧ c.active = p.records

/-- A locked transaction expects the records of its profile, and no other record
    was staged. -/
def Target (c : Config) (d : Contents) : Prop :=
  c.profileId = profileIdCustom ∨
    ∃ p, customerProfileFind c.profileId = some p ∧
      (c.expectedCount, c.expectedBlobCount) = profileRecordCounts p ∧ d.active ⊆ p.records

theorem Target.congr {c c' : Config} {d : Contents} (h : Target c d) (hs : SameTarget c c') :
    Target c' d := by
  unfold Target
  rw [hs.profileId, hs.expectedCount, hs.expectedBlobCount]
  exact h

/-- A record the profile allows may be staged. -/
theorem Target.set {c : Config} {d : Contents} (h : Target c d) {i : ℕ} (hi : i < signalCount)
    (hallow : c.profileAllows i = true) (e : Entry) : Target c (d.set i e) := by
  rcases h with h | ⟨p, hp, hcounts, hsub⟩
  · exact .inl h
  by_cases hcustom : c.profileId = profileIdCustom
  · exact .inl hcustom
  refine .inr ⟨p, hp, hcounts, ?_⟩
  rw [Config.profileAllows, if_neg hcustom, hp] at hallow
  rw [Contents.active_set hi]
  intro j hj
  rcases Finset.mem_insert.mp hj with rfl | hj
  · exact Finset.mem_filter.mpr ⟨Finset.mem_range.mpr hi, hallow⟩
  · exact hsub hj

/-! ## The two sides -/

/-- The active side: one configuration, seen by the store and the scheduler. -/
structure Configured (B : Build) (g : Gen) (c : Contents) : Prop where
  holds : Holds g.store c
  scheduled : Scheduled g.sched c.pgns
  signalCapacity : c.count ≤ B.signalCapacity
  pgnCapacity : c.pgns.card ≤ B.pgnCapacity

/-- An open transaction stages `d`. -/
structure Drafted (B : Build) (g : Gen) (d : Draft) : Prop where
  opened : g.config.state = .opened
  draft : DraftRel g.store d
  staged : Staged B g.config d.contents
  target : Target g.config d.contents

/-- The transaction side. -/
structure TxnInv (B : Build) (g : Gen) : Prop where
  idle : g.config.state ≠ .opened → g.store.txnState = .idle
  opened : g.config.state = .opened → ∃ d, Drafted B g d
  stopped : g.config.state ≠ .idle → g.isRunning = false

/-- **Invariant.** The active profile names the records, and only a configuration
    with active records runs. -/
structure Inv (B : Build) (g : Gen) (c : Contents) : Prop where
  active : Configured B g c
  txn : TxnInv B g
  locked : Locked g.activeProfileId c
  running : g.isRunning = true → 0 < c.count

theorem Drafted.txnInv {B : Build} {g : Gen} {d : Draft} (h : Drafted B g d)
    (hr : g.isRunning = false) : TxnInv B g where
  idle hn := absurd h.opened hn
  opened _ := ⟨d, h⟩
  stopped _ := hr

/-- Without a transaction the store must be idle, and nothing else. -/
theorem TxnInv.of_idle {B : Build} {g : Gen} (h1 : g.config.state = .idle)
    (h2 : g.store.txnState = .idle) : TxnInv B g where
  idle _ := h2
  opened h := by rw [h1] at h; cases h
  stopped h := absurd h1 h

theorem TxnInv.storeIdle {B : Build} {g : Gen} (h : TxnInv B g) (hi : g.config.state = .idle) :
    g.store.txnState = .idle := h.idle (by rw [hi]; simp)

/-- The active side is the same: bank, generation, scheduler, run flag and
    profile. -/
structure Untouched (g g' : Gen) : Prop where
  store : SameActive g.store g'.store
  sched : g'.sched = g.sched
  isRunning : g'.isRunning = g.isRunning
  activeProfileId : g'.activeProfileId = g.activeProfileId

theorem Untouched.refl (g : Gen) : Untouched g g := ⟨.refl _, rfl, rfl, rfl⟩

theorem Untouched.trans {g g' g'' : Gen} (h : Untouched g g') (h' : Untouched g' g'') :
    Untouched g g'' :=
  ⟨h.store.trans h'.store, h'.sched.trans h.sched, h'.isRunning.trans h.isRunning,
    h'.activeProfileId.trans h.activeProfileId⟩

theorem Configured.of_untouched {B : Build} {g g' : Gen} {c : Contents} (h : Configured B g c)
    (hu : Untouched g g') : Configured B g' c where
  holds := h.holds.of_sameActive hu.store
  scheduled := by rw [hu.sched]; exact h.scheduled
  signalCapacity := h.signalCapacity
  pgnCapacity := h.pgnCapacity

theorem Inv.of_untouched {B : Build} {g g' : Gen} {c : Contents} (h : Inv B g c)
    (hu : Untouched g g') (ht : TxnInv B g') : Inv B g' c where
  active := h.active.of_untouched hu
  txn := ht
  locked := by rw [hu.activeProfileId]; exact h.locked
  running hr := h.running (by rw [← hu.isRunning]; exact hr)

/-! ## Staging calls -/

theorem Refused.untouched {g g' : Gen} (h : Refused g g') : Untouched g g' := by
  cases h with
  | unchanged _ => exact .refl g
  | poisoned _ hs => exact ⟨hs.trans (abort_sameActive _), rfl, rfl, rfl⟩

theorem TxnInv.refused {B : Build} {g g' : Gen} (h : TxnInv B g) (hr : Refused g g') :
    TxnInv B g' := by
  cases hr with
  | unchanged _ => exact h
  | poisoned ho _ =>
    refine ⟨fun _ => rfl, fun hn => ?_, fun _ => h.stopped (by rw [ho]; simp)⟩
    cases hn

/-- An accepted scalar joins the draft. -/
theorem Drafted.withScalar {B : Build} {g : Gen} {d : Draft} (h : Drafted B g d) {key : UInt16}
    {raw : UInt32} {i : ℕ} (ha : AcceptsScalar B g key raw i) :
    Drafted B (g.withScalar key raw i) (d.apply (.setRaw key raw)) := by
  have hi := (indexFromKey_eq_some ha.known).1
  have hset : (d.apply (.setRaw key raw)).contents = d.contents.set i (.scalar raw) := by
    simp only [Draft.apply, ha.known]
    rfl
  have htarget := markScalar_target g.config i
  have hdraft := h.draft.setRaw ha.known ha.range
  refine ⟨htarget.state.trans ha.opened, hdraft, ?_, ?_⟩
  · rw [hset]
    exact h.staged.markScalar hi ha.admitted ha.scalar _
  · rw [hset]
    exact (h.target.set hi ha.allowed _).congr htarget

/-- An accepted chunk joins the draft. -/
theorem Drafted.withChunk {B : Build} {g : Gen} {d : Draft} (h : Drafted B g d) {key : UInt16}
    {total offset : UInt8} {chunk : Mem} {i : ℕ} (ha : AcceptsChunk B g key total offset chunk i) :
    Drafted B (g.withChunk key total offset chunk i)
      (d.apply (.writeBlob key total.toUInt16 offset.toUInt16 (some chunk)
        (chunkCount total offset).toUInt16)) := by
  have hi := (indexFromKey_eq_some ha.known).1
  have htarget := markBlob_target g.config i
  have hdraft : DraftRel (apiWrite g.store (.writeBlob key total.toUInt16 offset.toUInt16
      (some chunk) (chunkCount total offset).toUInt16)).1
      (d.apply (.writeBlob key total.toUInt16 offset.toUInt16 (some chunk)
        (chunkCount total offset).toUInt16)) := by
    rcases h.draft.write (.writeBlob key total.toUInt16 offset.toUInt16 (some chunk)
      (chunkCount total offset).toUInt16) with ⟨-, -, hrel⟩ | ⟨-, st, hst, heq⟩
    · exact hrel
    · have hok := ha.stored
      have hreject : ValueStore.writeBlob g.store key total.toUInt16 offset.toUInt16 (some chunk)
          (chunkCount total offset).toUInt16 = ValueStore.reject g.store st := heq
      rw [hreject] at hok
      exact absurd hok hst
  have hset : ∃ e, (d.apply (.writeBlob key total.toUInt16 offset.toUInt16 (some chunk)
      (chunkCount total offset).toUInt16)).contents = d.contents.set i e := by
    simp only [Draft.apply, ha.known]
    exact ⟨_, rfl⟩
  obtain ⟨e, hset⟩ := hset
  refine ⟨htarget.state.trans ha.opened, hdraft, ?_, ?_⟩
  · rw [hset]
    exact h.staged.markBlob hi ha.admitted ha.blob e
  · rw [hset]
    exact (h.target.set hi ha.allowed e).congr htarget

theorem AcceptsScalar.untouched {g : Gen} {key : UInt16} {raw : UInt32} {i : ℕ} :
    Untouched g (g.withScalar key raw i) :=
  ⟨apiWrite_sameActive g.store (.setRaw key raw), rfl, rfl, rfl⟩

theorem AcceptsChunk.untouched {g : Gen} {key : UInt16} {total offset : UInt8} {chunk : Mem}
    {i : ℕ} : Untouched g (g.withChunk key total offset chunk i) :=
  ⟨apiWrite_sameActive g.store (.writeBlob key total.toUInt16 offset.toUInt16 (some chunk)
    (chunkCount total offset).toUInt16), rfl, rfl, rfl⟩

/-! ## The profile check -/

/-- When the counters are the expected ones, a locked transaction has staged
    exactly the records of its profile: its records are among them, and as many. -/
theorem Drafted.locked {B : Build} {g : Gen} {d : Draft} (h : Drafted B g d)
    (hs : g.config.stagedCount = g.config.expectedCount)
    (hb : g.config.blobCount = g.config.expectedBlobCount) :
    Locked g.config.profileId d.contents := by
  rcases h.target with hc | ⟨p, hp, hcounts, hsub⟩
  · exact .inl hc
  refine .inr ⟨p, hp, Finset.eq_of_subset_of_card_le hsub ?_⟩
  rw [profileRecordCounts_eq, ← hs, ← hb, Prod.mk.injEq, h.staged.scalars, h.staged.blobs] at hcounts
  have hcard : p.records.card ≤ 179 := by
    have := Finset.card_filter_le (Finset.range signalCount) fun i =>
      p.hasKey (signalAt i).signalKey = true
    rwa [Finset.card_range] at this
  have hsplit := Finset.card_filter_add_card_filter_not (s := p.records) fun i => isBlob i = false
  simp only [Bool.not_eq_false] at hsplit
  have hcount : d.contents.count ≤ 179 := d.contents.count_le
  have hsum := d.contents.scalars_add_blobs
  -- none of the four counts wraps
  have h1 : d.contents.scalars = (p.records.filter fun i => isBlob i = false).card := by
    have := congrArg UInt16.toNat hcounts.1
    rw [UInt16.toNat_ofNat', UInt16.toNat_ofNat'] at this
    omega
  have h2 : d.contents.blobs = (p.records.filter fun i => isBlob i = true).card := by
    have := congrArg UInt8.toNat hcounts.2
    rw [UInt8.toNat_ofNat', UInt8.toNat_ofNat'] at this
    omega
  rw [← Contents.count_eq, ← hsplit, ← hsum, h1, h2]

/-- `prv_config_matches_profile` compares the record sets. -/
theorem Staged.matchesProfile {B : Build} {c : Config} {d : Contents} (h : Staged B c d)
    (p : CustomerProfile) : c.matchesProfile (some p) = true ↔ d.active = p.records := by
  unfold Config.matchesProfile
  dsimp only
  rw [List.all_eq_true]
  constructor
  · intro hall
    ext i
    rw [Contents.mem_active, CustomerProfile.records, Finset.mem_filter, Finset.mem_range]
    refine and_congr_right fun hi => ?_
    have heq := eq_of_beq (hall i (List.mem_range.mpr hi))
    rw [← heq, h.signals i hi]
  · intro heq i hi
    have hi := List.mem_range.mp hi
    have hmem : i ∈ d.active ↔ i ∈ p.records := by rw [heq]
    rw [Contents.mem_active, CustomerProfile.records, Finset.mem_filter, Finset.mem_range] at hmem
    rw [h.signals i hi, beq_iff_eq, Bool.eq_iff_iff]
    exact and_congr_right_iff.mp hmem hi

end Generator

end J1939Gen
