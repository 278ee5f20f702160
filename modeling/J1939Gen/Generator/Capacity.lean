import J1939Gen.Generator.Runs

/-!
# Capacity

Three checks keep the generator inside the capacities of its build: the staging
admission with its counters and masks, the check before a single constant, and
the limits of a begin. The limits bind in the value store and in the PGN table
of the scheduler, and each check compares exactly these.

* `Exceeds`: one more record would pass a capacity.
* `exceeds_iff`, `Drafted.exceeds_iff`: what the checks compare.
* `Inv.stageFull`, `Inv.constantFull`, `Inv.beginFull`: the refusals.
* `Inv.rebuilt`: the rebuild after a commit never fails.
* `capacityLaw`: all of it, after any operations.
-/

namespace J1939Gen.Generator

open Bitmask ByteMem ValueStore Scheduler

/-! ## What would exceed a capacity -/

/-- Record `i` would exceed a capacity next to these records and PGNs. -/
def Exceeds (B : Build) (records pgns : Finset ℕ) (i : ℕ) : Prop :=
  B.signalCapacity < (insert i records).card ∨
    B.pgnCapacity < (insert (signalAt i).pgnIndex pgns).card

/-- The active records. -/
def activeRecords (s : Store) : Finset ℕ :=
  (Finset.range signalCount).filter fun i => isActive s i = true

/-- The records of the staging bank. -/
def stagedRecords (s : Store) : Finset ℕ :=
  (Finset.range signalCount).filter fun i => test s.staging.activeMask i = true

/-- The PGNs of the staging bank. -/
def stagedPgns (s : Store) : Finset ℕ := (stagedRecords s).image fun i => (signalAt i).pgnIndex

variable {B : Build} {g : Gen} {c : Contents}

theorem Configured.activeRecords_eq (h : Configured B g c) : activeRecords g.store = c.active := by
  ext i
  rw [h.holds.mem_active, activeRecords, Finset.mem_filter, Finset.mem_range]

theorem Configured.scheduledPgns_eq (h : Configured B g c) :
    g.sched.indices.toFinset = c.pgns := by
  ext p
  rw [List.mem_toFinset, h.scheduled.mem]

theorem Drafted.stagedRecords_eq {d : Draft} (h : Drafted B g d) :
    stagedRecords g.store = d.contents.active := by
  ext i
  rw [stagedRecords, Finset.mem_filter, Finset.mem_range, Contents.mem_active]
  refine and_congr_right fun hi => ?_
  rw [← h.draft.contents, Bank.view_isSome _ hi]

theorem Drafted.stagedPgns_eq {d : Draft} (h : Drafted B g d) :
    stagedPgns g.store = d.contents.pgns := by
  rw [stagedPgns, h.stagedRecords_eq]
  rfl

/-- Inside a capacity, one more element exceeds it exactly when the set is full
    and the element is new. -/
theorem card_insert_gt {s : Finset ℕ} {n : ℕ} (hs : s.card ≤ n) (a : ℕ) :
    n < (insert a s).card ↔ ¬ (a ∈ s ∨ s.card < n) := by
  by_cases ha : a ∈ s
  · rw [Finset.insert_eq_of_mem ha]
    refine iff_of_false (by omega) ?_
    rw [not_not]
    exact .inl ha
  · rw [Finset.card_insert_of_notMem ha, not_or]
    constructor
    · intro hn
      exact ⟨ha, by omega⟩
    · rintro ⟨-, hn⟩
      omega

/-- The check before a single constant compares the capacities. -/
theorem Configured.exceeds_iff (h : Configured B g c) (i : ℕ) :
    Exceeds B (activeRecords g.store) g.sched.indices.toFinset i ↔ ¬ Fits B c i := by
  have hcount : c.active.card ≤ B.signalCapacity := h.signalCapacity
  rw [Exceeds, h.activeRecords_eq, h.scheduledPgns_eq, card_insert_gt hcount,
    card_insert_gt h.pgnCapacity, ← not_and_or, not_iff_not]
  exact ⟨fun hf => ⟨hf.1, hf.2⟩, fun hf => ⟨hf.signals, hf.pgns⟩⟩

/-- The staging admission compares the capacities. -/
theorem Drafted.exceeds_iff {d : Draft} (h : Drafted B g d) {i : ℕ} (hi : i < signalCount) :
    Exceeds B (stagedRecords g.store) (stagedPgns g.store) i ↔
      g.config.admit B i = .resourceFull := by
  obtain ⟨hok, hfull⟩ := h.staged.admit hi
  have hcount : d.contents.active.card ≤ B.signalCapacity := h.staged.signalCapacity
  rw [Exceeds, h.stagedRecords_eq, h.stagedPgns_eq, card_insert_gt hcount,
    card_insert_gt h.staged.pgnCapacity, ← not_and_or]
  constructor
  · intro hn
    exact hfull fun hadm => hn (hok.mp hadm)
  · intro hadm hfits
    rw [hok.mpr hfits] at hadm
    cases hadm

/-! ## Refusals -/

/-- A full staging call poisons the transaction; every table is as before. -/
def Gen.poisoned (g : Gen) : Gen :=
  { g with store := abort g.store, config := { g.config with state := .rejected } }

theorem Inv.admit_full (h : Inv B g c) (ho : g.config.state = .opened) {i : ℕ}
    (hi : i < signalCount)
    (hx : Exceeds B (stagedRecords g.store) (stagedPgns g.store) i) :
    g.config.admit B i = .resourceFull := by
  obtain ⟨d, hd⟩ := h.txn.opened ho
  exact (hd.exceeds_iff hi).mp hx

/-- A scalar with nothing else to object to is refused when it would exceed a
    capacity. -/
theorem Inv.stageScalarFull (h : Inv B g c) (ho : g.config.state = .opened) {key : UInt16}
    {raw : UInt32} {i : ℕ} (hk : indexFromKey key = some i)
    (hallow : g.config.profileAllows i = true) (hscalar : isScalar i = true)
    (hcheck : checkRaw key raw = .ok)
    (hx : Exceeds B (stagedRecords g.store) (stagedPgns g.store) i) :
    Generator.stageConstantRaw B g key raw = (g.poisoned, .resourceFull) := by
  have hfull := h.admit_full ho (indexFromKey_eq_some hk).1 hx
  unfold Generator.stageConstantRaw
  rw [if_neg (by simp [configReady_eq.mpr ho]), hk]
  dsimp only
  rw [if_neg (by simp [hallow]), if_neg (by simp [hscalar]), if_neg (by simp [hcheck]),
    if_neg (by simp [hcheck]), if_pos (by simp [hfull]), hfull]
  rfl

/-- A blob chunk with nothing else to object to is refused when its record would
    exceed a capacity. -/
theorem Inv.stageBlobFull (h : Inv B g c) (ho : g.config.state = .opened) {key : UInt16}
    {total offset : UInt8} {chunk : Mem} {i : ℕ} (hk : indexFromKey key = some i)
    (hallow : g.config.profileAllows i = true) (hblob : isBlob i = true) (hwin : offset < total)
    (hpad : (bytes chunk (chunkCount total offset).toNat
      (3 - (chunkCount total offset).toNat)).any (· ≠ 0) = false)
    (hx : Exceeds B (stagedRecords g.store) (stagedPgns g.store) i) :
    Generator.stageBlobChunk B g key total offset (some chunk) =
      (g.poisoned, .resourceFull, stagedBlobBytes g.store) := by
  have hfull := h.admit_full ho (indexFromKey_eq_some hk).1 hx
  unfold Generator.stageBlobChunk
  dsimp only
  rw [if_neg (by simp [configReady_eq.mpr ho]), hk]
  dsimp only
  rw [if_neg (by simp [hallow]), if_neg (by simp [hblob]), if_neg (UInt8.not_le.mpr hwin),
    if_neg (by rw [hpad]; simp), if_pos (by simp [hfull]), hfull]
  rfl

/-- So is a chunk of text. -/
theorem Inv.stageStringFull (h : Inv B g c) (ho : g.config.state = .opened) {key : UInt16}
    {total offset : UInt8} {chunk : Mem} {i : ℕ} (hk : indexFromKey key = some i)
    (hallow : g.config.profileAllows i = true) (hblob : isBlob i = true)
    (hcodec : (signalAt i).specialCodec = .asciiBlob) (hmax : total.toUInt16 ≤ maxStringChars)
    (hwin : offset < total)
    (hchars : (bytes chunk 0 (chunkCount total offset).toNat).any notStringChar = false)
    (hpad : (bytes chunk (chunkCount total offset).toNat
      (3 - (chunkCount total offset).toNat)).any (· ≠ 0) = false)
    (hx : Exceeds B (stagedRecords g.store) (stagedPgns g.store) i) :
    Generator.stageStringChunk B g key total offset (some chunk) =
      (g.poisoned, .resourceFull, stagedBlobBytes g.store) := by
  have hzero : total ≠ 0 := by
    rintro rfl
    exact absurd hwin (UInt8.not_lt.mpr (UInt8.zero_le))
  unfold Generator.stageStringChunk
  dsimp only
  rw [if_neg (by simp [configReady_eq.mpr ho]), hk]
  dsimp only
  rw [if_neg (by simp [hblob, hcodec]), if_neg (by simp [hzero, UInt16.not_lt.mpr hmax]),
    if_neg (by simp [hchars])]
  exact h.stageBlobFull ho hk hallow hblob hwin hpad hx

theorem lt_of_isShortScalar {i : ℕ} (h : isShortScalar i = true) : i < signalCount := by
  by_contra hi
  rw [isShortScalar, isScalar, if_pos (by omega)] at h
  simp at h

/-- A single constant that would exceed a capacity changes nothing. -/
theorem Inv.constantFull (h : Inv B g c) {i : ℕ} (hshort : isShortScalar i = true) {raw : UInt32}
    (hcheck : checkRaw (signalAt i).signalKey raw = .ok)
    (hx : Exceeds B (activeRecords g.store) g.sched.indices.toFinset i) (nowMs : UInt32) :
    Generator.setConstant B g i raw nowMs = (g, .resourceFull) := by
  have hi := lt_of_isShortScalar hshort
  have hno : g.sched.canAddCatalogSignal B g.store i = false := by
    rw [← Bool.not_eq_true, h.active.canAdd hi]
    exact (h.active.exceeds_iff i).mp hx
  unfold Generator.setConstant
  rw [if_neg (by omega), if_neg (by simp [hshort])]
  dsimp only
  rw [hcheck]
  dsimp only
  rw [if_pos hno]

/-- A begin that announces more records than the build has room for. The sum is
    computed in 16 bits, so it can only be missed at 65535 + 1 records. -/
theorem beginFull {B : Build} {g : Gen} (hr : g.isRunning = false)
    (hi : g.config.state = .idle) {n : UInt16} {m profileId : UInt8}
    (hp : profileStatus B n m profileId = .ok)
    (hx : B.signalCapacity < n.toNat + m.toNat) (hwrap : ¬ (n = 65535 ∧ m = 1)) :
    beginProfileConfig B g n m profileId = (g, .resourceFull) := by
  unfold beginProfileConfig
  rw [if_neg (by simp [hr]), if_neg (by simp [hi]), if_neg (by simp [hp]), if_pos]
  by_cases hm : m > maxBlobRecords
  · exact .inl hm
  have hm1 : m.toNat ≤ 1 := UInt8.le_iff_toNat_le.mp (UInt8.not_lt.mp hm)
  have hn := n.toNat_lt
  right
  rw [UInt16.toNat_add, UInt8.toNat_toUInt16, Nat.mod_eq_of_lt]
  · exact hx
  · by_contra hge
    refine hwrap ⟨?_, ?_⟩
    · rw [← UInt16.toNat_inj]
      show n.toNat = 65535
      omega
    · rw [← UInt8.toNat_inj]
      show m.toNat = 1
      omega

/-- A locked profile that the build has no room for. -/
theorem profileFull {B : Build} {g : Gen} (hr : g.isRunning = false) (hi : g.config.state = .idle)
    {n : UInt16} {m profileId : UInt8} {p : CustomerProfile} (hc : profileId ≠ profileIdCustom)
    (hp : customerProfileFind profileId = some p) (hcounts : (n, m) = profileRecordCounts p)
    (hx : B.signalCapacity < p.signalCount.toNat ∨ B.pgnCapacity < p.pgnCount.toNat) :
    beginProfileConfig B g n m profileId = (g, .resourceFull) := by
  have hfull : profileStatus B n m profileId = .resourceFull := by
    unfold profileStatus
    rw [if_neg hc, hp]
    dsimp only
    rw [if_neg (by simpa using hcounts), if_pos hx]
  unfold beginProfileConfig
  rw [if_neg (by simp [hr]), if_neg (by simp [hi]), hfull, if_pos (by simp)]

/-! ## The commit -/

/-- A transaction that announced too much cannot be committed. -/
theorem Inv.commit_within (h : Inv B g c) {clock : ℕ → UInt32}
    (hok : (Generator.commitConfig B g clock).2.1 = .ok) :
    g.config.expectedCount.toNat + g.config.expectedBlobCount.toNat ≤ B.signalCapacity := by
  by_cases hc : ∃ d, Drafted B g d ∧ Commits g d
  · obtain ⟨d, hd, hcommits⟩ := hc
    obtain ⟨h1, h2, -⟩ := hd.staged.toNat_count
    rw [← hcommits.scalars, ← hcommits.blobs, h1, h2, d.contents.scalars_add_blobs]
    exact hd.staged.signalCapacity
  · obtain ⟨hst, -⟩ := commitConfig_failed h.txn (fun d hd hcommits => hc ⟨d, hd, hcommits⟩) clock
    rw [hok] at hst
    simp at hst

/-- Whatever the value store commits, the scheduler is rebuilt. -/
theorem Inv.rebuilt (h : Inv B g c) (ho : g.config.state = .opened)
    (hok : (commit g.store).2 = .ok) (clock : ℕ → UInt32) :
    (rebuild B (commit g.store).1 clock).2 = true := by
  obtain ⟨d, hd⟩ := h.txn.opened ho
  have hcomplete : d.Complete := by
    by_contra hn
    rw [hd.draft.commit_incomplete hn] at hok
    cases hok
  obtain ⟨-, -, hholds, -⟩ := hd.draft.commit_complete hcomplete
  obtain ⟨s', heq, -⟩ := rebuild_spec hholds hd.staged.pgnCapacity clock
  rw [heq]

/-- No commit reports an internal error. -/
theorem Inv.commit_status (h : Inv B g c) (clock : ℕ → UInt32) :
    (Generator.commitConfig B g clock).2.1 ≠ .internalError := by
  by_cases hc : ∃ d, Drafted B g d ∧ Commits g d
  · obtain ⟨d, hd, hcommits⟩ := hc
    obtain ⟨g', heq, -⟩ := commitConfig_ok hd hcommits clock
    rw [heq]
    simp
  · obtain ⟨hst, -⟩ := commitConfig_failed h.txn (fun d hd hcommits => hc ⟨d, hd, hcommits⟩) clock
    intro hin
    rw [hin] at hst
    simp at hst

/-! ## The law -/

/-- The record `App_Gen_Config_Signal` finds for a request that is not
    ambiguous. -/
def requestIndex (req : SignalRequest) : Option ℕ :=
  if req.pgn = 0 ∧ (findUniqueCatalogIndex req.spn).2 > 1 then none
  else if req.pgn ≠ 0 then catalogFindSignalIndex req.pgn req.spn
  else (findUniqueCatalogIndex req.spn).1

/-- The capacities bind. `TABLE_FULL` is what `App_Gen_Config_Signal` makes of
    the `RESOURCE_FULL` of a single constant. -/
structure CapacityLaw (B : Build) (g : Gen) : Prop where
  signals : getSignalCount g.store ≤ B.signalCapacity
  pgns : g.sched.pgns.length ≤ B.pgnCapacity
  constant : ∀ key i raw nowMs, configTransactionOpen g = false → indexFromKey key = some i →
    isShortScalar i = true → checkRaw key raw = .ok →
    Exceeds B (activeRecords g.store) g.sched.indices.toFinset i →
    setConstantRaw B g key raw nowMs = (g, .resourceFull)
  request : ∀ req i nowMs, configTransactionOpen g = false → requestIndex req = some i →
    isShortScalar i = true → req.type = .constant →
    checkRaw (signalAt i).signalKey (req.rawFromPhysical i) = .ok →
    Exceeds B (activeRecords g.store) g.sched.indices.toFinset i →
    configSignal B g req nowMs = (g, .tableFull)
  scalar : ∀ key i raw, g.config.state = .opened → indexFromKey key = some i →
    g.config.profileAllows i = true → isScalar i = true → checkRaw key raw = .ok →
    Exceeds B (stagedRecords g.store) (stagedPgns g.store) i →
    stageConstantRaw B g key raw = (g.poisoned, .resourceFull)
  chunk : ∀ key i total offset data, g.config.state = .opened → indexFromKey key = some i →
    g.config.profileAllows i = true → isBlob i = true → offset < total →
    (bytes data (chunkCount total offset).toNat
      (3 - (chunkCount total offset).toNat)).any (· ≠ 0) = false →
    Exceeds B (stagedRecords g.store) (stagedPgns g.store) i →
    stageBlobChunk B g key total offset (some data) =
      (g.poisoned, .resourceFull, stagedBlobBytes g.store) ∧
    ((signalAt i).specialCodec = .asciiBlob → total.toUInt16 ≤ maxStringChars →
      (bytes data 0 (chunkCount total offset).toNat).any notStringChar = false →
      stageStringChunk B g key total offset (some data) =
        (g.poisoned, .resourceFull, stagedBlobBytes g.store))
  -- a poisoned transaction has changed no value, no scheduled PGN and no mask
  poisoned : g.poisoned.store.bank = g.store.bank ∧
    g.poisoned.store.activeBank = g.store.activeBank ∧ g.poisoned.sched = g.sched ∧
    g.poisoned.config.signalMask = g.config.signalMask ∧
    g.poisoned.config.pgnMask = g.config.pgnMask
  announced : ∀ n m profileId, g.isRunning = false → g.config.state = .idle →
    profileStatus B n m profileId = .ok → B.signalCapacity < n.toNat + m.toNat →
    beginProfileConfig B g n m profileId = (g, .resourceFull) ∨ (n = 65535 ∧ m = 1)
  profile : ∀ n m profileId p, g.isRunning = false → g.config.state = .idle →
    profileId ≠ profileIdCustom → customerProfileFind profileId = some p →
    (n, m) = profileRecordCounts p →
    B.signalCapacity < p.signalCount.toNat ∨ B.pgnCapacity < p.pgnCount.toNat →
    beginProfileConfig B g n m profileId = (g, .resourceFull)
  -- so the transaction of 65535 + 1 records is never committed either
  within : ∀ clock, (commitConfig B g clock).2.1 = .ok →
    g.config.expectedCount.toNat + g.config.expectedBlobCount.toNat ≤ B.signalCapacity
  rebuilt : ∀ clock, g.config.state = .opened → (commit g.store).2 = .ok →
    (rebuild B (commit g.store).1 clock).2 = true
  noInternalError : ∀ clock, (commitConfig B g clock).2.1 ≠ .internalError

/-- **Capacity is respected in every build.** After any operations: the bounds
    hold, what would exceed them is refused before a table changes, and the
    rebuild after a commit succeeds. -/
theorem capacityLaw (B : SupportedBuild) (baudKbps : UInt32) (ops : List Op) :
    CapacityLaw B.val (after B.val baudKbps ops) := by
  obtain ⟨c, h⟩ := inv_after B baudKbps ops
  generalize after B.val baudKbps ops = g at h
  have hidle : configTransactionOpen g = false → g.config.state = .idle := by
    intro hopen
    simpa [configTransactionOpen] using hopen
  constructor
  · rw [getSignalCount_eq h.active.holds]
    exact h.active.signalCapacity
  · rw [h.active.scheduled.length_pgns]
    exact h.active.pgnCapacity
  · intro key i raw nowMs hopen hk hshort hcheck hx
    rw [setConstantRaw, if_neg (by simp [hidle hopen]), hk]
    have hkey := (indexFromKey_eq_some hk).2
    rw [← hkey] at hcheck
    exact h.constantFull hshort hcheck hx nowMs
  · intro req i nowMs hopen hreq hshort htype hcheck hx
    unfold requestIndex at hreq
    by_cases hamb : req.pgn = 0 ∧ (findUniqueCatalogIndex req.spn).2 > 1
    · rw [if_pos hamb] at hreq
      cases hreq
    rw [if_neg hamb] at hreq
    unfold configSignal
    rw [if_neg (by simp [hidle hopen])]
    dsimp only
    rw [if_neg hamb, hreq]
    dsimp only
    rw [if_neg (by simp [hshort]), if_pos htype, h.constantFull hshort hcheck hx nowMs]
  · intro key i raw ho hk hallow hscalar hcheck hx
    exact h.stageScalarFull ho hk hallow hscalar hcheck hx
  · intro key i total offset data ho hk hallow hblob hwin hpad hx
    refine ⟨h.stageBlobFull ho hk hallow hblob hwin hpad hx, fun hcodec hmax hchars => ?_⟩
    exact h.stageStringFull ho hk hallow hblob hcodec hmax hwin hchars hpad hx
  · exact ⟨rfl, rfl, rfl, rfl, rfl⟩
  · intro n m profileId hr hi hp hx
    by_cases hwrap : n = 65535 ∧ m = 1
    · exact .inr hwrap
    · exact .inl (beginFull hr hi hp hx hwrap)
  · intro n m profileId p hr hi hc hp hcounts hx
    exact profileFull hr hi hc hp hcounts hx
  · intro clock hok
    exact h.commit_within hok
  · intro clock ho hok
    exact h.rebuilt ho hok clock
  · intro clock
    exact h.commit_status clock

end J1939Gen.Generator
