import J1939Gen.Generator.Steps

/-!
# What the modules agree on

The value store, the scheduler and the transaction of the generator are separate
modules. The invariant of the generator keeps them in step, as the getters show.

* `Inv.coherent`: the scheduler has the PGNs of the active records, and the
  counters of all modules agree.
* `Inv.exclusive`: a running generator has no transaction, and the two
  transactions are open together.
-/

namespace J1939Gen.Generator

open ByteMem ValueStore Scheduler

variable {B : Build} {g : Gen} {c : Contents}

/-! ## The scheduler and the value store -/

/-- The PGN table has exactly the schedulable PGNs of the active records, once
    each, and all counters agree. -/
structure Coherent (B : Build) (g : Gen) : Prop where
  nodup : g.sched.indices.Nodup
  mem : ∀ p, p ∈ g.sched.indices ↔ pgnIndexIsSchedulable p = true ∧
    ∃ i < signalCount, isActive g.store i = true ∧ (signalAt i).pgnIndex = p
  pgnCount : g.sched.pgns.length = (getActivePgnCount g).toNat
  signalCount : getSignalCount g.store = (getActiveCount g.store).toNat
  commit : ∀ clock g' report, commitConfig B g clock = (g', .ok, report) →
    report.pgnCount.toNat = g'.sched.pgns.length ∧
      report.signalCount.toNat = getSignalCount g'.store

theorem Inv.signalCount_eq (h : Inv B g c) :
    getSignalCount g.store = (getActiveCount g.store).toNat := by
  have hle : c.count ≤ 179 := c.count_le
  have hcount : getActiveCount g.store = UInt16.ofNat c.count := h.active.holds.count
  rw [getSignalCount_eq h.active.holds, hcount, UInt16.toNat_ofNat', Nat.mod_eq_of_lt (by omega)]

theorem Inv.pgnCount_eq (h : Inv B g c) : g.sched.pgns.length = (getActivePgnCount g).toNat := by
  have hle : c.pgns.card ≤ 60 := c.card_pgns_le
  rw [h.active.scheduled.length_pgns, getActivePgnCount_eq h.active.holds, UInt8.toNat_ofNat',
    Nat.mod_eq_of_lt (by omega)]

/-- The table, by the records. -/
theorem Inv.mem_indices (h : Inv B g c) (p : ℕ) : p ∈ g.sched.indices ↔
    pgnIndexIsSchedulable p = true ∧
      ∃ i < J1939Gen.signalCount, isActive g.store i = true ∧ (signalAt i).pgnIndex = p := by
  rw [h.active.scheduled.mem]
  constructor
  · intro hp
    obtain ⟨i, hi, rfl⟩ := Finset.mem_image.mp hp
    obtain ⟨hlt, hact⟩ := h.active.holds.mem_active.mp hi
    exact ⟨pgnIndexIsSchedulable_of_lt (pgnIndex_lt hlt), i, hlt, hact, rfl⟩
  · rintro ⟨-, i, hlt, hact, rfl⟩
    apply Finset.mem_image_of_mem
    exact h.active.holds.mem_active.mpr ⟨hlt, hact⟩

/-- A commit that succeeds reports the counts it leaves. -/
theorem Inv.commit_report (h : Inv B g c) {clock : ℕ → UInt32} {g' : Gen} {report : CommitReport}
    (hc : Generator.commitConfig B g clock = (g', .ok, report)) :
    report.pgnCount.toNat = g'.sched.pgns.length ∧
      report.signalCount.toNat = getSignalCount g'.store := by
  by_cases hd : ∃ d, Drafted B g d ∧ Commits g d
  · obtain ⟨d, hd, hcommits⟩ := hd
    obtain ⟨g₁, heq, hcommitted⟩ := commitConfig_ok hd hcommits clock
    rw [heq] at hc
    injection hc with h1 h2
    injection h2 with _ h2
    subst h1 h2
    have hcount : d.contents.count ≤ 179 := d.contents.count_le
    have hpgns : d.contents.pgns.card ≤ 60 := d.contents.card_pgns_le
    rw [hcommitted.active.scheduled.length_pgns, getSignalCount_eq hcommitted.active.holds]
    dsimp only
    rw [UInt8.toNat_ofNat', UInt16.toNat_ofNat', Nat.mod_eq_of_lt (by omega),
      Nat.mod_eq_of_lt (by omega)]
    exact ⟨rfl, rfl⟩
  · obtain ⟨hst, -⟩ := commitConfig_failed h.txn
      (fun d hd' hcommits => hd ⟨d, hd', hcommits⟩) clock
    rw [hc] at hst
    simp at hst

theorem Inv.coherent (h : Inv B g c) : Coherent B g where
  nodup := h.active.scheduled.nodup
  mem := h.mem_indices
  pgnCount := h.pgnCount_eq
  signalCount := h.signalCount_eq
  commit _ _ _ hc := h.commit_report hc

/-! ## The two transactions and the run flag -/

/-- A running generator has no transaction and an active record; the transaction
    of the value store is open exactly when the one of the generator is. So a
    commit never rebuilds a running scheduler, and the store transaction a single
    constant or a global percent needs is always to be had. -/
structure Exclusive (B : Build) (g : Gen) : Prop where
  running : g.isRunning = true → g.config.state = .idle ∧ 0 < getActiveCount g.store
  opened : g.config.state = .opened ↔ g.store.txnState = .opened
  settled : g.config.state = .idle ∨ g.config.state = .rejected → g.store.txnState = .idle
  commit : g.isRunning = true → ∀ clock, commitConfig B g clock = (g, .notOpen, .none)
  begin : g.config.state = .idle → ∀ start, (ValueStore.begin g.store start).2 = .ok
  constant : ∀ key raw nowMs, (setConstantRaw B g key raw nowMs).2 = .resourceFull →
    ∃ i, indexFromKey key = some i ∧ g.sched.canAddCatalogSignal B g.store i = false
  percent : ∀ bp, (setGlobalPercent g bp).2.1 ≠ .internalError

theorem Inv.idle_of_running (h : Inv B g c) (hr : g.isRunning = true) : g.config.state = .idle := by
  by_contra hne
  rw [h.txn.stopped hne] at hr
  cases hr

theorem Inv.opened_iff (h : Inv B g c) : g.config.state = .opened ↔ g.store.txnState = .opened := by
  constructor
  · intro ho
    obtain ⟨d, hd⟩ := h.txn.opened ho
    exact hd.draft.opened
  · intro ho
    by_contra hne
    rw [h.txn.idle hne] at ho
    cases ho

/-- A constant in range is only refused for want of room. -/
theorem setConstant_full (h : Configured B g c) (hs : g.store.txnState = .idle) {i : ℕ}
    (hi : i < signalCount) {raw nowMs : UInt32}
    (hfull : (setConstant B g i raw nowMs).2 = .resourceFull) :
    g.sched.canAddCatalogSignal B g.store i = false := by
  rw [← Bool.not_eq_true]
  intro hroom
  by_cases hshort : isShortScalar i = true
  swap
  · rw [setConstant, if_neg (by omega), if_pos (by simpa using hshort)] at hfull
    cases hfull
  have hcheck : checkRaw (signalAt i).signalKey raw = checkIndex i raw := by
    rw [checkRaw, indexFromKey_signalKey hi]
  cases hst : checkIndex i raw with
  | ok =>
    obtain ⟨g', heq, -⟩ := setConstant_ok h hs hi hshort hst ((h.canAdd hi).mp hroom) nowMs
    rw [heq] at hfull
    cases hfull
  | unknownKey | valueOutOfRange | unsupportedSignal | resourceFull | noTransaction
  | transactionOpen | transactionRejected | blobIncomplete =>
    rw [setConstant, if_neg (by omega), if_neg (by simp [hshort])] at hfull
    dsimp only at hfull
    rw [hcheck, hst] at hfull
    cases hfull

theorem Inv.setConstantRaw_full (h : Inv B g c) {key : UInt16} {raw nowMs : UInt32}
    (hfull : (Generator.setConstantRaw B g key raw nowMs).2 = .resourceFull) :
    ∃ i, indexFromKey key = some i ∧ g.sched.canAddCatalogSignal B g.store i = false := by
  unfold Generator.setConstantRaw at hfull
  by_cases hi : g.config.state ≠ .idle
  · rw [if_pos hi] at hfull
    cases hfull
  rw [if_neg hi] at hfull
  cases hk : indexFromKey key with
  | none =>
    rw [hk] at hfull
    cases hfull
  | some i =>
    rw [hk] at hfull
    exact ⟨i, rfl, setConstant_full h.active (h.txn.storeIdle (not_not.mp hi))
      (indexFromKey_eq_some hk).1 hfull⟩

/-- The update of a global percent always goes through. -/
theorem Inv.setGlobalPercent_ne (h : Inv B g c) (bp : UInt16) :
    (Generator.setGlobalPercent g bp).2.1 ≠ .internalError := by
  unfold Generator.setGlobalPercent
  dsimp only
  by_cases hi : g.config.state ≠ .idle
  · rw [if_pos hi]
    simp
  rw [if_neg hi]
  by_cases hbp : bp > globalPercentMaxBp
  · rw [if_pos hbp]
    simp
  rw [if_neg hbp]
  by_cases hnone : ((List.range signalCount).countP fun i =>
      isActive g.store i && isGlobalControl i) = 0
  · rw [if_pos hnone]
    simp
  rw [if_neg hnone]
  obtain ⟨hbegin, s', hloop, hcommit, -⟩ :=
    percentUpdate_ok h.active.holds (h.txn.storeIdle (not_not.mp hi)) bp
  rw [if_neg (by simp [hbegin]), hloop]
  dsimp only
  rw [if_neg (by simp), if_neg (by simp [hcommit])]
  simp

theorem Inv.exclusive (h : Inv B g c) : Exclusive B g where
  running hr := by
    have hpos := h.running hr
    refine ⟨h.idle_of_running hr, ?_⟩
    rw [UInt16.lt_iff_toNat_lt, ← h.signalCount_eq, getSignalCount_eq h.active.holds]
    exact hpos
  opened := h.opened_iff
  settled hs := h.txn.idle (by rcases hs with hs | hs <;> simp [hs])
  commit hr clock := by
    unfold Generator.commitConfig
    dsimp only
    rw [if_pos (h.idle_of_running hr)]
  begin hi start := (begin_draft (h.txn.storeIdle hi) h.active.holds.wf start).1
  constant _ _ _ hfull := h.setConstantRaw_full hfull
  percent := h.setGlobalPercent_ne

end J1939Gen.Generator
