import J1939Gen.Waveform.Model
import J1939Gen.Persistence.Visits
import J1939Gen.Generator.Runs
import J1939Gen.Scheduler.Packing

/-!
# A record is constant or a waveform

In the waveform build a record is configured in the value store or in the
pattern pool, never in both: each way in takes the record out of the other
table. The capacity checks of `App_Gen_Config_Signal` come before its first
change, and what they allow cannot fail any more.

* `Owned`: the invariant over the three tables.
* `configWaveform_cases`, `configSignal_cases`: configured, or nothing changed.
* `owned_step`, `owned_after`: one operation, any number of them.
* `ownership_exclusive`: what every run keeps.
-/

namespace J1939Gen.Waveform

open ByteMem ValueStore Scheduler Generator

/-! ## The pool -/

theorem Pool.isRegistered_iff {p : Pool} {i : ℕ} : p.isRegistered i = true ↔ i ∈ p.indices := by
  unfold Pool.isRegistered Pool.indices
  rw [List.any_eq_true, List.mem_map]
  simp only [beq_iff_eq]

/-- The entries of a pool are distinct catalog records, within its capacity. -/
structure PoolOk (B : Build) (p : Pool) : Prop where
  distinct : p.indices.Nodup
  catalog : ∀ i ∈ p.indices, i < signalCount
  room : p.patterns.length ≤ poolCapacity B

theorem PoolOk.init (B : Build) (startMs : UInt32) : PoolOk B (Pool.init startMs) where
  distinct := List.nodup_nil
  catalog i hi := by cases hi
  room := Nat.zero_le _

/-- Values and times of the entries do not matter. -/
theorem PoolOk.congr {B : Build} {p p' : Pool} (h : PoolOk B p) (hp : p'.indices = p.indices) :
    PoolOk B p' where
  distinct := by rw [hp]; exact h.distinct
  catalog := by rw [hp]; exact h.catalog
  room := by
    have hlen := congrArg List.length hp
    rw [Pool.indices, Pool.indices, List.length_map, List.length_map] at hlen
    rw [hlen]
    exact h.room

theorem Pool.indices_reset (p : Pool) (nowMs : UInt32) : (p.reset nowMs).indices = p.indices := by
  unfold Pool.indices Pool.reset
  rw [List.map_map]
  rfl

theorem Pool.indices_stop (p : Pool) : p.stop.indices = p.indices := by
  unfold Pool.indices Pool.stop
  rw [List.map_map]
  rfl

section Register

variable {B : Build} {p : Pool} {config : PatternConfig}

theorem Pool.lt_of_canRegister {i : ℕ} (h : p.canRegister B i = true) : i < signalCount := by
  by_contra hge
  rw [Pool.canRegister, if_pos (by omega)] at h
  cases h

theorem Pool.register_can (h : p.canRegister B config.catalogIndex = true) :
    (p.register B config).2 = true := by
  unfold Pool.register
  rw [if_neg (by simp [h])]

theorem Pool.mem_register (h : p.canRegister B config.catalogIndex = true) {i : ℕ} :
    i ∈ (p.register B config).1.indices ↔ i = config.catalogIndex ∨ i ∈ p.indices := by
  unfold Pool.register
  rw [if_neg (by simp [h])]
  exact KeyedPool.mem_keys_upsert

theorem Pool.register_refused (h : p.canRegister B config.catalogIndex = false) :
    p.register B config = (p, false) := if_pos h

theorem PoolOk.register (h : PoolOk B p) (config : PatternConfig) :
    PoolOk B (p.register B config).1 := by
  by_cases hcan : p.canRegister B config.catalogIndex = true
  swap
  · rw [Pool.register_refused (by simpa using hcan)]
    exact h
  have hmem : ∀ i, i ∈ (p.register B config).1.indices ↔ i = config.catalogIndex ∨ i ∈ p.indices :=
    fun i => Pool.mem_register hcan
  have hlt := Pool.lt_of_canRegister hcan
  refine ⟨?_, fun i hi => ?_, ?_⟩
  · rw [Pool.register, if_neg (by simp [hcan])]
    exact KeyedPool.nodup_upsert h.distinct _
  · rcases (hmem i).mp hi with rfl | hi
    · exact hlt
    · exact h.catalog i hi
  · have hroom : config.catalogIndex ∈ p.indices ∨ p.patterns.length < poolCapacity B := by
      rw [Pool.canRegister, if_neg (by omega)] at hcan
      by_cases hreg : p.isRegistered config.catalogIndex = true
      · exact .inl (Pool.isRegistered_iff.mp hreg)
      · rw [if_neg hreg] at hcan
        exact .inr (by simpa using hcan)
    rw [Pool.register, if_neg (by simp [hcan])]
    exact KeyedPool.length_upsert_le hroom h.room

theorem PoolOk.unregister (h : PoolOk B p) (i : ℕ) : PoolOk B (p.unregister i).1 where
  distinct := KeyedPool.nodup_remove h.distinct i
  catalog j hj := h.catalog j ((KeyedPool.mem_keys_remove h.distinct).mp hj).2
  room := (KeyedPool.length_remove_le h.distinct i).trans h.room

/-- After `Pattern_Generator_Unregister` the record is not registered any more. -/
theorem PoolOk.mem_unregister (h : PoolOk B p) {i j : ℕ} :
    j ∈ (p.unregister i).1.indices ↔ j ≠ i ∧ j ∈ p.indices :=
  KeyedPool.mem_keys_remove h.distinct

end Register

/-! ## The scheduler -/

section Add

variable {B : Build} {s : Sched} {store : Store} {p p' : Pool} {i : ℕ}

/-- A record that could be added can be added once it is registered: it counts
    as active, and the PGN table is the same. -/
theorem canAdd_registered (h : canAddCatalogSignal B s store p i = true)
    (hreg : p'.isRegistered i = true) : canAddCatalogSignal B s store p' i = true := by
  unfold canAddCatalogSignal at h ⊢
  by_cases hi : i ≥ signalCount
  · rw [if_pos hi] at h
    cases h
  rw [if_neg hi] at h ⊢
  rw [if_neg (by simp [signalIsActive, hreg])]
  split_ifs at h
  exact h

/-- What the check allows is added. -/
theorem addCatalogSignal_can (h : canAddCatalogSignal B s store p i = true) (nowMs : UInt32) :
    (addCatalogSignal B s store p i nowMs).2 = true := by
  unfold addCatalogSignal
  rw [if_neg (by simp [h])]
  dsimp only
  by_cases hp : pgnIsSchedulable (pgnAt (signalAt i).pgnIndex) = false
  · rw [if_pos hp]
  rw [if_neg hp]
  unfold canAddCatalogSignal at h
  split_ifs at h
  dsimp only at h
  rw [if_neg hp, decide_eq_true_eq] at h
  unfold Sched.addPgn
  cases hf : s.findPgn (signalAt i).pgnIndex with
  | some e => rfl
  | none =>
    dsimp only
    rw [hf, Option.isSome_none] at h
    rw [if_neg (by simpa using h)]

end Add

/-! ## The invariant -/

/-- **Invariant.** The store holds `c`, no record of it is in the pool, and the
    store is idle unless a transaction is open. -/
structure Owned (B : Build) (w : Wave) (c : Contents) : Prop where
  holds : Holds w.gen.store c
  txn : TxnInv B w.gen
  pool : PoolOk B w.pool
  exclusive : ∀ i ∈ w.pool.indices, i ∉ c.active

variable {B : Build} {w : Wave} {c : Contents}

/-- The store and the pool see the same. -/
theorem Owned.of_untouched (h : Owned B w c) {w' : Wave}
    (hs : SameActive w.gen.store w'.gen.store) (ht : TxnInv B w'.gen)
    (hp : w'.pool.indices = w.pool.indices) : Owned B w' c where
  holds := h.holds.of_sameActive hs
  txn := ht
  pool := h.pool.congr hp
  exclusive i hi := h.exclusive i (by rw [← hp]; exact hi)

/-- An empty pool owns nothing. -/
theorem Owned.of_init {g : Gen} (hh : Holds g.store c) (ht : TxnInv B g) (startMs : UInt32) :
    Owned B ⟨g, Pool.init startMs⟩ c where
  holds := hh
  txn := ht
  pool := .init B startMs
  exclusive i hi := by cases hi

theorem Contents.active_remove (c : Contents) (i : ℕ) :
    Contents.active (Function.update c i none) = c.active.erase i := by
  ext j
  rw [Finset.mem_erase, Contents.mem_active, Contents.mem_active]
  by_cases hji : j = i
  · subst hji
    simp
  · rw [Function.update_of_ne hji]
    simp [hji]

/-- `prv_store_update` removes one record of the active configuration. -/
theorem storeUpdate_remove {s : Store} (h : Holds s c) (hidle : s.txnState = .idle) {key : UInt16}
    {i : ℕ} (hk : indexFromKey key = some i) (raw : UInt32) :
    ∃ s', storeUpdate s key false raw = (s', .ok) ∧ s'.txnState = .idle ∧
      Holds s' (Function.update c i none) := by
  obtain ⟨hbegin, hdraft⟩ := begin_draft hidle h.wf .copyActive
  rw [h.view] at hdraft
  obtain ⟨hrel, hok⟩ := hdraft.remove hk
  have hcontents : (Draft.apply ⟨Begin.base .copyActive c, none⟩ (.remove key)).contents =
      Function.update c i none := by
    simp only [Draft.apply, hk]
    rfl
  have huntouched : (Draft.apply ⟨Begin.base .copyActive c, none⟩ (.remove key)).written = none := by
    simp only [Draft.apply, hk]
    split <;> rfl
  obtain ⟨hcommit, hidle', hholds, -⟩ :=
    hrel.commit_complete (Draft.complete_of_untouched huntouched)
  rw [hcontents] at hholds
  unfold storeUpdate
  dsimp only
  rw [if_neg (by simp [hbegin])]
  simp only [Bool.false_eq_true, if_false]
  rw [if_neg (by simp [hok])]
  generalize ValueStore.remove (begin s .copyActive).1 key = r at hcommit hidle' hholds ⊢
  refine ⟨(commit r.1).1, ?_, hidle', hholds⟩
  rw [← hcommit]

/-! ## One record -/

/-- `prv_set_constant` takes the record out of the pool, or nothing changes. -/
theorem setConstant_cases (h : Owned B w c) (hs : w.gen.store.txnState = .idle) (i : ℕ)
    (raw nowMs : UInt32) :
    ((setConstant B w i raw nowMs).2 ≠ .ok ∧ (setConstant B w i raw nowMs).1 = w) ∨
      (setConstant B w i raw nowMs).2 = .ok ∧
        ∃ store sched, (setConstant B w i raw nowMs).1 =
            { gen := { w.gen with
                store := store, sched := sched, activeProfileId := profileIdCustom }
              pool := (w.pool.unregister i).1 } ∧
          i < signalCount ∧ store.txnState = .idle ∧ Holds store (c.set i (.scalar raw)) := by
  unfold setConstant
  by_cases hi : i ≥ signalCount
  · rw [if_pos hi]
    exact .inl ⟨by simp, rfl⟩
  rw [if_neg hi]
  by_cases hshort : isShortScalar i = false
  · rw [if_pos hshort]
    exact .inl ⟨by simp, rfl⟩
  rw [if_neg hshort]
  have hkey := indexFromKey_signalKey (not_le.mp hi)
  dsimp only
  cases hst : checkRaw (signalAt i).signalKey raw with
  | ok =>
    dsimp only
    by_cases hcan : canAddCatalogSignal B w.gen.sched w.gen.store w.pool i = false
    · rw [if_pos hcan]
      exact .inl ⟨by simp, rfl⟩
    rw [if_neg hcan]
    have hcheck : checkIndex i raw = .ok := by
      rw [checkRaw, hkey] at hst
      exact hst
    obtain ⟨store, hstore, hidle, hholds⟩ := storeUpdate_ok h.holds hs hkey hcheck
    rw [hstore]
    dsimp only
    rw [if_neg (by simp)]
    exact .inr ⟨rfl, store, _, rfl, not_le.mp hi, hidle, hholds⟩
  | unknownKey => exact .inl ⟨by simp, rfl⟩
  | valueOutOfRange => exact .inl ⟨by simp, rfl⟩
  | unsupportedSignal => exact .inl ⟨by simp, rfl⟩
  | resourceFull => exact .inl ⟨by simp, rfl⟩
  | noTransaction => exact .inl ⟨by simp, rfl⟩
  | transactionOpen => exact .inl ⟨by simp, rfl⟩
  | transactionRejected => exact .inl ⟨by simp, rfl⟩
  | blobIncomplete => exact .inl ⟨by simp, rfl⟩

/-- A constant is set, or nothing changes. -/
theorem Owned.setConstant (h : Owned B w c) (hi : w.gen.config.state = .idle) (i : ℕ)
    (raw nowMs : UInt32) :
    (∃ c', Owned B (Waveform.setConstant B w i raw nowMs).1 c') ∧
      ((Waveform.setConstant B w i raw nowMs).2 ≠ .ok →
        (Waveform.setConstant B w i raw nowMs).1 = w) := by
  rcases setConstant_cases h (h.txn.storeIdle hi) i raw nowMs with
    ⟨-, heq⟩ | ⟨hok, store, sched, heq, hlt, hidle, hholds⟩
  · rw [heq]
    exact ⟨⟨c, h⟩, fun _ => rfl⟩
  · refine ⟨⟨c.set i (.scalar raw), ?_⟩, fun hne => absurd hok hne⟩
    rw [heq]
    refine ⟨hholds, .of_idle hi hidle, h.pool.unregister i, fun j hj => ?_⟩
    obtain ⟨hji, hreg⟩ := h.pool.mem_unregister.mp hj
    rw [Contents.active_set hlt, Finset.mem_insert, not_or]
    exact ⟨hji, h.exclusive j hreg⟩

theorem Owned.setConstantRaw (h : Owned B w c) (key : UInt16) (raw nowMs : UInt32) :
    ∃ c', Owned B (Waveform.setConstantRaw B w key raw nowMs).1 c' := by
  unfold Waveform.setConstantRaw
  by_cases hi : w.gen.config.state = .idle
  swap
  · rw [if_pos hi]
    exact ⟨c, h⟩
  rw [if_neg (by simp [hi])]
  cases indexFromKey key with
  | none => exact ⟨c, h⟩
  | some i => exact (h.setConstant hi i raw nowMs).1

@[simp] theorem Request.pattern_catalogIndex (req : Request) (i : ℕ) :
    (req.pattern i).catalogIndex = i := by
  unfold Request.pattern Request.shape
  cases req.type <;> rfl

/-- A waveform is registered, scheduled and taken out of the store, or nothing
    changes: what the two checks allow cannot fail. -/
theorem configWaveform_cases (B : Build) (w : Wave) (req : Request) (i : ℕ) (nowMs : UInt32) :
    configWaveform B w req i nowMs = (w, .tableFull) ∨
      w.pool.canRegister B i = true ∧
        ∃ sched, configWaveform B w req i nowMs =
          ({ gen := { w.gen with
              sched := sched
              store := if isActive w.gen.store i then
                  (storeUpdate w.gen.store (signalAt i).signalKey false 0).1
                else w.gen.store
              activeProfileId := profileIdCustom }
             pool := (w.pool.register B (req.pattern i)).1 }, .ok) := by
  have hindex := req.pattern_catalogIndex i
  unfold configWaveform
  by_cases hfull : w.pool.canRegister B i = false ∨
      canAddCatalogSignal B w.gen.sched w.gen.store w.pool i = false
  · rw [if_pos hfull]
    exact .inl rfl
  rw [if_neg hfull]
  rw [not_or, Bool.not_eq_false, Bool.not_eq_false] at hfull
  obtain ⟨hcan, hadd⟩ := hfull
  have hreg : w.pool.canRegister B (req.pattern i).catalogIndex = true := by
    rw [hindex]
    exact hcan
  have hmem : i ∈ (w.pool.register B (req.pattern i)).1.indices :=
    (Pool.mem_register hreg).mpr (.inl hindex.symm)
  have hadd' := canAdd_registered hadd (Pool.isRegistered_iff.mpr hmem)
  have hadded := addCatalogSignal_can hadd' nowMs
  have hok := Pool.register_can hreg
  dsimp only
  rw [if_neg (by simp [hok]), if_neg (by simp [hadded])]
  exact .inr ⟨hcan, _, rfl⟩

/-- A registered waveform leaves the store. -/
theorem Owned.configWaveform (h : Owned B w c) (hi : w.gen.config.state = .idle) (req : Request)
    {i : ℕ} (nowMs : UInt32) :
    (∃ c', Owned B (Waveform.configWaveform B w req i nowMs).1 c') ∧
      ((Waveform.configWaveform B w req i nowMs).2 ≠ .ok →
        (Waveform.configWaveform B w req i nowMs).1 = w) := by
  rcases configWaveform_cases B w req i nowMs with heq | ⟨hcan, sched, heq⟩
  · rw [heq]
    exact ⟨⟨c, h⟩, fun _ => rfl⟩
  have hlt := Pool.lt_of_canRegister hcan
  rw [heq]
  refine ⟨?_, fun hne => absurd rfl hne⟩
  have hpool := h.pool.register (req.pattern i)
  have hmem : ∀ j, j ∈ (w.pool.register B (req.pattern i)).1.indices ↔ j = i ∨ j ∈ w.pool.indices := by
    intro j
    rw [Pool.mem_register (by rw [req.pattern_catalogIndex]; exact hcan), req.pattern_catalogIndex]
  by_cases hact : isActive w.gen.store i = true
  · obtain ⟨store, hstore, hidle, hholds⟩ := storeUpdate_remove h.holds (h.txn.storeIdle hi)
      (indexFromKey_signalKey hlt) 0
    rw [if_pos hact, hstore]
    refine ⟨Function.update c i none, hholds, .of_idle hi hidle, hpool, fun j hj => ?_⟩
    rw [Contents.active_remove, Finset.mem_erase, not_and]
    intro hji
    exact h.exclusive j (((hmem j).mp hj).resolve_left hji)
  · rw [if_neg hact]
    refine ⟨c, h.holds, .of_idle hi (h.txn.storeIdle hi), hpool, fun j hj => ?_⟩
    rcases (hmem j).mp hj with rfl | hj
    · rw [h.holds.mem_active, not_and]
      exact fun _ => hact
    · exact h.exclusive j hj

/-- **`App_Gen_Config_Signal` configures the signal, or nothing changes.** -/
theorem Owned.configSignal (h : Owned B w c) (req : Request) (nowMs : UInt32) :
    (∃ c', Owned B (Waveform.configSignal B w req nowMs).1 c') ∧
      ((Waveform.configSignal B w req nowMs).2 ≠ .ok →
        (Waveform.configSignal B w req nowMs).1 = w) := by
  unfold Waveform.configSignal
  by_cases hi : w.gen.config.state = .idle
  swap
  · rw [if_pos hi]
    exact ⟨⟨c, h⟩, fun _ => rfl⟩
  rw [if_neg (by simp [hi])]
  dsimp only
  by_cases h1 : req.pgn = 0 ∧ (findUniqueCatalogIndex req.spn).2 > 1
  · rw [if_pos h1]
    exact ⟨⟨c, h⟩, fun _ => rfl⟩
  rw [if_neg h1]
  cases if req.pgn ≠ 0 then catalogFindSignalIndex req.pgn req.spn
      else (findUniqueCatalogIndex req.spn).1 with
  | none => exact ⟨⟨c, h⟩, fun _ => rfl⟩
  | some i =>
    dsimp only
    by_cases h2 : isShortScalar i = false
    · rw [if_pos h2]
      exact ⟨⟨c, h⟩, fun _ => rfl⟩
    rw [if_neg h2]
    by_cases h3 : req.type = .constant
    · rw [if_pos h3]
      obtain ⟨hc, hkeep⟩ := h.setConstant hi i (req.rawFromPhysical i) nowMs
      refine ⟨hc, fun hne => hkeep fun hok => hne ?_⟩
      rw [hok]
    · rw [if_neg h3]
      exact h.configWaveform hi req nowMs

/-! ## Transactions -/

theorem isRegistered_init (startMs : UInt32) (i : ℕ) :
    (Pool.init startMs).isRegistered i = false := rfl

/-- With an empty pool the scheduler counts and adds as in the other build. -/
theorem canAddCatalogSignal_init (B : Build) (s : Sched) (store : Store) (startMs : UInt32)
    (i : ℕ) : canAddCatalogSignal B s store (Pool.init startMs) i =
      s.canAddCatalogSignal B store i := by
  have hactive : ∀ j, signalIsActive store (Pool.init startMs) j = isActive store j := by
    intro j
    rw [signalIsActive, isRegistered_init, Bool.or_false]
  have hcount : getSignalCount store (Pool.init startMs) = Scheduler.getSignalCount store := by
    unfold getSignalCount Scheduler.getSignalCount
    simp only [hactive]
  unfold canAddCatalogSignal Sched.canAddCatalogSignal
  rw [hactive, hcount]

theorem addCatalogSignal_init (B : Build) (s : Sched) (store : Store) (startMs : UInt32) (i : ℕ)
    (nowMs : UInt32) : addCatalogSignal B s store (Pool.init startMs) i nowMs =
      s.addCatalogSignal B store i nowMs := by
  have hcan := canAddCatalogSignal_init B s store startMs i
  unfold addCatalogSignal Sched.addCatalogSignal
  by_cases h : s.canAddCatalogSignal B store i = false
  · exact (if_pos (hcan.trans h)).trans (if_pos h).symm
  · exact (if_neg fun hn => h (hcan.symm.trans hn)).trans (if_neg h).symm

theorem rebuild_init (B : Build) (store : Store) (startMs : UInt32) (clock : ℕ → UInt32) :
    rebuild B store (Pool.init startMs) clock = Generator.rebuild B store clock := by
  have hstep : rebuildStep B store (Pool.init startMs) clock =
      Generator.rebuildStep B store clock := by
    funext acc i
    unfold rebuildStep Generator.rebuildStep
    rw [addCatalogSignal_init]
  rw [rebuild, hstep]
  rfl

/-- `App_Gen_Commit_Config` is the one of the other build, and it empties the
    pool when it succeeds. -/
theorem commitConfig_cases (B : Build) (w : Wave) (startMs : UInt32) (clock : ℕ → UInt32) :
    (commitConfig B w startMs clock).1.gen = (Generator.commitConfig B w.gen clock).1 ∧
      ((commitConfig B w startMs clock).1.pool = Pool.init startMs ∨
        (commitConfig B w startMs clock).1.pool = w.pool ∧
          (Generator.commitConfig B w.gen clock).2.1 ≠ .ok) := by
  unfold commitConfig Generator.commitConfig
  dsimp only
  rw [rebuild_init]
  by_cases h1 : w.gen.config.state = .idle
  · rw [if_pos h1, if_pos h1]
    exact ⟨rfl, .inr ⟨rfl, by simp⟩⟩
  rw [if_neg h1, if_neg h1]
  by_cases h2 : w.gen.config.state = .rejected
  · rw [if_pos h2, if_pos h2]
    exact ⟨rfl, .inr ⟨rfl, by simp⟩⟩
  rw [if_neg h2, if_neg h2]
  by_cases h3 : w.gen.config.stagedCount ≠ w.gen.config.expectedCount ∨
      w.gen.config.blobCount ≠ w.gen.config.expectedBlobCount
  · rw [if_pos h3, if_pos h3]
    exact ⟨rfl, .inr ⟨rfl, by simp⟩⟩
  rw [if_neg h3, if_neg h3]
  by_cases h4 : w.gen.config.profileId ≠ profileIdCustom ∧
      w.gen.config.matchesProfile (customerProfileFind w.gen.config.profileId) = false
  · rw [if_pos h4, if_pos h4]
    exact ⟨rfl, .inr ⟨rfl, by simp⟩⟩
  rw [if_neg h4, if_neg h4]
  generalize ValueStore.commit w.gen.store = committed
  by_cases h5 : committed.2 ≠ .ok
  · rw [if_pos h5, if_pos h5]
    refine ⟨rfl, .inr ⟨rfl, ?_⟩⟩
    dsimp only
    split_ifs <;> simp
  rw [if_neg h5, if_neg h5]
  generalize Generator.rebuild B committed.1 clock = rebuilt
  by_cases h6 : rebuilt.2 = false
  · rw [if_pos h6, if_pos h6]
    exact ⟨rfl, .inl rfl⟩
  · rw [if_neg h6, if_neg h6]
    exact ⟨rfl, .inl rfl⟩

/-- A commit publishes the draft over an empty pool, or the active side and the
    pool are as before. -/
theorem Owned.commitConfig (h : Owned B w c) (startMs : UInt32) (clock : ℕ → UInt32) :
    ∃ c', Owned B (Waveform.commitConfig B w startMs clock).1 c' := by
  obtain ⟨hgen, hpool⟩ := commitConfig_cases B w startMs clock
  generalize Waveform.commitConfig B w startMs clock = r at hgen hpool
  obtain ⟨⟨g, pool⟩, result⟩ := r
  dsimp only at hgen hpool ⊢
  by_cases hc : ∃ d, Drafted B w.gen d ∧ Commits w.gen d
  · obtain ⟨d, hd, hcommits⟩ := hc
    obtain ⟨g', heq, hcommitted⟩ := commitConfig_ok hd hcommits clock
    rw [heq] at hgen hpool
    have hinit : pool = Pool.init startMs := hpool.resolve_right fun hkept => hkept.2 rfl
    subst hgen
    subst hinit
    exact ⟨d.contents, .of_init hcommitted.active.holds
      (.of_idle hcommitted.config hcommitted.store) startMs⟩
  · obtain ⟨-, hu, h1, h2⟩ := commitConfig_failed h.txn (fun d hd hcommits => hc ⟨d, hd, hcommits⟩)
      clock
    rw [← hgen] at hu h1 h2
    refine ⟨c, ?_⟩
    rcases hpool with rfl | ⟨rfl, -⟩
    · exact .of_init (h.holds.of_sameActive hu.store) (.of_idle h1 h2) startMs
    · exact h.of_untouched hu.store (.of_idle h1 h2) rfl

theorem Owned.beginProfileConfig (h : Owned B w c) (n : UInt16) (m profileId : UInt8) :
    Owned B { w with gen := (Generator.beginProfileConfig B w.gen n m profileId).1 } c := by
  rcases h.txn.begin_cases h.holds.wf n m profileId with ⟨-, heq⟩ | ⟨-, hbegun⟩
  · rw [heq]
    exact h
  · exact h.of_untouched hbegun.untouched.store hbegun.txnInv rfl

/-- A staging call. -/
theorem Owned.staged (h : Owned B w c) {g : Gen} (hs : TxnInv B g ∧ Untouched w.gen g) :
    Owned B { w with gen := g } c :=
  h.of_untouched hs.2.store hs.1 rfl

theorem Owned.abortConfig (h : Owned B w c) {g : Gen} (hu : SameActive w.gen.store g.store) :
    Owned B { w with gen := Generator.abortConfig g } c :=
  h.of_untouched (hu.trans (abortConfig_untouched g).store) (.of_idle rfl rfl) rfl

/-- `App_Persistence_Load`, whatever the profile storage holds. -/
theorem Owned.load (h : Owned B w c) (memory : Storage.Memory) (startMs : UInt32)
    (clock : ℕ → UInt32) : ∃ c', Owned B (Waveform.load B w memory startMs clock).1 c' := by
  unfold Waveform.load
  split_ifs
  · exact ⟨c, h⟩
  rcases Storage.openLatest memory with ⟨memory, e | info⟩
  · exact ⟨c, h⟩
  have hbegin := h.beginProfileConfig info.scalarCount info.blobCount info.profileId
  dsimp only
  generalize Generator.beginProfileConfig B w.gen info.scalarCount info.blobCount
    info.profileId = begun at hbegin ⊢
  by_cases hb : begun.2 ≠ .ok
  · rw [if_pos hb]
    exact ⟨c, hbegin⟩
  rw [if_neg hb]
  have hvisit := Persistence.visitLatest_keeps (B := B)
    (P := fun g => TxnInv B g ∧ SameActive begun.1.store g.store)
    (fun g key raw hg => ⟨(hg.1.stageConstantRaw key raw).1,
      hg.2.trans (hg.1.stageConstantRaw key raw).2.store⟩)
    (fun g key total offset chunk hg => ⟨(hg.1.stageBlobChunk key total offset chunk).1,
      hg.2.trans (hg.1.stageBlobChunk key total offset chunk).2.store⟩)
    memory (g := begun.1) ⟨hbegin.txn, .refl _⟩
  generalize Storage.visitLatest memory (Persistence.loadRecord B) ⟨begun.1, true⟩ = visited
    at hvisit ⊢
  obtain ⟨memory', context, e | info'⟩ := visited
  · exact ⟨c, hbegin.abortConfig hvisit.2⟩
  dsimp only at hvisit ⊢
  split_ifs
  · exact ⟨c, hbegin.abortConfig hvisit.2⟩
  all_goals
    have hstaged : Owned B { w with gen := context.gen } c :=
      hbegin.of_untouched hvisit.2 hvisit.1 rfl
    exact hstaged.commitConfig startMs clock

/-! ## Everything else -/

attribute [local irreducible] storeClear

theorem Owned.setGlobalPercent (h : Owned B w c) (bp : UInt16) :
    ∃ c', Owned B (Waveform.setGlobalPercent w bp).1 c' := by
  rcases percent_cases h.holds h.txn.storeIdle bp with heq | ⟨-, hi, store, heq, hidle, hholds⟩
  · refine ⟨c, ?_⟩
    unfold Waveform.setGlobalPercent
    dsimp only
    rw [heq]
    exact h
  · refine ⟨percentOn bp (List.range signalCount) c, ?_⟩
    unfold Waveform.setGlobalPercent
    dsimp only
    rw [heq]
    refine ⟨hholds, .of_idle hi hidle, h.pool, fun i hreg => ?_⟩
    rw [Contents.active_congr (isSome_percentOn bp (List.range signalCount) c)]
    exact h.exclusive i hreg

theorem owned_init (B : Build) (baudKbps startMs : UInt32) :
    Owned B (init baudKbps startMs) Contents.empty :=
  .of_init storeRel_init.holds (.of_idle rfl rfl) startMs

theorem Owned.clear (h : Owned B w c) (startMs : UInt32) :
    Owned B (Waveform.clear w startMs) Contents.empty := by
  obtain ⟨hidle, hholds⟩ :=
    storeClear_spec (s := (Generator.abortConfig w.gen).store) h.holds.wf
  exact .of_init hholds (.of_idle rfl hidle) startMs

/-- A default pattern over an empty store. -/
theorem Owned.addDefault (h : Owned B w Contents.empty) (hi : w.gen.config.state = .idle)
    (clock : ℕ → UInt32) (default : DefaultPattern) :
    Owned B (Waveform.addDefault B clock w default) Contents.empty ∧
      (Waveform.addDefault B clock w default).gen.config.state = .idle := by
  have hstore := h.txn.storeIdle hi
  have hnone : ∀ p : Pool, ∀ i ∈ p.indices, i ∉ Contents.empty.active := by
    intro p i _
    rw [Contents.active_empty]
    exact Finset.notMem_empty i
  unfold Waveform.addDefault
  cases indexFromKey default.signalKey with
  | none => exact ⟨h, hi⟩
  | some i =>
    dsimp only
    split_ifs
    · exact ⟨⟨h.holds, .of_idle hi hstore, h.pool.register _, hnone _⟩, hi⟩
    · exact ⟨⟨h.holds, .of_idle hi hstore, h.pool.register _, hnone _⟩, hi⟩

theorem Owned.foldl_addDefault (h : Owned B w Contents.empty) (hi : w.gen.config.state = .idle)
    (clock : ℕ → UInt32) (defaults : List DefaultPattern) :
    Owned B (defaults.foldl (Waveform.addDefault B clock) w) Contents.empty ∧
      (defaults.foldl (Waveform.addDefault B clock) w).gen.config.state = .idle := by
  induction defaults generalizing w with
  | nil => exact ⟨h, hi⟩
  | cons default defaults ih =>
    obtain ⟨h', hi'⟩ := h.addDefault hi clock default
    exact ih h' hi'

/-- The default patterns are the only configured records. -/
theorem Owned.loadDefaults (h : Owned B w c) (startMs : UInt32) (clock : ℕ → UInt32) :
    Owned B (Waveform.loadDefaults B w startMs clock) Contents.empty := by
  obtain ⟨hidle, hholds⟩ :=
    storeClear_spec (s := (Generator.abortConfig w.gen).store) h.holds.wf
  have hclear : Owned B ⟨{ Generator.abortConfig w.gen with
      sched := Sched.clear, store := storeClear (Generator.abortConfig w.gen).store },
      Pool.init startMs⟩ Contents.empty := .of_init hholds (.of_idle rfl hidle) startMs
  have hfold := hclear.foldl_addDefault rfl clock defaultPatterns
  unfold Waveform.loadDefaults
  dsimp only
  generalize defaultPatterns.foldl (Waveform.addDefault B clock) _ = w' at hfold ⊢
  obtain ⟨h', hi'⟩ := hfold
  exact ⟨h'.holds, .of_idle hi' (h'.txn.storeIdle hi'), h'.pool, h'.exclusive⟩

theorem Owned.start (h : Owned B w c) (durationSec nowMs : UInt32) :
    Owned B (Waveform.start w durationSec nowMs) c := by
  unfold Waveform.start
  by_cases hcan : w.gen.config.state ≠ .idle ∨ hasConfiguredSignals w = false
  · rw [if_pos hcan]
    exact h
  · rw [if_neg hcan]
    rw [not_or, not_not] at hcan
    exact h.of_untouched (.refl _) (.of_idle hcan.1 (h.txn.storeIdle hcan.1))
      (w.pool.indices_reset nowMs)

theorem Owned.stop (h : Owned B w c) : Owned B (Waveform.stop w) c :=
  h.of_untouched (.refl _) ⟨h.txn.idle, fun ho => (h.txn.opened ho).imp fun _ hd =>
    ⟨ho, hd.draft, hd.staged, hd.target⟩, fun _ => rfl⟩ w.pool.indices_stop

theorem Owned.setBaud (h : Owned B w c) (baudKbps : UInt32) :
    Owned B { w with gen := Generator.setBaud w.gen baudKbps } c :=
  h.of_untouched (.refl _) ⟨h.txn.idle, fun ho => (h.txn.opened ho).imp fun _ hd =>
    ⟨ho, hd.draft, hd.staged, hd.target⟩, h.txn.stopped⟩ rfl

/-! ## Runs -/

/-- The operations that configure, and those of the life cycle. A load brings
    the profile storage it reads. -/
inductive Op
  | init (baudKbps startMs : UInt32)
  | setBaud (baudKbps : UInt32)
  | configSignal (req : Request) (nowMs : UInt32)
  | setConstantRaw (signalKey : UInt16) (rawValue nowMs : UInt32)
  | beginProfileConfig (expectedScalarCount : UInt16) (expectedBlobCount profileId : UInt8)
  | stageConstantRaw (signalKey : UInt16) (rawValue : UInt32)
  | stageBlobChunk (signalKey : UInt16) (totalLength offset : UInt8) (chunk : Option Mem)
  | stageStringChunk (signalKey : UInt16) (totalLength offset : UInt8) (chunk : Option Mem)
  | commitConfig (startMs : UInt32) (clock : ℕ → UInt32)
  | abortConfig
  | setGlobalPercent (percentageBp : UInt16)
  | load (memory : Storage.Memory) (startMs : UInt32) (clock : ℕ → UInt32)
  | loadDefaults (startMs : UInt32) (clock : ℕ → UInt32)
  | clear (startMs : UInt32)
  | start (durationSec nowMs : UInt32)
  | stop

/-- One operation. -/
def step (B : Build) (w : Wave) : Op → Wave
  | .init baudKbps startMs => init baudKbps startMs
  | .setBaud baudKbps => { w with gen := setBaud w.gen baudKbps }
  | .configSignal req nowMs => (configSignal B w req nowMs).1
  | .setConstantRaw key raw nowMs => (setConstantRaw B w key raw nowMs).1
  | .beginProfileConfig n m profileId =>
    { w with gen := (beginProfileConfig B w.gen n m profileId).1 }
  | .stageConstantRaw key raw => { w with gen := (stageConstantRaw B w.gen key raw).1 }
  | .stageBlobChunk key total offset chunk =>
    { w with gen := (stageBlobChunk B w.gen key total offset chunk).1 }
  | .stageStringChunk key total offset chunk =>
    { w with gen := (stageStringChunk B w.gen key total offset chunk).1 }
  | .commitConfig startMs clock => (commitConfig B w startMs clock).1
  | .abortConfig => { w with gen := abortConfig w.gen }
  | .setGlobalPercent bp => (setGlobalPercent w bp).1
  | .load memory startMs clock => (load B w memory startMs clock).1
  | .loadDefaults startMs clock => loadDefaults B w startMs clock
  | .clear startMs => clear w startMs
  | .start durationSec nowMs => start w durationSec nowMs
  | .stop => stop w

/-- **Step lemma.** -/
theorem owned_step (h : Owned B w c) (op : Op) : ∃ c', Owned B (step B w op) c' := by
  cases op with
  | init baudKbps startMs => exact ⟨_, owned_init B baudKbps startMs⟩
  | setBaud baudKbps => exact ⟨c, h.setBaud baudKbps⟩
  | configSignal req nowMs => exact (h.configSignal req nowMs).1
  | setConstantRaw key raw nowMs => exact h.setConstantRaw key raw nowMs
  | beginProfileConfig n m profileId => exact ⟨c, h.beginProfileConfig n m profileId⟩
  | stageConstantRaw key raw => exact ⟨c, h.staged (h.txn.stageConstantRaw key raw)⟩
  | stageBlobChunk key total offset chunk =>
    exact ⟨c, h.staged (h.txn.stageBlobChunk key total offset chunk)⟩
  | stageStringChunk key total offset chunk =>
    exact ⟨c, h.staged (h.txn.stageStringChunk key total offset chunk)⟩
  | commitConfig startMs clock => exact h.commitConfig startMs clock
  | abortConfig => exact ⟨c, h.abortConfig (.refl _)⟩
  | setGlobalPercent bp => exact h.setGlobalPercent bp
  | load memory startMs clock => exact h.load memory startMs clock
  | loadDefaults startMs clock => exact ⟨_, h.loadDefaults startMs clock⟩
  | clear startMs => exact ⟨_, h.clear startMs⟩
  | start durationSec nowMs => exact ⟨c, h.start durationSec nowMs⟩
  | stop => exact ⟨c, h.stop⟩

/-- The generator after `App_Gen_Init` and `ops`. -/
def after (B : Build) (baudKbps startMs : UInt32) (ops : List Op) : Wave :=
  ops.foldl (step B) (init baudKbps startMs)

theorem owned_foldl (h : ∃ c, Owned B w c) (ops : List Op) :
    ∃ c, Owned B (ops.foldl (step B) w) c := by
  induction ops generalizing w with
  | nil => exact h
  | cons op ops ih =>
    obtain ⟨c, hc⟩ := h
    exact ih (owned_step hc op)

/-- **Run lemma.** -/
theorem owned_after (B : Build) (baudKbps startMs : UInt32) (ops : List Op) :
    ∃ c, Owned B (after B baudKbps startMs ops) c :=
  owned_foldl ⟨_, owned_init B baudKbps startMs⟩ ops

/-- The records are constant or waveforms, the pool is a set within its capacity,
    and a refused `App_Gen_Config_Signal` changes nothing. -/
structure Exclusive (B : Build) (w : Wave) : Prop where
  exclusive : ∀ i, ¬ (isActive w.gen.store i = true ∧ w.pool.isRegistered i = true)
  distinct : w.pool.indices.Nodup
  room : w.pool.patterns.length ≤ poolCapacity B
  unchanged : ∀ req nowMs, (configSignal B w req nowMs).2 ≠ .ok → (configSignal B w req nowMs).1 = w

/-- **Ownership is exclusive in the waveform build**, after any operations. -/
theorem ownership_exclusive (B : SupportedBuild) (baudKbps startMs : UInt32) (ops : List Op) :
    Exclusive B.val (after B.val baudKbps startMs ops) := by
  obtain ⟨c, h⟩ := owned_after B.val baudKbps startMs ops
  refine ⟨?_, h.pool.distinct, h.pool.room, fun req nowMs => (h.configSignal req nowMs).2⟩
  rintro i ⟨hact, hreg⟩
  have hi := isActive_lt hact
  exact h.exclusive i (Pool.isRegistered_iff.mp hreg) (h.holds.mem_active.mpr ⟨hi, hact⟩)

end J1939Gen.Waveform
