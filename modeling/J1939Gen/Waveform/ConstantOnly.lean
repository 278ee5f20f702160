import J1939Gen.Waveform.Ownership

/-!
# The waveform build without waveforms

Of the two builds of the generator one carries a pattern pool. As long as only
constants are configured the pool stays empty, and both builds give the same
answers and go through the same states. The operations are those of `Op`: the
ticks of `App_Gen_Process`, `App_Gen_Note_Bus_Recovered` and the index
`App_Gen_Config_Signal` writes to `out_catalog_index` are not among them.

* `canAddCatalogSignal_empty`, `getSignalCount_empty`: with an empty pool the
  scheduler answers as in the other build.
* `agrees_step`: one operation.
* `builds_agree`: any operations.
-/

namespace J1939Gen.Waveform

open ByteMem ValueStore Scheduler Generator

/-! ## One operation of either build -/

/-- What an operation returns. -/
inductive Answer
  | none
  | config (status : ConfigStatus)
  | setConst (status : SetConstStatus)
  | txn (status : TxnStatus)
  | chunk (status : TxnStatus) (written : UInt16)
  | commit (status : TxnStatus) (report : CommitReport)
  | percent (status : TxnStatus) (report : PercentReport)
  | load (result : Except Persistence.Status CommitReport)

/-- One operation of the waveform build, with what it returns. -/
def answer (B : Build) (w : Wave) : Op → Wave × Answer
  | .init baudKbps startMs => (init baudKbps startMs, .none)
  | .setBaud baudKbps => ({ w with gen := setBaud w.gen baudKbps }, .none)
  | .configSignal req nowMs => (configSignal B w req nowMs).map id .config
  | .setConstantRaw key raw nowMs => (setConstantRaw B w key raw nowMs).map id .setConst
  | .beginProfileConfig n m profileId =>
    (beginProfileConfig B w.gen n m profileId).map (fun g => { w with gen := g }) .txn
  | .stageConstantRaw key raw =>
    (stageConstantRaw B w.gen key raw).map (fun g => { w with gen := g }) .txn
  | .stageBlobChunk key total offset chunk =>
    (stageBlobChunk B w.gen key total offset chunk).map (fun g => { w with gen := g })
      fun r => .chunk r.1 r.2
  | .stageStringChunk key total offset chunk =>
    (stageStringChunk B w.gen key total offset chunk).map (fun g => { w with gen := g })
      fun r => .chunk r.1 r.2
  | .commitConfig startMs clock =>
    (commitConfig B w startMs clock).map id fun r => .commit r.1 r.2
  | .abortConfig => ({ w with gen := abortConfig w.gen }, .none)
  | .setGlobalPercent bp => (setGlobalPercent w bp).map id fun r => .percent r.1 r.2
  | .load memory startMs clock => (load B w memory startMs clock).map id .load
  | .loadDefaults startMs clock => (loadDefaults B w startMs clock, .none)
  | .clear startMs => (clear w startMs, .none)
  | .start durationSec nowMs => (start w durationSec nowMs, .none)
  | .stop => (stop w, .none)

theorem answer_fst (B : Build) (w : Wave) (op : Op) : (answer B w op).1 = step B w op := by
  cases op <;> rfl

/-- The same operation of the constant-only build. -/
def plainAnswer (B : Build) (g : Gen) : Op → Gen × Answer
  | .init baudKbps _ => (Generator.init baudKbps, .none)
  | .setBaud baudKbps => (setBaud g baudKbps, .none)
  | .configSignal req nowMs =>
    (Generator.configSignal B g req.toSignalRequest nowMs).map id .config
  | .setConstantRaw key raw nowMs =>
    (Generator.setConstantRaw B g key raw nowMs).map id .setConst
  | .beginProfileConfig n m profileId => (beginProfileConfig B g n m profileId).map id .txn
  | .stageConstantRaw key raw => (stageConstantRaw B g key raw).map id .txn
  | .stageBlobChunk key total offset chunk =>
    (stageBlobChunk B g key total offset chunk).map id fun r => .chunk r.1 r.2
  | .stageStringChunk key total offset chunk =>
    (stageStringChunk B g key total offset chunk).map id fun r => .chunk r.1 r.2
  | .commitConfig _ clock => (Generator.commitConfig B g clock).map id fun r => .commit r.1 r.2
  | .abortConfig => (abortConfig g, .none)
  | .setGlobalPercent bp => (Generator.setGlobalPercent g bp).map id fun r => .percent r.1 r.2
  | .load memory _ clock =>
    (Persistence.load B ⟨g, memory, .empty⟩ clock).map Persistence.App.gen .load
  | .loadDefaults _ clock => (Generator.loadDefaults B g clock, .none)
  | .clear _ => (Generator.clear g, .none)
  | .start durationSec nowMs => (Generator.start g durationSec nowMs, .none)
  | .stop => (Generator.stop g, .none)

/-- No waveform is configured: the requests are for constants, and the defaults, which
    the builds have not in common, are not loaded. -/
def Op.Constant : Op → Prop
  | .configSignal req _ => req.type = .constant
  | .loadDefaults .. => False
  | _ => True

/-! ## The empty pool -/

/-- The pool is empty, and the rest is the other build's generator. -/
structure Agrees (w : Wave) (g : Gen) : Prop where
  gen : w.gen = g
  empty : w.pool.patterns = []

section Empty

variable {p : Pool}

theorem isRegistered_empty (h : p.patterns = []) (i : ℕ) : p.isRegistered i = false := by
  rw [Pool.isRegistered, h]
  rfl

theorem signalIsActive_empty (h : p.patterns = []) (store : Store) (i : ℕ) :
    signalIsActive store p i = isActive store i := by
  rw [signalIsActive, isRegistered_empty h, Bool.or_false]

theorem getSignalCount_empty (h : p.patterns = []) (store : Store) :
    getSignalCount store p = Scheduler.getSignalCount store := by
  unfold getSignalCount Scheduler.getSignalCount
  simp only [signalIsActive_empty h]

theorem canAddCatalogSignal_empty (h : p.patterns = []) (B : Build) (s : Sched) (store : Store)
    (i : ℕ) : canAddCatalogSignal B s store p i = s.canAddCatalogSignal B store i := by
  unfold canAddCatalogSignal Sched.canAddCatalogSignal
  rw [signalIsActive_empty h, getSignalCount_empty h]

theorem addCatalogSignal_empty (h : p.patterns = []) (B : Build) (s : Sched) (store : Store)
    (i : ℕ) (nowMs : UInt32) :
    addCatalogSignal B s store p i nowMs = s.addCatalogSignal B store i nowMs := by
  unfold addCatalogSignal Sched.addCatalogSignal
  exact canAddCatalogSignal_empty h B s store i ▸ rfl

theorem unregister_empty (h : p.patterns = []) (i : ℕ) : (p.unregister i).1.patterns = [] := by
  rw [Pool.unregister, h]
  rfl

theorem reset_empty (h : p.patterns = []) (nowMs : UInt32) : (p.reset nowMs).patterns = [] := by
  rw [Pool.reset, h]
  rfl

theorem stop_empty (h : p.patterns = []) : p.stop.patterns = [] := by
  rw [Pool.stop, h]
  rfl

end Empty

/-! ## The operations -/

/-- The same answer, and states that agree. -/
structure SameResult {β : Type} (r : Wave × β) (r' : Gen × β) : Prop where
  state : Agrees r.1 r'.1
  result : r.2 = r'.2

section Operations

variable {B : Build} {w : Wave} {g : Gen}

theorem SameResult.map {β γ : Type} {r : Wave × β} {r' : Gen × β} (h : SameResult r r')
    (f : β → γ) : SameResult (r.map id f) (r'.map id f) :=
  ⟨h.state, congrArg f h.result⟩

/-- What does not touch the pool. -/
theorem Agrees.lift {β γ : Type} (h : Agrees w g) (f : Gen → Gen × β) (out : β → γ) :
    SameResult ((f w.gen).map (fun g => { w with gen := g }) out) ((f g).map id out) := by
  obtain ⟨rfl, hempty⟩ := h
  exact ⟨⟨rfl, hempty⟩, rfl⟩

theorem Agrees.setConstant (h : Agrees w g) (i : ℕ) (raw nowMs : UInt32) :
    SameResult (Waveform.setConstant B w i raw nowMs) (Generator.setConstant B g i raw nowMs) := by
  obtain ⟨rfl, hempty⟩ := h
  have hsame (status : SetConstStatus) : SameResult (w, status) (w.gen, status) :=
    ⟨⟨rfl, hempty⟩, rfl⟩
  unfold Waveform.setConstant Generator.setConstant
  rw [canAddCatalogSignal_empty hempty]
  by_cases h1 : i ≥ signalCount
  · rw [if_pos h1, if_pos h1]
    exact hsame _
  rw [if_neg h1, if_neg h1]
  by_cases h2 : isShortScalar i = false
  · rw [if_pos h2, if_pos h2]
    exact hsame _
  rw [if_neg h2, if_neg h2]
  dsimp only
  cases checkRaw (signalAt i).signalKey raw with
  | ok =>
    dsimp only
    by_cases h3 : w.gen.sched.canAddCatalogSignal B w.gen.store i = false
    · rw [if_pos h3, if_pos h3]
      exact hsame _
    rw [if_neg h3, if_neg h3]
    generalize storeUpdate w.gen.store (signalAt i).signalKey true raw = updated
    by_cases h4 : updated.2 ≠ .ok
    · rw [if_pos h4, if_pos h4]
      exact ⟨⟨rfl, hempty⟩, rfl⟩
    rw [if_neg h4, if_neg h4, addCatalogSignal_empty hempty]
    exact ⟨⟨rfl, unregister_empty hempty i⟩, rfl⟩
  | _ => exact hsame _

theorem Agrees.setConstantRaw (h : Agrees w g) (key : UInt16) (raw nowMs : UInt32) :
    SameResult (Waveform.setConstantRaw B w key raw nowMs)
      (Generator.setConstantRaw B g key raw nowMs) := by
  unfold Waveform.setConstantRaw Generator.setConstantRaw
  rw [h.gen]
  by_cases hi : g.config.state ≠ .idle
  · rw [if_pos hi, if_pos hi]
    exact ⟨h, rfl⟩
  rw [if_neg hi, if_neg hi]
  cases indexFromKey key with
  | none => exact ⟨h, rfl⟩
  | some i => exact h.setConstant i raw nowMs

theorem Agrees.configSignal (h : Agrees w g) (req : Request) (hconst : req.type = .constant)
    (nowMs : UInt32) :
    SameResult (Waveform.configSignal B w req nowMs)
      (Generator.configSignal B g req.toSignalRequest nowMs) := by
  unfold Waveform.configSignal Generator.configSignal
  rw [h.gen]
  by_cases hi : g.config.state ≠ .idle
  · rw [if_pos hi, if_pos hi]
    exact ⟨h, rfl⟩
  rw [if_neg hi, if_neg hi]
  dsimp only
  by_cases hamb : req.pgn = 0 ∧ (findUniqueCatalogIndex req.spn).2 > 1
  · rw [if_pos hamb, if_pos hamb]
    exact ⟨h, rfl⟩
  rw [if_neg hamb, if_neg hamb]
  cases (if req.pgn ≠ 0 then catalogFindSignalIndex req.pgn req.spn
      else (findUniqueCatalogIndex req.spn).1) with
  | none => exact ⟨h, rfl⟩
  | some i =>
    dsimp only
    by_cases hshort : isShortScalar i = false
    · rw [if_pos hshort, if_pos hshort]
      exact ⟨h, rfl⟩
    rw [if_neg hshort, if_neg hshort, if_pos hconst, if_pos hconst]
    have hset := h.setConstant (B := B) i (req.rawFromPhysical i) nowMs
    refine ⟨hset.state, ?_⟩
    dsimp only
    have hres := hset.result
    generalize (Generator.setConstant B g i (req.rawFromPhysical i) nowMs).2 = r at hres ⊢
    cases r <;> exact hres ▸ rfl

theorem Agrees.commitConfig (h : Agrees w g) (startMs : UInt32) (clock : ℕ → UInt32) :
    SameResult (Waveform.commitConfig B w startMs clock) (Generator.commitConfig B g clock) := by
  obtain ⟨rfl, hempty⟩ := h
  unfold Waveform.commitConfig Generator.commitConfig
  dsimp only
  rw [rebuild_init]
  by_cases h1 : w.gen.config.state = .idle
  · rw [if_pos h1, if_pos h1]
    exact ⟨⟨rfl, hempty⟩, rfl⟩
  rw [if_neg h1, if_neg h1]
  by_cases h2 : w.gen.config.state = .rejected
  · rw [if_pos h2, if_pos h2]
    exact ⟨⟨rfl, hempty⟩, rfl⟩
  rw [if_neg h2, if_neg h2]
  by_cases h3 : w.gen.config.stagedCount ≠ w.gen.config.expectedCount ∨
      w.gen.config.blobCount ≠ w.gen.config.expectedBlobCount
  · rw [if_pos h3, if_pos h3]
    exact ⟨⟨rfl, hempty⟩, rfl⟩
  rw [if_neg h3, if_neg h3]
  by_cases h4 : w.gen.config.profileId ≠ profileIdCustom ∧
      w.gen.config.matchesProfile (customerProfileFind w.gen.config.profileId) = false
  · rw [if_pos h4, if_pos h4]
    exact ⟨⟨rfl, hempty⟩, rfl⟩
  rw [if_neg h4, if_neg h4]
  generalize ValueStore.commit w.gen.store = committed
  by_cases h5 : committed.2 ≠ .ok
  · rw [if_pos h5, if_pos h5]
    exact ⟨⟨rfl, hempty⟩, rfl⟩
  rw [if_neg h5, if_neg h5]
  generalize Generator.rebuild B committed.1 clock = rebuilt
  by_cases h6 : rebuilt.2 = false
  · rw [if_pos h6, if_pos h6]
    exact ⟨⟨rfl, rfl⟩, rfl⟩
  · rw [if_neg h6, if_neg h6]
    exact ⟨⟨rfl, rfl⟩, rfl⟩

theorem Agrees.setGlobalPercent (h : Agrees w g) (bp : UInt16) :
    SameResult (Waveform.setGlobalPercent w bp) (Generator.setGlobalPercent g bp) := by
  obtain ⟨rfl, hempty⟩ := h
  have hnone : ((List.range signalCount).countP fun i =>
      !isActive w.gen.store i && w.pool.isRegistered i) = 0 := by
    rw [List.countP_eq_zero]
    intro i _
    rw [isRegistered_empty hempty, Bool.and_false]
    exact Bool.false_ne_true
  refine ⟨⟨rfl, hempty⟩, ?_⟩
  unfold Waveform.setGlobalPercent
  dsimp only
  rw [hnone]
  obtain ⟨gen, status, report⟩ := Generator.setGlobalPercent w.gen bp
  have hzero : report.excluded + UInt16.ofNat 0 = report.excluded := UInt16.add_zero _
  dsimp only
  rw [hzero, ite_self]

/-- What a load comes to on either side of the commit. -/
theorem Agrees.commitLoaded (h : Agrees w g) (a : Persistence.App) (ha : a.gen = g)
    (info : Storage.Info) (startMs : UInt32) (clock : ℕ → UInt32) :
    SameResult
      (let (w, committed, report) := Waveform.commitConfig B w startMs clock
        if committed ≠ .ok then (w, .error .applyError)
        else if getConfigCrc w.gen.store ≠ info.configCrc then (w, .error .verifyError)
        else (w, .ok report))
      ((Persistence.commitLoaded B a info clock).map Persistence.App.gen id) := by
  have hcommit := h.commitConfig (B := B) startMs clock
  unfold Persistence.commitLoaded
  rw [ha]
  generalize Waveform.commitConfig B w startMs clock = r at hcommit ⊢
  generalize Generator.commitConfig B g clock = r' at hcommit ⊢
  obtain ⟨w', committed, report⟩ := r
  obtain ⟨g', committed', report'⟩ := r'
  obtain ⟨⟨rfl, hempty⟩, hresult⟩ := hcommit
  obtain ⟨rfl, rfl⟩ := Prod.mk.inj hresult
  dsimp only
  by_cases h1 : committed ≠ .ok
  · rw [if_pos h1, if_pos h1]
    exact ⟨⟨rfl, hempty⟩, rfl⟩
  rw [if_neg h1, if_neg h1]
  by_cases h2 : getConfigCrc w'.gen.store ≠ info.configCrc
  · rw [if_pos h2, if_pos h2]
    exact ⟨⟨rfl, hempty⟩, rfl⟩
  · rw [if_neg h2, if_neg h2]
    exact ⟨⟨rfl, hempty⟩, rfl⟩

theorem Agrees.load (h : Agrees w g) (memory : Storage.Memory) (startMs : UInt32)
    (clock : ℕ → UInt32) :
    SameResult (Waveform.load B w memory startMs clock)
      ((Persistence.load B ⟨g, memory, .empty⟩ clock).map Persistence.App.gen id) := by
  obtain ⟨rfl, hempty⟩ := h
  have hsame {β : Type} (g : Gen) (result : β) :
      SameResult ({ w with gen := g }, result) (g, result) := ⟨⟨rfl, hempty⟩, rfl⟩
  unfold Waveform.load Persistence.load
  by_cases hm : w.gen.isRunning ∨ configTransactionOpen w.gen
  · have hno : Persistence.App.canMutate ⟨w.gen, memory, .empty⟩ = false := by
      rw [Persistence.App.canMutate]
      rcases hm with hm | hm <;> simp [hm]
    rw [if_pos hm, if_pos hno]
    exact ⟨⟨rfl, hempty⟩, rfl⟩
  have hcan : Persistence.App.canMutate ⟨w.gen, memory, .empty⟩ ≠ false := by
    obtain ⟨hstopped, hclosed⟩ := not_or.mp hm
    rw [Persistence.App.canMutate]
    simp [hstopped, hclosed]
  rw [if_neg hm, if_neg hcan]
  rcases Storage.openLatest memory with ⟨memory, e | info⟩
  · exact hsame _ _
  dsimp only
  generalize Generator.beginProfileConfig B w.gen info.scalarCount info.blobCount
    info.profileId = begun
  by_cases hb : begun.2 ≠ .ok
  · rw [if_pos hb, if_pos hb]
    exact hsame _ _
  rw [if_neg hb, if_neg hb]
  unfold Persistence.applyLatest
  dsimp only
  rcases Storage.visitLatest memory (Persistence.loadRecord B) ⟨begun.1, true⟩ with
    ⟨memory', context, e | info'⟩
  · exact hsame _ _
  dsimp only
  by_cases hc : context.ok = false
  · rw [if_pos hc, if_pos hc]
    exact hsame _ _
  rw [if_neg hc, if_neg hc]
  have hagrees : Agrees { w with gen := context.gen } context.gen := ⟨rfl, hempty⟩
  have hend := hagrees.commitLoaded (B := B) ⟨context.gen, memory', .empty⟩ rfl info startMs clock
  dsimp only at hend ⊢
  exact hend

theorem Agrees.start (h : Agrees w g) (durationSec nowMs : UInt32) :
    Agrees (Waveform.start w durationSec nowMs) (Generator.start g durationSec nowMs) := by
  obtain ⟨rfl, hempty⟩ := h
  have hsignals : hasConfiguredSignals w = Generator.hasConfiguredSignals w.gen := by
    rw [hasConfiguredSignals, getSignalCount_empty hempty]
    rfl
  unfold Waveform.start Generator.start activeProfileCanStart
  rw [hsignals]
  by_cases hgo : w.gen.config.state ≠ .idle ∨ Generator.hasConfiguredSignals w.gen = false
  · rw [if_pos hgo, if_pos]
    · exact ⟨rfl, hempty⟩
    · rcases hgo with hgo | hgo <;> simp [hgo]
  · rw [if_neg hgo, if_neg]
    · exact ⟨rfl, reset_empty hempty nowMs⟩
    · rw [not_or, not_not] at hgo
      simp [hgo.1, hgo.2]

end Operations

/-! ## Runs -/

/-- **Step lemma.** -/
theorem agrees_step {w : Wave} {g : Gen} (B : Build) (h : Agrees w g) {op : Op}
    (hop : op.Constant) : SameResult (answer B w op) (plainAnswer B g op) := by
  cases op with
  | init baudKbps startMs => exact ⟨⟨rfl, rfl⟩, rfl⟩
  | setBaud baudKbps => exact ⟨⟨congrArg (setBaud · baudKbps) h.gen, h.empty⟩, rfl⟩
  | configSignal req nowMs => exact (h.configSignal req hop nowMs).map Answer.config
  | setConstantRaw key raw nowMs => exact (h.setConstantRaw key raw nowMs).map Answer.setConst
  | beginProfileConfig n m profileId =>
    exact h.lift (fun g => beginProfileConfig B g n m profileId) Answer.txn
  | stageConstantRaw key raw => exact h.lift (fun g => stageConstantRaw B g key raw) Answer.txn
  | stageBlobChunk key total offset chunk =>
    exact h.lift (fun g => stageBlobChunk B g key total offset chunk) fun r => Answer.chunk r.1 r.2
  | stageStringChunk key total offset chunk =>
    exact h.lift (fun g => stageStringChunk B g key total offset chunk) fun r => Answer.chunk r.1 r.2
  | commitConfig startMs clock =>
    exact (h.commitConfig (B := B) startMs clock).map fun r => Answer.commit r.1 r.2
  | abortConfig => exact ⟨⟨congrArg abortConfig h.gen, h.empty⟩, rfl⟩
  | setGlobalPercent bp => exact (h.setGlobalPercent bp).map fun r => Answer.percent r.1 r.2
  | load memory startMs clock => exact (h.load memory startMs clock).map Answer.load
  | loadDefaults startMs clock => exact hop.elim
  | clear startMs => exact ⟨⟨congrArg Generator.clear h.gen, rfl⟩, rfl⟩
  | start durationSec nowMs => exact ⟨h.start durationSec nowMs, rfl⟩
  | stop => exact ⟨⟨congrArg Generator.stop h.gen, stop_empty h.empty⟩, rfl⟩

/-- **Without waveforms the two builds are one**: from `App_Gen_Init` on, any
    operations that configure constants only give the same answers and the same
    generator, and the pool stays empty. -/
theorem builds_agree (B : Build) (baudKbps startMs : UInt32)
    (ops : List { op : Op // op.Constant }) :
    let wave := Mealy.run (fun w op => answer B w op.val) (init baudKbps startMs) ops
    let plain := Mealy.run (fun g op => plainAnswer B g op.val) (Generator.init baudKbps) ops
    wave.1.gen = plain.1 ∧ wave.1.pool.patterns = [] ∧ wave.2 = plain.2 := by
  have hstart : Agrees (init baudKbps startMs) (Generator.init baudKbps) := ⟨rfl, rfl⟩
  have hstep : ∀ w g (op : { op : Op // op.Constant }), Agrees w g →
      Agrees (answer B w op.val).1 (plainAnswer B g op.val).1 ∧
        (answer B w op.val).2 = (plainAnswer B g op.val).2 := by
    intro w g op h
    have hsame := agrees_step B h op.property
    exact ⟨hsame.state, hsame.result⟩
  obtain ⟨hend, houts⟩ := Mealy.run_simulation Eq hstep hstart ops
  exact ⟨hend.gen, hend.empty, List.forall₂_eq_eq_eq ▸ houts⟩

end J1939Gen.Waveform
