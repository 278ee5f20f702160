import J1939Gen.Generator.Runs
import J1939Gen.Scheduler.Delivered

/-!
# Payloads over a run of the generator

Ticks of the scheduler with any answers of the link, between any calls of
`app_generator.h`. No call touches what is packed: it may only drop the queue
or cancel the BAM.

* `step_quiet`: what a call does to the queue and the BAM buffer.
* `kept_after`: the queue and the buffer after any run.
* `payloads_are_snapshots`: every accepted frame and every completed message is
  a snapshot of the bank of the tick that scheduled it.
-/

namespace J1939Gen.Generator

open ByteMem ValueStore Scheduler

/-! ## Calls keep the queue -/

theorem addPgn_quiet {B : Build} {s s' : Sched} {p : ℕ} {nowMs : UInt32}
    (h : s.addPgn B p nowMs = some s') : Quiet s s' := by
  unfold Sched.addPgn at h
  cases hfind : s.findPgn p with
  | some e =>
    rw [hfind] at h
    dsimp only at h
    obtain rfl := Option.some.inj h
    exact .refl s
  | none =>
    rw [hfind] at h
    dsimp only at h
    by_cases hfull : s.pgns.length ≥ B.pgnCapacity
    · rw [if_pos hfull] at h
      cases h
    rw [if_neg hfull] at h
    obtain rfl := Option.some.inj h
    refine ⟨fun _ he => he, fun _ => ?_, .inl rfl⟩
    rw [Sched.indices, Sched.indices, List.map_append]
    exact List.prefix_append _ _

theorem addCatalogSignal_quiet (B : Build) (s : Sched) (store : Store) (i : ℕ) (nowMs : UInt32) :
    Quiet s (s.addCatalogSignal B store i nowMs).1 := by
  unfold Sched.addCatalogSignal
  dsimp only
  by_cases hroom : s.canAddCatalogSignal B store i = false
  · rw [if_pos hroom]
    exact .refl s
  rw [if_neg hroom]
  by_cases hs : pgnIsSchedulable (pgnAt (signalAt i).pgnIndex) = false
  · rw [if_pos hs]
    exact .refl s
  rw [if_neg hs]
  cases hadd : s.addPgn B (signalAt i).pgnIndex nowMs with
  | none => exact .refl s
  | some s' => exact addPgn_quiet hadd

theorem setConstant_quiet (B : Build) (g : Gen) (i : ℕ) (raw nowMs : UInt32) :
    Quiet g.sched (setConstant B g i raw nowMs).1.sched := by
  unfold setConstant
  by_cases hi : i ≥ signalCount
  · rw [if_pos hi]
    exact .refl _
  rw [if_neg hi]
  by_cases hshort : isShortScalar i = false
  · rw [if_pos hshort]
    exact .refl _
  rw [if_neg hshort]
  dsimp only
  cases checkRaw (signalAt i).signalKey raw with
  | ok =>
    dsimp only
    by_cases hroom : g.sched.canAddCatalogSignal B g.store i = false
    · rw [if_pos hroom]
      exact .refl _
    rw [if_neg hroom]
    by_cases hst : (storeUpdate g.store (signalAt i).signalKey true raw).2 ≠ .ok
    · rw [if_pos hst]
      exact .refl _
    rw [if_neg hst]
    exact addCatalogSignal_quiet B g.sched _ i nowMs
  | _ => exact .refl _

theorem foldl_rebuildStep_quiet (B : Build) (store : Store) (clock : ℕ → UInt32) (records : List ℕ)
    (acc : Sched × Bool) : Quiet acc.1 (records.foldl (rebuildStep B store clock) acc).1 := by
  induction records generalizing acc with
  | nil => exact .refl _
  | cons i records ih =>
    refine Quiet.trans ?_ (ih _)
    unfold rebuildStep
    split_ifs
    · exact addCatalogSignal_quiet B acc.1 store i (clock i)
    · exact .refl _

theorem commitConfig_quiet (B : Build) (g : Gen) (clock : ℕ → UInt32) :
    Quiet g.sched (commitConfig B g clock).1.sched := by
  have hrebuild : ∀ store, Quiet g.sched (rebuild B store clock).1 := fun store =>
    (Quiet.clear g.sched).trans (foldl_rebuildStep_quiet B store clock _ (Sched.clear, true))
  unfold commitConfig
  dsimp only
  by_cases h1 : g.config.state = .idle
  · rw [if_pos h1]
    exact Quiet.refl g.sched
  rw [if_neg h1]
  by_cases h2 : g.config.state = .rejected
  · rw [if_pos h2]
    exact Quiet.refl g.sched
  rw [if_neg h2]
  by_cases h3 : g.config.stagedCount ≠ g.config.expectedCount ∨
      g.config.blobCount ≠ g.config.expectedBlobCount
  · rw [if_pos h3]
    exact Quiet.refl g.sched
  rw [if_neg h3]
  by_cases h4 : g.config.profileId ≠ profileIdCustom ∧
      g.config.matchesProfile (customerProfileFind g.config.profileId) = false
  · rw [if_pos h4]
    exact Quiet.refl g.sched
  rw [if_neg h4]
  have hr := hrebuild (commit g.store).1
  by_cases h5 : (commit g.store).2 ≠ .ok
  · rw [if_pos h5]
    dsimp only [Gen.closeConfig]
    exact Quiet.refl g.sched
  rw [if_neg h5]
  by_cases h6 : (rebuild B (commit g.store).1 clock).2 = false
  · rw [if_pos h6]
    exact Quiet.clear g.sched
  rw [if_neg h6]
  exact hr

theorem setGlobalPercent_quiet (g : Gen) (bp : UInt16) :
    Quiet g.sched (setGlobalPercent g bp).1.sched := by
  unfold setGlobalPercent
  dsimp only
  split_ifs <;> exact .refl _

theorem configSignal_quiet (B : Build) (g : Gen) (req : SignalRequest) (nowMs : UInt32) :
    Quiet g.sched (configSignal B g req nowMs).1.sched := by
  unfold configSignal
  dsimp only
  by_cases hopen : g.config.state ≠ .idle
  · rw [if_pos hopen]
    exact .refl _
  rw [if_neg hopen]
  by_cases hamb : req.pgn = 0 ∧ (findUniqueCatalogIndex req.spn).2 > 1
  · rw [if_pos hamb]
    exact .refl _
  rw [if_neg hamb]
  generalize (if req.pgn ≠ 0 then catalogFindSignalIndex req.pgn req.spn
    else (findUniqueCatalogIndex req.spn).1) = found
  cases found with
  | none => exact .refl _
  | some i =>
    dsimp only
    split_ifs
    · exact .refl _
    · exact setConstant_quiet B g i (req.rawFromPhysical i) nowMs
    · exact .refl _

theorem setConstantRaw_quiet (B : Build) (g : Gen) (key : UInt16) (raw nowMs : UInt32) :
    Quiet g.sched (setConstantRaw B g key raw nowMs).1.sched := by
  unfold setConstantRaw
  by_cases hopen : g.config.state ≠ .idle
  · rw [if_pos hopen]
    exact .refl _
  rw [if_neg hopen]
  cases indexFromKey key with
  | none => exact .refl _
  | some i => exact setConstant_quiet B g i raw nowMs

theorem foldl_addDefaultConstant_quiet (B : Build) (clock : ℕ → UInt32)
    (defaults : List (UInt16 × UInt32)) (g : Gen) :
    Quiet g.sched (defaults.foldl (addDefaultConstant B clock) g).sched := by
  induction defaults generalizing g with
  | nil => exact .refl _
  | cons d defaults ih =>
    refine Quiet.trans ?_ (ih _)
    unfold addDefaultConstant
    cases indexFromKey d.1 with
    | none => exact .refl _
    | some i => exact setConstant_quiet B g i d.2 (clock i)

theorem quiet_cancel (s : Sched) : Quiet s { s with tp := Tp.cancel s.tp } :=
  ⟨fun _ he => he, fun _ => List.prefix_refl _, .inr (by simp [Tp.cancel])⟩

theorem start_quiet (g : Gen) (durationSec nowMs : UInt32) :
    Quiet g.sched (start g durationSec nowMs).sched := by
  unfold start
  split_ifs
  · exact .refl _
  · refine ⟨fun _ he => ?_, fun hne => absurd rfl hne, .inr (by simp [Sched.resetTimers, Tp.cancel])⟩
    cases he

theorem stopElapsed_quiet (g : Gen) (nowMs : UInt32) :
    Quiet g.sched (stopElapsed g nowMs).sched := by
  unfold stopElapsed
  split_ifs
  · exact quiet_cancel g.sched
  · exact .refl _

/-! ## Runs -/

/-- What happens to the generator: a call of `app_generator.h`, or a tick of the
    scheduler by itself. -/
inductive Input
  | call (op : Op)
  | tick (nowMs : UInt32) (link : ℕ → LinkStatus)

/-- The state after an input. -/
def next (B : Build) (g : Gen) : Input → Gen
  | .call op => step B g op
  | .tick nowMs link => { g with sched := (tick g.store nowMs link g.sched).sched }

/-- The events of an input: those of the tick, if there is one. -/
def events (g : Gen) : Input → List Event
  | .call (.process nowMs link) => (process g nowMs link).2
  | .call _ => []
  | .tick nowMs link => (tick g.store nowMs link g.sched).events

/-- One input; each event with the store the tick found active. -/
def logStep (B : Build) (g : Gen) (input : Input) : Gen × Log :=
  (next B g input, (events g input).map (Prod.mk g.store))

/-- No call but `App_Gen_Process` touches what is packed. -/
theorem step_quiet {B : Build} {g : Gen} {c : Contents} (h : Inv B g c) (op : Op)
    (hop : ∀ nowMs link, op ≠ .process nowMs link) : Quiet g.sched (step B g op).sched := by
  have huntouched : ∀ {g'}, Untouched g g' → Quiet g.sched g'.sched := fun hu => by
    rw [hu.sched]
    exact .refl _
  cases op with
  | init baudKbps => exact .clear _
  | setBaud baudKbps => exact quiet_cancel g.sched
  | configSignal req nowMs => exact configSignal_quiet B g req nowMs
  | setConstantRaw key raw nowMs => exact setConstantRaw_quiet B g key raw nowMs
  | beginProfileConfig n m profileId => exact huntouched (h.beginProfileConfig n m profileId).2
  | stageConstantRaw key raw => exact huntouched (h.stageConstantRaw key raw).2
  | stageBlobChunk key total offset chunk =>
    exact huntouched (h.stageBlobChunk key total offset chunk).2
  | stageStringChunk key total offset chunk =>
    exact huntouched (h.stageStringChunk key total offset chunk).2
  | commitConfig clock => exact commitConfig_quiet B g clock
  | abortConfig => exact .refl _
  | setGlobalPercent bp => exact setGlobalPercent_quiet g bp
  | loadDefaults clock =>
    exact (Quiet.clear g.sched).trans (foldl_addDefaultConstant_quiet B clock defaultConstants
      { Generator.abortConfig g with
        sched := Sched.clear, store := storeClear (Generator.abortConfig g).store })
  | clear => exact .clear _
  | start durationSec nowMs => exact start_quiet g durationSec nowMs
  | stop => exact quiet_cancel g.sched
  | process nowMs link => exact absurd rfl (hop nowMs link)
  | noteBusRecovered =>
    show Quiet g.sched (noteBusRecovered g).sched
    unfold noteBusRecovered
    split_ifs <;> exact .refl _

theorem Inv.slotsOk {B : Build} {g : Gen} {c : Contents} (h : Inv B g c) : SlotsOk g.sched :=
  fun p hp => c.pgns_lt ((h.active.scheduled.mem p).mp hp)

/-- A tick by itself keeps the invariant: only the scheduler moves. -/
theorem Inv.tick {B : Build} {g : Gen} {c : Contents} (h : Inv B g c) (nowMs : UInt32)
    (link : ℕ → LinkStatus) : Inv B (next B g (.tick nowMs link)) c := by
  refine ⟨⟨h.active.holds, h.active.scheduled.congr ?_, h.active.signalCapacity,
    h.active.pgnCapacity⟩, ⟨h.txn.idle, fun ho => ?_, h.txn.stopped⟩, h.locked, h.running⟩
  · exact tick_indices g.store nowMs link g.sched
  · exact (h.txn.opened ho).imp fun _ hd => ⟨ho, hd.draft, hd.staged, hd.target⟩

/-- **Step lemma.** -/
theorem kept_step {B : SupportedBuild} {g : Gen} {log : Log} (input : Input)
    (h : (∃ c, Inv B.val g c) ∧ Kept g.sched log) :
    (∃ c, Inv B.val (logStep B.val g input).1 c) ∧
      Kept (logStep B.val g input).1.sched (log ++ (logStep B.val g input).2) := by
  obtain ⟨⟨c, hinv⟩, hkept⟩ := h
  cases input with
  | tick nowMs link =>
    exact ⟨⟨c, hinv.tick nowMs link⟩,
      hkept.tick hinv.active.holds.wf hinv.slotsOk nowMs link⟩
  | call op =>
    refine ⟨inv_step hinv op, ?_⟩
    by_cases hop : ∀ nowMs link, op ≠ .process nowMs link
    · have hnone : events g (.call op) = [] := by
        cases op with
        | process nowMs link => exact absurd rfl (hop nowMs link)
        | _ => rfl
      rw [logStep, hnone, List.map_nil, List.append_nil]
      exact hkept.quiet (step_quiet hinv op hop)
    · simp only [not_forall, not_not] at hop
      obtain ⟨nowMs, link, rfl⟩ := hop
      have hstop := hinv.stopElapsed nowMs
      have hstore : (stopElapsed g nowMs).store = g.store := by
        unfold stopElapsed stop
        split_ifs <;> rfl
      have hkept' := hkept.quiet (stopElapsed_quiet g nowMs)
      show Kept (process g nowMs link).1.sched
        (log ++ (process g nowMs link).2.map (Prod.mk g.store))
      unfold process
      dsimp only
      by_cases hquiet : (stopElapsed g nowMs).isRunning = false ∨
          (stopElapsed g nowMs).sched.pgns.length = 0
      · rw [if_pos hquiet, List.map_nil, List.append_nil]
        exact hkept'
      rw [if_neg hquiet, ← hstore]
      exact hkept'.tick hstop.active.holds.wf hstop.slotsOk nowMs link

/-- The invariant of a run: the generator's own, and what the log justifies. -/
def Justifies (B : Build) (g : Gen) (logs : List Log) : Prop :=
  (∃ c, Inv B g c) ∧ Kept g.sched logs.flatten

/-- **Run lemma.** The queue and the BAM buffer after `App_Gen_Init` and any run. -/
theorem kept_after (B : SupportedBuild) (baudKbps : UInt32) (inputs : List Input) :
    let run := Mealy.run (logStep B.val) (init baudKbps) inputs
    Justifies B.val run.1 run.2 := by
  intro run
  have hstep : ∀ (g : Gen) logs input, Justifies B.val g logs →
      Justifies B.val (logStep B.val g input).1 (logs ++ [(logStep B.val g input).2]) := by
    intro g logs input h
    unfold Justifies
    rw [List.flatten_append, List.flatten_singleton]
    exact kept_step input h
  have hstart : Justifies B.val (init baudKbps) [] := ⟨⟨_, inv_init B.val baudKbps⟩, Kept.empty⟩
  exact Mealy.run_trace_invariant hstep hstart inputs

/-- Every single frame the link accepts and every multi-packet message that
    completes is the packing of the one bank that was active in the tick that
    queued or started it, however the configuration has changed since. -/
theorem payloads_are_snapshots (B : SupportedBuild) (baudKbps : UInt32) (inputs : List Input) :
    History.Every Justified (Mealy.run (logStep B.val) (init baudKbps) inputs).2.flatten :=
  (kept_after B baudKbps inputs).2.justified

end J1939Gen.Generator
