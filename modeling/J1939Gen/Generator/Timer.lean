import J1939Gen.Generator.Runs
import J1939Gen.Lib.SerialClock

/-!
# The timer of a run

Only `App_Gen_Start` sets the start time and the duration of a run, and only it starts
one; every other operation leaves both alone or stops the run.

* `TimerKept`: what an operation other than START does to them.
* `step_timer`: the operations.
* `process_stops_iff`: when `App_Gen_Process` stops a run.
-/

namespace J1939Gen.Generator

open ByteMem ValueStore Scheduler SerialClock

/-- A run that goes on is the run there was, with its start and its duration. -/
def TimerKept (g g' : Gen) : Prop :=
  g'.isRunning = true →
    g.isRunning = true ∧ g'.testStartMs = g.testStartMs ∧ g'.testDurationMs = g.testDurationMs

theorem TimerKept.refl (g : Gen) : TimerKept g g := fun hrun => ⟨hrun, rfl, rfl⟩

theorem TimerKept.stopped {g g' : Gen} (h : g'.isRunning = false) : TimerKept g g' := by
  intro hrun
  rw [h] at hrun
  exact absurd hrun Bool.false_ne_true

theorem TimerKept.trans {g g' g'' : Gen} (h : TimerKept g g') (h' : TimerKept g' g'') :
    TimerKept g g'' := by
  intro hrun
  obtain ⟨hrun', hs', hd'⟩ := h' hrun
  obtain ⟨hrun, hs, hd⟩ := h hrun'
  exact ⟨hrun, hs'.trans hs, hd'.trans hd⟩

/-- The three fields are the ones there were. -/
structure SameTimer (g g' : Gen) : Prop where
  isRunning : g'.isRunning = g.isRunning
  testStartMs : g'.testStartMs = g.testStartMs
  testDurationMs : g'.testDurationMs = g.testDurationMs

theorem SameTimer.refl (g : Gen) : SameTimer g g := ⟨rfl, rfl, rfl⟩

theorem SameTimer.trans {g g' g'' : Gen} (h : SameTimer g g') (h' : SameTimer g' g'') :
    SameTimer g g'' :=
  ⟨h'.isRunning.trans h.isRunning, h'.testStartMs.trans h.testStartMs,
    h'.testDurationMs.trans h.testDurationMs⟩

theorem SameTimer.kept {g g' : Gen} (h : SameTimer g g') : TimerKept g g' := by
  intro hrun
  rw [h.isRunning] at hrun
  exact ⟨hrun, h.testStartMs, h.testDurationMs⟩

/-! ## The operations -/

section

variable (B : Build) (g : Gen)

theorem setConstant_timer (i : ℕ) (raw nowMs : UInt32) :
    SameTimer g (setConstant B g i raw nowMs).1 := by
  unfold setConstant
  dsimp only
  cases checkRaw (signalAt i).signalKey raw <;> split_ifs <;> exact ⟨rfl, rfl, rfl⟩

theorem setConstantRaw_timer (key : UInt16) (raw nowMs : UInt32) :
    SameTimer g (setConstantRaw B g key raw nowMs).1 := by
  unfold setConstantRaw
  split_ifs
  · exact .refl g
  · cases indexFromKey key with
    | none => exact .refl g
    | some i => exact setConstant_timer B g i raw nowMs

theorem configSignal_timer (req : SignalRequest) (nowMs : UInt32) :
    SameTimer g (configSignal B g req nowMs).1 := by
  unfold configSignal
  dsimp only
  cases (if req.pgn ≠ 0 then catalogFindSignalIndex req.pgn req.spn
    else (findUniqueCatalogIndex req.spn).1) with
  | none => split_ifs <;> exact .refl g
  | some i =>
    have hset := setConstant_timer B g i (req.rawFromPhysical i) nowMs
    dsimp only
    split_ifs
    · exact .refl g
    · exact .refl g
    · exact .refl g
    · exact hset
    · exact .refl g

theorem beginProfileConfig_timer (n : UInt16) (m profileId : UInt8) :
    SameTimer g (beginProfileConfig B g n m profileId).1 := by
  unfold beginProfileConfig
  dsimp only
  split_ifs <;> exact ⟨rfl, rfl, rfl⟩

/-- A refused staging call leaves the timer alone. -/
theorem Refused.timer {g g' : Gen} (h : Refused g g') : SameTimer g g' := by
  cases h with
  | unchanged _ => exact .refl g
  | poisoned _ _ => exact ⟨rfl, rfl, rfl⟩

theorem stageConstantRaw_timer (key : UInt16) (raw : UInt32) :
    SameTimer g (stageConstantRaw B g key raw).1 := by
  rcases stageConstantRaw_cases B g key raw with ⟨-, hr⟩ | ⟨i, ha⟩
  · exact hr.timer
  · rw [stageConstantRaw_accept ha]
    exact ⟨rfl, rfl, rfl⟩

theorem stageBlobChunk_timer (key : UInt16) (total offset : UInt8) (chunk : Option Mem) :
    SameTimer g (stageBlobChunk B g key total offset chunk).1 := by
  rcases stageBlobChunk_cases B g key total offset chunk with ⟨-, hr⟩ | ⟨data, i, rfl, ha⟩
  · exact hr.timer
  · rw [stageBlobChunk_accept ha]
    exact ⟨rfl, rfl, rfl⟩

theorem stageStringChunk_timer (key : UInt16) (total offset : UInt8) (chunk : Option Mem) :
    SameTimer g (stageStringChunk B g key total offset chunk).1 := by
  rcases stageStringChunk_cases B g key total offset chunk with ⟨-, hr⟩ | heq
  · exact hr.timer
  · rw [heq]
    exact stageBlobChunk_timer B g key total offset chunk

theorem commitConfig_timer (clock : ℕ → UInt32) : SameTimer g (commitConfig B g clock).1 := by
  unfold commitConfig Gen.closeConfig
  dsimp only
  generalize rebuild B (commit g.store).1 clock = rebuilt
  generalize commit g.store = committed
  split_ifs <;> exact ⟨rfl, rfl, rfl⟩

theorem setGlobalPercent_timer (bp : UInt16) : SameTimer g (setGlobalPercent g bp).1 := by
  unfold setGlobalPercent
  dsimp only
  generalize List.range signalCount = records
  split_ifs <;> exact ⟨rfl, rfl, rfl⟩

theorem foldl_addDefaultConstant_timer (clock : ℕ → UInt32) (defaults : List (UInt16 × UInt32)) :
    SameTimer g (defaults.foldl (addDefaultConstant B clock) g) := by
  induction defaults generalizing g with
  | nil => exact .refl g
  | cons d defaults ih =>
    refine SameTimer.trans ?_ (ih _)
    unfold addDefaultConstant
    cases indexFromKey d.1 with
    | none => exact .refl g
    | some i => exact setConstant_timer B g i d.2 (clock i)

theorem loadDefaults_timer (clock : ℕ → UInt32) : SameTimer g (loadDefaults B g clock) := by
  obtain ⟨hrun, hs, hd⟩ := foldl_addDefaultConstant_timer B
    { abortConfig g with sched := Sched.clear, store := storeClear (abortConfig g).store } clock
    defaultConstants
  exact ⟨hrun, hs, hd⟩

theorem stop_timer : TimerKept g (stop g) := .stopped rfl

theorem stopElapsed_timer (nowMs : UInt32) : TimerKept g (stopElapsed g nowMs) := by
  unfold stopElapsed
  split_ifs
  · exact stop_timer g
  · exact .refl g

/-- The scheduler tick leaves the timer to `stopElapsed`. -/
theorem process_same (nowMs : UInt32) (link : ℕ → LinkStatus) :
    SameTimer (stopElapsed g nowMs) (process g nowMs link).1 := by
  unfold process
  dsimp only
  split_ifs
  · exact .refl _
  · exact ⟨rfl, rfl, rfl⟩

/-- A START that is accepted sets the timer; another one changes nothing. -/
theorem start_cases (durationSec nowMs : UInt32) :
    activeProfileCanStart g = true ∧ (start g durationSec nowMs).isRunning = true ∧
        (start g durationSec nowMs).testStartMs = nowMs ∧
        (start g durationSec nowMs).testDurationMs = durationSec * 1000 ∨
      activeProfileCanStart g = false ∧ start g durationSec nowMs = g := by
  unfold start
  by_cases hgate : activeProfileCanStart g = false
  · rw [if_pos hgate]
    exact .inr ⟨hgate, rfl⟩
  · rw [if_neg hgate]
    exact .inl ⟨by simpa using hgate, rfl, rfl, rfl⟩

/-- **Operations.** -/
theorem step_timer (op : Op) (hstart : ∀ durationSec nowMs, op ≠ .start durationSec nowMs) :
    TimerKept g (step B g op) := by
  cases op with
  | init baudKbps => exact .stopped rfl
  | setBaud baudKbps => exact SameTimer.kept ⟨rfl, rfl, rfl⟩
  | configSignal req nowMs => exact (configSignal_timer B g req nowMs).kept
  | setConstantRaw key raw nowMs => exact (setConstantRaw_timer B g key raw nowMs).kept
  | beginProfileConfig n m profileId => exact (beginProfileConfig_timer B g n m profileId).kept
  | stageConstantRaw key raw => exact (stageConstantRaw_timer B g key raw).kept
  | stageBlobChunk key total offset chunk =>
    exact (stageBlobChunk_timer B g key total offset chunk).kept
  | stageStringChunk key total offset chunk =>
    exact (stageStringChunk_timer B g key total offset chunk).kept
  | commitConfig clock => exact (commitConfig_timer B g clock).kept
  | abortConfig => exact SameTimer.kept ⟨rfl, rfl, rfl⟩
  | setGlobalPercent bp => exact (setGlobalPercent_timer g bp).kept
  | loadDefaults clock => exact (loadDefaults_timer B g clock).kept
  | clear => exact .stopped rfl
  | start durationSec nowMs => exact absurd rfl (hstart durationSec nowMs)
  | stop => exact stop_timer g
  | process nowMs link => exact (stopElapsed_timer g nowMs).trans (process_same g nowMs link).kept
  | noteBusRecovered =>
    refine SameTimer.kept ?_
    show SameTimer g (noteBusRecovered g)
    unfold noteBusRecovered
    split_ifs <;> exact ⟨rfl, rfl, rfl⟩

end

/-! ## The end of a run -/

/-- `App_Gen_Process` stops a run with a duration at the first call at which the unsigned
difference to the start has reached it. -/
theorem process_stops_iff {g : Gen} (hrun : g.isRunning = true)
    (hd : 0 < g.testDurationMs.toNat) (nowMs : UInt32) (link : ℕ → LinkStatus) :
    (process g nowMs link).1.isRunning = false ↔
      g.testDurationMs.toNat ≤ (nowMs - g.testStartMs).toNat := by
  rw [(process_same g nowMs link).isRunning]
  unfold stopElapsed
  have hpos : g.testDurationMs > 0 := UInt32.lt_iff_toNat_lt.2 hd
  by_cases hend : nowMs - g.testStartMs ≥ g.testDurationMs
  · rw [if_pos ⟨hrun, hpos, hend⟩]
    exact ⟨fun _ => UInt32.le_iff_toNat_le.1 hend, fun _ => rfl⟩
  · rw [if_neg (fun h => hend h.2.2), hrun]
    exact ⟨fun h => absurd h (by decide), fun h => absurd (UInt32.le_iff_toNat_le.2 h) hend⟩

end J1939Gen.Generator
