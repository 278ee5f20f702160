import J1939Gen.Operation.Model

/-!
# The autostart fires at most once

Only `App_Boot_Restore` makes an autostart pending. Every other step leaves it as
it is or ends it, and one that accepts a START or a STOP, or starts the generator
by itself, ends it.

* `Settles`: what one step does with a pending autostart, with `trans`.
* `execute_settles`, `processLine_settles`, `tryAutostart_settles`: the steps.
* `restore_pending`: when a restore leaves it pending.
* `autostart_once`: the main result.
-/

namespace J1939Gen.Operation

open ByteMem Storage Generator Scheduler Boot Control

/-! ## One step -/

/-- Only an autostart that was pending is pending afterwards, and only if nothing
    was accepted and nothing fired in between. -/
def Settles (n n' : Node) (s : Seen) : Prop :=
  n'.info.autostart = .pending → n.info.autostart = .pending ∧ s.decisions = [] ∧ s.fired = false

theorem Settles.same {n n' : Node} (h : n'.info = n.info) : Settles n n' .none := by
  intro hp
  rw [h] at hp
  exact ⟨hp, rfl, rfl⟩

theorem Settles.ended {n n' : Node} (s : Seen) (h : n'.info.autostart ≠ .pending) :
    Settles n n' s := fun hp => absurd hp h

theorem Settles.trans {n n' n'' : Node} {s t : Seen} (h : Settles n n' s) (h' : Settles n' n'' t) :
    Settles n n'' (s.append t) := by
  intro hp
  obtain ⟨hp', hd', hf'⟩ := h' hp
  obtain ⟨hp, hd, hf⟩ := h hp'
  refine ⟨hp, ?_, ?_⟩
  · show s.decisions ++ t.decisions = []
    rw [hd, hd']
    rfl
  · show (s.fired || t.fired) = false
    rw [hf, hf']
    rfl

theorem cancelAutostart_ended (n : Node) : (cancelAutostart n).info.autostart ≠ .pending := by
  unfold cancelAutostart
  by_cases hp : n.info.autostart = .pending
  · rw [if_pos hp]
    show Autostart.cancelled ≠ .pending
    decide
  · rw [if_neg hp]
    exact hp

/-- A call of `App_Boot_Try_Autostart` that starts the generator finds the
    autostart pending and the gate open; any other leaves the application alone. -/
theorem tryAutostart_cases (n : Node) (nowMs : UInt32) :
    (tryAutostart n nowMs).2 = true ∧ n.info.autostart = .pending ∧
        activeProfileCanStart n.app.gen = true ∧
        (tryAutostart n nowMs).1.app.gen.isRunning = true ∧
        (tryAutostart n nowMs).1.info.autostart ≠ .pending ∨
      (tryAutostart n nowMs).2 = false ∧ (tryAutostart n nowMs).1.app = n.app ∧
        (tryAutostart n nowMs).1.info.autostart ≠ .pending := by
  unfold tryAutostart
  by_cases hp : n.info.autostart ≠ .pending
  · rw [if_pos hp]
    exact .inr ⟨rfl, rfl, hp⟩
  rw [if_neg hp]
  by_cases hcan : activeProfileCanStart n.app.gen = false
  · rw [if_pos hcan]
    refine .inr ⟨rfl, rfl, ?_⟩
    show Autostart.notStartable ≠ .pending
    decide
  rw [if_neg hcan]
  refine .inl ⟨rfl, not_not.mp hp, by simpa using hcan, ?_, ?_⟩
  · show (start n.app.gen 0 nowMs).isRunning = true
    unfold start
    rw [if_neg hcan]
  · show Autostart.started ≠ .pending
    decide

theorem tryAutostart_settles (n : Node) (nowMs : UInt32) :
    Settles n (tryAutostart n nowMs).1 (.tried (tryAutostart n nowMs).2) := by
  apply Settles.ended
  rcases tryAutostart_cases n nowMs with ⟨-, -, -, -, h⟩ | ⟨-, -, h⟩
  · exact h
  · exact h

/-! ## Requests -/

@[simp] theorem withGen_info (n : Node) (gen : Gen) : (withGen n gen).info = n.info := rfl

@[simp] theorem withApp_info (n : Node) (app : Persistence.App) : (withApp n app).info = n.info :=
  rfl

/-- Only START and STOP touch the autostart. -/
theorem handle_info (B : Build) (n : Node) (sequence : UInt8) (data : Mem) (env : Env) {op : Opcode}
    (hstart : op ≠ .start) (hstop : op ≠ .stop) :
    (handle B n sequence data env op).1.info = n.info := by
  rcases handle_calls B n sequence data env hstart hstop with heq | ⟨_, -, heq⟩
  · rw [heq]
  · rw [heq, withApp_info]

theorem persistenceResponse_opcode {α : Type} (op : Opcode) (sequence : UInt8)
    (result : Except Persistence.Status α) (detail : α → UInt8) (value : α → UInt32) :
    (persistenceResponse op sequence result detail value).opcode = op.code ||| responseMask := by
  cases result <;> rfl

/-- The response echoes the opcode of its request. -/
theorem handle_opcode (B : Build) (n : Node) (sequence : UInt8) (data : Mem) (env : Env)
    (op : Opcode) : (handle B n sequence data env op).2.opcode = op.code ||| responseMask := by
  cases op with
  | start => unfold handle handleStart; dsimp only; split_ifs <;> rfl
  | stop => unfold handle handleStop; dsimp only; split_ifs <;> rfl
  | tc1001 => unfold handle handleTc1001; dsimp only; split_ifs <;> rfl
  | getStatus => unfold handle handleGetStatus; dsimp only; split_ifs <;> rfl
  | clearConfig => unfold handle handleClearConfig; dsimp only; split_ifs <;> rfl
  | setConst =>
    unfold handle handleSetConst
    dsimp only
    cases (setConstantRaw B n.app.gen (readU16 data 2) (readU32 data 4) env.handlerMs).2 <;> rfl
  | beginConfig => unfold handle handleBeginConfig; dsimp only; split_ifs <;> rfl
  | setGlobalPercent => unfold handle handleSetGlobalPercent; split_ifs <;> rfl
  | commitConfig => unfold handle handleCommitConfig; split_ifs <;> rfl
  | abortConfig => unfold handle handleAbortConfig; dsimp only; split_ifs <;> rfl
  | saveConfig =>
    unfold handle handleSaveConfig
    split_ifs
    · rfl
    · exact persistenceResponse_opcode _ _ _ _ _
  | loadSavedConfig =>
    unfold handle handleLoadSaved
    split_ifs
    · rfl
    · exact persistenceResponse_opcode _ _ _ _ _
  | eraseSavedConfig =>
    unfold handle handleEraseSaved
    split_ifs
    · rfl
    · exact persistenceResponse_opcode _ _ _ _ _
  | setAutostart =>
    unfold handle handleSetAutostart
    split_ifs
    · rfl
    · exact persistenceResponse_opcode _ _ _ _ _
  | setSignalRaw | writeBlob | setString => rfl

/-- No other response accepts a command. -/
theorem decisionOf_other {r : Response} {op : Opcode} (h : r.opcode = op.code ||| responseMask)
    (hstart : op ≠ .start) (hstop : op ≠ .stop) : decisionOf r = none := by
  unfold decisionOf
  rw [h]
  cases op with
  | start => exact absurd rfl hstart
  | stop => exact absurd rfl hstop
  | _ => split_ifs <;> first | rfl | exact absurd ‹_› (by decide)

/-- What a response accepted. -/
def decided (r : Response) : Seen := ⟨(decisionOf r).toList, false⟩

theorem decided_of_none {r : Response} (h : decisionOf r = none) : decided r = .none := by
  unfold decided
  rw [h]
  rfl

/-- A START that was refused leaves the node alone. -/
theorem handleStart_settles (n : Node) (sequence : UInt8) (data : Mem) (nowMs : UInt32) :
    Settles n (handleStart n sequence data nowMs).1 (decided (handleStart n sequence data nowMs).2) := by
  unfold handleStart
  dsimp only
  split_ifs
  · exact .same rfl
  · exact .same rfl
  · exact .ended _ (cancelAutostart_ended n)

theorem handleStop_settles (n : Node) (sequence : UInt8) (data : Mem) :
    Settles n (handleStop n sequence data).1 (decided (handleStop n sequence data).2) := by
  unfold handleStop
  dsimp only
  split_ifs
  · exact .same rfl
  · exact .ended _ (cancelAutostart_ended n)

/-- **Requests.** -/
theorem execute_settles (B : Build) (n : Node) (data : Mem) (env : Env) :
    Settles n (execute B n data env).1 (decided (execute B n data env).2) := by
  unfold execute
  cases Opcode.ofByte (data 0) with
  | none => exact .same rfl
  | some op =>
    by_cases hstart : op = .start
    · rw [hstart]
      exact handleStart_settles n _ _ _
    by_cases hstop : op = .stop
    · rw [hstop]
      exact handleStop_settles n _ _
    dsimp only
    rw [decided_of_none (decisionOf_other (handle_opcode B n _ _ _ op) hstart hstop)]
    exact .same (handle_info B n _ _ _ hstart hstop)

/-- **Frames.** -/
theorem route_settles (B : Build) (d : Device) (f : RxFrame) :
    Settles d.node (route B d f).1.node (.ofOutcome (route B d f).2) := by
  rcases route_cases B d f with ⟨hn, ho⟩ | ⟨hn, ho⟩
  · rw [hn]
    have hnone : Seen.ofOutcome (route B d f).2 = .none := by
      cases h : (route B d f).2 with
      | executed r => exact absurd h (ho r)
      | _ => rfl
    rw [hnone]
    exact .same rfl
  · rw [hn, ho]
    exact execute_settles B d.node f.data f.env

/-! ## Command lines -/

/-- **Lines.** -/
theorem processLine_settles (B : Build) (n : Node) (c : CliCommand) :
    Settles n (processLine B n c).1 (.ofLine (processLine B n c).2) := by
  cases c with
  | start durationSec nowMs => exact .ended _ (cancelAutostart_ended n)
  | stop => exact .ended _ (cancelAutostart_ended n)
  | baud baudKbps =>
    show Settles n (cmdBaud n baudKbps).1 (.ofLine (cmdBaud n baudKbps).2)
    unfold cmdBaud
    split_ifs <;> exact .same rfl
  | config req nowMs =>
    show Settles n (withGen n (configSignal B n.app.gen req nowMs).1) .none
    exact .same (withGen_info _ _)
  | clear =>
    show Settles n (withGen n (clear n.app.gen)) .none
    exact .same (withGen_info _ _)
  | cantest =>
    show Settles n (withGen n (setBaud n.app.gen n.app.gen.baudKbps)) .none
    exact .same (withGen_info _ _)

/-! ## The restore -/

/-- The newest valid image in the flash carries the AUTOSTART flag. -/
def carriesAutostart (m : Memory) : Bool :=
  match (openLatest m).2 with
  | .ok info => info.flags &&& flagAutostart ≠ 0
  | .error _ => false

theorem getInfo_autostart (a : Persistence.App) :
    (Persistence.getInfo a).2.2.autostart = carriesAutostart a.memory := by
  unfold Persistence.getInfo carriesAutostart
  cases h : openLatest a.memory with
  | mk memory result => cases result <;> rfl

theorem requestAutostart_pending {suppress : Bool} (h : requestAutostart suppress = .pending) :
    suppress = false := by
  cases suppress with
  | false => rfl
  | true => exact absurd h (by decide)

theorem restoreStored_pending {B : Build} {n : Node} {stored : Storage.Info}
    {autostart suppress : Bool} {clock : ℕ → UInt32} (hoff : n.info.autostart = .off)
    (h : (restoreStored B n stored autostart suppress clock).info.autostart = .pending) :
    suppress = false ∧ autostart = true ∧
      (restoreStored B n stored autostart suppress clock).info.result = .loaded := by
  unfold restoreStored at h ⊢
  rcases hload : Persistence.load B n.app clock with ⟨app, status | report⟩
  · rw [hload] at h
    exact absurd h (by simp [fail])
  · rw [hload] at h
    cases autostart with
    | false =>
      rw [show (if false = true then requestAutostart suppress else n.info.autostart) = .off from
        hoff] at h
      have hne : Autostart.off = .pending := h
      cases hne
    | true => exact ⟨requestAutostart_pending h, rfl, rfl⟩

/-- **The restore.** It leaves an autostart pending only outside safe mode, after
    it loaded an image that carries the flag, or the defaults. -/
theorem restore_pending {B : Build} {n : Node} {suppress useDefaults : Bool} {clock : ℕ → UInt32}
    (h : (restore B n suppress useDefaults clock).info.autostart = .pending) :
    suppress = false ∧
      ((restore B n suppress useDefaults clock).info.result = .loaded ∧
          carriesAutostart n.app.memory = true ∨
        (restore B n suppress useDefaults clock).info.result = .defaults ∧ useDefaults = true) := by
  have hflag := getInfo_autostart n.app
  unfold restore at h ⊢
  dsimp only at h ⊢
  generalize hinfo : Persistence.getInfo n.app = r at h hflag ⊢
  obtain ⟨app, status, info⟩ := r
  dsimp only at h hflag ⊢
  split_ifs at h ⊢ with hempty hdefaults hok hbit
  · exact ⟨requestAutostart_pending h, .inr ⟨rfl, hdefaults⟩⟩
  · exact absurd h (by simp [BootInfo.start])
  · exact absurd h (by simp [fail])
  · exact absurd h (by simp [fail])
  · obtain ⟨hs, ha, hl⟩ := restoreStored_pending rfl h
    exact ⟨hs, .inl ⟨hl, hflag ▸ ha⟩⟩

/-! ## One boot -/

/-- **Acts.** -/
theorem act_settles (B : Build) (d : Device) (a : Act) :
    Settles d.node (act B d a).1.node (act B d a).2 := by
  cases a with
  | call op => exact .same (withApp_info _ _)
  | tryAutostart nowMs => exact tryAutostart_settles d.node nowMs
  | cancelAutostart => exact .ended _ (cancelAutostart_ended d.node)
  | frame f => exact route_settles B d f
  | process nowMs link => exact .same rfl
  | line c => exact processLine_settles B d.node c

/-- An act whose autostart fires starts the generator; the autostart was pending,
    and the gate open. -/
theorem act_fired {B : Build} {d : Device} {a : Act} (h : (act B d a).2.fired = true) :
    d.node.info.autostart = .pending ∧ activeProfileCanStart d.node.app.gen = true ∧
      (act B d a).1.node.app.gen.isRunning = true := by
  cases a with
  | tryAutostart nowMs =>
    have hfired : (tryAutostart d.node nowMs).2 = true := h
    rcases tryAutostart_cases d.node nowMs with ⟨-, hp, hcan, hrun, -⟩ | ⟨hno, -, -⟩
    · exact ⟨hp, hcan, hrun⟩
    · rw [hno] at hfired
      cases hfired
  | call | cancelAutostart | frame | process | line => cases h

/-- The commands that were accepted, oldest first. -/
def accepted (trace : List Seen) : List Decision := trace.flatMap Seen.decisions

/-- How often the autostart fired. -/
def firings (trace : List Seen) : ℕ := trace.countP Seen.fired

/-- What holds at the end of a run: a pending autostart was pending from the
    start, and nothing happened to it. -/
structure Disciplined (d₀ d : Device) (trace : List Seen) : Prop where
  pending : d.node.info.autostart = .pending →
    d₀.node.info.autostart = .pending ∧ accepted trace = [] ∧ firings trace = 0
  once : firings trace ≤ 1

/-- **Step lemma.** -/
theorem Disciplined.act {B : Build} {d₀ d : Device} {trace : List Seen}
    (h : Disciplined d₀ d trace) (a : Act) :
    Disciplined d₀ (act B d a).1 (trace ++ [(act B d a).2]) where
  pending hp := by
    obtain ⟨hp', hd, hf⟩ := act_settles B d a hp
    obtain ⟨h₀, hacc, hfir⟩ := h.pending hp'
    refine ⟨h₀, ?_, ?_⟩
    · rw [accepted, List.flatMap_append, ← accepted, hacc]
      simp [hd]
    · rw [firings, List.countP_append, ← firings, hfir]
      simp [hf]
  once := by
    rw [firings, List.countP_append, ← firings]
    by_cases hf : (Operation.act B d a).2.fired = true
    · rw [(h.pending (act_fired hf).1).2.2]
      simp [hf]
    · simp only [List.countP_cons, List.countP_nil, hf, Bool.false_eq_true, if_false]
      exact h.once

/-- **Run lemma.** -/
theorem disciplined_run (B : Build) (d : Device) (acts : List Act) :
    Disciplined d (Mealy.run (act B) d acts).1 (Mealy.run (act B) d acts).2 :=
  Mealy.run_trace_invariant (fun _ _ a h => h.act a) ⟨fun hp => ⟨hp, rfl, rfl⟩, by decide⟩ acts

/-- The autostart may fire now: safe mode did not suppress it, the restored image
    carries the flag or the defaults were loaded, the profile passes the START
    gate, and no START or STOP was accepted. -/
structure Permitted (suppress : Bool) (memory : Memory) (restored now : Device)
    (trace : List Seen) : Prop where
  safe : suppress = false
  flagged : restored.node.info.result = .loaded ∧ carriesAutostart memory = true ∨
    restored.node.info.result = .defaults
  gate : activeProfileCanStart now.node.app.gen = true
  undecided : accepted trace = []
  unfired : firings trace = 0

/-- **Autostart.** In any run of one boot, an autostart fires at most once, only
    when it may, and starts the generator; a call that does not fire leaves the
    generator alone; once it is not pending, it is not pending again before the
    next restore. -/
theorem autostart_once (B : Build) (d : Device) (suppress useDefaults : Bool) (clock : ℕ → UInt32)
    (acts : List Act) :
    let restored := d.withNode (restore B d.node suppress useDefaults clock)
    let now := (Mealy.run (act B) restored acts).1
    let trace := (Mealy.run (act B) restored acts).2
    firings trace ≤ 1 ∧
      (∀ a, (act B now a).2.fired = true →
        Permitted suppress d.node.app.memory restored now trace ∧
          (act B now a).1.node.app.gen.isRunning = true) ∧
      (∀ nowMs, (act B now (.tryAutostart nowMs)).2.fired = false →
        (act B now (.tryAutostart nowMs)).1.node.app = now.node.app) ∧
      (now.node.info.autostart ≠ .pending → ∀ later,
        (Mealy.run (act B) now later).1.node.info.autostart ≠ .pending) := by
  intro restored now trace
  have hrun : Disciplined restored now trace := disciplined_run B restored acts
  refine ⟨hrun.once, ?_, ?_, ?_⟩
  · intro a hf
    obtain ⟨hp, hcan, hstarted⟩ := act_fired hf
    obtain ⟨h₀, hacc, hfir⟩ := hrun.pending hp
    obtain ⟨hsafe, hsource⟩ := restore_pending h₀
    exact ⟨⟨hsafe, hsource.imp_right And.left, hcan, hacc, hfir⟩, hstarted⟩
  · intro nowMs hf
    have hno : (tryAutostart now.node nowMs).2 = false := hf
    rcases tryAutostart_cases now.node nowMs with ⟨hyes, -⟩ | ⟨-, happ, -⟩
    · rw [hyes] at hno
      cases hno
    · exact happ
  · intro hnot later hp
    exact hnot ((disciplined_run B now later).pending hp).1

end J1939Gen.Operation
