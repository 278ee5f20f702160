import J1939Gen.Operation.Autostart

/-!
# What a CAN recovery does to an operator decision

The join out of COMM_FAULT starts a pending autostart, and stops the generator
otherwise. So it respects an accepted STOP, and no accepted START.

* `next_settles`: what one event does with a pending autostart.
* `commFaultStep_joined`: the join.
* `recovery_respects_iff`: in a run, the recovery respects the decisions exactly
  when no START was the last one before it.
* `recovery_stops_started`: a START at the console, before the bus is there.
-/

namespace J1939Gen.Operation

open Storage Generator Scheduler Boot Control

/-! ## One event -/

section Settles

theorem Settles.congr {n n' m' : Node} {s : Seen} (h : Settles n n' s) (hm : m'.info = n'.info) :
    Settles n m' s := by
  intro hp
  rw [hm] at hp
  exact h hp

/-- A call of the console: what its lines got accepted. -/
theorem cliPoll_settles (B : Build) (n : Node) (lines : List CliCommand) :
    Settles n (cliPoll B n lines).1 ⟨(cliPoll B n lines).2, false⟩ := by
  unfold cliPoll
  dsimp only
  induction lines generalizing n with
  | nil => exact .same rfl
  | cons c lines ih =>
    rw [Mealy.run_cons]
    have h := (processLine_settles B n c).trans (ih (processLine B n c).1)
    cases hd : (processLine B n c).2 with
    | none => simpa [hd, Seen.ofLine, Seen.append] using h
    | some decision => simpa [hd, Seen.ofLine, Seen.append] using h

/-- The frames of a poll. -/
theorem poll_settles (B : Build) (d : Device) (frameBudget : UInt8) (waiting : List RxFrame) :
    Settles d.node (poll B d frameBudget waiting).1.node
      ⟨(poll B d frameBudget waiting).2.filterMap outcomeDecision, false⟩ := by
  unfold poll
  generalize waiting.take frameBudget.toNat = frames
  induction frames generalizing d with
  | nil => exact .same rfl
  | cons f frames ih =>
    rw [Mealy.run_cons]
    have h := (route_settles B d f).trans (ih (route B d f).1)
    cases hd : outcomeDecision (route B d f).2 with
    | none => simpa [hd, Seen.ofOutcome, Seen.append] using h
    | some decision => simpa [hd, Seen.ofOutcome, Seen.append] using h

theorem superviseBus_info (b : Board) (nowMs : UInt32) (err : BusError) :
    (superviseBus b nowMs err).device.node.info = b.device.node.info := by
  unfold superviseBus
  dsimp only
  split_ifs <;> rfl

theorem runStep_settles (B : Build) (b : Board) (i : StepInput) :
    Settles b.device.node (runStep B b i).1.device.node (runStep B b i).2 := by
  have h := poll_settles B b.device canRxPollBudget i.waiting
  exact h.congr (superviseBus_info _ _ _)

theorem commFaultStep_settles (b : Board) (nowMs : UInt32) (joinOk : Bool) (autostartMs : UInt32) :
    Settles b.device.node (commFaultStep b nowMs joinOk autostartMs).1.device.node
      (commFaultStep b nowMs joinOk autostartMs).2.1 := by
  unfold commFaultStep
  dsimp only
  split_ifs
  · exact .same rfl
  · exact .same (withGen_info _ _)
  · exact tryAutostart_settles (canJoin b.device.node) autostartMs
  · exact tryAutostart_settles (canJoin b.device.node) autostartMs

/-- A step polls the console, and then it runs or retries the join. -/
theorem opStep_cases (B : Build) (o : Options) (b : Board) (i : StepInput) :
    ∃ (b' : Board) (accepted : List Decision),
      Settles b.device.node b'.device.node ⟨accepted, false⟩ ∧
        (opStep B o b i = ((runStep B b' i).1, ⟨.append ⟨accepted, false⟩ (runStep B b' i).2, false,
            (runStep B b' i).1.device.node.app.gen.isRunning⟩) ∨
          opStep B o b i = ((commFaultStep b' i.nowMs i.joinOk i.autostartMs).1,
            ⟨.append ⟨accepted, false⟩ (commFaultStep b' i.nowMs i.joinOk i.autostartMs).2.1,
              (commFaultStep b' i.nowMs i.joinOk i.autostartMs).2.2,
              (commFaultStep b' i.nowMs i.joinOk i.autostartMs).1.device.node.app.gen.isRunning⟩)) := by
  have hcli := cliPoll_settles B b.device.node (if o.cliEnable then i.lines else [])
  unfold opStep
  dsimp only
  generalize hr : cliPoll B b.device.node (if o.cliEnable then i.lines else []) = r at hcli ⊢
  refine ⟨Board.withNode { b with noinit := settleStreak b.noinit i.nowMs } r.1, r.2, hcli, ?_⟩
  split_ifs
  · exact .inl rfl
  · exact .inr rfl

/-- **Events.** -/
theorem next_settles (B : Build) (o : Options) (b : Board) (e : Event) :
    Settles b.device.node (next B o b e).1.device.node (next B o b e).2.seen := by
  cases e with
  | rxPoll frameBudget waiting => exact poll_settles B b.device frameBudget waiting
  | step i =>
    show Settles _ (opStep B o b i).1.device.node (opStep B o b i).2.seen
    obtain ⟨b', accepted, hcli, heq | heq⟩ := opStep_cases B o b i
    · rw [heq]
      exact hcli.trans (runStep_settles B b' i)
    · rw [heq]
      exact hcli.trans (commFaultStep_settles b' _ _ _)

end Settles

/-! ## The join -/

/-- A join that succeeds starts the autostart that was pending, or stops the
    generator. -/
theorem commFaultStep_joined {b : Board} {nowMs : UInt32} {joinOk : Bool} {autostartMs : UInt32}
    (h : (commFaultStep b nowMs joinOk autostartMs).2.2 = true) :
    let r := commFaultStep b nowMs joinOk autostartMs
    r.2.1.decisions = [] ∧
      (r.2.1.fired = true ∧ b.device.node.info.autostart = .pending ∨
        r.2.1.fired = false ∧ r.1.device.node.app.gen.isRunning = false) := by
  intro r
  have hr : r = commFaultStep b nowMs joinOk autostartMs := rfl
  unfold commFaultStep at h hr
  dsimp only at h hr
  by_cases hearly : nowMs - b.lastCanRetryMs < canRetryPeriodMs
  · rw [if_pos hearly] at h
    cases h
  rw [if_neg hearly] at h hr
  by_cases hno : joinOk = false
  · rw [if_pos hno] at h
    cases h
  rw [if_neg hno] at hr
  rcases tryAutostart_cases (canJoin b.device.node) autostartMs with ⟨hf, hp, -⟩ | ⟨hf, -⟩
  · rw [hf] at hr
    rw [hr]
    exact ⟨rfl, .inl ⟨rfl, hp⟩⟩
  · rw [hf] at hr
    rw [hr]
    exact ⟨rfl, .inr ⟨rfl, rfl⟩⟩

theorem next_joined {B : Build} {o : Options} {b : Board} {e : Event}
    (h : (next B o b e).2.joined = true) :
    let s := (next B o b e).2
    s.seen.fired = true ∧ b.device.node.info.autostart = .pending ∧ s.seen.decisions = [] ∨
      s.seen.fired = false ∧ s.running = false := by
  cases e with
  | rxPoll frameBudget waiting => cases h
  | step i =>
    show (opStep B o b i).2.seen.fired = true ∧ _ ∧ (opStep B o b i).2.seen.decisions = [] ∨
      (opStep B o b i).2.seen.fired = false ∧ (opStep B o b i).2.running = false
    change (opStep B o b i).2.joined = true at h
    obtain ⟨b', accepted, hcli, heq | heq⟩ := opStep_cases B o b i
    · rw [heq] at h
      cases h
    rw [heq] at h ⊢
    obtain ⟨hd, ⟨hf, hp⟩ | ⟨hf, hstopped⟩⟩ := commFaultStep_joined h
    · obtain ⟨hp', hd', -⟩ := hcli hp
      refine .inl ⟨hf, hp', ?_⟩
      have hnone : accepted = [] := hd'
      show accepted ++ _ = []
      rw [hd, hnone]
      rfl
    · exact .inr ⟨hf, hstopped⟩

/-! ## Runs -/

/-- The commands accepted in a run, oldest first. -/
def decisions (trace : List Observed) : List Decision := accepted (trace.map Observed.seen)

/-- The last of them. -/
def lastDecision (trace : List Observed) : Option Decision := (decisions trace).getLast?

/-- The step `s` after `before`, in which the join succeeds, leaves the generator
    running after a START and stopped after a STOP; only without either may the
    autostart decide. -/
structure Respects (before : List Observed) (s : Observed) : Prop where
  start : lastDecision (before ++ [s]) = some .start → s.running = true
  stop : lastDecision (before ++ [s]) = some .stop → s.running = false
  autostart : s.seen.fired = true → decisions (before ++ [s]) = []

/-- `P` holds of every step of a run in which the join succeeds. -/
def EveryJoin (trace : List Observed) (P : List Observed → Observed → Prop) : Prop :=
  ∀ before s after, trace = before ++ s :: after → s.joined = true → P before s

theorem decisions_concat (trace : List Observed) (s : Observed) :
    decisions (trace ++ [s]) = decisions trace ++ s.seen.decisions := by
  simp [decisions, accepted]

/-- What a run has decided ends the autostart. -/
def Decided (b : Board) (trace : List Observed) : Prop :=
  b.device.node.info.autostart = .pending → decisions trace = []

/-- **Step lemma.** -/
theorem Decided.next {B : Build} {o : Options} {b : Board} {trace : List Observed}
    (h : Decided b trace) (e : Event) :
    Decided (next B o b e).1 (trace ++ [(Operation.next B o b e).2]) := by
  intro hp
  obtain ⟨hp', hd, -⟩ := next_settles B o b e hp
  rw [decisions_concat, h hp', hd]
  rfl

/-- **Run lemma.** -/
theorem decided_run (B : Build) (o : Options) (b : Board) (events : List Event) :
    Decided (Mealy.run (next B o) b events).1 (Mealy.run (next B o) b events).2 :=
  Mealy.run_trace_invariant (fun _ _ e h => h.next e) (fun _ => rfl) events

/-- At a join, the autostart fires and nothing was decided, or the generator is
    stopped. -/
theorem join_cases (B : Build) (o : Options) (b : Board) (events : List Event) :
    EveryJoin (Mealy.run (next B o) b events).2 fun before s =>
      decisions (before ++ [s]) = [] ∨ s.seen.fired = false ∧ s.running = false := by
  intro before s after htrace hjoined
  obtain ⟨es, e, rfl, rfl⟩ := Mealy.run_split htrace
  rcases next_joined hjoined with ⟨-, hp, hd⟩ | hstopped
  · left
    rw [decisions_concat, decided_run B o b es hp, hd]
    rfl
  · exact .inr hstopped

/-- **Recovery.** In every run from `OP_Init`, the joins respect what the operator
    decided if and only if at none of them a START was the last thing decided. -/
theorem recovery_respects_iff (B : Build) (o : Options) (i : BootInput) (events : List Event) :
    let trace := (Mealy.run (next B o) (opInit B o i).1 events).2
    EveryJoin trace Respects ↔
      EveryJoin trace fun before s => lastDecision (before ++ [s]) ≠ some .start := by
  intro trace
  have hcases := join_cases B o (opInit B o i).1 events
  constructor
  · intro h before s after htrace hjoined hlast
    have hrun := (h before s after htrace hjoined).start hlast
    rcases hcases before s after htrace hjoined with hnone | ⟨-, hstopped⟩
    · rw [lastDecision, hnone] at hlast
      cases hlast
    · rw [hstopped] at hrun
      cases hrun
  · intro h before s after htrace hjoined
    refine ⟨fun hlast => absurd hlast (h before s after htrace hjoined), ?_, ?_⟩
    · intro hlast
      rcases hcases before s after htrace hjoined with hnone | ⟨-, hstopped⟩
      · rw [lastDecision, hnone] at hlast
        cases hlast
      · exact hstopped
    · intro hfired
      rcases hcases before s after htrace hjoined with hnone | ⟨hno, -⟩
      · exact hnone
      · rw [hno] at hfired
        cases hfired

/-! ## A START that is lost -/

/-- A step in which nothing happens. -/
def quietStep (nowMs : UInt32) (joinOk : Bool) (lines : List CliCommand) : StepInput where
  nowMs := nowMs
  lines := lines
  waiting := []
  processMs := nowMs
  ackLink := fun _ => .ok
  link := fun _ => .ok
  bus := ⟨0, 0, false, false, false⟩
  joinOk := joinOk
  autostartMs := nowMs

/-- Power-on with an erased flash and no bus. -/
def coldBoot : BootInput where
  noinit := ⟨0, 0⟩
  memory := Persistence.erased fun _ => 0
  cause := .powerOn
  joinOk := false
  clock := fun _ => 0
  autostartMs := 0
  readyMs := 0

/-- `CONFIG 61444:190 0 1500 1500`. -/
def engineSpeed : SignalRequest := ⟨61444, 190, .constant, fun _ => 12000⟩

/-- A signal is configured and started at the console; the bus comes up a second
    later. -/
def lateBus : List Event :=
  [.step (quietStep 10 false [.config engineSpeed 10, .start 0 10]), .step (quietStep 1000 true [])]

/-- The START is lost: the join stops the generator. -/
theorem recovery_stops_started :
    ¬ EveryJoin (Mealy.run (next build179 ⟨true, false⟩)
      (opInit build179 ⟨true, false⟩ coldBoot).1 lateBus).2 Respects := by
  have htrace : (Mealy.run (next build179 ⟨true, false⟩)
      (opInit build179 ⟨true, false⟩ coldBoot).1 lateBus).2 =
      [⟨⟨[.start], false⟩, false, true⟩, ⟨⟨[], false⟩, true, false⟩] := by decide +kernel
  intro h
  have hjoin := h [⟨⟨[.start], false⟩, false, true⟩] ⟨⟨[], false⟩, true, false⟩ [] htrace rfl
  cases hjoin.start rfl

end J1939Gen.Operation
