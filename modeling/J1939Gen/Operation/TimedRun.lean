import J1939Gen.Operation.Recovery
import J1939Gen.Persistence.Timer

/-!
# How long a timed run lasts

`App_Gen_Process` stops a timed run by the unsigned difference between the time it is
given and the start. The time it is given is sampled at the head of `OP_Step`, and a
START of the same step may read the clock after that: then the difference wraps, and
the run ends at once. The duration in milliseconds wraps as well.

* `act_timer`: what one act does to the timer of a run.
* `Watched`, `watch`: a run with the last START that was accepted, in unbounded time.
* `timed_run_lasts`: when a timed run lasts its duration.
* `opStep_acts`: a step of the main loop as acts.
* `start_after_sample`: a START behind the sample.
-/

namespace J1939Gen.Operation

open ByteMem Storage Generator Scheduler Boot Control SerialClock

/-! ## What starts a run -/

/-- A START got the generator running, with this duration, at the time it read. -/
structure StartedAt (g : Gen) (durationSec nowMs : UInt32) : Prop where
  running : g.isRunning = true
  start : g.testStartMs = nowMs
  duration : g.testDurationMs = durationSec * 1000

theorem start_timer (g : Gen) (durationSec nowMs : UInt32) :
    activeProfileCanStart g = true ∧ StartedAt (start g durationSec nowMs) durationSec nowMs ∨
      activeProfileCanStart g = false ∧ TimerKept g (start g durationSec nowMs) := by
  rcases start_cases g durationSec nowMs with ⟨hgate, hrun, hs, hd⟩ | ⟨hgate, heq⟩
  · exact .inl ⟨hgate, hrun, hs, hd⟩
  · rw [heq]
    exact .inr ⟨hgate, .refl g⟩

theorem cancelAutostart_gen (n : Node) : (cancelAutostart n).app.gen = n.app.gen := by
  unfold cancelAutostart
  split_ifs <;> rfl

theorem tryAutostart_timer (n : Node) (nowMs : UInt32) :
    (tryAutostart n nowMs).2 = true ∧ StartedAt (tryAutostart n nowMs).1.app.gen 0 nowMs ∨
      (tryAutostart n nowMs).2 = false ∧ TimerKept n.app.gen (tryAutostart n nowMs).1.app.gen := by
  unfold tryAutostart
  by_cases hp : n.info.autostart ≠ .pending
  · rw [if_pos hp]
    exact .inr ⟨rfl, .refl _⟩
  rw [if_neg hp]
  by_cases hgate : activeProfileCanStart n.app.gen = false
  · rw [if_pos hgate]
    exact .inr ⟨rfl, .refl _⟩
  rw [if_neg hgate]
  rcases start_timer n.app.gen 0 nowMs with ⟨-, h⟩ | ⟨hno, -⟩
  · exact .inl ⟨rfl, h⟩
  · exact absurd hno hgate

/-! ## Requests -/

section

variable (B : Build) (n : Node) (sequence : UInt8) (data : Mem) (env : Env)

/-- A START request is accepted and starts a run without an end, or changes nothing. -/
theorem handleStart_timer (nowMs : UInt32) :
    decisionOf (handleStart n sequence data nowMs).2 = some .start ∧
        StartedAt (handleStart n sequence data nowMs).1.app.gen 0 nowMs ∨
      decisionOf (handleStart n sequence data nowMs).2 ≠ some .start ∧
        TimerKept n.app.gen (handleStart n sequence data nowMs).1.app.gen := by
  unfold handleStart
  dsimp only
  by_cases hzero : reservedBytesAreZero data = false
  · rw [if_pos hzero]
    refine .inr ⟨?_, .refl _⟩
    show decisionOf (buildResponse _ _ _ _ _) ≠ _
    rw [show decisionOf (buildResponse Opcode.start.code sequence .badArgument 0 0) = none from rfl]
    simp
  rw [if_neg hzero]
  by_cases hgate : activeProfileCanStart n.app.gen = false
  · rw [if_pos hgate]
    refine .inr ⟨?_, .refl _⟩
    rw [show decisionOf (buildResponse Opcode.start.code sequence .invalidState 0 0) = none from rfl]
    simp
  rw [if_neg hgate]
  rcases start_timer n.app.gen 0 nowMs with ⟨-, h⟩ | ⟨hno, -⟩
  · refine .inl ⟨rfl, ?_⟩
    show StartedAt (start (cancelAutostart n).app.gen 0 nowMs) 0 nowMs
    rw [cancelAutostart_gen]
    exact h
  · exact absurd hno hgate

theorem handleStop_timer :
    TimerKept n.app.gen (handleStop n sequence data).1.app.gen := by
  unfold handleStop
  dsimp only
  split_ifs
  · exact .refl _
  · exact .stopped rfl

/-- Every other request leaves the timer alone, or clears the application. -/
theorem handle_timer {op : Opcode} (hstart : op ≠ .start) :
    TimerKept n.app.gen (handle B n sequence data env op).1.app.gen := by
  by_cases hstop : op = .stop
  · rw [hstop]
    exact handleStop_timer n sequence data
  rcases handle_calls B n sequence data env hstart hstop with heq | ⟨call, hcall, heq⟩
  · rw [heq]
    exact .refl _
  · rw [heq]
    exact Persistence.step_timer B n.app call hcall

theorem handle_decision {op : Opcode} (hstart : op ≠ .start) :
    decisionOf (handle B n sequence data env op).2 ≠ some .start := by
  by_cases hstop : op = .stop
  · rw [hstop]
    show decisionOf (handleStop n sequence data).2 ≠ some .start
    unfold handleStop
    dsimp only
    split_ifs
    · rw [show decisionOf (buildResponse Opcode.stop.code sequence .badArgument 0 0) = none from rfl]
      simp
    · rw [show decisionOf (buildResponse Opcode.stop.code sequence .ok 0 0) = some .stop from rfl]
      simp
  · rw [decisionOf_other (handle_opcode B n sequence data env op) hstart hstop]
    simp

/-- **Requests.** -/
theorem execute_timer :
    decisionOf (execute B n data env).2 = some .start ∧
        StartedAt (execute B n data env).1.app.gen 0 env.handlerMs ∨
      decisionOf (execute B n data env).2 ≠ some .start ∧
        TimerKept n.app.gen (execute B n data env).1.app.gen := by
  unfold execute
  cases Opcode.ofByte (data 0) with
  | none =>
    refine .inr ⟨?_, .refl _⟩
    dsimp only
    rw [decisionOf, if_pos (by simp [buildResponse])]
    decide
  | some op =>
    by_cases hstart : op = .start
    · rw [hstart]
      exact handleStart_timer n (data 1) data env.handlerMs
    · exact .inr ⟨handle_decision B n (data 1) data env hstart,
        handle_timer B n (data 1) data env hstart⟩

end

/-! ## Acts -/

/-- The duration a START of this act asks for; a START over CAN and an autostart ask for a
run without an end. -/
def Act.requested : Act → Option UInt32
  | .line (.start durationSec _) => some durationSec
  | .call (.generator (.start durationSec _)) => some durationSec
  | .frame _ => some 0
  | .tryAutostart _ => some 0
  | .call _ | .line _ | .cancelAutostart | .process _ _ => none

/-- The clock reading of a START or of `App_Gen_Process`. -/
def Act.reading : Act → Option UInt32
  | .line (.start _ nowMs) => some nowMs
  | .call (.generator (.start _ nowMs)) => some nowMs
  | .call (.generator (.process nowMs _)) => some nowMs
  | .frame f => some f.env.handlerMs
  | .tryAutostart nowMs => some nowMs
  | .call _ | .line _ | .cancelAutostart | .process _ _ => none

/-- The act got a START accepted. -/
def accepts (B : Build) (d : Device) (a : Act) : Bool :=
  match a with
  | .line (.start _ _) => activeProfileCanStart d.node.app.gen
  | .call (.generator (.start _ _)) => activeProfileCanStart d.node.app.gen
  | .frame f => outcomeDecision (route B d f).2 = some .start
  | .tryAutostart nowMs => (tryAutostart d.node nowMs).2
  | .call _ | .line _ | .cancelAutostart | .process _ _ => false

/-- **Acts.** An act that gets a START accepted sets the timer to its reading and its
duration; any other leaves the timer of a run that goes on alone. -/
theorem act_timer (B : Build) (d : Device) (a : Act) :
    (∃ durationSec nowMs, accepts B d a = true ∧ a.requested = some durationSec ∧
        a.reading = some nowMs ∧ StartedAt (act B d a).1.node.app.gen durationSec nowMs) ∨
      accepts B d a = false ∧ TimerKept d.node.app.gen (act B d a).1.node.app.gen := by
  cases a with
  | call op =>
    cases op with
    | generator op =>
      cases op with
      | start durationSec nowMs =>
        rcases start_timer d.node.app.gen durationSec nowMs with ⟨hgate, h⟩ | ⟨hgate, h⟩
        · exact .inl ⟨durationSec, nowMs, hgate, rfl, rfl, h⟩
        · exact .inr ⟨hgate, h⟩
      | _ => exact .inr ⟨rfl, Persistence.step_timer B d.node.app (.generator _) (by simp)⟩
    | _ => exact .inr ⟨rfl, Persistence.step_timer B d.node.app _ (by simp)⟩
  | tryAutostart nowMs =>
    rcases tryAutostart_timer d.node nowMs with ⟨hf, h⟩ | ⟨hf, h⟩
    · exact .inl ⟨0, nowMs, hf, rfl, rfl, h⟩
    · exact .inr ⟨hf, h⟩
  | cancelAutostart =>
    refine .inr ⟨rfl, ?_⟩
    show TimerKept d.node.app.gen (cancelAutostart d.node).app.gen
    rw [cancelAutostart_gen]
    exact .refl _
  | frame f =>
    show (∃ durationSec nowMs, decide (outcomeDecision (route B d f).2 = some .start) = true ∧ _ ∧
      _ ∧ StartedAt (route B d f).1.node.app.gen durationSec nowMs) ∨
      decide (outcomeDecision (route B d f).2 = some .start) = false ∧
        TimerKept d.node.app.gen (route B d f).1.node.app.gen
    rcases route_cases B d f with ⟨hn, ho⟩ | ⟨hn, ho⟩
    · rw [hn]
      refine .inr ⟨?_, .refl _⟩
      cases hout : (route B d f).2 with
      | executed r => exact absurd hout (ho r)
      | _ => rfl
    · rw [hn, ho]
      rcases execute_timer B d.node f.data f.env with ⟨hdec, h⟩ | ⟨hdec, h⟩
      · exact .inl ⟨0, f.env.handlerMs, decide_eq_true hdec, rfl, rfl, h⟩
      · exact .inr ⟨decide_eq_false hdec, h⟩
  | process nowMs link => exact .inr ⟨rfl, .refl _⟩
  | line c =>
    cases c with
    | start durationSec nowMs =>
      have hgen : (act B d (.line (.start durationSec nowMs))).1.node.app.gen =
          start d.node.app.gen durationSec nowMs := by
        show start (cancelAutostart d.node).app.gen durationSec nowMs = _
        rw [cancelAutostart_gen]
      rw [hgen]
      rcases start_timer d.node.app.gen durationSec nowMs with ⟨hgate, h⟩ | ⟨hgate, h⟩
      · exact .inl ⟨durationSec, nowMs, hgate, rfl, rfl, h⟩
      · exact .inr ⟨hgate, h⟩
    | config req nowMs =>
      exact .inr ⟨rfl, (configSignal_timer B d.node.app.gen req nowMs).kept⟩
    | stop => exact .inr ⟨rfl, .stopped rfl⟩
    | clear => exact .inr ⟨rfl, .stopped rfl⟩
    | baud baudKbps =>
      refine .inr ⟨rfl, ?_⟩
      show TimerKept d.node.app.gen (cmdBaud d.node baudKbps).1.app.gen
      unfold cmdBaud
      split_ifs
      · exact .refl _
      · exact SameTimer.kept ⟨rfl, rfl, rfl⟩
    | cantest => exact .inr ⟨rfl, SameTimer.kept ⟨rfl, rfl, rfl⟩⟩

/-! ## Runs in unbounded time -/

/-- An act and the instant at which it reads the clock. -/
structure Moment where
  act : Act
  atMs : ℕ
  stamped : ∀ nowMs, act.reading = some nowMs → nowMs = UInt32.ofNat atMs

/-- An accepted START: when it read the clock, and the duration it asked for. -/
structure Started where
  atMs : ℕ
  durationSec : UInt32
deriving DecidableEq, Repr

/-- The device and the last START it accepted. -/
structure Watched where
  device : Device
  last : Option Started

/-- One moment. -/
def watch (B : Build) (w : Watched) (m : Moment) : Watched × Seen :=
  let (d, seen) := act B w.device m.act
  ({ device := d
     last := if accepts B w.device m.act then m.act.requested.map fun s => ⟨m.atMs, s⟩
       else w.last }, seen)

def Watched.gen (w : Watched) : Gen := w.device.node.app.gen

/-- The run that goes on is a timed one, started by `s`. -/
structure InProgress (w : Watched) (s : Started) : Prop where
  running : w.gen.isRunning = true
  last : w.last = some s
  timed : 0 < s.durationSec.toNat

/-- The moment is a call of `App_Gen_Process`. -/
def Moment.IsProcess (m : Moment) : Prop :=
  ∃ nowMs link, m.act = .call (.generator (.process nowMs link))

/-- A timed run lasts its duration: a call of `App_Gen_Process` stops it if and only if the
duration is over, and it always has one. -/
structure Lasts (B : Build) (w : Watched) (m : Moment) : Prop where
  ends : ∀ s, InProgress w s → m.IsProcess →
    ((watch B w m).1.gen.isRunning = false ↔ s.atMs + 1000 * s.durationSec.toNat ≤ m.atMs)
  timed : ∀ s, InProgress (watch B w m).1 s → (watch B w m).1.gen.testDurationMs ≠ 0

/-- A START that is accepted asks for less than `2 ^ 32` ms, and during a timed run
`App_Gen_Process` is given a time not before the start and less than `2 ^ 32` ms after it. -/
structure Timely (B : Build) (w : Watched) (m : Moment) : Prop where
  duration : accepts B w.device m.act = true →
    ∀ durationSec, m.act.requested = some durationSec → 1000 * durationSec.toNat < 2 ^ 32
  order : ∀ s, InProgress w s → m.IsProcess → s.atMs ≤ m.atMs ∧ m.atMs < s.atMs + 2 ^ 32

/-- The timer holds the start and the duration of the run. -/
def Synced (w : Watched) : Prop :=
  ∀ s, InProgress w s → w.gen.testStartMs = UInt32.ofNat s.atMs ∧
    w.gen.testDurationMs.toNat = 1000 * s.durationSec.toNat

/-- **Step lemma.** -/
theorem Synced.watch {B : Build} {w : Watched} (h : Synced w) {m : Moment} (ht : Timely B w m) :
    Synced (Operation.watch B w m).1 := by
  intro s hs
  rcases act_timer B w.device m.act with ⟨durationSec, nowMs, hacc, hreq, hread, hstart⟩ |
    ⟨hacc, hkept⟩
  · have hlast : (Operation.watch B w m).1.last = some ⟨m.atMs, durationSec⟩ := by
      show (if accepts B w.device m.act = true then _ else _) = _
      rw [if_pos hacc, hreq]
      rfl
    obtain rfl : ⟨m.atMs, durationSec⟩ = s := Option.some.inj (hlast.symm.trans hs.last)
    refine ⟨hstart.start.trans (m.stamped nowMs hread), ?_⟩
    have hfits := ht.duration hacc durationSec hreq
    show (act B w.device m.act).1.node.app.gen.testDurationMs.toNat = _
    rw [hstart.duration, UInt32.toNat_mul, show (1000 : UInt32).toNat = 1000 from rfl,
      Nat.mul_comm, Nat.mod_eq_of_lt hfits]
  · obtain ⟨hrun, hs', hd'⟩ := hkept hs.running
    have hlast : (Operation.watch B w m).1.last = w.last := by
      show (if accepts B w.device m.act = true then _ else _) = _
      rw [if_neg (by rw [hacc]; decide)]
    obtain ⟨hstart, hdur⟩ := h s ⟨hrun, hlast.symm.trans hs.last, hs.timed⟩
    refine ⟨Eq.trans ?_ hstart, ?_⟩
    · exact hs'
    · rw [← hdur]
      exact congrArg UInt32.toNat hd'

/-- What a call of `App_Gen_Process` in a timed run does. -/
theorem Synced.ends {B : Build} {w : Watched} (h : Synced w) {m : Moment} (ht : Timely B w m)
    {s : Started} (hs : InProgress w s) (hm : m.IsProcess) :
    (Operation.watch B w m).1.gen.isRunning = false ↔
      s.atMs + 1000 * s.durationSec.toNat ≤ m.atMs := by
  obtain ⟨hstart, hdur⟩ := h s hs
  obtain ⟨hle, hlt⟩ := ht.order s hs hm
  obtain ⟨nowMs, link, hact⟩ := hm
  have hnow : nowMs = UInt32.ofNat m.atMs := m.stamped nowMs (by rw [hact]; rfl)
  have hgen : (Operation.watch B w m).1.gen = (process w.gen nowMs link).1 := by
    show (act B w.device m.act).1.node.app.gen = _
    rw [hact]
    rfl
  have hpos := hs.timed
  rw [hgen, process_stops_iff hs.running (by omega), hdur, hstart, hnow,
    toNat_sub_ofNat hle (by omega)]
  omega

/-- **Timed runs.** In every run whose moments are timely, timed runs last their duration. -/
theorem timed_run_lasts (B : Build) (d : Device) (moments : List Moment)
    (h : Mealy.Always (Timely B) (watch B) ⟨d, none⟩ moments) :
    Mealy.Always (Lasts B) (watch B) ⟨d, none⟩ moments := by
  refine Mealy.Always.of_invariant Synced ?_ ?_ moments h
  · intro w m hsync ht
    have hsync' := hsync.watch ht
    refine ⟨hsync', fun s hs hm => hsync.ends ht hs hm, fun s hs hzero => ?_⟩
    obtain ⟨-, hdur⟩ := hsync' s hs
    have hpos := hs.timed
    rw [hzero, show (0 : UInt32).toNat = 0 from rfl] at hdur
    omega
  · intro s hs
    exact absurd hs.last (by simp)

/-! ## A step of the main loop -/

/-- The acts of a step of `OP_STATE_RUN`: the lines, the frames, the responses and the
generator, which is given the time sampled at the head of the step. -/
def stepActs (lines : List CliCommand) (i : StepInput) : List Act :=
  lines.map .line ++ (i.waiting.take canRxPollBudget.toNat).map .frame ++
    [.process i.processMs i.ackLink, .call (.generator (.process i.nowMs i.link))]

theorem run_lines (B : Build) (d : Device) (lines : List CliCommand) :
    (Mealy.run (act B) d (lines.map .line)).1 = d.withNode (cliPoll B d.node lines).1 := by
  show _ = d.withNode (Mealy.run (processLine B) d.node lines).1
  induction lines generalizing d with
  | nil => rfl
  | cons c lines ih =>
    rw [List.map_cons, Mealy.run_cons, Mealy.run_cons]
    exact ih (d.withNode (processLine B d.node c).1)

theorem run_frames (B : Build) (d : Device) (frames : List RxFrame) :
    (Mealy.run (act B) d (frames.map .frame)).1 = (Mealy.run (route B) d frames).1 := by
  induction frames generalizing d with
  | nil => rfl
  | cons f frames ih =>
    rw [List.map_cons, Mealy.run_cons, Mealy.run_cons]
    exact ih (route B d f).1

theorem superviseBus_device (b : Board) (nowMs : UInt32) (err : BusError) :
    (superviseBus b nowMs err).device = b.device ∨
      (superviseBus b nowMs err).device =
        b.device.withNode (withGen b.device.node (noteBusRecovered b.device.node.app.gen)) := by
  unfold superviseBus
  dsimp only
  split_ifs
  · exact .inl rfl
  · exact .inl rfl
  · exact .inr rfl
  · exact .inl rfl

/-- **Steps.** A step of `OP_STATE_RUN` is a run of its acts; the supervision of the bus may
count a recovery after them. -/
theorem opStep_acts (B : Build) (o : Options) {b : Board} (hrun : b.state = .run)
    (i : StepInput) :
    ∃ after : List Act, (after = [] ∨ after = [.call (.generator .noteBusRecovered)]) ∧
      (opStep B o b i).1.device = (Mealy.run (act B) b.device
        (stepActs (if o.cliEnable then i.lines else []) i ++ after)).1 := by
  generalize hlines : (if o.cliEnable then i.lines else []) = lines
  have hpolled : (Mealy.run (act B) b.device
      (lines.map .line ++ (i.waiting.take canRxPollBudget.toNat).map .frame)).1 =
      (poll B (b.device.withNode (cliPoll B b.device.node lines).1) canRxPollBudget i.waiting).1 := by
    rw [Mealy.run_append, run_lines, run_frames]
    rfl
  have hstep : ∃ b' : Board, (opStep B o b i).1 = superviseBus b' i.nowMs i.bus ∧
      b'.device = (Mealy.run (act B) b.device (stepActs lines i)).1 := by
    unfold opStep
    dsimp only [Board.withNode]
    rw [hlines, if_pos hrun]
    unfold runStep rxPoll
    refine ⟨_, rfl, ?_⟩
    unfold stepActs
    rw [Mealy.run_append, hpolled]
    rfl
  obtain ⟨b', hb', hdevice⟩ := hstep
  rw [hb']
  rcases superviseBus_device b' i.nowMs i.bus with hsame | hnoted
  · exact ⟨[], .inl rfl, by rw [hsame, hdevice, List.append_nil]⟩
  · refine ⟨_, .inr rfl, ?_⟩
    rw [hnoted, hdevice, Mealy.run_append]
    rfl

/-! ## A START behind the sample -/

/-- The device of a board that has just joined the bus. -/
def joinedDevice : Device := (opInit build179 ⟨true, false⟩ { coldBoot with joinOk := true }).1.device

/-- The moment of an act with this reading. -/
def momentOf (a : Act) (atMs : ℕ) (h : a.reading.all (· = UInt32.ofNat atMs) = true) : Moment where
  act := a
  atMs := atMs
  stamped := by
    intro nowMs hread
    rw [hread] at h
    simpa using h

/-- `CONFIG`, `START` and a call of `App_Gen_Process`. -/
def startThenProcess (durationSec : UInt32) (startMs processMs : ℕ) : List Moment :=
  [momentOf (.line (.config engineSpeed 100)) 100 rfl,
    momentOf (.line (.start durationSec (UInt32.ofNat startMs))) startMs (by simp [Act.reading]),
    momentOf (.call (.generator (.process (UInt32.ofNat processMs) fun _ => .ok))) processMs
      (by simp [Act.reading])]

/-- What is watched before the call of `App_Gen_Process`. -/
def beforeProcess (durationSec : UInt32) (startMs : ℕ) : Watched :=
  (Mealy.run (watch build179) ⟨joinedDevice, none⟩
    ((startThenProcess durationSec startMs 0).take 2)).1

/-- A START at the sample, and the call ten seconds later. -/
theorem timed_run_lasts_ten :
    Mealy.Always (Lasts build179) (watch build179) ⟨joinedDevice, none⟩
      (startThenProcess 10 100 10100) := by
  apply timed_run_lasts
  have hlast : (beforeProcess 10 100).last = some ⟨100, 10⟩ := by decide +kernel
  refine ⟨⟨?_, ?_⟩, ⟨?_, ?_⟩, ⟨?_, ?_⟩, trivial⟩
  · intro _ durationSec hreq
    cases hreq
  · rintro s - ⟨_, _, hact⟩
    cases hact
  · intro _ durationSec hreq
    cases hreq
    decide
  · rintro s - ⟨_, _, hact⟩
    cases hact
  · intro _ durationSec hreq
    cases hreq
  · intro s hs _
    obtain rfl : ⟨100, 10⟩ = s := Option.some.inj (hlast.symm.trans hs.last)
    exact ⟨by decide, by decide⟩

/-- `OP_Step(100)` with a ten second START that reads 101 stops the run in the same step, and
a START of 536870912 s starts a run without an end. -/
theorem start_after_sample :
    (Mealy.run (next build179 ⟨true, false⟩)
        (opInit build179 ⟨true, false⟩ { coldBoot with joinOk := true }).1
        [.step (quietStep 100 true [.config engineSpeed 100, .start 10 101])]).2 =
      [⟨⟨[.start], false⟩, false, false⟩] ∧
    ¬ Mealy.Always (Lasts build179) (watch build179) ⟨joinedDevice, none⟩
      (startThenProcess 10 101 100) ∧
    ¬ Mealy.Always (Lasts build179) (watch build179) ⟨joinedDevice, none⟩
      (startThenProcess 536870912 100 100) := by
  refine ⟨by decide +kernel, ?_, ?_⟩
  · rintro ⟨-, -, hends, -⟩
    have hstopped : (watch build179 (beforeProcess 10 101)
        ((startThenProcess 10 101 100).get ⟨2, by decide⟩)).1.gen.isRunning = false := by
      decide +kernel
    have hprogress : InProgress (beforeProcess 10 101) ⟨101, 10⟩ :=
      ⟨by decide +kernel, by decide +kernel, by decide⟩
    have hover := (hends.ends ⟨101, 10⟩ hprogress ⟨_, _, rfl⟩).1 hstopped
    exact absurd hover (by decide)
  · rintro ⟨-, hstart, -⟩
    have hprogress : InProgress (beforeProcess 536870912 100) ⟨100, 536870912⟩ :=
      ⟨by decide +kernel, by decide +kernel, by decide⟩
    have hzero : (beforeProcess 536870912 100).gen.testDurationMs = 0 := by decide +kernel
    exact hstart.timed ⟨100, 536870912⟩ hprogress hzero

end J1939Gen.Operation
