import J1939Gen.Boot.Restore
import J1939Gen.Control.Runs

/-!
# The lifecycle of the firmware

Model of `OP/op_main.c` and of the commands of `APP/app_cli.c`: the boot, the
retries of the CAN join, and the main loop. The clock tree, the board, the self
test of the controller, the watchdog, the LED, the console output and the parsing
of a console line are left out. What a step reads from outside the model (the
clock, the console, the received frames, the answers of the controller) is its
`StepInput`.
-/

namespace J1939Gen.Operation

open SerialClock Storage Generator Scheduler Boot Control

/-! ## What the operator does -/

/-- An accepted START or STOP. -/
inductive Decision
  | start
  | stop
deriving DecidableEq, Repr

/-- The command an OK response accepted. -/
def decisionOf (r : Response) : Option Decision :=
  if r.status ≠ .ok then none
  else if r.opcode = Opcode.start.code ||| responseMask then some .start
  else if r.opcode = Opcode.stop.code ||| responseMask then some .stop
  else none

/-- The command a frame got accepted; an answer from the cache accepts nothing. -/
def outcomeDecision : Outcome → Option Decision
  | .executed r => decisionOf r
  | .ignored | .uncached _ | .replayed _ | .conflict _ => none

/-! ## The command line -/

/-- The commands of `prv_process_line` that change anything, parsed. -/
inductive CliCommand
  | config (req : SignalRequest) (nowMs : UInt32)
  | start (durationSec nowMs : UInt32)
  | stop
  | clear
  | baud (baudKbps : UInt32)
  | cantest

/-- `prv_cmd_start` (`app_cli.c:149-169`): it is accepted if `App_Gen_Start`
    passes its gate. -/
def cmdStart (n : Node) (durationSec nowMs : UInt32) : Node × Option Decision :=
  let n := cancelAutostart n
  (withGen n (start n.app.gen durationSec nowMs),
    if activeProfileCanStart n.app.gen then some .start else none)

/-- `prv_cmd_stop` (`app_cli.c:171-179`). -/
def cmdStop (n : Node) : Node × Option Decision :=
  let n := cancelAutostart n
  (withGen n (stop n.app.gen), some .stop)

/-- `prv_cmd_baud` (`app_cli.c:188-203`). -/
def cmdBaud (n : Node) (baudKbps : UInt32) : Node × Option Decision :=
  if baudKbps ≠ 250 ∧ baudKbps ≠ 500 then (n, none)
  else (withGen n (setBaud n.app.gen baudKbps), none)

/-- `prv_process_line` (`app_cli.c:292-329`). -/
def processLine (B : Build) (n : Node) : CliCommand → Node × Option Decision
  | .config req nowMs => (withGen n (configSignal B n.app.gen req nowMs).1, none)
  | .start durationSec nowMs => cmdStart n durationSec nowMs
  | .stop => cmdStop n
  | .clear => (withGen n (clear n.app.gen), none)
  | .baud baudKbps => cmdBaud n baudKbps
  | .cantest => (withGen n (setBaud n.app.gen n.app.gen.baudKbps), none)

/-- `App_Cli_Poll` (`app_cli.c:331-345`): the lines that are complete. -/
def cliPoll (B : Build) (n : Node) (lines : List CliCommand) : Node × List Decision :=
  let (n, decisions) := Mealy.run (processLine B) n lines
  (n, decisions.reduceOption)

/-! ## The events of one boot -/

/-- What the operator commands and the autostart did to the generator. -/
structure Seen where
  decisions : List Decision
  fired : Bool
deriving DecidableEq, Repr

def Seen.none : Seen := ⟨[], false⟩

/-- `App_Boot_Try_Autostart` was called. -/
def Seen.tried (fired : Bool) : Seen := ⟨[], fired⟩

/-- A frame was handled. -/
def Seen.ofOutcome (o : Outcome) : Seen := ⟨(outcomeDecision o).toList, false⟩

/-- A line was processed. -/
def Seen.ofLine (decision : Option Decision) : Seen := ⟨decision.toList, false⟩

/-- One after the other. -/
def Seen.append (s t : Seen) : Seen := ⟨s.decisions ++ t.decisions, s.fired || t.fired⟩

/-- What may happen after a restore, until the next one; a CAN join is a call of
    `App_Gen_Set_Baud`. -/
inductive Act
  | call (op : Persistence.Op)
  | tryAutostart (nowMs : UInt32)
  | cancelAutostart
  | frame (f : RxFrame)
  | process (nowMs : UInt32) (link : ℕ → LinkStatus)
  | line (c : CliCommand)

/-- One of them. -/
def act (B : Build) (d : Device) : Act → Device × Seen
  | .call op => (d.withNode (withApp d.node (Persistence.step B d.node.app op)), .none)
  | .tryAutostart nowMs =>
    let (n, fired) := tryAutostart d.node nowMs
    (d.withNode n, .tried fired)
  | .cancelAutostart => (d.withNode (cancelAutostart d.node), .none)
  | .frame f =>
    let (d, outcome) := route B d f
    (d, .ofOutcome outcome)
  | .process nowMs link =>
    ({ d with tx := (TxQueue.process nowMs d.tx.retryNotBeforeMs link d.tx.entries 0).1 }, .none)
  | .line c =>
    let (n, decision) := processLine B d.node c
    (d.withNode n, .ofLine decision)

/-! ## The state of the main loop -/

/-- `OP_State_t`. -/
inductive State
  | reset
  | systemInit
  | boardInit
  | appInit
  | commInit
  | run
  | commFault
deriving DecidableEq, Repr

/-- `op_bus_level_t`. -/
inductive BusLevel
  | errorActive
  | errorWarning
  | errorPassive
  | busOff
deriving DecidableEq, Repr

/-- `level >= BUS_ERROR_PASSIVE`. -/
def BusLevel.isPassive : BusLevel → Bool
  | .errorActive | .errorWarning => false
  | .errorPassive | .busOff => true

/-- `hal_reset_cause_t`. -/
inductive ResetCause
  | powerOn
  | pin
  | software
  | iwdg
  | wwdg
  | lowPower
  | unknown
deriving DecidableEq, Repr

/-- The number of a reset cause. -/
def ResetCause.code : ResetCause → UInt8
  | .powerOn => 0
  | .pin => 1
  | .software => 2
  | .iwdg => 3
  | .wwdg => 4
  | .lowPower => 5
  | .unknown => 6

/-- The words in `.noinit`, which a reset keeps. -/
structure Noinit where
  magic : UInt32
  wdgStreak : UInt32
deriving DecidableEq, Repr

/-- The device and the statics of `op_main.c`. -/
structure Board where
  state : State
  busLevel : BusLevel
  lastBusCheckMs : UInt32
  lastCanRetryMs : UInt32
  noinit : Noinit
  device : Device

def Board.withNode (b : Board) (n : Node) : Board := { b with device := { b.device with node := n } }

/-- `APP_CLI_ENABLE` and `APP_BOOT_AUTOSTART_DEFAULTS`. -/
structure Options where
  cliEnable : Bool
  autostartDefaults : Bool
deriving DecidableEq, Repr

/-- `prv_can_join` (`op_main.c:191-198`), without the answer of the controller. -/
def canJoin (n : Node) : Node := withGen n (setBaud n.app.gen n.info.bitrateKbps)

/-! ## The boot -/

/-- `OP_NOINIT_MAGIC`. -/
def noinitMagic : UInt32 := 0xB007C0DE

/-- `OP_WDG_SAFE_MODE_STREAK`. -/
def wdgSafeModeStreak : UInt32 := 3

/-- `prv_boot_loop_detected` (`op_main.c:156-168`). -/
def bootLoopDetected (m : Noinit) (cause : ResetCause) : Noinit × Bool :=
  let m : Noinit := if m.magic ≠ noinitMagic then ⟨noinitMagic, 0⟩ else m
  let streak : UInt32 :=
    if cause ≠ .iwdg then 0 else if m.wdgStreak < 255 then m.wdgStreak + 1 else m.wdgStreak
  ({ m with wdgStreak := streak }, streak ≥ wdgSafeModeStreak)

/-- What a boot finds outside the model: the `.noinit` words, the flash, the
    reset cause, the answer of the controller, and the clock. -/
structure BootInput where
  noinit : Noinit
  memory : Memory
  cause : ResetCause
  joinOk : Bool
  clock : ℕ → UInt32
  autostartMs : UInt32
  readyMs : UInt32

/-- `prv_app_init` (`op_main.c:170-186`). -/
def appInit (B : Build) (o : Options) (i : BootInput) : Noinit × Device :=
  let (noinit, safeMode) := bootLoopDetected i.noinit i.cause
  let d := Control.powerUp defaultBaudKbps i.memory
  let n := restore B d.node safeMode o.autostartDefaults i.clock
  (noinit, { d with node := setResetInfo n i.cause.code noinit.wdgStreak.toUInt8 })

/-- `prv_report_ready` (`op_main.c:210-218`). -/
def reportReady (n : Node) (canOk : Bool) (nowMs : UInt32) : Node × Seen :=
  if canOk = false then (n, .none)
  else
    let (n, fired) := tryAutostart n nowMs
    (n, .tried fired)

/-- `OP_Init` (`op_main.c:284-308`). -/
def opInit (B : Build) (o : Options) (i : BootInput) : Board × Seen :=
  let (noinit, d) := appInit B o i
  let (n, seen) := reportReady (canJoin d.node) i.joinOk i.autostartMs
  ({ state := if i.joinOk then .run else .commFault
     busLevel := .errorActive
     lastBusCheckMs := 0
     lastCanRetryMs := i.readyMs
     noinit := noinit
     device := { d with node := n } }, seen)

/-! ## The main loop -/

/-- What a step finds outside the model. -/
structure StepInput where
  nowMs : UInt32
  lines : List CliCommand
  waiting : List RxFrame
  processMs : UInt32
  ackLink : ℕ → LinkStatus
  link : ℕ → LinkStatus
  bus : BusError
  joinOk : Bool
  autostartMs : UInt32

/-- `OP_CAN_RX_POLL_BUDGET`. -/
def canRxPollBudget : UInt8 := 3

/-- `OP_BUS_MONITOR_PERIOD_MS`. -/
def busMonitorPeriodMs : UInt32 := 100

/-- `OP_CAN_RETRY_PERIOD_MS`. -/
def canRetryPeriodMs : UInt32 := 1000

/-- `OP_BOOT_STABLE_MS`. -/
def bootStableMs : UInt32 := 10000

/-- The level the controller reports (`op_main.c:233-235`). -/
def busLevelOf (err : BusError) : BusLevel :=
  if err.busOff then .busOff
  else if err.errorPassive then .errorPassive
  else if err.errorWarning then .errorWarning
  else .errorActive

/-- `prv_supervise_bus` (`op_main.c:223-256`). -/
def superviseBus (b : Board) (nowMs : UInt32) (err : BusError) : Board :=
  if nowMs - b.lastBusCheckMs < busMonitorPeriodMs then b
  else
    let b := { b with lastBusCheckMs := nowMs }
    let level := busLevelOf err
    if level = b.busLevel then b
    else
      let recovered := b.busLevel.isPassive && !level.isPassive
      let b := { b with busLevel := level }
      if recovered then b.withNode (withGen b.device.node (noteBusRecovered b.device.node.app.gen))
      else b

/-- `prv_comm_fault_step` (`op_main.c:261-279`); the flag says that the join
    succeeded. -/
def commFaultStep (b : Board) (nowMs : UInt32) (joinOk : Bool) (autostartMs : UInt32) :
    Board × Seen × Bool :=
  if nowMs - b.lastCanRetryMs < canRetryPeriodMs then (b, .none, false)
  else
    let b := { b with lastCanRetryMs := nowMs }
    let n := canJoin b.device.node
    if joinOk = false then (b.withNode n, .none, false)
    else
      let (n, fired) := tryAutostart n autostartMs
      let n := if fired then n else withGen n (stop n.app.gen)
      ({ b.withNode n with state := .run }, .tried fired, true)

/-- `J1939_Rx_Router_Poll` with the commands it got accepted. -/
def rxPoll (B : Build) (b : Board) (frameBudget : UInt8) (waiting : List RxFrame) :
    Board × Seen :=
  let (d, outcomes) := poll B b.device frameBudget waiting
  ({ b with device := d }, ⟨outcomes.filterMap outcomeDecision, false⟩)

/-- The branch of `OP_STATE_RUN` (`op_main.c:322-329`). -/
def runStep (B : Build) (b : Board) (i : StepInput) : Board × Seen :=
  let (b, seen) := rxPoll B b canRxPollBudget i.waiting
  let d := b.device
  let tx := (TxQueue.process i.processMs d.tx.retryNotBeforeMs i.ackLink d.tx.entries 0).1
  let n := withGen d.node (process d.node.app.gen i.nowMs i.link).1
  (superviseBus { b with device := { d with node := n, tx := tx } } i.nowMs i.bus, seen)

/-- The streak ends after `OP_BOOT_STABLE_MS` (`op_main.c:315-317`). -/
def settleStreak (m : Noinit) (nowMs : UInt32) : Noinit :=
  if m.wdgStreak ≠ 0 ∧ nowMs ≥ bootStableMs then { m with wdgStreak := 0 } else m

/-- What a step shows: its operator commands and its autostart, whether the CAN
    join succeeded in it, and whether the generator runs after it. -/
structure Observed where
  seen : Seen
  joined : Bool
  running : Bool
deriving DecidableEq, Repr

/-- `OP_Step` (`op_main.c:310-333`). -/
def opStep (B : Build) (o : Options) (b : Board) (i : StepInput) : Board × Observed :=
  let b := { b with noinit := settleStreak b.noinit i.nowMs }
  let (n, decisions) := cliPoll B b.device.node (if o.cliEnable then i.lines else [])
  let b := b.withNode n
  if b.state = .run then
    let (b, seen) := runStep B b i
    (b, ⟨Seen.append ⟨decisions, false⟩ seen, false, b.device.node.app.gen.isRunning⟩)
  else
    let (b, seen, joined) := commFaultStep b i.nowMs i.joinOk i.autostartMs
    (b, ⟨Seen.append ⟨decisions, false⟩ seen, joined, b.device.node.app.gen.isRunning⟩)

/-- What happens to a board: a step, or the router polled on its own. -/
inductive Event
  | step (i : StepInput)
  | rxPoll (frameBudget : UInt8) (waiting : List RxFrame)

/-- One event. -/
def next (B : Build) (o : Options) (b : Board) : Event → Board × Observed
  | .step i => opStep B o b i
  | .rxPoll frameBudget waiting =>
    let (b, seen) := rxPoll B b frameBudget waiting
    (b, ⟨seen, false, b.device.node.app.gen.isRunning⟩)

end J1939Gen.Operation
