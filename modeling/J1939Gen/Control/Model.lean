import J1939Gen.Boot.Model
import J1939Gen.Frame
import J1939Gen.Lib.ReplayCache
import J1939Gen.Lib.Mealy

/-!
# The control protocol

Model of `APP/app_control_can.c` and of the loop of `MID/j1939_rx_router.c`: the
filter of the endpoint, the cache of responses, the seventeen requests, and the
queue of responses the controller did not take. The statistics counters are left
out. What a request reads from outside the model (the clock, the answer of the
controller, the bus errors) is its `Env`.
-/

namespace J1939Gen.Control

open ByteMem SerialClock ValueStore Storage Generator Boot ReplayCache

/-! ## Statuses, requests and responses -/

/-- `App_Control_Status_t`. -/
inductive Status
  | ok
  | unsupportedOpcode
  | badDlc
  | badArgument
  | schemaMismatch
  | unknownSignalKey
  | valueOutOfRange
  | invalidState
  | busy
  | duplicateConflict
  | transactionRejected
  | countMismatch
  | resourceFull
  | catalogMismatch
  | internalError
  | blobIncomplete
  | unknownProfile
  | profileKeyNotAllowed
  | profileMismatch
  | storageEmpty
  | storageInvalid
  | storageError
  | storageUnsupported
deriving DecidableEq, Repr

/-- The byte of a status (`app_control_can.h:190-214`). -/
def Status.code : Status → UInt8
  | .ok => 0
  | .unsupportedOpcode => 1
  | .badDlc => 2
  | .badArgument => 3
  | .schemaMismatch => 4
  | .unknownSignalKey => 5
  | .valueOutOfRange => 6
  | .invalidState => 7
  | .busy => 8
  | .duplicateConflict => 9
  | .transactionRejected => 10
  | .countMismatch => 11
  | .resourceFull => 12
  | .catalogMismatch => 13
  | .internalError => 14
  | .blobIncomplete => 15
  | .unknownProfile => 16
  | .profileKeyNotAllowed => 17
  | .profileMismatch => 18
  | .storageEmpty => 19
  | .storageInvalid => 20
  | .storageError => 21
  | .storageUnsupported => 22

/-- `APP_CONTROL_OPCODE_*`. -/
inductive Opcode
  | tc1001
  | stop
  | start
  | getStatus
  | clearConfig
  | setConst
  | beginConfig
  | setSignalRaw
  | commitConfig
  | abortConfig
  | writeBlob
  | setGlobalPercent
  | setString
  | saveConfig
  | loadSavedConfig
  | eraseSavedConfig
  | setAutostart
deriving DecidableEq, Repr

/-- The byte of an opcode (`app_control_can.h:21-37`). -/
def Opcode.code : Opcode → UInt8
  | .tc1001 => 0x01
  | .stop => 0x02
  | .start => 0x03
  | .getStatus => 0x04
  | .clearConfig => 0x05
  | .setConst => 0x10
  | .beginConfig => 0x11
  | .setSignalRaw => 0x12
  | .commitConfig => 0x13
  | .abortConfig => 0x14
  | .writeBlob => 0x15
  | .setGlobalPercent => 0x16
  | .setString => 0x17
  | .saveConfig => 0x18
  | .loadSavedConfig => 0x19
  | .eraseSavedConfig => 0x1A
  | .setAutostart => 0x1B

/-- The labels of the switch of `prv_handle_control_frame`. -/
def Opcode.all : List Opcode := [.tc1001, .stop, .clearConfig, .setConst, .beginConfig,
  .setSignalRaw, .commitConfig, .abortConfig, .writeBlob, .setString, .setGlobalPercent,
  .saveConfig, .loadSavedConfig, .eraseSavedConfig, .setAutostart, .start, .getStatus]

/-- The label a byte selects. -/
def Opcode.ofByte (b : UInt8) : Option Opcode := Opcode.all.find? fun op => op.code = b

/-- `APP_CONTROL_RESPONSE_MASK`. -/
def responseMask : UInt8 := 0x80

/-- `APP_CONTROL_FRAME_LENGTH`. -/
def frameLength : UInt8 := 8

/-- The eight bytes of a response. -/
structure Response where
  opcode : UInt8
  sequence : UInt8
  status : Status
  detail : UInt8
  value : UInt32
deriving DecidableEq, Repr

/-- `prv_build_response` (`app_control_can.c:73-85`). -/
def buildResponse (requestOpcode sequence : UInt8) (status : Status) (detail : UInt8)
    (value : UInt32) : Response :=
  ⟨requestOpcode ||| responseMask, sequence, status, detail, value⟩

def Response.bytes (r : Response) : List UInt8 :=
  [r.opcode, r.sequence, r.status.code, r.detail] ++ le32 r.value

/-- `J1939_Link_Bus_Error_t`, as far as the protocol reports it; `tec` and
    `rec` are `txErrors` and `rxErrors`. -/
structure BusError where
  txErrors : UInt8
  rxErrors : UInt8
  errorWarning : Bool
  errorPassive : Bool
  busOff : Bool
deriving DecidableEq, Repr

/-- What a frame finds outside the model: `hal_time_ms` when it arrives, in its
    handler and when its response is sent, the times of a commit, the answer of
    the controller to the response, and the bus errors. -/
structure Env where
  arrivalMs : UInt32
  handlerMs : UInt32
  clock : ℕ → UInt32
  sendMs : UInt32
  link : LinkStatus
  bus : BusError

/-! ## Argument checks and status maps -/

/-- `prv_bytes_are_zero_from` (`app_control_can.c:240-248`). -/
def bytesAreZeroFrom (data : Mem) (first : ℕ) : Bool :=
  (List.range' first (8 - first)).all fun i => data i = 0

/-- `prv_reserved_bytes_are_zero` (`app_control_can.c:230-238`). -/
def reservedBytesAreZero (data : Mem) : Bool := bytesAreZeroFrom data 2

/-- `prv_txn_status` (`app_control_can.c:250-287`). -/
def txnStatus : TxnStatus → Status
  | .ok => .ok
  | .unknownKey => .unknownSignalKey
  | .valueOutOfRange => .valueOutOfRange
  | .unsupportedSignal => .badArgument
  | .resourceFull => .resourceFull
  | .countMismatch => .countMismatch
  | .rejected => .transactionRejected
  | .internalError => .internalError
  | .alreadyOpen => .busy
  | .blobIncomplete => .blobIncomplete
  | .badArgument => .badArgument
  | .unknownProfile => .unknownProfile
  | .profileKeyNotAllowed => .profileKeyNotAllowed
  | .profileMismatch => .profileMismatch
  | .invalidState | .notOpen => .invalidState

/-- `prv_persistence_status` (`app_control_can.c:289-312`). -/
def persistenceStatus : Persistence.Status → Status
  | .ok => .ok
  | .empty => .storageEmpty
  | .invalidState => .invalidState
  | .unsupportedConfig => .storageUnsupported
  | .catalogMismatch => .catalogMismatch
  | .invalidImage => .storageInvalid
  | .flashError | .verifyError => .storageError
  | .applyError => .internalError

/-! ## The handlers -/

def withGen (n : Node) (gen : Gen) : Node := { n with app := { n.app with gen := gen } }

def withApp (n : Node) (app : Persistence.App) : Node := { n with app := app }

/-- `prv_handle_set_const` (`app_control_can.c:314-349`). -/
def handleSetConst (B : Build) (n : Node) (sequence : UInt8) (data : Mem) (nowMs : UInt32) :
    Node × Response :=
  let signalKey := readU16 data 2
  let requestedRaw := readU32 data 4
  let (gen, status) := setConstantRaw B n.app.gen signalKey requestedRaw nowMs
  let refuse (status : Status) := buildResponse Opcode.setConst.code sequence status 0 0
  (withGen n gen, match status with
    | .ok => buildResponse Opcode.setConst.code sequence .ok 0 requestedRaw
    | .unknownKey => refuse .unknownSignalKey
    | .valueOutOfRange => refuse .valueOutOfRange
    | .unsupportedSignal => refuse .badArgument
    | .transactionOpen => refuse .invalidState
    | .resourceFull => refuse .busy)

/-- `prv_handle_start` (`app_control_can.c:351-370`). -/
def handleStart (n : Node) (sequence : UInt8) (data : Mem) (nowMs : UInt32) : Node × Response :=
  let respond (status : Status) := buildResponse Opcode.start.code sequence status 0 0
  if reservedBytesAreZero data = false then (n, respond .badArgument)
  else if activeProfileCanStart n.app.gen = false then (n, respond .invalidState)
  else
    let n := cancelAutostart n
    (withGen n (start n.app.gen 0 nowMs), respond .ok)

/-- `prv_handle_stop` (`app_control_can.c:372-387`). -/
def handleStop (n : Node) (sequence : UInt8) (data : Mem) : Node × Response :=
  let respond (status : Status) := buildResponse Opcode.stop.code sequence status 0 0
  if reservedBytesAreZero data = false then (n, respond .badArgument)
  else
    let n := cancelAutostart n
    (withGen n (stop n.app.gen), respond .ok)

/-- `prv_handle_clear_config` (`app_control_can.c:389-414`). -/
def handleClearConfig (n : Node) (sequence : UInt8) (data : Mem) : Node × Response :=
  let respond (status : Status) := buildResponse Opcode.clearConfig.code sequence status 0 0
  if reservedBytesAreZero data = false then (n, respond .badArgument)
  else if n.app.gen.isRunning then (n, respond .invalidState)
  else if configTransactionOpen n.app.gen then (n, respond .invalidState)
  else (withGen n (clear n.app.gen), respond .ok)

/-- `J1939_KEY_EEC1_SPN190`. -/
def keyEec1Spn190 : UInt16 := 103

/-- `flag` if `b`. -/
def flagIf (b : Bool) (flag : UInt8) : UInt8 := if b then flag else 0

/-- `APP_CONTROL_RUNTIME_*` (`app_control_can.c:428-443`). -/
def runtimeFlags (g : Gen) : UInt8 :=
  flagIf g.isRunning 0x01 ||| flagIf (isSignalConfigured g keyEec1Spn190) 0x02 |||
    flagIf (configTransactionOpen g) 0x04 ||| flagIf (g.config.state = .rejected) 0x08 |||
    flagIf (getGeneration g.store ≠ 0) 0x10

/-- `APP_CONTROL_PROTOCOL_INFO_VALUE`: version 2.5, schema 1, capabilities. -/
def protocolInfoValue : UInt32 :=
  (2 : UInt32) ||| ((5 : UInt32) <<< 8) ||| ((1 : UInt32) <<< 16) ||| ((0xFF : UInt32) <<< 24)

/-- `APP_CONTROL_FEATURES`. -/
def features : UInt8 := 0x01 ||| 0x02 ||| 0x04 ||| 0x10 ||| 0x20 ||| 0x80

/-- `J1939_WAVEFORM_POOL_CAPACITY` of a build without waveforms. -/
def waveformPoolCapacity : UInt32 := 0

/-- Page 3 (`app_control_can.c:456-462`): detail and value. -/
def limitsPage (B : Build) : UInt8 × UInt32 :=
  (features, UInt32.ofNat B.signalCapacity ||| (UInt32.ofNat B.pgnCapacity <<< 8) |||
    (waveformPoolCapacity <<< 16) ||| (UInt32.ofNat maxPayloadBytes <<< 24))

/-- `J1939_PROFILE_FLAG_UNRESOLVED_MODE`. -/
def profileFlagUnresolvedMode : UInt8 := 0x04

/-- The counts a page reports. -/
def activeSignalCount (g : Gen) : UInt32 := (UInt16.ofNat (Scheduler.getSignalCount g.store)).toUInt32

/-- Page 4 (`app_control_can.c:463-484`). -/
def profilePage (g : Gen) : UInt8 × UInt32 :=
  match customerProfileFind g.activeProfileId with
  | some profile =>
    (if profile.unresolvedModeCount ≠ 0 then profile.flags ||| profileFlagUnresolvedMode
      else profile.flags,
      profile.profileId.toUInt32 ||| (profile.signalCount.toUInt32 <<< 8) |||
        (profile.pgnCount.toUInt32 <<< 16) ||| (profile.baselineLoad500kDecipct.toUInt32 <<< 24))
  | none =>
    (0, profileIdCustom.toUInt32 ||| (activeSignalCount g <<< 8) |||
      ((getActivePgnCount g).toUInt32 <<< 16) ||| ((0xFF : UInt32) <<< 24))

/-- `APP_CONTROL_STORAGE_*`. -/
def storageFlags (info : Persistence.AppInfo) : UInt8 :=
  flagIf info.valid 0x01 ||| flagIf info.autostart 0x02 ||| flagIf info.dirty 0x04 |||
    flagIf (info.stored.slot = .b) 0x08

/-- The number of a persistence status in `App_Persistence_Status_t`. -/
def persistenceCode : Persistence.Status → UInt8
  | .ok => 0
  | .empty => 1
  | .invalidState => 2
  | .unsupportedConfig => 3
  | .catalogMismatch => 4
  | .invalidImage => 5
  | .flashError => 6
  | .verifyError => 7
  | .applyError => 8

/-- Pages 5 to 7 (`app_control_can.c:485-521`). -/
def storagePage (page : UInt8) (status : Persistence.Status) (info : Persistence.AppInfo) :
    UInt8 × UInt32 :=
  if page = 5 then
    (if status = .ok then storageFlags info else 0, if info.valid then info.stored.configCrc else 0)
  else if page = 6 then
    (if info.valid then info.stored.profileId else profileIdCustom,
      if info.valid then info.stored.sequence else 0)
  else
    (persistenceCode info.lastStatus,
      if info.valid then
        info.stored.signalCount.toUInt32 ||| ((info.stored.bitrateBps / 1000) <<< 16)
      else 0)

/-- The number of a boot result in `App_Boot_Result_t`. -/
def bootResultCode : Boot.Result → UInt8
  | .empty => 0
  | .loaded => 1
  | .loadFailed => 2
  | .defaults => 3

/-- The number of an autostart state in `App_Autostart_State_t`. -/
def autostartCode : Autostart → UInt8
  | .off => 0
  | .pending => 1
  | .started => 2
  | .cancelled => 3
  | .suppressed => 4
  | .notStartable => 5

/-- Page 8 (`app_control_can.c:522-531`). -/
def bootPage (boot : BootInfo) : UInt8 × UInt32 :=
  (boot.resetCause, (bootResultCode boot.result).toUInt32 |||
    ((persistenceCode boot.loadStatus).toUInt32 <<< 8) |||
    ((autostartCode boot.autostart).toUInt32 <<< 16) ||| (boot.watchdogStreak.toUInt32 <<< 24))

/-- Page 9 (`app_control_can.c:532-549`). -/
def linkPage (g : Gen) (bus : BusError) : UInt8 × UInt32 :=
  (flagIf bus.errorWarning 0x01 ||| flagIf bus.errorPassive 0x02 ||| flagIf bus.busOff 0x04,
    g.busRecoveryCount.toUInt32 ||| (bus.txErrors.toUInt32 <<< 16) ||| (bus.rxErrors.toUInt32 <<< 24))

/-- `APP_CONTROL_STATUS_PAGE_LAST`. -/
def statusPageLast : UInt8 := 9

/-- The detail and the value of a page; the storage pages read the slots. -/
def statusPage (B : Build) (n : Node) (page : UInt8) (bus : BusError) : Node × UInt8 × UInt32 :=
  let g := n.app.gen
  if page = 1 then
    (n, runtimeFlags g, (getGeneration g.store).toUInt32 ||| (activeSignalCount g <<< 16) |||
      ((getActivePgnCount g).toUInt32 <<< 24))
  else if page = 2 then (n, runtimeFlags g, getConfigCrc g.store)
  else if page = 3 then (n, limitsPage B)
  else if page = 4 then (n, profilePage g)
  else if page = 5 ∨ page = 6 ∨ page = 7 then
    let (app, status, info) := Persistence.getInfo n.app
    (withApp n app, storagePage page status info)
  else if page = 8 then (n, bootPage (getBootInfo n))
  else if page = 9 then (n, linkPage g bus)
  else (n, runtimeFlags g, protocolInfoValue)

/-- `prv_handle_get_status` (`app_control_can.c:416-555`). -/
def handleGetStatus (B : Build) (n : Node) (sequence : UInt8) (data : Mem) (bus : BusError) :
    Node × Response :=
  let page := data 2
  if bytesAreZeroFrom data 3 = false ∨ page > statusPageLast then
    (n, buildResponse Opcode.getStatus.code sequence .badArgument 0 0)
  else
    let (n, detail, value) := statusPage B n page bus
    (n, buildResponse Opcode.getStatus.code sequence .ok detail value)

/-- `prv_handle_begin_config` (`app_control_can.c:563-590`). -/
def handleBeginConfig (B : Build) (n : Node) (sequence : UInt8) (data : Mem) : Node × Response :=
  let catalogCrc := readU32 data 2
  let expectedCount := (data 6).toUInt16
  let expectedBlobCount := data 7 &&& 0x01
  let selector := data 7 >>> 1
  let profileId := if selector = 0 then profileIdCustom else selector - 1
  if catalogCrc ≠ catalogCrc32 then
    (n, buildResponse Opcode.beginConfig.code sequence .catalogMismatch 0 catalogCrc32)
  else
    let (gen, status) := beginProfileConfig B n.app.gen expectedCount expectedBlobCount profileId
    (withGen n gen, buildResponse Opcode.beginConfig.code sequence (txnStatus status)
      expectedCount.toUInt8 catalogCrc32)

/-- `prv_handle_set_signal_raw` (`app_control_can.c:592-604`). -/
def handleSetSignalRaw (B : Build) (n : Node) (sequence : UInt8) (data : Mem) : Node × Response :=
  let signalKey := readU16 data 2
  let rawValue := readU32 data 4
  let (gen, status) := stageConstantRaw B n.app.gen signalKey rawValue
  (withGen n gen, buildResponse Opcode.setSignalRaw.code sequence (txnStatus status)
    gen.config.stagedCount.toUInt8 (if txnStatus status = .ok then rawValue else 0))

/-- `&data[5]`. -/
def chunkOf (data : Mem) : Mem := fun i => data (5 + i)

/-- `prv_handle_write_blob` (`app_control_can.c:606-619`). -/
def handleWriteBlob (B : Build) (n : Node) (sequence : UInt8) (data : Mem) : Node × Response :=
  let signalKey := (data 2).toUInt16
  let totalLength := data 3
  let offset := data 4
  let (gen, status, written) := stageBlobChunk B n.app.gen signalKey totalLength offset
    (some (chunkOf data))
  (withGen n gen, buildResponse Opcode.writeBlob.code sequence (txnStatus status) totalLength
    written.toUInt32)

/-- `prv_handle_set_string` (`app_control_can.c:621-632`). -/
def handleSetString (B : Build) (n : Node) (sequence : UInt8) (data : Mem) : Node × Response :=
  let signalKey := (data 2).toUInt16
  let totalLength := data 3
  let offset := data 4
  let (gen, status, written) := stageStringChunk B n.app.gen signalKey totalLength offset
    (some (chunkOf data))
  (withGen n gen, buildResponse Opcode.setString.code sequence (txnStatus status) totalLength
    written.toUInt32)

/-- `prv_handle_set_global_percent` (`app_control_can.c:634-654`). -/
def handleSetGlobalPercent (n : Node) (sequence : UInt8) (data : Mem) : Node × Response :=
  if bytesAreZeroFrom data 4 = false then
    (n, buildResponse Opcode.setGlobalPercent.code sequence .badArgument 0 0)
  else
    let (gen, status, report) := setGlobalPercent n.app.gen (readU16 data 2)
    let excluded : UInt8 := if report.excluded > 0xFF then 0xFF else report.excluded.toUInt8
    (withGen n gen, buildResponse Opcode.setGlobalPercent.code sequence (txnStatus status) excluded
      (report.generation.toUInt32 ||| (report.affected.toUInt32 <<< 16)))

/-- `prv_handle_commit_config` (`app_control_can.c:656-676`). -/
def handleCommitConfig (B : Build) (n : Node) (sequence : UInt8) (data : Mem)
    (clock : ℕ → UInt32) : Node × Response :=
  if reservedBytesAreZero data = false then
    (n, buildResponse Opcode.commitConfig.code sequence .badArgument 0 0)
  else
    let (gen, status, report) := commitConfig B n.app.gen clock
    let summary := report.generation.toUInt32 ||| (report.signalCount.toUInt32 <<< 16)
    (withGen n gen, buildResponse Opcode.commitConfig.code sequence (txnStatus status)
      report.pgnCount (if txnStatus status = .ok then summary else 0))

/-- `prv_handle_abort_config` (`app_control_can.c:678-690`). -/
def handleAbortConfig (n : Node) (sequence : UInt8) (data : Mem) : Node × Response :=
  let respond (status : Status) := buildResponse Opcode.abortConfig.code sequence status 0 0
  if reservedBytesAreZero data = false then (n, respond .badArgument)
  else (withGen n (abortConfig n.app.gen), respond .ok)

/-- The number of a slot. -/
def slotCode : Slot → UInt8
  | .a => 0
  | .b => 1

/-- A response to a call of the persistence: with a detail and a value on OK. -/
def persistenceResponse {α : Type} (op : Opcode) (sequence : UInt8) (result : Except Persistence.Status α)
    (detail : α → UInt8) (value : α → UInt32) : Response :=
  match result with
  | .ok r => buildResponse op.code sequence (persistenceStatus .ok) (detail r) (value r)
  | .error e => buildResponse op.code sequence (persistenceStatus e) 0 0

/-- `prv_handle_save_config` (`app_control_can.c:692-707`). -/
def handleSaveConfig (n : Node) (sequence : UInt8) (data : Mem) : Node × Response :=
  if reservedBytesAreZero data = false then
    (n, buildResponse Opcode.saveConfig.code sequence .badArgument 0 0)
  else
    let (app, result) := Persistence.save n.app
    (withApp n app, persistenceResponse .saveConfig sequence result (fun info => slotCode info.slot)
      fun info => info.configCrc)

/-- `prv_handle_load_saved` (`app_control_can.c:709-728`). -/
def handleLoadSaved (B : Build) (n : Node) (sequence : UInt8) (data : Mem) (clock : ℕ → UInt32) :
    Node × Response :=
  if reservedBytesAreZero data = false then
    (n, buildResponse Opcode.loadSavedConfig.code sequence .badArgument 0 0)
  else
    let (app, result) := Persistence.load B n.app clock
    (withApp n app, persistenceResponse .loadSavedConfig sequence result CommitReport.pgnCount
      fun r => r.generation.toUInt32 ||| (r.signalCount.toUInt32 <<< 16))

/-- `prv_handle_erase_saved` (`app_control_can.c:730-743`). -/
def handleEraseSaved (n : Node) (sequence : UInt8) (data : Mem) : Node × Response :=
  if reservedBytesAreZero data = false then
    (n, buildResponse Opcode.eraseSavedConfig.code sequence .badArgument 0 0)
  else
    let (app, result) := Persistence.erase n.app
    (withApp n app, persistenceResponse .eraseSavedConfig sequence result (fun _ => 0) fun _ => 0)

/-- `prv_handle_set_autostart` (`app_control_can.c:745-760`). -/
def handleSetAutostart (n : Node) (sequence : UInt8) (data : Mem) : Node × Response :=
  if data 2 > 1 ∨ bytesAreZeroFrom data 3 = false then
    (n, buildResponse Opcode.setAutostart.code sequence .badArgument 0 0)
  else
    let (app, result) := Persistence.setAutostart n.app (data 2 ≠ 0)
    (withApp n app, persistenceResponse .setAutostart sequence result (fun _ => data 2)
      fun info => info.sequence)

/-- `APP_CONTROL_OPCODE_TC1001` (`app_control_can.c:823-831`). -/
def handleTc1001 (n : Node) (sequence : UInt8) (data : Mem) : Node × Response :=
  let respond (status : Status) := buildResponse Opcode.tc1001.code sequence status 0 0
  if reservedBytesAreZero data = false then (n, respond .badArgument) else (n, respond .ok)

/-- The switch of `prv_handle_control_frame` (`app_control_can.c:822-884`). -/
def handle (B : Build) (n : Node) (sequence : UInt8) (data : Mem) (env : Env) :
    Opcode → Node × Response
  | .tc1001 => handleTc1001 n sequence data
  | .stop => handleStop n sequence data
  | .start => handleStart n sequence data env.handlerMs
  | .getStatus => handleGetStatus B n sequence data env.bus
  | .clearConfig => handleClearConfig n sequence data
  | .setConst => handleSetConst B n sequence data env.handlerMs
  | .beginConfig => handleBeginConfig B n sequence data
  | .setSignalRaw => handleSetSignalRaw B n sequence data
  | .commitConfig => handleCommitConfig B n sequence data env.clock
  | .abortConfig => handleAbortConfig n sequence data
  | .writeBlob => handleWriteBlob B n sequence data
  | .setGlobalPercent => handleSetGlobalPercent n sequence data
  | .setString => handleSetString B n sequence data
  | .saveConfig => handleSaveConfig n sequence data
  | .loadSavedConfig => handleLoadSaved B n sequence data env.clock
  | .eraseSavedConfig => handleEraseSaved n sequence data
  | .setAutostart => handleSetAutostart n sequence data

/-- The switch with its default. -/
def execute (B : Build) (n : Node) (data : Mem) (env : Env) : Node × Response :=
  match Opcode.ofByte (data 0) with
  | some op => handle B n (data 1) data env op
  | none => (n, buildResponse (data 0) (data 1) .unsupportedOpcode 0 0)

/-! ## The responses the controller did not take -/

/-- `App_Control_Tx_Entry_t`. -/
structure TxEntry where
  response : Response
  queuedMs : UInt32
deriving DecidableEq, Repr

/-- `s_tx_queue`, the head first, and `s_tx_retry_not_before_ms`. -/
structure TxQueue where
  entries : List TxEntry
  retryNotBeforeMs : UInt32
deriving DecidableEq, Repr

/-- What happens to a response. -/
inductive TxEvent
  | transmitted (r : Response)
  | deferred (r : Response)
  | merged (r : Response)
  | dropped (r : Response)
deriving DecidableEq, Repr

/-- `APP_CONTROL_TX_QUEUE_CAPACITY`. -/
abbrev txQueueCapacity : ℕ := 4

/-- `APP_CONTROL_TX_RETRY_DELAY_MS`. -/
def txRetryDelayMs : UInt32 := 1

/-- `APP_CONTROL_DEDUP_WINDOW_MS`. -/
abbrev dedupWindow : ℕ := 2000

def dedupWindowMs : UInt32 := UInt32.ofNat dedupWindow

/-- `prv_defer_response` (`app_control_can.c:126-145`). -/
def TxQueue.defer (q : TxQueue) (r : Response) (nowMs : UInt32) : TxQueue × TxEvent :=
  if q.entries.any fun e => e.response.bytes = r.bytes then (q, .merged r)
  else if q.entries.length ≥ txQueueCapacity then (q, .dropped r)
  else ({ q with entries := q.entries ++ [⟨r, nowMs⟩] }, .deferred r)

/-- `prv_send_response` (`app_control_can.c:147-170`). -/
def TxQueue.send (q : TxQueue) (r : Response) (nowMs : UInt32) (link : LinkStatus) :
    TxQueue × TxEvent :=
  if q.entries ≠ [] then q.defer r nowMs
  else if link = .ok then (q, .transmitted r)
  else
    let (q, event) := q.defer r nowMs
    ({ q with retryNotBeforeMs := nowMs + txRetryDelayMs }, event)

/-- `App_Control_Can_Process` (`app_control_can.c:903-933`): the loop over the
    queue; `link i` answers transmission `i`. -/
def TxQueue.process (nowMs retryNotBeforeMs : UInt32) (link : ℕ → LinkStatus) :
    List TxEntry → ℕ → TxQueue × List TxEvent
  | [], _ => (⟨[], retryNotBeforeMs⟩, [])
  | e :: rest, i =>
    if nowMs - e.queuedMs > dedupWindowMs then
      let (q, events) := TxQueue.process nowMs retryNotBeforeMs link rest i
      (q, .dropped e.response :: events)
    else if reached nowMs retryNotBeforeMs = false then (⟨e :: rest, retryNotBeforeMs⟩, [])
    else if link i = .ok then
      let (q, events) := TxQueue.process nowMs retryNotBeforeMs link rest (i + 1)
      (q, .transmitted e.response :: events)
    else (⟨e :: rest, nowMs + txRetryDelayMs⟩, [])

/-! ## The device -/

/-- `APP_CONTROL_DEDUP_CACHE_CAPACITY`. -/
abbrev cacheCapacity : ℕ := 16

/-- A request as the cache stores it: the source and the eight bytes. -/
abbrev Request := UInt8 × List UInt8

/-- What identifies a request: the source and the sequence byte. -/
def Request.tag (r : Request) : UInt8 × UInt8 := (r.1, r.2.getD 1 0)

/-- The application and the statics of `app_control_can.c`. -/
structure Device where
  node : Node
  cache : Ring Request Response
  tx : TxQueue

/-- `App_Control_Can_Init` (`app_control_can.c:890-901`). -/
def init (n : Node) : Device where
  node := withApp n n.app.init
  cache := Ring.empty
  tx := ⟨[], 0⟩

/-- The device after `App_Gen_Init` and `App_Control_Can_Init`. -/
def powerUp (baudKbps : UInt32) (memory : Memory) : Device :=
  init ⟨⟨Generator.init baudKbps, memory, .empty⟩, .start baudKbps, 0, 0⟩

/-- What becomes of a frame: ignored, answered without the cache, answered from
    it, a conflict with it, or executed. -/
inductive Outcome
  | ignored
  | uncached (r : Response)
  | replayed (r : Response)
  | conflict (r : Response)
  | executed (r : Response)
deriving DecidableEq, Repr

/-- The response handed to `prv_send_response`. -/
def Outcome.response : Outcome → Option Response
  | .ignored => none
  | .uncached r | .replayed r | .conflict r | .executed r => some r

def Device.respond (d : Device) (r : Response) (env : Env) : Device :=
  { d with tx := (d.tx.send r env.sendMs env.link).1 }

/-- `J1939_PGN_PROPRIETARY_A_CONTROL`. -/
def pgnProprietaryAControl : UInt32 := 61184

/-- The endpoint check (`app_control_can.c:771-777`). -/
def atEndpoint (header : Header) : Bool :=
  header.pgn = pgnProprietaryAControl ∧ header.priority = 6 ∧ header.sourceAddress = 0xF9 ∧
    header.destinationAddress = 0x80

/-- A well-formed request (`app_control_can.c:807-887`). -/
def serve (B : Build) (d : Device) (source : UInt8) (data : Mem) (env : Env) : Device × Outcome :=
  let request : Request := (source, bytes data 0 8)
  let (cache, found) := d.cache.lookup Request.tag dedupWindowMs cacheCapacity request env.arrivalMs
  let d := { d with cache := cache }
  match found with
  | .replay r => (d.respond r env, .replayed r)
  | .conflict =>
    let r := buildResponse (data 0) (data 1) .duplicateConflict 0 0
    (d.respond r env, .conflict r)
  | .miss =>
    let (node, r) := execute B d.node data env
    let d : Device := { d with
      node := node
      cache := d.cache.store cacheCapacity request r env.arrivalMs }
    (d.respond r env, .executed r)

/-- `prv_handle_control_frame` (`app_control_can.c:762-888`). -/
def handleControlFrame (B : Build) (d : Device) (header : Header) (data : Mem) (length : UInt8)
    (env : Env) : Device × Outcome :=
  if atEndpoint header = false then (d, .ignored)
  else if length > 0 ∧ data 0 &&& responseMask ≠ 0 then (d, .ignored)
  else if length < 2 then (d, .ignored)
  else if length ≠ frameLength then
    let r := buildResponse (data 0) (data 1) .badDlc length 0
    (d.respond r env, .uncached r)
  else if data 1 = 0 then
    let r := buildResponse (data 0) (data 1) .badArgument 0 0
    (d.respond r env, .uncached r)
  else serve B d header.sourceAddress data env

/-! ## The router -/

/-- A received frame: the 29-bit identifier, the data and the length. -/
structure RxFrame where
  id : UInt32
  data : Mem
  length : UInt8
  env : Env

/-- The loop body of `J1939_Rx_Router_Poll` (`j1939_rx_router.c:29-46`), with the
    control handler registered. -/
def route (B : Build) (d : Device) (f : RxFrame) : Device × Outcome :=
  let header := Header.parseId f.id
  if header.pgn = pgnProprietaryAControl then handleControlFrame B d header f.data f.length f.env
  else (d, .ignored)

/-- `J1939_Rx_Router_Poll` (`j1939_rx_router.c:27-47`): at most `frameBudget`
    of the frames that wait. -/
def poll (B : Build) (d : Device) (frameBudget : UInt8) (waiting : List RxFrame) :
    Device × List Outcome :=
  Mealy.run (route B) d (waiting.take frameBudget.toNat)

end J1939Gen.Control
