import J1939Gen.Scheduler.Model

/-!
# The generator

Model of `APP/app_generator.c` in the constant-only build: the configuration
transaction with its admission counters, single constants, the global percent,
start, stop and the process loop. The pattern pool of that build is always
empty, so its queries are left out.

`clock i` is what `hal_time_ms` returns when record `i` is added. The run mode
and the console reports are left out: no other function reads them.
-/

namespace J1939Gen.Generator

open Bitmask ByteMem ValueStore Scheduler

/-! ## State -/

/-- `App_Config_State_t`. -/
inductive ConfigState
  | idle
  | opened
  | rejected
deriving DecidableEq, Repr

/-- The `s_config_*` statics: the transaction being staged. -/
structure Config where
  state : ConfigState
  signalMask : Mask
  pgnMask : Mask
  expectedCount : UInt16
  stagedCount : UInt16
  expectedBlobCount : UInt8
  blobCount : UInt8
  stagedPgnCount : UInt8
  schedulablePgnCount : UInt8
  profileId : UInt8

/-- The statics of `app_generator.c`, with the value store and the scheduler it
    drives. -/
structure Gen where
  store : Store
  sched : Sched
  config : Config
  isRunning : Bool
  testStartMs : UInt32
  testDurationMs : UInt32
  totalFramesSent : UInt32
  baudKbps : UInt32
  busRecoveryCount : UInt16
  activeProfileId : UInt8

/-- `App_Set_Const_Status_t`. -/
inductive SetConstStatus
  | ok
  | unknownKey
  | valueOutOfRange
  | unsupportedSignal
  | resourceFull
  | transactionOpen
deriving DecidableEq, Repr

/-- `App_Config_Status_t`. -/
inductive ConfigStatus
  | ok
  | unknownSpn
  | ambiguousSpn
  | unsupportedSignal
  | tableFull
deriving DecidableEq, Repr

/-- `App_Config_Transaction_Status_t`. -/
inductive TxnStatus
  | ok
  | invalidState
  | alreadyOpen
  | notOpen
  | rejected
  | unknownKey
  | valueOutOfRange
  | unsupportedSignal
  | resourceFull
  | countMismatch
  | internalError
  | blobIncomplete
  | badArgument
  | unknownProfile
  | profileKeyNotAllowed
  | profileMismatch
deriving DecidableEq, Repr

/-- `APP_CONFIG_MAX_BLOB_RECORDS`. -/
def maxBlobRecords : UInt8 := 1

/-- `APP_BLOB_CHUNK_BYTES`. -/
def blobChunkBytes : UInt8 := 3

/-- `APP_GLOBAL_PERCENT_MAX_BP`. -/
def globalPercentMaxBp : UInt16 := 10000

/-! ## Catalog identity -/

/-- `prv_is_scalar` (`app_generator.c:70-81`). -/
def isScalar (index : ℕ) : Bool :=
  if index ≥ signalCount then false
  else
    let sig := signalAt index
    isBlob index = false ∧ sig.bitLength > 0 ∧ sig.bitLength ≤ 32 ∧
      sig.startBit.toUInt32 + sig.bitLength.toUInt32 ≤
        (pgnAt sig.pgnIndex).payloadLength.toUInt32 * 8

/-- `prv_is_short_scalar` (`app_generator.c:56-68`): a scalar of a PGN of at
    most eight bytes. -/
def isShortScalar (index : ℕ) : Bool :=
  isScalar index ∧ (pgnAt (signalAt index).pgnIndex).payloadLength ≤ 8

/-- `prv_profile_record_counts` (`app_generator.c:117-140`). -/
def profileRecordCounts (profile : CustomerProfile) : UInt16 × UInt8 :=
  (List.range signalCount).foldl (fun acc i =>
    if profile.hasKey (signalAt i).signalKey = false then acc
    else if isBlob i then (acc.1, acc.2 + 1)
    else (acc.1 + 1, acc.2)) (0, 0)

/-- `prv_find_unique_catalog_index` (`app_generator.c:218-235`): the first match
    and the number of matches. -/
def findUniqueCatalogIndex (spn : UInt32) : Option ℕ × ℕ :=
  let found := (List.range signalCount).filter fun i => (signalAt i).spn == spn
  (if found.length = 1 then found.head? else none, found.length)

/-! ## The configuration transaction -/

/-- `prv_config_reset_counters` (`app_generator.c:205-216`): every counter, not
    the state. -/
def Config.resetCounters (c : Config) : Config :=
  { c with
    signalMask := zero
    pgnMask := zero
    expectedCount := 0
    stagedCount := 0
    expectedBlobCount := 0
    blobCount := 0
    stagedPgnCount := 0
    schedulablePgnCount := 0
    profileId := profileIdCustom }

/-- `prv_config_reject` (`app_generator.c:98-104`). -/
def configReject (g : Gen) (status : TxnStatus) : Gen × TxnStatus :=
  ({ g with
      store := abort g.store
      config := { g.config with state := .rejected } }, status)

/-- `prv_config_ready` (`app_generator.c:106-115`). -/
def configReady (g : Gen) : TxnStatus :=
  match g.config.state with
  | .idle => .notOpen
  | .rejected => .rejected
  | .opened => .ok

/-- `prv_config_profile_allows` (`app_generator.c:142-151`). -/
def Config.profileAllows (c : Config) (index : ℕ) : Bool :=
  if c.profileId = profileIdCustom then true
  else
    match customerProfileFind c.profileId with
    | none => false
    | some profile => profile.hasKey (signalAt index).signalKey

/-- `prv_config_matches_profile` (`app_generator.c:153-168`); the profile is
    `none` for `NULL`. -/
def Config.matchesProfile (c : Config) (profile : Option CustomerProfile) : Bool :=
  match profile with
  | none => false
  | some profile => (List.range signalCount).all fun i =>
      test c.signalMask i == profile.hasKey (signalAt i).signalKey

/-- `prv_config_admit` (`app_generator.c:171-185`). -/
def Config.admit (B : Build) (c : Config) (index : ℕ) : TxnStatus :=
  let pgnIndex := (signalAt index).pgnIndex
  if test c.signalMask index = false ∧
      (c.stagedCount + c.blobCount.toUInt16).toNat ≥ B.signalCapacity then .resourceFull
  else if test c.pgnMask pgnIndex = false ∧ pgnIndexIsSchedulable pgnIndex ∧
      c.schedulablePgnCount.toNat ≥ B.pgnCapacity then .resourceFull
  else .ok

/-- The PGN part of `prv_config_mark`. -/
def Config.markPgn (c : Config) (pgnIndex : ℕ) : Config :=
  if test c.pgnMask pgnIndex then c
  else
    { c with
      pgnMask := assign c.pgnMask pgnIndex true
      stagedPgnCount := c.stagedPgnCount + 1
      schedulablePgnCount :=
        if pgnIndexIsSchedulable pgnIndex then c.schedulablePgnCount + 1
        else c.schedulablePgnCount }

/-- `prv_config_mark` (`app_generator.c:188-203`): the flag says that the record
    is new. -/
def Config.mark (c : Config) (index : ℕ) : Config × Bool :=
  let c := c.markPgn (signalAt index).pgnIndex
  if test c.signalMask index then (c, false)
  else ({ c with signalMask := assign c.signalMask index true }, true)

/-- Mark a staged scalar and count it when it is new. -/
def Config.markScalar (c : Config) (index : ℕ) : Config :=
  let (c, isNew) := c.mark index
  if isNew then { c with stagedCount := c.stagedCount + 1 } else c

/-- Mark a staged blob chunk and count its record when it is new. -/
def Config.markBlob (c : Config) (index : ℕ) : Config :=
  let (c, isNew) := c.mark index
  if isNew then { c with blobCount := c.blobCount + 1 } else c

/-- The profile checks of `App_Gen_Begin_Profile_Config`. -/
def profileStatus (B : Build) (expectedScalarCount : UInt16) (expectedBlobCount profileId : UInt8) :
    TxnStatus :=
  if profileId = profileIdCustom then .ok
  else
    match customerProfileFind profileId with
    | none => .unknownProfile
    | some profile =>
      if (expectedScalarCount, expectedBlobCount) ≠ profileRecordCounts profile then
        .profileMismatch
      else if profile.signalCount.toNat > B.signalCapacity ∨
          profile.pgnCount.toNat > B.pgnCapacity then .resourceFull
      else .ok

/-- `App_Gen_Begin_Profile_Config` (`app_generator.c:674-719`). -/
def beginProfileConfig (B : Build) (g : Gen) (expectedScalarCount : UInt16)
    (expectedBlobCount profileId : UInt8) : Gen × TxnStatus :=
  if g.isRunning then (g, .invalidState)
  else if g.config.state ≠ .idle then (g, .alreadyOpen)
  else if profileStatus B expectedScalarCount expectedBlobCount profileId ≠ .ok then
    (g, profileStatus B expectedScalarCount expectedBlobCount profileId)
  else if expectedBlobCount > maxBlobRecords ∨
      (expectedScalarCount + expectedBlobCount.toUInt16).toNat > B.signalCapacity then
    (g, .resourceFull)
  else
    let (store, status) := begin g.store .empty
    if status ≠ .ok then ({ g with store := store }, .internalError)
    else
      ({ g with
          store := store
          config := { g.config.resetCounters with
            expectedCount := expectedScalarCount
            expectedBlobCount := expectedBlobCount
            profileId := profileId
            state := .opened } }, .ok)

/-- `App_Gen_Begin_Config` (`app_generator.c:665-672`). -/
def beginConfig (B : Build) (g : Gen) (expectedScalarCount : UInt16)
    (expectedBlobCount : UInt8) : Gen × TxnStatus :=
  beginProfileConfig B g expectedScalarCount expectedBlobCount profileIdCustom

/-- `App_Gen_Stage_Constant_Raw` (`app_generator.c:721-769`). The count it
    reports is the one of the returned state. -/
def stageConstantRaw (B : Build) (g : Gen) (signalKey : UInt16) (rawValue : UInt32) :
    Gen × TxnStatus :=
  if configReady g ≠ .ok then (g, configReady g)
  else
    match indexFromKey signalKey with
    | none => configReject g .unknownKey
    | some index =>
      if g.config.profileAllows index = false then configReject g .profileKeyNotAllowed
      else if isScalar index = false then configReject g .unsupportedSignal
      else if checkRaw signalKey rawValue = .valueOutOfRange then configReject g .valueOutOfRange
      else if checkRaw signalKey rawValue ≠ .ok then configReject g .unsupportedSignal
      else if g.config.admit B index ≠ .ok then configReject g <| g.config.admit B index
      else
        let (store, status) := setRaw g.store signalKey rawValue
        let g := { g with store := store }
        if status ≠ .ok then configReject g .internalError
        else ({ g with config := g.config.markScalar index }, .ok)

/-- The payload bytes of a chunk, `min(3, total_length - offset)`. -/
def chunkCount (totalLength offset : UInt8) : UInt8 :=
  if totalLength - offset < blobChunkBytes then totalLength - offset else blobChunkBytes

/-- `App_Gen_Stage_Blob_Chunk` (`app_generator.c:771-833`). `chunk` is `none` for
    `NULL`; the last component is `out_written_bytes`. -/
def stageBlobChunk (B : Build) (g : Gen) (signalKey : UInt16) (totalLength offset : UInt8)
    (chunk : Option Mem) : Gen × TxnStatus × UInt16 :=
  let written := stagedBlobBytes g.store
  let reject (g : Gen) (status : TxnStatus) : Gen × TxnStatus × UInt16 :=
    ((configReject g status).1, status, written)
  if configReady g ≠ .ok then (g, configReady g, written)
  else
    match chunk with
    | none => reject g .badArgument
    | some chunk =>
      match indexFromKey signalKey with
      | none => reject g .unknownKey
      | some index =>
        if g.config.profileAllows index = false then reject g .profileKeyNotAllowed
        else if isBlob index = false then reject g .unsupportedSignal
        else if offset ≥ totalLength then reject g .valueOutOfRange
        else
          let count := chunkCount totalLength offset
          if (bytes chunk count.toNat (3 - count.toNat)).any (· ≠ 0) then reject g .badArgument
          else if g.config.admit B index ≠ .ok then reject g <| g.config.admit B index
          else
            let (store, status) := writeBlob g.store signalKey totalLength.toUInt16
              offset.toUInt16 (some chunk) count.toUInt16
            let g := { g with store := store }
            match status with
            | .ok => ({ g with config := g.config.markBlob index }, .ok, stagedBlobBytes store)
            | .valueOutOfRange => reject g .valueOutOfRange
            | .resourceFull => reject g .resourceFull
            | _ => reject g .internalError

/-- The characters `App_Gen_Stage_String_Chunk` refuses. -/
def notStringChar (c : UInt8) : Bool := c < 0x20 ∨ c > 0x7E ∨ c = vinTerminator

/-- `max_chars`: the string leaves room for its terminator. -/
def maxStringChars : UInt16 := vinTxBytes - (if vinTerminator ≠ 0 then 1 else 0)

/-- `App_Gen_Stage_String_Chunk` (`app_generator.c:835-881`). -/
def stageStringChunk (B : Build) (g : Gen) (signalKey : UInt16) (totalLength offset : UInt8)
    (chunk : Option Mem) : Gen × TxnStatus × UInt16 :=
  let written := stagedBlobBytes g.store
  let reject (status : TxnStatus) : Gen × TxnStatus × UInt16 :=
    ((configReject g status).1, status, written)
  if configReady g ≠ .ok then (g, configReady g, written)
  else
    match chunk with
    | none => reject .badArgument
    | some data =>
      match indexFromKey signalKey with
      | none => reject .unknownKey
      | some index =>
        if isBlob index = false ∨ (signalAt index).specialCodec ≠ .asciiBlob then
          reject .unsupportedSignal
        else if totalLength = 0 ∨ totalLength.toUInt16 > maxStringChars then
          reject .valueOutOfRange
        else if offset < totalLength ∧
            (bytes data 0 (chunkCount totalLength offset).toNat).any notStringChar then
          reject .valueOutOfRange
        else stageBlobChunk B g signalKey totalLength offset chunk

/-- The loop body of the rebuild in `App_Gen_Commit_Config`: add one active
    record; the flag is `scheduler_ok`. -/
def rebuildStep (B : Build) (store : Store) (clock : ℕ → UInt32) (acc : Sched × Bool) (i : ℕ) :
    Sched × Bool :=
  if isActive store i then
    let (sched, added) := acc.1.addCatalogSignal B store i (clock i)
    (sched, acc.2 && added)
  else acc

/-- The rebuild of the scheduler from the active bank. -/
def rebuild (B : Build) (store : Store) (clock : ℕ → UInt32) : Sched × Bool :=
  (List.range signalCount).foldl (rebuildStep B store clock) (Sched.clear, true)

/-- The out-parameters of `App_Gen_Commit_Config`, which its callers zero. -/
structure CommitReport where
  generation : UInt16
  signalCount : UInt16
  pgnCount : UInt8
deriving DecidableEq, Repr

/-- The counters of a commit that did not succeed. -/
def CommitReport.none : CommitReport := ⟨0, 0, 0⟩

/-- `s_config_state = APP_CONFIG_STATE_IDLE`. -/
def Gen.closeConfig (g : Gen) : Gen := { g with config := { g.config with state := .idle } }

/-- `App_Gen_Commit_Config` (`app_generator.c:883-950`). -/
def commitConfig (B : Build) (g : Gen) (clock : ℕ → UInt32) : Gen × TxnStatus × CommitReport :=
  let abandon (status : TxnStatus) : Gen × TxnStatus × CommitReport :=
    ({ g with store := abort g.store }.closeConfig, status, .none)
  if g.config.state = .idle then (g, .notOpen, .none)
  else if g.config.state = .rejected then abandon .rejected
  else if g.config.stagedCount ≠ g.config.expectedCount ∨
      g.config.blobCount ≠ g.config.expectedBlobCount then abandon .countMismatch
  else if g.config.profileId ≠ profileIdCustom ∧
      g.config.matchesProfile (customerProfileFind g.config.profileId) = false then
    abandon .profileMismatch
  else
    let (store, committed) := commit g.store
    let g := { g with store := store }.closeConfig
    if committed ≠ .ok then
      (g, if committed = .blobIncomplete then .blobIncomplete else .internalError, .none)
    else
      let (sched, schedulerOk) := rebuild B store clock
      if schedulerOk = false then ({ g with sched := Sched.clear }, .internalError, .none)
      else
        ({ g with sched := sched, activeProfileId := g.config.profileId }, .ok,
          { generation := store.generation
            signalCount := g.config.stagedCount + g.config.blobCount.toUInt16
            pgnCount := g.config.stagedPgnCount })

/-- `App_Gen_Abort_Config` (`app_generator.c:952-957`). -/
def abortConfig (g : Gen) : Gen :=
  { g with
    store := abort g.store
    config := { g.config with state := .idle }.resetCounters }

/-! ## Single records -/

/-- `prv_store_update` (`app_generator.c:250-266`). -/
def storeUpdate (s : Store) (signalKey : UInt16) (active : Bool) (rawValue : UInt32) :
    Store × Status :=
  let (s, status) := begin s .copyActive
  if status ≠ .ok then (s, status)
  else
    let (s, status) := if active then setRaw s signalKey rawValue else remove s signalKey
    if status ≠ .ok then (abort s, status) else commit s

/-- `prv_store_clear` (`app_generator.c:268-273`). -/
def storeClear (s : Store) : Store := (commit (begin (abort s) .empty).1).1

/-- `prv_set_constant` (`app_generator.c:277-314`). -/
def setConstant (B : Build) (g : Gen) (index : ℕ) (rawValue nowMs : UInt32) :
    Gen × SetConstStatus :=
  if index ≥ signalCount then (g, .unknownKey)
  else if isShortScalar index = false then (g, .unsupportedSignal)
  else
    let key := (signalAt index).signalKey
    match checkRaw key rawValue with
    | .ok =>
      if g.sched.canAddCatalogSignal B g.store index = false then (g, .resourceFull)
      else
        let (store, status) := storeUpdate g.store key true rawValue
        let g := { g with store := store }
        if status ≠ .ok then (g, .resourceFull)
        else
          ({ g with
              sched := (g.sched.addCatalogSignal B store index nowMs).1
              activeProfileId := profileIdCustom }, .ok)
    | .valueOutOfRange => (g, .valueOutOfRange)
    | .unsupportedSignal => (g, .unsupportedSignal)
    | _ => (g, .unknownKey)

/-- `App_Gen_Set_Constant_Raw` (`app_generator.c:643-663`). On OK the applied raw
    value is the requested one. -/
def setConstantRaw (B : Build) (g : Gen) (signalKey : UInt16) (rawValue nowMs : UInt32) :
    Gen × SetConstStatus :=
  if g.config.state ≠ .idle then (g, .transactionOpen)
  else
    match indexFromKey signalKey with
    | none => (g, .unknownKey)
    | some index => setConstant B g index rawValue nowMs

/-- `Pattern_Type_t`. -/
inductive PatternType
  | constant
  | ramp
  | sine
  | triangle
  | step
  | square
  | randomWalk
  | stateSequence
deriving DecidableEq, Repr

/-- `App_Signal_Request_t`. The bounds and the parameter are physical values;
    `rawFromPhysical` is the raw value `prv_raw_from_physical` gives them for a
    record. -/
structure SignalRequest where
  pgn : UInt32
  spn : UInt32
  type : PatternType
  rawFromPhysical : ℕ → UInt32

/-- The loop of `J1939_Catalog_Find_PGN_Index`, of at most `fuel` rounds. -/
def findPgnLoop (pgn : UInt32) : ℕ → ℕ → ℕ → Option ℕ
  | 0, _, _ => none
  | fuel + 1, lo, hi =>
    if lo ≥ hi then none
    else
      let mid := lo + (hi - lo) / 2
      if (pgnAt mid).pgn = pgn then some mid
      else if (pgnAt mid).pgn < pgn then findPgnLoop pgn fuel (mid + 1) hi
      else findPgnLoop pgn fuel lo mid

/-- `J1939_Catalog_Find_PGN_Index` (`j1939_signal_definitions.c:440-457`). Every
    round shortens the range, so `pgnCount` rounds are enough. -/
def catalogFindPgnIndex (pgn : UInt32) : Option ℕ := findPgnLoop pgn pgnCount 0 pgnCount

/-- `J1939_Catalog_Find_Signal_Index` (`j1939_signal_definitions.c:459-474`). -/
def catalogFindSignalIndex (pgn spn : UInt32) : Option ℕ :=
  match catalogFindPgnIndex pgn with
  | none => none
  | some pgnIndex =>
    (List.range' (pgnAt pgnIndex).firstSignal (pgnAt pgnIndex).signalCount).find? fun i =>
      (signalAt i).spn == spn

/-- `App_Gen_Config_Signal` (`app_generator.c:524-641`) in the constant-only
    build. -/
def configSignal (B : Build) (g : Gen) (req : SignalRequest) (nowMs : UInt32) :
    Gen × ConfigStatus :=
  if g.config.state ≠ .idle then (g, .unknownSpn)
  else
    let unique := findUniqueCatalogIndex req.spn
    if req.pgn = 0 ∧ unique.2 > 1 then (g, .ambiguousSpn)
    else
      match if req.pgn ≠ 0 then catalogFindSignalIndex req.pgn req.spn else unique.1 with
      | none => (g, .unknownSpn)
      | some index =>
        if isShortScalar index = false then (g, .unsupportedSignal)
        else if req.type = .constant then
          let (g, status) := setConstant B g index (req.rawFromPhysical index) nowMs
          (g, match status with
            | .ok => .ok
            | .unsupportedSignal => .unsupportedSignal
            | .unknownKey => .unknownSpn
            | _ => .tableFull)
        else (g, .unsupportedSignal)

/-! ## The global percent -/

/-- `App_Gen_Global_Percent_To_Raw` (`app_generator.c:959-973`). -/
def globalPercentToRaw (rawMin rawMax : UInt32) (percentageBp : UInt16) : UInt32 :=
  if rawMax ≤ rawMin ∨ percentageBp = 0 then rawMin
  else if percentageBp ≥ globalPercentMaxBp then rawMax
  else
    let delta := rawMax.toUInt64 - rawMin.toUInt64
    let step := (percentageBp.toUInt64 * delta + globalPercentMaxBp.toUInt64 / 2) /
      globalPercentMaxBp.toUInt64
    rawMin + step.toUInt32

/-- `(flags & J1939_CAT_SIG_GLOBAL_CONTROL) != 0`. -/
def isGlobalControl (index : ℕ) : Bool := ((signalAt index).flags &&& sigGlobalControl) != 0

/-- The loop body that sets the affected records; the flag is cleared by the
    early return. -/
def globalPercentStep (percentageBp : UInt16) (acc : Store × Bool) (i : ℕ) : Store × Bool :=
  if acc.2 = false ∨ isActive acc.1 i = false ∨ isGlobalControl i = false then acc
  else
    let sig := signalAt i
    let (store, status) := setRaw acc.1 sig.signalKey
      (globalPercentToRaw sig.rawMin sig.rawMax percentageBp)
    if status ≠ .ok then (abort store, false) else (store, true)

/-- The out-parameters of `App_Gen_Set_Global_Percent`. -/
structure PercentReport where
  generation : UInt16
  affected : UInt16
  excluded : UInt16
deriving DecidableEq, Repr

/-- `App_Gen_Set_Global_Percent` (`app_generator.c:975-1047`). -/
def setGlobalPercent (g : Gen) (percentageBp : UInt16) : Gen × TxnStatus × PercentReport :=
  let unchanged : PercentReport := ⟨getGeneration g.store, 0, 0⟩
  if g.config.state ≠ .idle then (g, .invalidState, unchanged)
  else if percentageBp > globalPercentMaxBp then (g, .valueOutOfRange, unchanged)
  else
    let affected := (List.range signalCount).countP fun i =>
      isActive g.store i && isGlobalControl i
    let excluded := (List.range signalCount).countP fun i =>
      isActive g.store i && !isGlobalControl i
    if affected = 0 then
      (g, .ok, ⟨getGeneration g.store, 0, UInt16.ofNat excluded⟩)
    else
      let (store, status) := begin g.store .copyActive
      if status ≠ .ok then ({ g with store := store }, .internalError, unchanged)
      else
        let (store, allSet) := (List.range signalCount).foldl (globalPercentStep percentageBp)
          (store, true)
        if allSet = false then ({ g with store := store }, .internalError, unchanged)
        else
          let (store, status) := commit store
          let g := { g with store := store }
          if status ≠ .ok then (g, .internalError, unchanged)
          else
            (g, .ok, ⟨getGeneration store, UInt16.ofNat affected, UInt16.ofNat excluded⟩)

/-! ## Queries -/

/-- `App_Gen_Config_Transaction_Open`. -/
def configTransactionOpen (g : Gen) : Bool := g.config.state ≠ .idle

/-- `App_Gen_Has_Configured_Signals`. -/
def hasConfiguredSignals (g : Gen) : Bool := getSignalCount g.store > 0

/-- `App_Gen_Is_Signal_Configured` (`app_generator.c:1074-1082`). -/
def isSignalConfigured (g : Gen) (signalKey : UInt16) : Bool :=
  match indexFromKey signalKey with
  | none => false
  | some index => isActive g.store index

/-- The loop body of `App_Gen_Get_Active_PGN_Count`: the mask and the count. -/
def activePgnStep (store : Store) (acc : Mask × UInt8) (i : ℕ) : Mask × UInt8 :=
  let pgnIndex := (signalAt i).pgnIndex
  if isActive store i = false ∨ test acc.1 pgnIndex then acc
  else (assign acc.1 pgnIndex true, acc.2 + 1)

/-- `App_Gen_Get_Active_PGN_Count` (`app_generator.c:1094-1111`). -/
def getActivePgnCount (g : Gen) : UInt8 :=
  ((List.range signalCount).foldl (activePgnStep g.store) (zero, 0)).2

/-- `App_Gen_Active_Profile_Can_Start` (`app_generator.c:1113-1119`). -/
def activeProfileCanStart (g : Gen) : Bool :=
  g.config.state = .idle ∧ hasConfiguredSignals g

/-! ## Life cycle -/

/-- The generator before `App_Gen_Init`: zeroed statics. -/
def Gen.zeroed : Gen where
  store := ValueStore.init
  sched := Sched.clear
  config := Config.resetCounters ⟨.idle, zero, zero, 0, 0, 0, 0, 0, 0, 0⟩
  isRunning := false
  testStartMs := 0
  testDurationMs := 0
  totalFramesSent := 0
  baudKbps := 0
  busRecoveryCount := 0
  activeProfileId := profileIdCustom

/-- `App_Gen_Init` (`app_generator.c:492-508`): every static is set, so the state
    before it does not matter. -/
def init (baudKbps : UInt32) : Gen := { Gen.zeroed with baudKbps := baudKbps }

/-- `App_Gen_Set_Baud` (`app_generator.c:510-517`), without the link. -/
def setBaud (g : Gen) (baudKbps : UInt32) : Gen :=
  { g with baudKbps := baudKbps, sched := { g.sched with tp := Tp.cancel g.sched.tp } }

/-- `App_Gen_Clear` (`app_generator.c:1144-1152`). -/
def clear (g : Gen) : Gen :=
  let g := abortConfig g
  { g with
    sched := Sched.clear
    store := storeClear g.store
    isRunning := false
    activeProfileId := profileIdCustom }

/-- `prv_add_default_constant` (`app_generator.c:449-458`), with the raw value
    `prv_raw_from_physical` gives the constant. -/
def addDefaultConstant (B : Build) (clock : ℕ → UInt32) (g : Gen)
    (default : UInt16 × UInt32) : Gen :=
  match indexFromKey default.1 with
  | none => g
  | some index => (setConstant B g index default.2 (clock index)).1

/-- The keys and raw values of `App_Gen_Load_Defaults`: 1500 rpm at 0.125 for
    `EEC1_SPN190`, 50 % at 0.4 for `EEC2_SPN91` and 60 km/h at 1/256 for
    `CCVS1_SPN84`. -/
def defaultConstants : List (UInt16 × UInt32) := [(103, 12000), (97, 125), (144, 15360)]

/-- `App_Gen_Load_Defaults` (`app_generator.c:1121-1142`) in the constant-only
    build. -/
def loadDefaults (B : Build) (g : Gen) (clock : ℕ → UInt32) : Gen :=
  let g := abortConfig g
  let g := { g with sched := Sched.clear, store := storeClear g.store }
  let g := defaultConstants.foldl (addDefaultConstant B clock) g
  { g with activeProfileId := profileIdCustom }

/-- `App_Gen_Start` (`app_generator.c:1154-1195`). -/
def start (g : Gen) (durationSec nowMs : UInt32) : Gen :=
  if activeProfileCanStart g = false then g
  else
    { g with
      sched := g.sched.resetTimers nowMs
      testStartMs := nowMs
      testDurationMs := durationSec * 1000
      totalFramesSent := 0
      isRunning := true }

/-- `App_Gen_Stop` (`app_generator.c:1197-1209`). -/
def stop (g : Gen) : Gen :=
  { g with isRunning := false, sched := { g.sched with tp := Tp.cancel g.sched.tp } }

/-- The end of a timed run in `App_Gen_Process`. -/
def stopElapsed (g : Gen) (nowMs : UInt32) : Gen :=
  if g.isRunning ∧ g.testDurationMs > 0 ∧ nowMs - g.testStartMs ≥ g.testDurationMs then stop g
  else g

/-- `App_Gen_Process` (`app_generator.c:1271-1308`): the next state, and what the
    scheduler does if it ticks. -/
def process (g : Gen) (nowMs : UInt32) (link : ℕ → LinkStatus) : Gen × List Event :=
  let g := stopElapsed g nowMs
  if g.isRunning = false ∨ g.sched.pgns.length = 0 then (g, [])
  else
    let t := tick g.store nowMs link g.sched
    ({ g with
        sched := t.sched
        totalFramesSent := g.totalFramesSent + t.result.sent.toUInt32 }, t.events)

/-- `App_Gen_Note_Bus_Recovered` (`app_generator.c:1310-1315`). -/
def noteBusRecovered (g : Gen) : Gen :=
  if g.busRecoveryCount < 0xFFFF then { g with busRecoveryCount := g.busRecoveryCount + 1 } else g

end J1939Gen.Generator
