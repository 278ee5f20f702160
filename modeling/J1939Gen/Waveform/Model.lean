import J1939Gen.Lib.KeyedPool
import J1939Gen.Persistence.Model

/-!
# The generator with waveforms

Model of the `ENABLE_WAVEFORM` build: the pattern pool
(`MID/j1939_pattern_generator.c`) beside the value store, the queries of the
scheduler that see both, and the operations of `APP/app_generator.c` that
differ from the constant-only build. What does not touch the pool is the model
of that build.

The waveforms themselves and the ticks are left out: they compute values, due
times and frames, which no operation here reads.
-/

namespace J1939Gen.Waveform

open ByteMem ValueStore Scheduler Generator

/-! ## The pattern pool -/

/-- `Pattern_Config_t`, without the fields of state sequences, which no caller
    sets. -/
structure PatternConfig where
  catalogIndex : ℕ
  patternType : PatternType
  minValue : Float32
  maxValue : Float32
  initialValue : Float32
  periodSeconds : Float32
  param1 : Float32
  rampPeriodSeconds : Float32
  sinePeriodSeconds : Float32
  stepSize : Float32
  stepIntervalMs : UInt32
  randomMaxStep : Float32
  timeframeMs : UInt32
  tStartSec : Float32
  tDurationSec : Float32
  updateIntervalMs : UInt32

/-- `Pattern_State_t`. -/
structure PatternState where
  config : PatternConfig
  currentValue : Float32
  lastUpdateMs : UInt32

/-- The catalog record of an entry. -/
def PatternState.catalogIndex (s : PatternState) : ℕ := s.config.catalogIndex

/-- The statics of `j1939_pattern_generator.c`: the first `g_pattern_count`
    entries of `g_patterns`, `g_sim_start_ms` and `g_is_running`. -/
structure Pool where
  patterns : List PatternState
  simStartMs : UInt32
  isRunning : Bool

/-- `J1939_WAVEFORM_POOL_CAPACITY` (`j1939_build_profile.h:48,85-87`). -/
def poolCapacity (B : Build) : ℕ := if 40 < B.signalCapacity then 40 else B.signalCapacity

/-- The catalog records of the pool. -/
def Pool.indices (p : Pool) : List ℕ := p.patterns.map PatternState.catalogIndex

/-- `Pattern_Generator_Init` (`j1939_pattern_generator.c:179-185`). -/
def Pool.init (simStartTimeMs : UInt32) : Pool := ⟨[], simStartTimeMs, true⟩

/-- `Pattern_Generator_Is_Registered` (`j1939_pattern_generator.c:214-222`). -/
def Pool.isRegistered (p : Pool) (catalogIndex : ℕ) : Bool :=
  p.patterns.any fun s => s.catalogIndex == catalogIndex

/-- `Pattern_Generator_Can_Register` (`j1939_pattern_generator.c:187-199`). -/
def Pool.canRegister (B : Build) (p : Pool) (catalogIndex : ℕ) : Bool :=
  if catalogIndex ≥ signalCount then false
  else if p.isRegistered catalogIndex then true
  else p.patterns.length < poolCapacity B

/-- `Pattern_Generator_Unregister` (`j1939_pattern_generator.c:201-212`): the last
    entry takes the place of the removed one. -/
def Pool.unregister (p : Pool) (catalogIndex : ℕ) : Pool × Bool :=
  ({ p with patterns := KeyedPool.remove PatternState.catalogIndex catalogIndex p.patterns },
    p.isRegistered catalogIndex)

/-- `Pattern_Generator_Register` (`j1939_pattern_generator.c:224-248`): in place
    when the record is registered, at the end otherwise. -/
def Pool.register (B : Build) (p : Pool) (config : PatternConfig) : Pool × Bool :=
  if p.canRegister B config.catalogIndex = false then (p, false)
  else
    let state : PatternState := ⟨config, config.initialValue, p.simStartMs⟩
    ({ p with patterns := KeyedPool.upsert PatternState.catalogIndex state p.patterns }, true)

/-- `Pattern_Generator_Reset` (`j1939_pattern_generator.c:287-297`). -/
def Pool.reset (p : Pool) (currentTimeMs : UInt32) : Pool where
  patterns := p.patterns.map fun s =>
    { s with currentValue := s.config.initialValue, lastUpdateMs := currentTimeMs }
  simStartMs := currentTimeMs
  isRunning := true

/-- `Pattern_Generator_Stop` (`j1939_pattern_generator.c:299-306`). -/
def Pool.stop (p : Pool) : Pool :=
  { p with patterns := p.patterns.map fun s => { s with currentValue := 0 }, isRunning := false }

/-! ## The scheduler -/

/-- `prv_signal_is_active` (`j1939_tx_scheduler.c:85-89`). -/
def signalIsActive (store : Store) (p : Pool) (catalogIndex : ℕ) : Bool :=
  isActive store catalogIndex || p.isRegistered catalogIndex

/-- `J1939_Sched_Get_Signal_Count` (`j1939_tx_scheduler.c:590-599`). -/
def getSignalCount (store : Store) (p : Pool) : ℕ :=
  (List.range signalCount).countP fun i => signalIsActive store p i

/-- `J1939_Sched_Can_Add_Catalog_Signal` (`j1939_tx_scheduler.c:472-489`). -/
def canAddCatalogSignal (B : Build) (s : Sched) (store : Store) (p : Pool) (catalogIndex : ℕ) :
    Bool :=
  if catalogIndex ≥ signalCount then false
  else if signalIsActive store p catalogIndex = false ∧
      getSignalCount store p ≥ B.signalCapacity then false
  else
    let pgnIndex := (signalAt catalogIndex).pgnIndex
    if pgnIsSchedulable (pgnAt pgnIndex) = false then true
    else (s.findPgn pgnIndex).isSome ∨ s.pgns.length < B.pgnCapacity

/-- `J1939_Sched_Add_Catalog_Signal` (`j1939_tx_scheduler.c:491-507`). -/
def addCatalogSignal (B : Build) (s : Sched) (store : Store) (p : Pool) (catalogIndex : ℕ)
    (nowMs : UInt32) : Sched × Bool :=
  if canAddCatalogSignal B s store p catalogIndex = false then (s, false)
  else
    let pgnIndex := (signalAt catalogIndex).pgnIndex
    if pgnIsSchedulable (pgnAt pgnIndex) = false then (s, true)
    else
      match s.addPgn B pgnIndex nowMs with
      | none => (s, false)
      | some s => (s, true)

/-! ## The generator -/

/-- The generator and the pattern pool it drives. -/
structure Wave where
  gen : Gen
  pool : Pool

/-- `prv_set_constant` (`app_generator.c:277-314`). -/
def setConstant (B : Build) (w : Wave) (index : ℕ) (rawValue nowMs : UInt32) :
    Wave × SetConstStatus :=
  if index ≥ signalCount then (w, .unknownKey)
  else if isShortScalar index = false then (w, .unsupportedSignal)
  else
    let key := (signalAt index).signalKey
    match checkRaw key rawValue with
    | .ok =>
      if canAddCatalogSignal B w.gen.sched w.gen.store w.pool index = false then (w, .resourceFull)
      else
        let (store, status) := storeUpdate w.gen.store key true rawValue
        let w := { w with gen := { w.gen with store := store } }
        if status ≠ .ok then (w, .resourceFull)
        else
          ({ gen := { w.gen with
                sched := (addCatalogSignal B w.gen.sched store w.pool index nowMs).1
                activeProfileId := profileIdCustom }
             pool := (w.pool.unregister index).1 }, .ok)
    | .valueOutOfRange => (w, .valueOutOfRange)
    | .unsupportedSignal => (w, .unsupportedSignal)
    | _ => (w, .unknownKey)

/-- `App_Gen_Set_Constant_Raw` (`app_generator.c:643-663`). -/
def setConstantRaw (B : Build) (w : Wave) (signalKey : UInt16) (rawValue nowMs : UInt32) :
    Wave × SetConstStatus :=
  if w.gen.config.state ≠ .idle then (w, .transactionOpen)
  else
    match indexFromKey signalKey with
    | none => (w, .unknownKey)
    | some index => setConstant B w index rawValue nowMs

/-- `App_Signal_Request_t`, with the fields a waveform reads. -/
structure Request extends SignalRequest where
  minValue : Float32
  maxValue : Float32
  param1 : Float32
  timeframeMs : UInt32
  tStart : Float32
  tDur : Float32

/-- `cfg` after `memset`. -/
def PatternConfig.zeroed : PatternConfig where
  catalogIndex := 0
  patternType := .constant
  minValue := 0
  maxValue := 0
  initialValue := 0
  periodSeconds := 0
  param1 := 0
  rampPeriodSeconds := 0
  sinePeriodSeconds := 0
  stepSize := 0
  stepIntervalMs := 0
  randomMaxStep := 0
  timeframeMs := 0
  tStartSec := 0
  tDurationSec := 0
  updateIntervalMs := 0

/-- `cfg.period_seconds` of a request. -/
def Request.period (req : Request) : Float32 := if req.param1 > 0.1 then req.param1 else 10

/-- The switch over the pattern type in `App_Gen_Config_Signal`
    (`app_generator.c:602-624`). -/
def Request.shape (req : Request) (cfg : PatternConfig) : PatternConfig :=
  match req.type with
  | .step => { cfg with
      stepSize := (req.maxValue - req.minValue) / 8
      stepIntervalMs := (req.period * 1000 / 16).toUInt32
      initialValue := req.minValue }
  | .randomWalk => { cfg with
      initialValue := (req.minValue + req.maxValue) * 0.5
      randomMaxStep := (req.maxValue - req.minValue) * 0.05 }
  | .sine => { cfg with initialValue := (req.minValue + req.maxValue) * 0.5 }
  | _ => { cfg with initialValue := req.minValue }

/-- The pattern a request configures (`app_generator.c:584-624`). -/
def Request.pattern (req : Request) (index : ℕ) : PatternConfig :=
  req.shape { PatternConfig.zeroed with
    catalogIndex := index
    patternType := req.type
    minValue := req.minValue
    maxValue := req.maxValue
    param1 := req.param1
    timeframeMs := req.timeframeMs
    tStartSec := req.tStart
    tDurationSec := req.tDur
    updateIntervalMs :=
      if req.timeframeMs > 0 ∧ req.timeframeMs < 10 then req.timeframeMs else 10
    periodSeconds := req.period
    rampPeriodSeconds := req.period
    sinePeriodSeconds := req.period }

/-- The waveform part of `App_Gen_Config_Signal` (`app_generator.c:579-639`). -/
def configWaveform (B : Build) (w : Wave) (req : Request) (index : ℕ) (nowMs : UInt32) :
    Wave × ConfigStatus :=
  if w.pool.canRegister B index = false ∨
      canAddCatalogSignal B w.gen.sched w.gen.store w.pool index = false then (w, .tableFull)
  else
    let (pool, registered) := w.pool.register B (req.pattern index)
    if registered = false then ({ w with pool := pool }, .tableFull)
    else
      let (sched, added) := addCatalogSignal B w.gen.sched w.gen.store pool index nowMs
      let w : Wave := { gen := { w.gen with sched := sched }, pool := pool }
      if added = false then (w, .tableFull)
      else
        let store := if isActive w.gen.store index then
            (storeUpdate w.gen.store (signalAt index).signalKey false 0).1
          else w.gen.store
        ({ w with gen := { w.gen with store := store, activeProfileId := profileIdCustom } }, .ok)

/-- `App_Gen_Config_Signal` (`app_generator.c:524-641`). -/
def configSignal (B : Build) (w : Wave) (req : Request) (nowMs : UInt32) : Wave × ConfigStatus :=
  if w.gen.config.state ≠ .idle then (w, .unknownSpn)
  else
    let unique := findUniqueCatalogIndex req.spn
    if req.pgn = 0 ∧ unique.2 > 1 then (w, .ambiguousSpn)
    else
      match if req.pgn ≠ 0 then catalogFindSignalIndex req.pgn req.spn else unique.1 with
      | none => (w, .unknownSpn)
      | some index =>
        if isShortScalar index = false then (w, .unsupportedSignal)
        else if req.type = .constant then
          let (w, status) := setConstant B w index (req.rawFromPhysical index) nowMs
          (w, match status with
            | .ok => .ok
            | .unsupportedSignal => .unsupportedSignal
            | .unknownKey => .unknownSpn
            | _ => .tableFull)
        else configWaveform B w req index nowMs

/-- The loop body of the rebuild in `App_Gen_Commit_Config`. -/
def rebuildStep (B : Build) (store : Store) (p : Pool) (clock : ℕ → UInt32) (acc : Sched × Bool)
    (i : ℕ) : Sched × Bool :=
  if isActive store i then
    let (sched, added) := addCatalogSignal B acc.1 store p i (clock i)
    (sched, acc.2 && added)
  else acc

/-- The rebuild of the scheduler from the active bank. -/
def rebuild (B : Build) (store : Store) (p : Pool) (clock : ℕ → UInt32) : Sched × Bool :=
  (List.range signalCount).foldl (rebuildStep B store p clock) (Sched.clear, true)

/-- `App_Gen_Commit_Config` (`app_generator.c:883-950`): a committed configuration
    starts with an empty pool. -/
def commitConfig (B : Build) (w : Wave) (startMs : UInt32) (clock : ℕ → UInt32) :
    Wave × TxnStatus × CommitReport :=
  let g := w.gen
  let abandon (status : TxnStatus) : Wave × TxnStatus × CommitReport :=
    ({ w with gen := { g with store := abort g.store }.closeConfig }, status, .none)
  if g.config.state = .idle then (w, .notOpen, .none)
  else if g.config.state = .rejected then abandon .rejected
  else if g.config.stagedCount ≠ g.config.expectedCount ∨
      g.config.blobCount ≠ g.config.expectedBlobCount then abandon .countMismatch
  else if g.config.profileId ≠ profileIdCustom ∧
      g.config.matchesProfile (customerProfileFind g.config.profileId) = false then
    abandon .profileMismatch
  else
    let (store, committed) := commit g.store
    let g := { g with store := store }.closeConfig
    if committed ≠ .ok then
      ({ w with gen := g },
        if committed = .blobIncomplete then .blobIncomplete else .internalError, .none)
    else
      let pool := Pool.init startMs
      let (sched, schedulerOk) := rebuild B store pool clock
      if schedulerOk = false then
        ({ gen := { g with sched := Sched.clear }, pool := pool }, .internalError, .none)
      else
        ({ gen := { g with sched := sched, activeProfileId := g.config.profileId }, pool := pool },
          .ok,
          { generation := store.generation
            signalCount := g.config.stagedCount + g.config.blobCount.toUInt16
            pgnCount := g.config.stagedPgnCount })

/-- `App_Gen_Set_Global_Percent` (`app_generator.c:975-1047`): a registered record
    that is not active counts as excluded. -/
def setGlobalPercent (w : Wave) (percentageBp : UInt16) : Wave × TxnStatus × PercentReport :=
  let registered := (List.range signalCount).countP fun i =>
    !isActive w.gen.store i && w.pool.isRegistered i
  let (gen, status, report) := Generator.setGlobalPercent w.gen percentageBp
  ({ w with gen := gen }, status,
    if status = .ok then { report with excluded := report.excluded + UInt16.ofNat registered }
    else report)

/-- `App_Gen_Has_Configured_Signals`. -/
def hasConfiguredSignals (w : Wave) : Bool := getSignalCount w.gen.store w.pool > 0

/-! ## Life cycle -/

/-- `App_Gen_Init` (`app_generator.c:492-508`). -/
def init (baudKbps startMs : UInt32) : Wave := ⟨Generator.init baudKbps, Pool.init startMs⟩

/-- `App_Gen_Clear` (`app_generator.c:1144-1152`). -/
def clear (w : Wave) (startMs : UInt32) : Wave := ⟨Generator.clear w.gen, Pool.init startMs⟩

/-- The arguments of `prv_add_default`. -/
structure DefaultPattern where
  signalKey : UInt16
  type : PatternType
  minValue : Float32
  maxValue : Float32
  periodSeconds : Float32

/-- `prv_add_default` (`app_generator.c:463-486`). -/
def addDefault (B : Build) (clock : ℕ → UInt32) (w : Wave) (default : DefaultPattern) : Wave :=
  match indexFromKey default.signalKey with
  | none => w
  | some index =>
    let (pool, registered) := w.pool.register B { PatternConfig.zeroed with
      catalogIndex := index
      patternType := default.type
      minValue := default.minValue
      maxValue := default.maxValue
      initialValue := default.minValue
      rampPeriodSeconds := default.periodSeconds
      sinePeriodSeconds := default.periodSeconds
      updateIntervalMs := 10 }
    if registered then
      { gen := { w.gen with
          sched := (addCatalogSignal B w.gen.sched w.gen.store pool index (clock index)).1 }
        pool := pool }
    else { w with pool := pool }

/-- The patterns of `App_Gen_Load_Defaults`: `EEC1_SPN190`, `EEC2_SPN91` and
    `CCVS1_SPN84`. -/
def defaultPatterns : List DefaultPattern :=
  [⟨103, .sine, 800, 3500, 8⟩, ⟨97, .ramp, 0, 100, 10⟩, ⟨144, .ramp, 0, 120, 15⟩]

/-- `App_Gen_Load_Defaults` (`app_generator.c:1121-1142`). -/
def loadDefaults (B : Build) (w : Wave) (startMs : UInt32) (clock : ℕ → UInt32) : Wave :=
  let g := abortConfig w.gen
  let w : Wave :=
    { gen := { g with sched := Sched.clear, store := storeClear g.store }
      pool := Pool.init startMs }
  let w := defaultPatterns.foldl (addDefault B clock) w
  { w with gen := { w.gen with activeProfileId := profileIdCustom } }

/-- `App_Gen_Start` (`app_generator.c:1154-1195`). -/
def start (w : Wave) (durationSec nowMs : UInt32) : Wave :=
  if w.gen.config.state ≠ .idle ∨ hasConfiguredSignals w = false then w
  else
    { gen := { w.gen with
        sched := w.gen.sched.resetTimers nowMs
        testStartMs := nowMs
        testDurationMs := durationSec * 1000
        totalFramesSent := 0
        isRunning := true }
      pool := w.pool.reset nowMs }

/-- `App_Gen_Stop` (`app_generator.c:1197-1209`). -/
def stop (w : Wave) : Wave := ⟨Generator.stop w.gen, w.pool.stop⟩

/-! ## The load -/

open Persistence Storage in
/-- `App_Persistence_Load` (`app_persistence.c:101-143`) from this profile storage:
    the visitors stage into the generator and never see the pool. -/
def load (B : Build) (w : Wave) (memory : Memory) (startMs : UInt32) (clock : ℕ → UInt32) :
    Wave × Except Persistence.Status CommitReport :=
  if w.gen.isRunning ∨ configTransactionOpen w.gen then (w, .error .invalidState)
  else
    match openLatest memory with
    | (_, .error e) => (w, .error (.ofStorage e))
    | (memory, .ok info) =>
      let (gen, begun) := beginProfileConfig B w.gen info.scalarCount info.blobCount info.profileId
      if begun ≠ .ok then ({ w with gen := gen }, .error .applyError)
      else
        let (_, context, result) := visitLatest memory (loadRecord B) ⟨gen, true⟩
        match result with
        | .error e => ({ w with gen := abortConfig context.gen }, .error (.ofStorage e))
        | .ok _ =>
          if context.ok = false then
            ({ w with gen := abortConfig context.gen }, .error .applyError)
          else
            let (w, committed, report) := commitConfig B { w with gen := context.gen } startMs clock
            if committed ≠ .ok then (w, .error .applyError)
            else if getConfigCrc w.gen.store ≠ info.configCrc then (w, .error .verifyError)
            else (w, .ok report)

end J1939Gen.Waveform
