import J1939Gen.Generator.Model
import J1939Gen.Storage.Slots

/-!
# Saving and loading the configuration

Model of `APP/app_persistence.c`: the generator and the profile storage put
together. The out-parameters of a call are part of its result; `clock i` is the
time at which the commit of a load adds record `i` to the scheduler.
-/

namespace J1939Gen.Persistence

open ByteMem ValueStore Storage Generator

/-- `App_Persistence_Status_t`. -/
inductive Status
  | ok
  | empty
  | invalidState
  | unsupportedConfig
  | catalogMismatch
  | invalidImage
  | flashError
  | verifyError
  | applyError
deriving DecidableEq, Repr

/-- `prv_map` (`app_persistence.c:13-34`). -/
def Status.ofStorage : Storage.Status → Status
  | .ok => .ok
  | .empty => .empty
  | .catalogMismatch => .catalogMismatch
  | .invalidImage => .invalidImage
  | .verifyError => .verifyError
  | .unsupportedConfig => .unsupportedConfig
  | .visitorRejected => .applyError
  | .busy => .invalidState
  | .flashError => .flashError

/-- The generator, the profile storage and `s_last_status`. -/
structure App where
  gen : Gen
  memory : Memory
  lastStatus : Status

/-- Assign `s_last_status` and return. -/
def App.finish {α : Type} (a : App) (result : Except Status α) : App × Except Status α :=
  ({ a with lastStatus := match result with
    | .ok _ => .ok
    | .error e => e }, result)

/-- `prv_map` of a call of the profile storage. -/
def mapResult {α : Type} : Except Storage.Status α → Except Status α
  | .ok r => .ok r
  | .error e => .error (.ofStorage e)

/-- `prv_can_mutate` (`app_persistence.c:36-39`). -/
def App.canMutate (a : App) : Bool := !a.gen.isRunning && !configTransactionOpen a.gen

/-! ## The visitors of a load -/

/-- `App_Load_Context_t`, with the generator the visitors stage into. -/
structure LoadContext where
  gen : Gen
  ok : Bool

/-- `prv_load_scalar` (`app_persistence.c:41-48`). -/
def loadScalar (B : Build) (c : LoadContext) (key : UInt16) (raw : UInt32) : LoadContext :=
  let (gen, status) := stageConstantRaw B c.gen key raw
  { gen := gen, ok := if status ≠ .ok then false else c.ok }

/-- One turn of the loop of `prv_load_blob`: the three bytes from `offset` on,
    zeroes after the end. -/
def loadBlobChunk (B : Build) (key : UInt16) (data : List UInt8) (c : LoadContext) (offset : ℕ) :
    LoadContext :=
  if c.ok = false then c
  else
    let chunk : Mem := fun k => data.getD (offset + k) 0
    let (gen, status, _) := stageBlobChunk B c.gen key (UInt8.ofNat data.length)
      (UInt8.ofNat offset) (some chunk)
    { gen := gen, ok := if status ≠ .ok then false else c.ok }

/-- The offsets `0, 3, … < length`. -/
def chunkOffsets (length : ℕ) : List ℕ :=
  (List.range ((length + 2) / 3)).map fun k => 3 * k

/-- `prv_load_blob` (`app_persistence.c:50-68`). -/
def loadBlob (B : Build) (c : LoadContext) (key : UInt16) (data : List UInt8) : LoadContext :=
  (chunkOffsets data.length).foldl (loadBlobChunk B key data) c

/-- The two visitors. -/
def loadRecord (B : Build) : Visitor LoadContext := fun c key e =>
  let c := match e with
    | .scalar raw => loadScalar B c key raw
    | .blob data => loadBlob B c key data
  (c, c.ok)

/-! ## The calls -/

/-- `App_Persistence_Init` (`app_persistence.c:70-74`). -/
def App.init (a : App) : App := { a with memory := a.memory.init, lastStatus := .empty }

/-- `App_Persistence_Save` (`app_persistence.c:76-99`). -/
def save (a : App) : App × Except Status Info :=
  if a.canMutate = false ∨ hasConfiguredSignals a.gen = false then a.finish (.error .invalidState)
  else if UInt16.ofNat (Scheduler.getSignalCount a.gen.store) ≠ getActiveCount a.gen.store then
    a.finish (.error .unsupportedConfig)
  else
    let (memory, previous) := openLatest a.memory
    let autostart := match previous with
      | .ok info => info.flags &&& flagAutostart ≠ 0
      | .error _ => false
    let (memory, result) := Storage.save memory a.gen.store a.gen.activeProfileId
      (a.gen.baudKbps * 1000) autostart
    { a with memory := memory }.finish (mapResult result)

/-- `App_Persistence_Load` from the commit on (`app_persistence.c:132-142`). -/
def commitLoaded (B : Build) (a : App) (info : Info) (clock : ℕ → UInt32) :
    App × Except Status CommitReport :=
  let (gen, committed, report) := commitConfig B a.gen clock
  let a := { a with gen := gen }
  if committed ≠ .ok then a.finish (.error .applyError)
  else if getConfigCrc gen.store ≠ info.configCrc then a.finish (.error .verifyError)
  else a.finish (.ok report)

/-- `App_Persistence_Load` from the visit on (`app_persistence.c:122-142`). -/
def applyLatest (B : Build) (a : App) (info : Info) (clock : ℕ → UInt32) :
    App × Except Status CommitReport :=
  let (memory, context, result) := visitLatest a.memory (loadRecord B) ⟨a.gen, true⟩
  let a := { a with gen := context.gen, memory := memory }
  match result with
  | .error e => { a with gen := abortConfig a.gen }.finish (.error (.ofStorage e))
  | .ok _ =>
    if context.ok = false then { a with gen := abortConfig a.gen }.finish (.error .applyError)
    else commitLoaded B a info clock

/-- `App_Persistence_Load` (`app_persistence.c:101-143`). -/
def load (B : Build) (a : App) (clock : ℕ → UInt32) : App × Except Status CommitReport :=
  if a.canMutate = false then a.finish (.error .invalidState)
  else
    match openLatest a.memory with
    | (memory, .error e) => { a with memory := memory }.finish (.error (.ofStorage e))
    | (memory, .ok info) =>
      let (gen, begun) := beginProfileConfig B a.gen info.scalarCount info.blobCount info.profileId
      let a := { a with gen := gen, memory := memory }
      if begun ≠ .ok then a.finish (.error .applyError)
      else applyLatest B a info clock

/-- `App_Persistence_Erase` (`app_persistence.c:145-153`). -/
def erase (a : App) : App × Except Status Unit :=
  if a.canMutate = false then a.finish (.error .invalidState)
  else
    let (memory, status) := Storage.erase a.memory
    let result : Except Status Unit :=
      if status = .ok then .ok () else .error (.ofStorage status)
    { a with memory := memory }.finish result

/-- `App_Persistence_Set_Autostart` (`app_persistence.c:155-164`). -/
def setAutostart (a : App) (enabled : Bool) : App × Except Status Info :=
  if a.canMutate = false then a.finish (.error .invalidState)
  else
    let (memory, result) := Storage.setAutostart a.memory enabled
    { a with memory := memory }.finish (mapResult result)

/-- `Profile_Storage_Info_t`, zeroed. -/
def zeroInfo : Info := ⟨0, 0, 0, 0, 0, 0, 0, 0, .a⟩

/-- `App_Persistence_Info_t`. -/
structure AppInfo where
  valid : Bool
  autostart : Bool
  dirty : Bool
  stored : Info
  lastStatus : Status
deriving DecidableEq, Repr

/-- `App_Persistence_Get_Info` (`app_persistence.c:166-184`). -/
def getInfo (a : App) : App × Status × AppInfo :=
  match openLatest a.memory with
  | (memory, .error e) =>
    ({ a with memory := memory }, .ofStorage e, ⟨false, false, false, zeroInfo, a.lastStatus⟩)
  | (memory, .ok info) =>
    ({ a with memory := memory }, .ok,
      { valid := true
        autostart := info.flags &&& flagAutostart ≠ 0
        dirty := info.configCrc ≠ getConfigCrc a.gen.store
        stored := info
        lastStatus := a.lastStatus })

end J1939Gen.Persistence
