import J1939Gen.Persistence.Model

/-!
# Standalone boot

Model of `APP/app_boot.c`: the restore of the saved configuration before the CAN
join, and the autostart state machine. The mode of an autostart is left out, as
the run mode is.
-/

namespace J1939Gen.Boot

open ValueStore Storage Generator Persistence

/-- `App_Boot_Result_t`. -/
inductive Result
  | empty
  | loaded
  | loadFailed
  | defaults
deriving DecidableEq, Repr

/-- `App_Autostart_State_t`. -/
inductive Autostart
  | off
  | pending
  | started
  | cancelled
  | suppressed
  | notStartable
deriving DecidableEq, Repr

/-- `App_Boot_Info_t`. -/
structure BootInfo where
  result : Result
  loadStatus : Persistence.Status
  autostart : Autostart
  bitrateKbps : UInt32
  configCrc : UInt32
  sequence : UInt32
  resetCause : UInt8
  watchdogStreak : UInt8
deriving DecidableEq, Repr

/-- The application, `s_info`, and the reset information `App_Boot_Get_Info`
    adds to it. -/
structure Node where
  app : App
  info : BootInfo
  resetCause : UInt8
  watchdogStreak : UInt8

/-- `prv_bitrate_supported` (`app_boot.c:18-22`). -/
def bitrateSupported (bitrateBps : UInt32) : Bool := bitrateBps = 250000 ∨ bitrateBps = 500000

/-- `prv_fail` (`app_boot.c:24-34`). -/
def fail (n : Node) (status : Persistence.Status) : Node :=
  { n with
    app := { n.app with gen := clear n.app.gen }
    info := { n.info with
      result := .loadFailed
      loadStatus := status
      autostart := .off
      configCrc := 0
      sequence := 0 } }

/-- `PENDING`, or `SUPPRESSED` in safe mode. -/
def requestAutostart (suppress : Bool) : Autostart := if suppress then .suppressed else .pending

/-- The info at the start of a restore (`app_boot.c:38-42`). -/
def BootInfo.start (baudKbps : UInt32) : BootInfo where
  result := .empty
  loadStatus := .empty
  autostart := .off
  bitrateKbps := baudKbps
  configCrc := 0
  sequence := 0
  resetCause := 0
  watchdogStreak := 0

/-- `App_Boot_Restore` from the load on (`app_boot.c:66-82`). -/
def restoreStored (B : Build) (n : Node) (stored : Storage.Info) (autostart suppress : Bool)
    (clock : ℕ → UInt32) : Node :=
  match load B n.app clock with
  | (app, .error status) => fail { n with app := app } status
  | (app, .ok _) =>
    { n with
      app := app
      info := { n.info with
        result := .loaded
        loadStatus := .ok
        bitrateKbps := stored.bitrateBps / 1000
        configCrc := stored.configCrc
        sequence := stored.sequence
        autostart := if autostart then requestAutostart suppress else n.info.autostart } }

/-- `App_Boot_Restore` (`app_boot.c:36-83`). -/
def restore (B : Build) (n : Node) (suppressAutostart useDefaultsWhenEmpty : Bool)
    (clock : ℕ → UInt32) : Node :=
  let n := { n with info := .start n.app.gen.baudKbps }
  let (app, status, info) := getInfo n.app
  let n := { n with app := app }
  if status = .empty then
    if useDefaultsWhenEmpty then
      { n with
        app := { n.app with gen := loadDefaults B n.app.gen clock }
        info := { n.info with
          result := .defaults
          autostart := requestAutostart suppressAutostart } }
    else n
  else if status ≠ .ok then fail n status
  else if bitrateSupported info.stored.bitrateBps = false then fail n .unsupportedConfig
  else restoreStored B n info.stored info.autostart suppressAutostart clock

/-- `App_Boot_Set_Reset_Info`. -/
def setResetInfo (n : Node) (resetCause watchdogStreak : UInt8) : Node :=
  { n with resetCause := resetCause, watchdogStreak := watchdogStreak }

/-- Assign `s_info.autostart`. -/
def Node.setAutostart (n : Node) (autostart : Autostart) : Node :=
  { n with info := { n.info with autostart := autostart } }

/-- `App_Boot_Try_Autostart` (`app_boot.c:96-112`). -/
def tryAutostart (n : Node) (nowMs : UInt32) : Node × Bool :=
  if n.info.autostart ≠ .pending then (n, false)
  else if activeProfileCanStart n.app.gen = false then (n.setAutostart .notStartable, false)
  else
    ({ n with app := { n.app with gen := start n.app.gen 0 nowMs } }.setAutostart .started, true)

/-- `App_Boot_Cancel_Autostart` (`app_boot.c:114-119`). -/
def cancelAutostart (n : Node) : Node :=
  if n.info.autostart = .pending then n.setAutostart .cancelled else n

/-- `App_Boot_Get_Info`. -/
def getBootInfo (n : Node) : BootInfo :=
  { n.info with resetCause := n.resetCause, watchdogStreak := n.watchdogStreak }

end J1939Gen.Boot
