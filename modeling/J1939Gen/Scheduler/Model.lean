import J1939Gen.Scheduler.RawCodec
import J1939Gen.Transport.Sessions
import J1939Gen.ValueStore.Model

/-!
# The transmit scheduler

Model of `MID/j1939_tx_scheduler.c` in the constant-only build, where the
pattern generator registers nothing. A tick reads the value store and the
answers the link gives to the frames it is handed, and emits events: a frame
queued, a frame handed to the link, and what the BAM transmitter does.

Left out: the legacy run mode, the TX log, the debug watch and the send counter,
which no transmission depends on.
-/

namespace J1939Gen

/-- The capacities of `MID/j1939_build_profile.h`. -/
structure Build where
  signalCapacity : ℕ
  pgnCapacity : ℕ
deriving DecidableEq, Repr

/-- The three profiles (`j1939_build_profile.h:53-69`). -/
def build179 : Build := ⟨179, 60⟩
def build100 : Build := ⟨100, 60⟩
def build40 : Build := ⟨40, 11⟩

namespace Scheduler

open Bitmask ByteMem SerialClock ValueStore

/-- `J1939_TX_QUEUE_CAPACITY`. -/
def txQueueCapacity : ℕ := 32

/-- `Sched_PGN_Entry_t`. -/
structure PgnEntry where
  nextDueMs : UInt32
  catalogPgnIndex : ℕ
  tpPending : Bool
deriving DecidableEq, Repr, Inhabited

/-- `Sched_Tx_Entry_t`. -/
structure TxEntry where
  deadlineMs : UInt32
  periodMs : UInt16
  payload : Mem
  pgnSlot : ℕ

/-- `J1939_Sched_Stats_t`. -/
structure Stats where
  enqueued : UInt32
  sent : UInt32
  busy : UInt32
  failed : UInt32
  dropped : UInt32
  deadlineMissed : UInt32
  expired : UInt32
  queued : UInt8
  highWater : UInt8
deriving DecidableEq, Repr

/-- The static state of the scheduler, and the BAM transmitter it drives. -/
structure Sched where
  pgns : List PgnEntry
  queue : List TxEntry
  retryNotBeforeMs : UInt32
  stats : Stats
  tp : Tp.Session

/-- `J1939_Sched_Tick_Result_t`. -/
structure TickResult where
  enqueued : UInt16
  sent : UInt16
  busy : UInt16
  failed : UInt16
  dropped : UInt16
  deadlineMissed : UInt16
  expired : UInt16
deriving DecidableEq, Repr

/-- What an observer of a tick sees. -/
inductive Event
  | queued (frame : TxEntry)
  | handed (frame : TxEntry) (sent : CanFrame) (status : LinkStatus)
  | tp (e : Tp.Event)

/-- A tick in progress: the state, `local`, the number of frames handed to the
    link, and the events so far. -/
structure Tick where
  sched : Sched
  result : TickResult
  sends : ℕ
  events : List Event

/-! ## PGN table -/

/-- `prv_period_ms`. -/
def PgnEntry.periodMs (e : PgnEntry) : UInt16 := (pgnAt e.catalogPgnIndex).periodMs

/-- `prv_pgn_needs_tp` (`j1939_tx_scheduler.c:73-77`). -/
def pgnNeedsTp (pgn : PgnRecord) : Bool :=
  pgn.payloadLength > 8 ∨ (pgn.flags &&& pgnRequiresTp) ≠ 0

/-- `prv_pgn_is_schedulable` (`j1939_tx_scheduler.c:81-85`). -/
def pgnIsSchedulable (pgn : PgnRecord) : Bool :=
  pgn.periodMs > 0 ∧ pgn.payloadLength ≤ UInt16.ofNat maxPayloadBytes

/-- `s_pgns[i]`. -/
def Sched.entry (s : Sched) (slot : ℕ) : PgnEntry := s.pgns.getD slot default

/-- `prv_catalog_pgn(&s_pgns[i])`. -/
def Sched.catalogPgn (s : Sched) (slot : ℕ) : PgnRecord := pgnAt (s.entry slot).catalogPgnIndex

/-- `prv_find_pgn` (`j1939_tx_scheduler.c:93-101`). -/
def Sched.findPgn (s : Sched) (catalogPgnIndex : ℕ) : Option PgnEntry :=
  s.pgns.find? fun e => e.catalogPgnIndex == catalogPgnIndex

/-- `prv_add_pgn` (`j1939_tx_scheduler.c:103-119`); `none` is `NULL`. -/
def Sched.addPgn (B : Build) (s : Sched) (catalogPgnIndex : ℕ) (nowMs : UInt32) : Option Sched :=
  match s.findPgn catalogPgnIndex with
  | some _ => some s
  | none =>
    if s.pgns.length ≥ B.pgnCapacity then none
    else some { s with pgns := s.pgns ++ [{
      nextDueMs := nowMs + (pgnAt catalogPgnIndex).periodMs.toUInt32
      catalogPgnIndex := catalogPgnIndex
      tpPending := false }] }

/-- `J1939_Sched_Pgn_Is_Schedulable`. -/
def pgnIndexIsSchedulable (catalogPgnIndex : ℕ) : Bool :=
  catalogPgnIndex < pgnCount ∧ pgnIsSchedulable (pgnAt catalogPgnIndex)

/-- `J1939_Sched_Get_Signal_Count`: active records of the value store. -/
def getSignalCount (store : Store) : ℕ :=
  (List.range signalCount).countP fun i => isActive store i

/-- `J1939_Sched_Can_Add_Catalog_Signal` (`j1939_tx_scheduler.c:471-488`). -/
def Sched.canAddCatalogSignal (B : Build) (s : Sched) (store : Store) (catalogIndex : ℕ) : Bool :=
  if catalogIndex ≥ signalCount then false
  else if isActive store catalogIndex = false ∧ getSignalCount store ≥ B.signalCapacity then false
  else
    let pgnIndex := (signalAt catalogIndex).pgnIndex
    if pgnIsSchedulable (pgnAt pgnIndex) = false then true
    else (s.findPgn pgnIndex).isSome ∨ s.pgns.length < B.pgnCapacity

/-- `J1939_Sched_Add_Catalog_Signal` (`j1939_tx_scheduler.c:490-507`). -/
def Sched.addCatalogSignal (B : Build) (s : Sched) (store : Store) (catalogIndex : ℕ)
    (nowMs : UInt32) : Sched × Bool :=
  if s.canAddCatalogSignal B store catalogIndex = false then (s, false)
  else
    let pgnIndex := (signalAt catalogIndex).pgnIndex
    if pgnIsSchedulable (pgnAt pgnIndex) = false then (s, true)
    else
      match s.addPgn B pgnIndex nowMs with
      | none => (s, false)
      | some s => (s, true)

/-- The state `J1939_Sched_Clear` leaves (`j1939_tx_scheduler.c:457-469`), which
    is also the zeroed state before the first call. -/
def Sched.clear : Sched where
  pgns := []
  queue := []
  retryNotBeforeMs := 0
  stats := ⟨0, 0, 0, 0, 0, 0, 0, 0, 0⟩
  tp := Tp.init

/-- The first due time `J1939_Sched_Reset_Timers` gives slot `i`: PGNs of one
    period are spread over it (`j1939_tx_scheduler.c:524-542`). -/
def phase (pgns : List PgnEntry) (i : ℕ) : UInt32 :=
  let period := (pgns.getD i default).periodMs
  let rank := ((List.range i).filter fun j => (pgns.getD j default).periodMs = period).length
  let peers :=
    ((List.range pgns.length).filter fun j => (pgns.getD j default).periodMs = period).length
  (UInt32.ofNat (rank + 1) * period.toUInt32 + UInt32.ofNat peers - 1) / UInt32.ofNat peers

/-- `J1939_Sched_Reset_Timers` (`j1939_tx_scheduler.c:519-543`). -/
def Sched.resetTimers (s : Sched) (nowMs : UInt32) : Sched :=
  { s with
    queue := []
    retryNotBeforeMs := nowMs
    stats := { s.stats with queued := 0 }
    tp := Tp.cancel s.tp
    pgns := s.pgns.mapIdx fun i e =>
      { e with nextDueMs := nowMs + phase s.pgns i, tpPending := false } }

/-! ## Packing -/

/-- `prv_pack_text` (`j1939_tx_scheduler.c:333-354`); `none` is `false`. -/
def packText (payload : Mem) (length : UInt16) (sig : Signal) (text : List UInt8) : Option Mem :=
  let offset := sig.startBit / 8
  if offset ≥ length then none
  else
    let room := length.toNat - offset.toNat - 1
    let count := if text.length < room then text.length else room
    let payload := copy payload offset.toNat (fun i => text.getD i 0) count
    some (Function.update payload (offset.toNat + count) vinTerminator)

/-- `prv_tx_length` (`j1939_tx_scheduler.c:358-362`). -/
def txLength (pgn : PgnRecord) : UInt16 :=
  if (pgn.flags &&& pgnVariableLength) ≠ 0 then vinTxBytes else pgn.payloadLength

/-- The loop body of `prv_pack_pgn`: the payload and `packed_any`. -/
def packRecord (store : Store) (length : UInt16) (acc : Mem × Bool) (i : ℕ) : Mem × Bool :=
  let sig := signalAt i
  match getRaw store i with
  | some raw =>
    match packRaw acc.1 length sig.startBit sig.bitLength.toUInt8 raw with
    | some payload => (payload, true)
    | none => acc
  | none =>
    match getBlob store i with
    | some text =>
      match packText acc.1 length sig text with
      | some payload => (payload, true)
      | none => acc
    | none => acc

/-- `prv_pack_pgn` (`j1939_tx_scheduler.c:365-408`). -/
def packPgn (store : Store) (pgn : PgnRecord) (payload : Mem) (length : UInt16) : Mem × Bool :=
  (List.range' pgn.firstSignal pgn.signalCount).foldl (packRecord store length) (payload, false)

/-! ## The software queue -/

/-- `prv_can_id`. -/
def canIdOf (pgn : PgnRecord) : UInt32 :=
  Header.buildId ⟨pgn.pgn, pgn.priority, pgn.sourceAddress, addrGlobal⟩

/-- `prv_queue_class`. -/
def queueClass (periodMs : UInt16) : ℕ := if periodMs ≤ 20 then 0 else 1

/-- `prv_queue_before` (`j1939_tx_scheduler.c:138-151`). -/
def Sched.queueBefore (s : Sched) (lhs rhs : TxEntry) : Bool :=
  if queueClass lhs.periodMs ≠ queueClass rhs.periodMs then
    queueClass lhs.periodMs < queueClass rhs.periodMs
  else if lhs.deadlineMs ≠ rhs.deadlineMs then before lhs.deadlineMs rhs.deadlineMs
  else canIdOf (s.catalogPgn lhs.pgnSlot) < canIdOf (s.catalogPgn rhs.pgnSlot)

/-- `prv_enqueue` (`j1939_tx_scheduler.c:153-174`): the insertion scans from the
    back, past every frame the new one goes before. -/
def Sched.enqueue (s : Sched) (frame : TxEntry) : Sched × Bool :=
  if s.queue.length ≥ txQueueCapacity then
    ({ s with stats := { s.stats with dropped := s.stats.dropped + 1 } }, false)
  else
    let queue := s.queue.rdropWhile (s.queueBefore frame) ++
      frame :: s.queue.rtakeWhile (s.queueBefore frame)
    let count := UInt8.ofNat queue.length
    ({ s with
        queue := queue
        stats := { s.stats with
          enqueued := s.stats.enqueued + 1
          queued := count
          highWater := if count > s.stats.highWater then count else s.stats.highWater } }, true)

/-- `prv_pop_queue_front`. -/
def Sched.popQueueFront (s : Sched) : Sched :=
  { s with
    queue := s.queue.tail
    stats := { s.stats with queued := UInt8.ofNat s.queue.tail.length } }

/-! ## One tick -/

/-- The 8-byte payload `prv_schedule_due_pgn` packs, and whether a record of the
    PGN is active. -/
def packFrame (store : Store) (pgn : PgnRecord) : Mem × Bool :=
  packPgn store pgn (fun _ => 0xFF) 8

/-- `prv_schedule_due_pgn` (`j1939_tx_scheduler.c:410-432`). -/
def scheduleDuePgn (store : Store) (slot : ℕ) (periodMs : UInt16) (deadlineMs : UInt32)
    (t : Tick) : Tick :=
  let packed := packFrame store (t.sched.catalogPgn slot)
  if packed.2 = false then t
  else
    let frame : TxEntry := ⟨deadlineMs, periodMs, packed.1, slot⟩
    let (sched, accepted) := t.sched.enqueue frame
    if accepted then
      { t with
        sched := sched
        result := { t.result with enqueued := t.result.enqueued + 1 }
        events := t.events ++ [.queued frame] }
    else
      { t with
        sched := sched
        result := { t.result with dropped := t.result.dropped + 1 } }

/-- `prv_start_tp_pgn` (`j1939_tx_scheduler.c:436-449`). -/
def startTpPgn (store : Store) (slot : ℕ) (nowMs : UInt32) (t : Tick) : Tick :=
  let pgn := t.sched.catalogPgn slot
  let length := txLength pgn
  let (prepared, granted) := Tp.bamPrepare t.sched.tp length
  let setPending (pending : Bool) :=
    t.sched.pgns.set slot { t.sched.entry slot with tpPending := pending }
  if granted = false then { t with sched := { t.sched with pgns := setPending true } }
  else
    let packed := packPgn store pgn prepared.payload length
    let filled := { prepared with payload := packed.1 }
    if packed.2 = false then
      { t with sched := { t.sched with pgns := setPending false, tp := filled } }
    else
      let (started, ok) := Tp.bamStart filled pgn.pgn pgn.sourceAddress nowMs
      { t with
        sched := { t.sched with pgns := setPending false, tp := started }
        events := t.events ++ (if ok then [.tp (.started started.bam)] else []) }

/-- The body of the first loop of `J1939_Sched_Tick`: start a pending BAM when
    none is running. -/
def retryPending (store : Store) (nowMs : UInt32) (t : Tick) (slot : ℕ) : Tick :=
  if Tp.isBusy t.sched.tp then t
  else if (t.sched.entry slot).tpPending then startTpPgn store slot nowMs t
  else t

/-- `(now_ms - entry->next_due_ms) / period_ms`. -/
def PgnEntry.periodsLate (e : PgnEntry) (nowMs : UInt32) : UInt32 :=
  (nowMs - e.nextDueMs) / e.periodMs.toUInt32

/-- The latest due slot: skipped slots are only counted. -/
def PgnEntry.deadlineMs (e : PgnEntry) (nowMs : UInt32) : UInt32 :=
  e.nextDueMs + e.periodsLate nowMs * e.periodMs.toUInt32

/-- Count the skipped slots and move the due time of a due PGN
    (`j1939_tx_scheduler.c:566-577`). -/
def Tick.advance (t : Tick) (slot : ℕ) (nowMs : UInt32) : Tick :=
  let entry := t.sched.entry slot
  let late := entry.periodsLate nowMs
  { t with
    result := { t.result with deadlineMissed := t.result.deadlineMissed + late.toUInt16 }
    sched := { t.sched with
      stats := { t.sched.stats with deadlineMissed := t.sched.stats.deadlineMissed + late }
      pgns := t.sched.pgns.set slot { entry with
        nextDueMs := entry.nextDueMs + (late + 1) * entry.periodMs.toUInt32 } } }

/-- The body of the second loop of `J1939_Sched_Tick`: queue the latest due
    slot of a PGN. -/
def scheduleSlot (store : Store) (nowMs : UInt32) (t : Tick) (slot : ℕ) : Tick :=
  let entry := t.sched.entry slot
  if entry.periodMs = 0 ∨ reached nowMs entry.nextDueMs = false then t
  else if pgnNeedsTp (pgnAt entry.catalogPgnIndex) then
    startTpPgn store slot nowMs (t.advance slot nowMs)
  else
    scheduleDuePgn store slot entry.periodMs (entry.deadlineMs nowMs) (t.advance slot nowMs)

/-- The expiry test of the drain: one full period past the deadline. -/
def TxEntry.expired (e : TxEntry) (nowMs : UInt32) : Bool :=
  e.periodMs ≠ 0 ∧ reached nowMs (e.deadlineMs + e.periodMs.toUInt32)

/-- The frame `prv_drain_queue` hands to the link. -/
def Sched.frameOf (s : Sched) (e : TxEntry) : CanFrame :=
  let pgn := s.catalogPgn e.pgnSlot
  linkFrame pgn.pgn (bytes e.payload 0 8) pgn.priority pgn.sourceAddress

/-- The loop of `prv_drain_queue` (`j1939_tx_scheduler.c:270-312`), on the frames
    that are left; `link k` is the answer to the `k`-th frame of the tick. -/
def drainLoop (nowMs : UInt32) (link : ℕ → LinkStatus) : List TxEntry → Tick → Tick
  | [], t => t
  | frame :: rest, t =>
    if frame.expired nowMs then
      let sched := { t.sched with
        stats := { t.sched.stats with expired := t.sched.stats.expired + 1 } }
      drainLoop nowMs link rest { t with
        sched := sched.popQueueFront
        result := { t.result with expired := t.result.expired + 1 } }
    else
      let status := link t.sends
      let t : Tick := { t with
        sends := t.sends + 1
        events := t.events ++ [.handed frame (t.sched.frameOf frame) status] }
      if status = .ok then
        let sched := { t.sched with
          stats := { t.sched.stats with sent := t.sched.stats.sent + 1 } }
        drainLoop nowMs link rest { t with
          sched := sched.popQueueFront
          result := { t.result with sent := t.result.sent + 1 } }
      else if status = .busy then
        { t with
          sched := { t.sched with
            stats := { t.sched.stats with busy := t.sched.stats.busy + 1 }
            retryNotBeforeMs := nowMs + 1 }
          result := { t.result with busy := t.result.busy + 1 } }
      else
        { t with
          sched := { t.sched with
            stats := { t.sched.stats with failed := t.sched.stats.failed + 1 }
            retryNotBeforeMs := nowMs + 1 }
          result := { t.result with failed := t.result.failed + 1 } }

/-- `prv_drain_queue` (`j1939_tx_scheduler.c:262-313`). -/
def drainQueue (nowMs : UInt32) (link : ℕ → LinkStatus) (t : Tick) : Tick :=
  if t.sched.queue.length > 0 ∧ reached nowMs t.sched.retryNotBeforeMs = false then t
  else drainLoop nowMs link t.sched.queue t

/-- `J1939_Tp_Process` at the end of the tick. -/
def processTp (nowMs : UInt32) (link : ℕ → LinkStatus) (t : Tick) : Tick :=
  let (tp, events) := Tp.step t.sched.tp (.process nowMs (link t.sends))
  { t with
    sched := { t.sched with tp := tp }
    events := t.events ++ events.map Event.tp }

/-- `J1939_Sched_Tick` (`j1939_tx_scheduler.c:545-588`). -/
def tick (store : Store) (nowMs : UInt32) (link : ℕ → LinkStatus) (s : Sched) : Tick :=
  let slots := List.range s.pgns.length
  let t : Tick := ⟨s, ⟨0, 0, 0, 0, 0, 0, 0⟩, 0, []⟩
  let t := slots.foldl (retryPending store nowMs) t
  let t := slots.foldl (scheduleSlot store nowMs) t
  let t := drainQueue nowMs link t
  processTp nowMs link t

end Scheduler

end J1939Gen
