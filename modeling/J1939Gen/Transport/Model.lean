import J1939Gen.Frame
import J1939Gen.Catalog.Table
import J1939Gen.Lib.SerialClock

/-!
# The BAM transmitter

Model of `MID/j1939_tp.c`. `process` takes the answer the link gives if a frame
is handed to it, and returns the frame when one is.
-/

namespace J1939Gen.Tp

open ByteMem SerialClock

/-- `J1939_PGN_TP_CM`. -/
def pgnTpCm : UInt32 := 0xEC00
/-- `J1939_PGN_TP_DT`. -/
def pgnTpDt : UInt32 := 0xEB00
/-- `J1939_TP_CM_BAM`. -/
def cmBam : UInt8 := 32
/-- `J1939_TP_PRIORITY`. -/
def tpPriority : UInt8 := 7
/-- `J1939_TP_DT_DATA_BYTES`. -/
def dtDataBytes : ℕ := 7
/-- `J1939_TP_BAM_PACKET_GAP_MS`. -/
def bamPacketGapMs : UInt32 := 50
/-- `J1939_TP_BAM_ABORT_LATE_MS`. -/
def bamAbortLateMs : UInt32 := 750

/-- `Tp_State_t`. -/
inductive State
  | idle
  | prepared
  | sending
deriving DecidableEq, Repr

/-- `J1939_Tp_Stats_t`. -/
structure Stats where
  started : UInt32
  completed : UInt32
  aborted : UInt32
  framesSent : UInt32
  busy : UInt32
deriving DecidableEq, Repr

/-- `Tp_Session_t` and the statistics. -/
structure Session where
  payload : Mem
  pgn : UInt32
  nextDueMs : UInt32
  slotMs : UInt32
  length : UInt16
  packets : UInt8
  nextPacket : UInt8
  sourceAddress : UInt8
  state : State
  stats : Stats

/-- `prv_build_packet` (`j1939_tp.c:39-61`). -/
def buildPacket (s : Session) : List UInt8 :=
  if s.nextPacket = 0 then
    [cmBam, s.length.toUInt8, (s.length >>> 8).toUInt8, s.packets, 0xFF, s.pgn.toUInt8,
      (s.pgn >>> 8).toUInt8, (s.pgn >>> 16).toUInt8]
  else
    let offset := UInt16.ofNat ((s.nextPacket.toNat - 1) * dtDataBytes)
    let remaining := s.length - offset
    let count := if remaining < 7 then remaining else 7
    let data := copy (fun _ => 0xFF) 1 (fun i => s.payload (offset.toNat + i)) count.toNat
    s.nextPacket :: bytes data 1 7

/-- `J1939_Tp_Init`. -/
def init : Session where
  payload := fun _ => 0
  pgn := 0
  nextDueMs := 0
  slotMs := 0
  length := 0
  packets := 0
  nextPacket := 0
  sourceAddress := 0
  state := .idle
  stats := ⟨0, 0, 0, 0, 0⟩

/-- `J1939_Tp_Cancel` (`j1939_tp.c:69-75`). -/
def cancel (s : Session) : Session :=
  { s with
    stats := if s.state = .sending then { s.stats with aborted := s.stats.aborted + 1 } else s.stats
    state := .idle }

/-- `J1939_Tp_Is_Busy`. -/
def isBusy (s : Session) : Bool := s.state = .sending

/-- `J1939_Tp_Bam_Prepare` (`j1939_tp.c:82-92`); the flag says that the buffer
    was handed out. -/
def bamPrepare (s : Session) (length : UInt16) : Session × Bool :=
  if s.state = .sending ∨ length ≤ 8 ∨ length > UInt16.ofNat maxPayloadBytes then (s, false)
  else ({ s with payload := fun _ => 0xFF, length := length, state := .prepared }, true)

/-- `J1939_Tp_Bam_Start` (`j1939_tp.c:94-109`). -/
def bamStart (s : Session) (pgn : UInt32) (sourceAddress : UInt8) (nowMs : UInt32) :
    Session × Bool :=
  if s.state ≠ .prepared then (s, false)
  else
    ({ s with
        pgn := pgn
        sourceAddress := sourceAddress
        packets := ((s.length.toUInt32 + 7 - 1) / 7).toUInt8
        nextPacket := 0
        slotMs := nowMs
        nextDueMs := nowMs
        state := .sending
        stats := { s.stats with started := s.stats.started + 1 } }, true)

/-- The frame of the next packet, as `J1939_Link_Send` hands it on. -/
def nextFrame (s : Session) : CanFrame :=
  linkFrame (if s.nextPacket = 0 then pgnTpCm else pgnTpDt) (buildPacket s) tpPriority
    s.sourceAddress

/-- `J1939_Tp_Process` (`j1939_tp.c:111-144`). -/
def process (s : Session) (nowMs : UInt32) (link : LinkStatus) : Session × Option CanFrame :=
  if s.state ≠ .sending ∨ reached nowMs s.nextDueMs = false then (s, none)
  else if reached nowMs (s.slotMs + bamAbortLateMs) then (cancel s, none)
  else if link ≠ .ok then
    ({ s with
        stats := { s.stats with busy := s.stats.busy + 1 }
        nextDueMs := nowMs + 1 }, some (nextFrame s))
  else
    let stats := { s.stats with framesSent := s.stats.framesSent + 1 }
    if s.nextPacket ≥ s.packets then
      ({ s with
          state := .idle
          stats := { stats with completed := stats.completed + 1 } }, some (nextFrame s))
    else
      ({ s with
          stats := stats
          nextPacket := s.nextPacket + 1
          slotMs := nowMs + bamPacketGapMs
          nextDueMs := nowMs + bamPacketGapMs }, some (nextFrame s))

end J1939Gen.Tp
