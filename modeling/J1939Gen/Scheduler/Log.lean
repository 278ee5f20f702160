import J1939Gen.Scheduler.Freshness
import J1939Gen.Console.Numbers

/-!
# The TX log

Model of the `$TX` log of `MID/j1939_tx_scheduler.c`: one line for each frame
`prv_drain_queue` hands to the link, with a running number, dropped when the console has
no room for it. The packets of a BAM session go to the link from `J1939_Tp_Process` and
are not logged.

* `readTxLine_txLine`: a line reads back as the number, the time, the identifier, the
  bytes and the answer it was made of.
* `drained_sent`: the identifier and the bytes are those the link was handed.
* `txlog_account`: over any ticks the lines and the dropped counter account for every
  frame of the queue.
-/

namespace J1939Gen.Scheduler

open ByteMem Console ValueStore

/-! ## Model -/

/-- `s_tx_log_enabled`, `s_tx_log_dropped` and `s_tx_seq`. -/
structure TxLog where
  enabled : Bool
  dropped : UInt32
  seq : UInt32
deriving DecidableEq, Repr

/-- `J1939_Sched_Set_Tx_Log` (`j1939_tx_scheduler.c:632-636`). -/
def TxLog.setTxLog (log : TxLog) (enable : Bool) : TxLog :=
  { log with enabled := enable, dropped := 0 }

/-- The last field of a line. -/
def statusChar : LinkStatus → UInt8
  | .ok => 81
  | .busy => 66
  | .error => 69

/-- The line `prv_log_tx_frame` builds (`j1939_tx_scheduler.c:209-227`). -/
def txLine (s : Sched) (frame : TxEntry) (status : LinkStatus) (seq nowMs : UInt32) : Chars :=
  ascii "$TX," ++ (decimal seq ++ 44 :: (decimal nowMs ++ 44 ::
    (putHex (canIdOf (s.catalogPgn frame.pgnSlot)) 8 ++ 44 ::
      ((List.range 8).flatMap (fun i => putHex (frame.payload i).toUInt32 2) ++
        44 :: [statusChar status]))))

/-- `prv_log_tx_frame` (`j1939_tx_scheduler.c:209-235`) when `hal_console_tx_free`
    returns `room`: the bytes of `hal_console_write_line`. -/
def TxLog.logTxFrame (log : TxLog) (line : Chars) (room : UInt16) : TxLog × Option Chars :=
  if room.toUInt32 < (UInt16.ofNat line.length).toUInt32 + 2 then
    ({ log with dropped := log.dropped + 1 }, none)
  else (log, some (line ++ [13, 10]))

/-- A frame of the queue handed to the link by a tick at `nowMs` of a scheduler with this
    table, its answer, and the room on the console when it is logged. -/
structure Handed where
  sched : Sched
  frame : TxEntry
  sent : CanFrame
  status : LinkStatus
  nowMs : UInt32
  room : UInt16

/-- What `prv_drain_queue` does about the log after a send
    (`j1939_tx_scheduler.c:286-289`). -/
def TxLog.noteHanded (log : TxLog) (h : Handed) : TxLog × Option Chars :=
  let log := { log with seq := log.seq + 1 }
  if log.enabled then log.logTxFrame (txLine h.sched h.frame h.status log.seq h.nowMs) h.room
  else (log, none)

/-- A tick, and the room on the console at each frame it logs. -/
structure LoggedTick where
  sched : Sched
  store : Store
  nowMs : UInt32
  link : ℕ → LinkStatus
  room : ℕ → UInt16

/-- What the queue sends among the events of a tick, in order; `.tp` is a packet of a
    BAM session. -/
def sendsOf (events : List Event) : List (TxEntry × CanFrame × LinkStatus) :=
  events.filterMap fun
    | .handed frame sent status => some (frame, sent, status)
    | .queued _ | .tp _ => none

/-- The frames `prv_drain_queue` hands to the link in a tick. -/
def LoggedTick.drained (i : LoggedTick) : List Handed :=
  let t := tick i.store i.nowMs i.link i.sched
  (sendsOf t.events).mapIdx fun k x => ⟨t.sched, x.1, x.2.1, x.2.2, i.nowMs, i.room k⟩

/-- What a tick does about the log. -/
def logTick (log : TxLog) (i : LoggedTick) : TxLog × List (Option Chars) :=
  Mealy.run TxLog.noteHanded log i.drained

/-! ## Reading a line back -/

/-- What a line says. -/
structure TxRecord where
  seq : UInt32
  nowMs : UInt32
  canId : UInt32
  data : List UInt8
  status : LinkStatus
deriving DecidableEq, Repr

/-- The ends of the fields of a line. -/
def isFieldEnd (c : UInt8) : Bool := c = 44 ∨ c = 13

/-- The answer a status character stands for. -/
def readStatus (c : UInt8) : Option LinkStatus :=
  if c = 81 then some .ok else if c = 66 then some .busy else if c = 69 then some .error else none

/-- Pairs of hex digits as bytes. -/
def readBytes : Chars → List UInt8
  | high :: low :: rest => UInt8.ofNat (readHex [high, low]) :: readBytes rest
  | [] | [_] => []

/-- The reader of a line of the log. -/
def readTxLine (line : Chars) : Option TxRecord :=
  match line.splitOnP isFieldEnd with
  | [tag, seq, nowMs, canId, data, [status], [10]] =>
    if tag = ascii "$TX" then
      (readStatus status).map fun status =>
        ⟨strtoul seq, strtoul nowMs, UInt32.ofNat (readHex canId), readBytes data, status⟩
    else none
  | _ => none

theorem not_fieldEnd_of_isDigit {c : UInt8} (h : isDigit c) : isFieldEnd c = false := by
  apply decide_eq_false
  rintro (rfl | rfl) <;> exact absurd h (by decide)

theorem not_fieldEnd_decimal (value : UInt32) : ∀ c ∈ decimal value, isFieldEnd c = false :=
  fun _ hc => not_fieldEnd_of_isDigit (isDigit_of_mem_decimal hc)

theorem not_fieldEnd_hexChar {nib : UInt32} (h : nib.toNat < 16) : isFieldEnd (hexChar nib) = false := by
  have hall : ∀ d < 16, isFieldEnd ((ascii "0123456789ABCDEF").getD d 0) = false := by
    decide +kernel
  exact hall nib.toNat h

theorem not_fieldEnd_putHex (value : UInt32) {digits : ℕ} (hd : digits ≤ 8) :
    ∀ c ∈ putHex value digits, isFieldEnd c = false := by
  intro c hc
  obtain ⟨i, hi, rfl⟩ := List.mem_map.mp hc
  have hlt := List.mem_range.mp hi
  have hnib := toNat_nibble value (show digits - 1 - i < 8 by omega)
  exact not_fieldEnd_hexChar (by omega)

theorem readBytes_putHex (b : UInt8) (rest : Chars) :
    readBytes (putHex b.toUInt32 2 ++ rest) = b :: readBytes rest := by
  have hread := readHex_putHex b.toUInt32 (show 2 ≤ 8 by decide)
  have hlt := b.toNat_lt
  have hsplit : putHex b.toUInt32 2 =
      [hexChar ((b.toUInt32 >>> UInt32.ofNat ((2 - 1 - 0) * 4)) &&& 0xF),
        hexChar ((b.toUInt32 >>> UInt32.ofNat ((2 - 1 - 1) * 4)) &&& 0xF)] := rfl
  rw [hsplit] at hread ⊢
  rw [List.cons_append, List.singleton_append, readBytes, hread, UInt8.toNat_toUInt32,
    Nat.mod_eq_of_lt (by omega), UInt8.ofNat_toNat]

theorem readBytes_flatMap (payload : Mem) (l : List ℕ) :
    readBytes (l.flatMap fun i => putHex (payload i).toUInt32 2) = l.map payload := by
  induction l with
  | nil => rfl
  | cons i l ih => rw [List.flatMap_cons, readBytes_putHex, ih, List.map_cons]

theorem readStatus_statusChar (status : LinkStatus) : readStatus (statusChar status) = some status := by
  cases status <;> rfl

theorem not_fieldEnd_statusChar (status : LinkStatus) : isFieldEnd (statusChar status) = false := by
  cases status <;> rfl

/-- **A line reads back.** -/
theorem readTxLine_txLine (s : Sched) (frame : TxEntry) (status : LinkStatus) (seq nowMs : UInt32) :
    readTxLine (txLine s frame status seq nowMs ++ [13, 10]) =
      some ⟨seq, nowMs, canIdOf (s.catalogPgn frame.pgnSlot), bytes frame.payload 0 8, status⟩ := by
  have htag : ∀ c ∈ ascii "$TX", isFieldEnd c = false := by decide +kernel
  have hdata : ∀ c ∈ (List.range 8).flatMap (fun i => putHex (frame.payload i).toUInt32 2),
      isFieldEnd c = false := by
    intro c hc
    obtain ⟨i, -, hc⟩ := List.mem_flatMap.mp hc
    exact not_fieldEnd_putHex _ (by decide) c hc
  have hstatus : ∀ c ∈ [statusChar status], isFieldEnd c = false := fun c hc => by
    rw [List.mem_singleton.mp hc, not_fieldEnd_statusChar]
  have hline : txLine s frame status seq nowMs ++ [13, 10] =
      ascii "$TX" ++ 44 :: (decimal seq ++ 44 :: (decimal nowMs ++ 44 ::
        (putHex (canIdOf (s.catalogPgn frame.pgnSlot)) 8 ++ 44 ::
          ((List.range 8).flatMap (fun i => putHex (frame.payload i).toUInt32 2) ++
            44 :: ([statusChar status] ++ 13 :: [10]))))) := by
    simp only [txLine, List.append_assoc, List.cons_append, List.nil_append]
    rfl
  have hend : [(10 : UInt8)].splitOnP isFieldEnd = [[10]] :=
    List.splitOnP_eq_singleton (by decide +kernel)
  have hid : (canIdOf (s.catalogPgn frame.pgnSlot)).toNat % 16 ^ 8 =
      (canIdOf (s.catalogPgn frame.pgnSlot)).toNat :=
    Nat.mod_eq_of_lt (UInt32.toNat_lt _)
  rw [readTxLine, hline, List.splitOnP_append_cons_of_forall_mem htag 44 rfl,
    List.splitOnP_append_cons_of_forall_mem (not_fieldEnd_decimal seq) 44 rfl,
    List.splitOnP_append_cons_of_forall_mem (not_fieldEnd_decimal nowMs) 44 rfl,
    List.splitOnP_append_cons_of_forall_mem (not_fieldEnd_putHex _ (le_refl 8)) 44 rfl,
    List.splitOnP_append_cons_of_forall_mem hdata 44 rfl,
    List.splitOnP_append_cons_of_forall_mem hstatus 13 rfl, hend]
  simp only [if_true, readStatus_statusChar, Option.map_some, strtoul_word, readHex_putHex _ (le_refl 8),
    hid, UInt32.ofNat_toNat, readBytes_flatMap]
  rfl

theorem length_txLine_le (s : Sched) (frame : TxEntry) (status : LinkStatus) (seq nowMs : UInt32) :
    (txLine s frame status seq nowMs).length ≤ 53 := by
  have hseq := length_decimal_le seq
  have hnow := length_decimal_le nowMs
  have htag : (ascii "$TX,").length = 4 := rfl
  have hdata : ((List.range 8).flatMap fun i => putHex (frame.payload i).toUInt32 2).length = 16 := by
    rw [List.length_flatMap]
    simp only [length_putHex]
    rfl
  simp only [txLine, List.length_append, List.length_cons, List.length_nil, length_putHex, hdata,
    htag]
  omega

/-! ## What the queue hands to the link -/

/-- A scheduler with the same PGNs makes the same frame of an entry. -/
theorem frameOf_congr {s s' : Sched} (h : s'.indices = s.indices) (frame : TxEntry) :
    s'.frameOf frame = s.frameOf frame := by
  have hpgn : s'.catalogPgn frame.pgnSlot = s.catalogPgn frame.pgnSlot := by
    rw [Sched.catalogPgn, Sched.catalogPgn, Sched.entry_catalogPgnIndex, h,
      ← Sched.entry_catalogPgnIndex]
  rw [Sched.frameOf, hpgn, Sched.frameOf]

theorem drainLoop_sent (nowMs : UInt32) (link : ℕ → LinkStatus) {queue : List TxEntry} {t : Tick}
    (hq : t.sched.queue = queue) :
    ∃ evs, (drainLoop nowMs link queue t).events = t.events ++ evs ∧
      ∀ frame sent status, Event.handed frame sent status ∈ evs → sent = t.sched.frameOf frame := by
  induction queue generalizing t with
  | nil => exact ⟨[], (List.append_nil _).symm, fun _ _ _ h => absurd h List.not_mem_nil⟩
  | cons frame rest ih =>
    rcases drainLoop_cons nowMs link hq with ⟨-, t', heq, hpop, -, -, hev⟩ |
      ⟨-, -, t', heq, hpop, -, -, hev⟩ | ⟨-, -, t', heq, -, -, -, -, -, -, hev⟩
    · obtain ⟨evs, hevs, hsent⟩ := ih hpop.1
      refine ⟨evs, by rw [heq, hevs, hev], fun e f st he => ?_⟩
      rw [hsent e f st he]
      exact frameOf_congr (congrArg (List.map PgnEntry.catalogPgnIndex) hpop.2.1) e
    · obtain ⟨evs, hevs, hsent⟩ := ih hpop.1
      refine ⟨.handed frame (t.sched.frameOf frame) .ok :: evs, ?_, fun e f st he => ?_⟩
      · rw [heq, hevs, hev, List.append_assoc, List.singleton_append]
      · obtain heq | he := List.mem_cons.mp he
        · obtain ⟨rfl, rfl, -⟩ := Event.handed.inj heq
          rfl
        · rw [hsent e f st he]
          exact frameOf_congr (congrArg (List.map PgnEntry.catalogPgnIndex) hpop.2.1) e
    · refine ⟨_, by rw [heq, hev], fun e f st he => ?_⟩
      obtain ⟨rfl, rfl, -⟩ := Event.handed.inj (List.mem_singleton.mp he)
      rfl

theorem scheduled_noHanded (store : Store) (nowMs : UInt32) (s : Sched) :
    NoHanded (s.scheduled store nowMs).events := by
  apply foldl_scheduleSlot_noHanded
  obtain ⟨evs, hevs⟩ := (foldl_retryPending_frame store nowMs (List.range s.pgns.length)
    ⟨s, ⟨0, 0, 0, 0, 0, 0, 0⟩, 0, []⟩).events
  rw [hevs]
  simp [NoHanded]

theorem tick_sent (store : Store) (nowMs : UInt32) (link : ℕ → LinkStatus) (s : Sched)
    {frame : TxEntry} {sent : CanFrame} {status : LinkStatus}
    (h : Event.handed frame sent status ∈ (tick store nowMs link s).events) :
    sent = (tick store nowMs link s).sched.frameOf frame := by
  have hframe := processTp_frame nowMs link (drainQueue nowMs link (s.scheduled store nowMs))
  have hindices : (tick store nowMs link s).sched.indices = (s.scheduled store nowMs).sched.indices := by
    rw [tick_eq, hframe.indices, Sched.indices, drainQueue_pgns]
    rfl
  obtain ⟨evs, hdrain, hsent⟩ : ∃ evs, (drainQueue nowMs link (s.scheduled store nowMs)).events =
      (s.scheduled store nowMs).events ++ evs ∧ ∀ frame sent status,
        Event.handed frame sent status ∈ evs →
          sent = (s.scheduled store nowMs).sched.frameOf frame := by
    unfold drainQueue
    split
    · exact ⟨[], (List.append_nil _).symm, fun _ _ _ h => absurd h List.not_mem_nil⟩
    · exact drainLoop_sent nowMs link rfl
  obtain ⟨tps, htps⟩ := hframe.events
  rw [tick_eq, htps, hdrain, List.mem_append, List.mem_append] at h
  rw [frameOf_congr hindices]
  obtain (h | h) | h := h
  · exact absurd h (scheduled_noHanded store nowMs s frame sent status)
  · exact hsent frame sent status h
  · simp at h

theorem mem_sendsOf {events : List Event} {x : TxEntry × CanFrame × LinkStatus}
    (h : x ∈ sendsOf events) : Event.handed x.1 x.2.1 x.2.2 ∈ events := by
  obtain ⟨e, he, hsend⟩ := List.mem_filterMap.mp h
  cases e with
  | handed frame sent status => rwa [← Option.some.inj hsend]
  | queued _ => exact absurd hsend (by simp)
  | tp _ => exact absurd hsend (by simp)

/-- The frames of a tick are those its table and its payloads make up. -/
theorem drained_sent (i : LoggedTick) : ∀ h ∈ i.drained, h.sent = h.sched.frameOf h.frame := by
  intro h hmem
  obtain ⟨k, hk, rfl⟩ := List.mem_mapIdx.mp hmem
  exact tick_sent i.store i.nowMs i.link i.sched (mem_sendsOf (List.getElem_mem hk))

/-! ## The account -/

/-- What the line of a frame has to say under a number. -/
def Handed.record (h : Handed) (seq : UInt32) : TxRecord :=
  ⟨seq, h.nowMs, h.sent.canId, h.sent.data, h.status⟩

/-- The frames with the numbers `s_tx_seq` gives them. -/
def numbered : UInt32 → List Handed → List (UInt32 × Handed)
  | _, [] => []
  | seq, h :: hs => (seq + 1, h) :: numbered (seq + 1) hs

/-- A line that is written fits the room and says what the link was handed; none is
    dropped where 55 bytes are free. -/
structure Logged (x : UInt32 × Handed) (out : Option Chars) : Prop where
  written : ∀ line, out = some line →
    readTxLine line = some (x.2.record x.1) ∧ line.length ≤ x.2.room.toNat
  dropped : out = none → x.2.room.toNat < 55

/-- The bytes of a line reach the counter by its length. -/
theorem logTxFrame_cases (log : TxLog) (line : Chars) (room : UInt16) (hlen : line.length ≤ 53) :
    (room.toNat < line.length + 2 ∧
      log.logTxFrame line room = ({ log with dropped := log.dropped + 1 }, none)) ∨
    (line.length + 2 ≤ room.toNat ∧ log.logTxFrame line room = (log, some (line ++ [13, 10]))) := by
  have hneed : ((UInt16.ofNat line.length).toUInt32 + 2).toNat = line.length + 2 := by
    rw [UInt32.toNat_add, UInt16.toNat_toUInt32, UInt16.toNat_ofNat', show (2 : UInt32).toNat = 2 from rfl]
    omega
  have hroom : room.toUInt32 < (UInt16.ofNat line.length).toUInt32 + 2 ↔
      room.toNat < line.length + 2 := by
    rw [UInt32.lt_iff_toNat_lt, hneed, UInt16.toNat_toUInt32]
  rw [TxLog.logTxFrame]
  by_cases h : room.toNat < line.length + 2
  · exact .inl ⟨h, if_pos (hroom.mpr h)⟩
  · exact .inr ⟨by omega, if_neg fun hlt => h (hroom.mp hlt)⟩

/-- **One frame.** -/
theorem noteHanded_logged (log : TxLog) (hon : log.enabled = true) (h : Handed)
    (hsent : h.sent = h.sched.frameOf h.frame) :
    Logged (log.seq + 1, h) (log.noteHanded h).2 ∧
      (log.noteHanded h).1 =
        ⟨true, log.dropped + if (log.noteHanded h).2 = none then 1 else 0, log.seq + 1⟩ := by
  have hlen := length_txLine_le h.sched h.frame h.status (log.seq + 1) h.nowMs
  have hread := readTxLine_txLine h.sched h.frame h.status (log.seq + 1) h.nowMs
  have hstep : log.noteHanded h = ({ log with seq := log.seq + 1 } : TxLog).logTxFrame
      (txLine h.sched h.frame h.status (log.seq + 1) h.nowMs) h.room := by
    rw [TxLog.noteHanded]
    exact if_pos hon
  rw [hstep]
  rcases logTxFrame_cases { log with seq := log.seq + 1 } _ h.room hlen with
    ⟨hroom, heq⟩ | ⟨hroom, heq⟩
  · rw [heq]
    refine ⟨⟨fun line hline => absurd hline (by simp), fun _ => ?_⟩, ?_⟩
    · show h.room.toNat < 55
      omega
    · simp [hon]
  · rw [heq]
    refine ⟨⟨fun line hline => ?_, fun hnone => absurd hnone (by simp)⟩, ?_⟩
    · obtain rfl := Option.some.inj hline
      refine ⟨?_, by rw [List.length_append]; exact hroom⟩
      rw [hread, Handed.record, hsent]
      rfl
    · simp [hon]

theorem run_noteHanded (log : TxLog) (hon : log.enabled = true) (hs : List Handed)
    (hsent : ∀ h ∈ hs, h.sent = h.sched.frameOf h.frame) :
    List.Forall₂ Logged (numbered log.seq hs) (Mealy.run TxLog.noteHanded log hs).2 ∧
      (Mealy.run TxLog.noteHanded log hs).1 =
        ⟨true, log.dropped + UInt32.ofNat ((Mealy.run TxLog.noteHanded log hs).2.count none),
          log.seq + UInt32.ofNat hs.length⟩ := by
  induction hs generalizing log with
  | nil =>
    refine ⟨.nil, ?_⟩
    show log = ⟨true, log.dropped + 0, log.seq + 0⟩
    rw [UInt32.add_zero, UInt32.add_zero, ← hon]
  | cons h hs ih =>
    obtain ⟨hlogged, hnext⟩ := noteHanded_logged log hon h (hsent h List.mem_cons_self)
    obtain ⟨hrest, hend⟩ := ih (log.noteHanded h).1 (by rw [hnext])
      fun x hx => hsent x (List.mem_cons_of_mem h hx)
    have hseq : (log.noteHanded h).1.seq = log.seq + 1 := by rw [hnext]
    rw [hseq] at hrest
    rw [Mealy.run_cons]
    refine ⟨.cons hlogged hrest, ?_⟩
    rw [hend, hnext]
    simp only [List.count_cons, List.length_cons, UInt32.ofNat_add, beq_iff_eq]
    refine congrArg₂ (TxLog.mk true) ?_ ?_
    · rw [UInt32.add_assoc, UInt32.add_comm (UInt32.ofNat _)]
      split <;> rfl
    · rw [UInt32.add_assoc, UInt32.add_comm (UInt32.ofNat hs.length)]
      rfl

theorem run_logTick (log : TxLog) (ticks : List LoggedTick) :
    (Mealy.run logTick log ticks).1 =
        (Mealy.run TxLog.noteHanded log (ticks.flatMap LoggedTick.drained)).1 ∧
      (Mealy.run logTick log ticks).2.flatten =
        (Mealy.run TxLog.noteHanded log (ticks.flatMap LoggedTick.drained)).2 :=
  Mealy.run_flatMap TxLog.noteHanded LoggedTick.drained log ticks

/-- **Every frame of the queue is accounted for.** From `TXLOG 1` on, whatever the
    schedulers, the stores, the links and the room at each frame: the frames
    `prv_drain_queue` hands to the link get consecutive numbers, each has its line or is
    counted as dropped, a line says what the link was handed and never has to wait, and
    none is dropped where 55 bytes are free. Nothing else gets a number or a line. -/
theorem txlog_account (log : TxLog) (ticks : List LoggedTick) :
    let r := Mealy.run logTick (log.setTxLog true) ticks
    let drained := ticks.flatMap LoggedTick.drained
    List.Forall₂ Logged (numbered log.seq drained) r.2.flatten ∧
      r.1.dropped = UInt32.ofNat (r.2.flatten.count none) ∧
      r.1.seq = log.seq + UInt32.ofNat drained.length := by
  obtain ⟨hstate, hlines⟩ := run_logTick (log.setTxLog true) ticks
  obtain ⟨hlogged, hend⟩ := run_noteHanded (log.setTxLog true) rfl (ticks.flatMap LoggedTick.drained)
    fun h hmem => by
      obtain ⟨i, -, hh⟩ := List.mem_flatMap.mp hmem
      exact drained_sent i h hh
  dsimp only
  rw [hstate, hlines, hend]
  exact ⟨hlogged, UInt32.zero_add _, rfl⟩

end J1939Gen.Scheduler
