import J1939Gen.Control.Model
import J1939Gen.Lib.RingQueue

/-!
# The response queue as a ring

The queue of deferred responses of `APP/app_control_can.c` as the code keeps
it: four slots, the index of the head, a count, and the counters of
`App_Control_Can_Stats_t` that the two send paths touch.

* `TxRing.send_queue`, `TxRing.processLoop_queue`: in a well-formed ring the code
  does what `TxQueue` does on the list of entries, and shows the same events.
* `TxRing.process_events_le`: `App_Control_Can_Process` handles at most the
  entries that are queued, one a turn.
-/

namespace J1939Gen.Control

open ByteMem SerialClock RingQueue

/-- The counters of `App_Control_Can_Stats_t` that the send paths touch. -/
structure TxStats where
  responsesQueued : UInt32
  responsesBusy : UInt32
  responsesFailed : UInt32
  responsesDeferred : UInt32
  responsesDropped : UInt32
deriving DecidableEq, Repr

/-- `s_tx_queue`, `s_tx_queue_head`, `s_tx_queue_count`,
`s_tx_retry_not_before_ms` and the counters. -/
structure TxRing where
  slots : ℕ → TxEntry
  head : UInt8
  count : UInt8
  retryNotBeforeMs : UInt32
  stats : TxStats

namespace TxRing

/-- The queue after `App_Control_Can_Init` (`app_control_can.c:890-899`). -/
def init : TxRing where
  slots := fun _ => ⟨⟨0, 0, .ok, 0, 0⟩, 0⟩
  head := 0
  count := 0
  retryNotBeforeMs := 0
  stats := ⟨0, 0, 0, 0, 0⟩

/-- Slot `i` of the queue, counted from the head. -/
def index (q : TxRing) (i : ℕ) : UInt8 := UInt8.ofNat ((q.head.toNat + i) % txQueueCapacity)

/-- `prv_pop_tx_queue` (`app_control_can.c:103-111`). -/
def pop (q : TxRing) : TxRing :=
  if q.count = 0 then q
  else { q with
    head := UInt8.ofNat ((q.head.toNat + 1) % txQueueCapacity)
    count := q.count - 1 }

/-- `prv_tx_queue_contains` (`app_control_can.c:113-124`). -/
def contains (q : TxRing) (response : Response) : Bool :=
  (List.range q.count.toNat).any fun i =>
    (q.slots (q.index i).toNat).response.bytes = response.bytes

/-- `prv_defer_response` (`app_control_can.c:126-145`). -/
def defer (q : TxRing) (response : Response) (nowMs : UInt32) : TxRing × TxEvent :=
  if q.contains response then (q, .merged response)
  else if q.count.toNat ≥ txQueueCapacity then
    ({ q with stats := { q.stats with responsesDropped := q.stats.responsesDropped + 1 } },
      .dropped response)
  else
    let tail := q.index q.count.toNat
    ({ q with
        slots := Function.update q.slots tail.toNat ⟨response, nowMs⟩
        count := q.count + 1
        stats := { q.stats with responsesDeferred := q.stats.responsesDeferred + 1 } },
      .deferred response)

/-- `prv_send_response` (`app_control_can.c:147-170`); `link` is what the link
answers if the response is handed to it. -/
def send (q : TxRing) (response : Response) (nowMs : UInt32) (link : LinkStatus) :
    TxRing × TxEvent :=
  if q.count > 0 then q.defer response nowMs
  else match link with
  | .ok =>
    ({ q with stats := { q.stats with responsesQueued := q.stats.responsesQueued + 1 } },
      .transmitted response)
  | .busy =>
    let q := { q with stats := { q.stats with responsesBusy := q.stats.responsesBusy + 1 } }
    let (q, event) := q.defer response nowMs
    ({ q with retryNotBeforeMs := nowMs + txRetryDelayMs }, event)
  | .error =>
    let q := { q with stats := { q.stats with responsesFailed := q.stats.responsesFailed + 1 } }
    let (q, event) := q.defer response nowMs
    ({ q with retryNotBeforeMs := nowMs + txRetryDelayMs }, event)

theorem toNat_count_pred {q : TxRing} (h : q.count > 0) :
    (q.count - 1).toNat = q.count.toNat - 1 := by
  have hpos : 0 < q.count.toNat := UInt8.lt_iff_toNat_lt.mp h
  rw [UInt8.toNat_sub_of_le _ _ (by rw [UInt8.le_iff_toNat_le]; exact hpos)]
  rfl

theorem pop_of_pos {q : TxRing} (h : q.count > 0) :
    q.pop = { q with
      head := UInt8.ofNat ((q.head.toNat + 1) % txQueueCapacity)
      count := q.count - 1 } := by
  rw [pop, if_neg]
  rintro h0
  rw [h0] at h
  exact absurd h (by decide)

theorem pop_count {q : TxRing} (h : q.count > 0) : q.pop.count.toNat = q.count.toNat - 1 := by
  rw [pop_of_pos h]
  exact toNat_count_pred h

theorem pop_count_lt {q : TxRing} (h : q.count > 0) : q.pop.count.toNat < q.count.toNat := by
  have hpos : 0 < q.count.toNat := UInt8.lt_iff_toNat_lt.mp h
  rw [pop_count h]
  omega

/-- The loop of `App_Control_Can_Process` (`app_control_can.c:907-932`); `link i`
answers the transmission `i` of the call. Every turn but the last pops. -/
def processLoop (nowMs : UInt32) (link : ℕ → LinkStatus) (q : TxRing) (i : ℕ) :
    TxRing × List TxEvent :=
  if _h : q.count > 0 then
    let entry := q.slots q.head.toNat
    if nowMs - entry.queuedMs > dedupWindowMs then
      let next := processLoop nowMs link
        { q.pop with stats := { q.stats with responsesDropped := q.stats.responsesDropped + 1 } } i
      (next.1, .dropped entry.response :: next.2)
    else if reached nowMs q.retryNotBeforeMs = false then (q, [])
    else match link i with
    | .ok =>
      let next := processLoop nowMs link
        { q.pop with stats := { q.stats with responsesQueued := q.stats.responsesQueued + 1 } }
        (i + 1)
      (next.1, .transmitted entry.response :: next.2)
    | .busy =>
      ({ q with
          stats := { q.stats with responsesBusy := q.stats.responsesBusy + 1 }
          retryNotBeforeMs := nowMs + txRetryDelayMs }, [])
    | .error =>
      ({ q with
          stats := { q.stats with responsesFailed := q.stats.responsesFailed + 1 }
          retryNotBeforeMs := nowMs + txRetryDelayMs }, [])
  else (q, [])
termination_by q.count.toNat
decreasing_by
  · exact pop_count_lt (by assumption)
  · exact pop_count_lt (by assumption)

/-- `App_Control_Can_Process` (`app_control_can.c:903-933`). -/
def process (q : TxRing) (nowMs : UInt32) (link : ℕ → LinkStatus) : TxRing × List TxEvent :=
  processLoop nowMs link q 0

/-! ## The ring as a list -/

/-- The head is a slot, and there are at most as many entries as slots. -/
structure Wf (q : TxRing) : Prop where
  head : q.head.toNat < txQueueCapacity
  count : q.count.toNat ≤ txQueueCapacity

/-- The queued entries, the head first. -/
def entries (q : TxRing) : List TxEntry :=
  contents q.slots txQueueCapacity q.head.toNat q.count.toNat

/-- The ring as the list model sees it. -/
def queue (q : TxRing) : TxQueue := ⟨q.entries, q.retryNotBeforeMs⟩

theorem Wf.init : init.Wf := ⟨by decide, by decide⟩

@[simp] theorem entries_init : init.entries = [] := rfl

theorem length_entries (q : TxRing) : q.entries.length = q.count.toNat :=
  length_contents ..

theorem toNat_index (q : TxRing) (i : ℕ) :
    (q.index i).toNat = (q.head.toNat + i) % txQueueCapacity := by
  rw [index, UInt8.toNat_ofNat']
  have : (q.head.toNat + i) % txQueueCapacity < 4 := Nat.mod_lt _ (by norm_num)
  omega

theorem contains_eq (q : TxRing) (response : Response) :
    q.contains response = q.entries.any fun e => e.response.bytes = response.bytes := by
  rw [contains, entries, contents, List.any_map]
  congr 1
  funext i
  rw [toNat_index]
  rfl

theorem entries_eq_nil_iff (q : TxRing) : q.entries = [] ↔ ¬ q.count > 0 := by
  rw [← List.length_eq_zero_iff, length_entries, gt_iff_lt, UInt8.lt_iff_toNat_lt,
    show (0 : UInt8).toNat = 0 from rfl]
  omega

/-- Popping removes the head. -/
theorem pop_spec {q : TxRing} (hq : q.Wf) (h : q.count > 0) :
    q.pop.Wf ∧ q.entries = q.slots q.head.toNat :: q.pop.entries ∧
      q.pop.retryNotBeforeMs = q.retryNotBeforeMs ∧ q.pop.slots = q.slots := by
  have hpos : 0 < q.count.toNat := UInt8.lt_iff_toNat_lt.mp h
  have hcount := toNat_count_pred h
  have hmod : (q.head.toNat + 1) % txQueueCapacity < 4 := Nat.mod_lt _ (by norm_num)
  have hhead : (UInt8.ofNat ((q.head.toNat + 1) % txQueueCapacity)).toNat =
      (q.head.toNat + 1) % txQueueCapacity := by
    rw [UInt8.toNat_ofNat']
    omega
  have hle := hq.count
  rw [pop_of_pos h]
  refine ⟨⟨?_, ?_⟩, ?_, rfl, rfl⟩
  · show (UInt8.ofNat _).toNat < _
    rw [hhead]
    exact hmod
  · show (q.count - 1).toNat ≤ _
    omega
  · show contents q.slots _ q.head.toNat q.count.toNat =
      _ :: contents q.slots _ (UInt8.ofNat _).toNat (q.count - 1).toNat
    rw [hhead, hcount, show q.count.toNat = (q.count.toNat - 1) + 1 by omega, contents_pop,
      Nat.mod_eq_of_lt hq.head]
    rfl

/-- What deferring does: nothing for a twin, drop at a full queue, append. -/
theorem defer_cases {q : TxRing} (hq : q.Wf) (response : Response) (nowMs : UInt32) :
    (q.contains response = true ∧ q.defer response nowMs = (q, .merged response)) ∨
    (q.contains response = false ∧ q.count.toNat = txQueueCapacity ∧ q.defer response nowMs =
      ({ q with stats := { q.stats with responsesDropped := q.stats.responsesDropped + 1 } },
        .dropped response)) ∨
    (q.contains response = false ∧ q.count.toNat < txQueueCapacity ∧ ∃ q',
      q.defer response nowMs = (q', .deferred response) ∧ q'.Wf ∧
      q'.entries = q.entries ++ [⟨response, nowMs⟩] ∧
      q'.retryNotBeforeMs = q.retryNotBeforeMs ∧
      q'.stats = { q.stats with responsesDeferred := q.stats.responsesDeferred + 1 }) := by
  have hle := hq.count
  by_cases hm : q.contains response = true
  · exact .inl ⟨hm, by rw [defer, if_pos hm]⟩
  · by_cases hfull : q.count.toNat ≥ txQueueCapacity
    · refine .inr (.inl ⟨by simpa using hm, le_antisymm hle hfull, ?_⟩)
      rw [defer, if_neg hm, if_pos hfull]
    · have hcap : txQueueCapacity = 4 := rfl
      have hadd : (q.count + 1).toNat = q.count.toNat + 1 := by
        rw [UInt8.toNat_add, show (1 : UInt8).toNat = 1 from rfl]
        omega
      refine .inr (.inr ⟨by simpa using hm, not_le.mp hfull, { q with
        slots := Function.update q.slots (q.index q.count.toNat).toNat ⟨response, nowMs⟩
        count := q.count + 1
        stats := { q.stats with responsesDeferred := q.stats.responsesDeferred + 1 } },
        by rw [defer, if_neg hm, if_neg hfull], ⟨hq.head, ?_⟩, ?_, rfl, rfl⟩)
      · show (q.count + 1).toNat ≤ _
        omega
      · show contents (Function.update q.slots (q.index q.count.toNat).toNat _) _
          q.head.toNat (q.count + 1).toNat = _
        rw [hadd, toNat_index, contents_push _ (by omega)]
        rfl

/-- Deferring is what the list model says. -/
theorem defer_queue {q : TxRing} (hq : q.Wf) (response : Response) (nowMs : UInt32) :
    (q.defer response nowMs).1.Wf ∧
      (q.defer response nowMs).1.queue = (q.queue.defer response nowMs).1 ∧
      (q.defer response nowMs).2 = (q.queue.defer response nowMs).2 := by
  have hlen : q.queue.entries.length = q.count.toNat := q.length_entries
  have hcontains : (q.queue.entries.any fun e => e.response.bytes = response.bytes) =
      q.contains response := (q.contains_eq response).symm
  rw [TxQueue.defer, hcontains, hlen]
  rcases defer_cases hq response nowMs with ⟨hm, heq⟩ | ⟨hm, hfull, heq⟩ |
      ⟨hm, hroom, q', heq, hwf, hentries, hretry, -⟩
  · rw [heq, if_pos hm]
    exact ⟨hq, rfl, rfl⟩
  · rw [heq, if_neg (by simp [hm]), if_pos (le_of_eq hfull.symm)]
    exact ⟨⟨hq.head, hq.count⟩, rfl, rfl⟩
  · rw [heq, if_neg (by simp [hm]), if_neg (not_le.mpr hroom)]
    refine ⟨hwf, ?_, rfl⟩
    show TxQueue.mk q'.entries q'.retryNotBeforeMs = _
    rw [hentries, hretry]
    rfl

/-- **Sending** is what the list model says. -/
theorem send_queue {q : TxRing} (hq : q.Wf) (response : Response) (nowMs : UInt32)
    (link : LinkStatus) :
    (q.send response nowMs link).1.Wf ∧
      (q.send response nowMs link).1.queue = (q.queue.send response nowMs link).1 ∧
      (q.send response nowMs link).2 = (q.queue.send response nowMs link).2 := by
  by_cases hc : q.count > 0
  · have hne : q.queue.entries ≠ [] := fun h0 => (q.entries_eq_nil_iff.mp h0) hc
    unfold send
    rw [if_pos hc, TxQueue.send, if_pos hne]
    exact defer_queue hq response nowMs
  · have hnil : ¬ q.queue.entries ≠ [] := not_not.mpr (q.entries_eq_nil_iff.mpr hc)
    unfold send
    rw [if_neg hc, TxQueue.send, if_neg hnil]
    cases link with
    | ok => exact ⟨⟨hq.head, hq.count⟩, rfl, rfl⟩
    | busy =>
      obtain ⟨hwf, hqueue, hevent⟩ := defer_queue (q := { q with stats := { q.stats with
        responsesBusy := q.stats.responsesBusy + 1 } }) ⟨hq.head, hq.count⟩ response nowMs
      refine ⟨⟨hwf.head, hwf.count⟩, ?_, hevent⟩
      exact congrArg (fun t : TxQueue => { t with retryNotBeforeMs := nowMs + txRetryDelayMs }) hqueue
    | error =>
      obtain ⟨hwf, hqueue, hevent⟩ := defer_queue (q := { q with stats := { q.stats with
        responsesFailed := q.stats.responsesFailed + 1 } }) ⟨hq.head, hq.count⟩ response nowMs
      refine ⟨⟨hwf.head, hwf.count⟩, ?_, hevent⟩
      exact congrArg (fun t : TxQueue => { t with retryNotBeforeMs := nowMs + txRetryDelayMs }) hqueue

/-- **Processing** is what the list model says. -/
theorem processLoop_queue (nowMs : UInt32) (link : ℕ → LinkStatus) {q : TxRing} (hq : q.Wf)
    (i : ℕ) :
    (processLoop nowMs link q i).1.Wf ∧
      (processLoop nowMs link q i).1.queue =
        (TxQueue.process nowMs q.retryNotBeforeMs link q.entries i).1 ∧
      (processLoop nowMs link q i).2 =
        (TxQueue.process nowMs q.retryNotBeforeMs link q.entries i).2 := by
  induction hn : q.count.toNat generalizing q i with
  | zero =>
    have hc : ¬ q.count > 0 := by
      rw [gt_iff_lt, UInt8.lt_iff_toNat_lt, hn]
      exact Nat.lt_irrefl 0
    have hnil := q.entries_eq_nil_iff.mpr hc
    rw [processLoop, dif_neg hc, hnil]
    refine ⟨hq, ?_, rfl⟩
    show TxQueue.mk q.entries _ = _
    rw [hnil]
    rfl
  | succ n ih =>
    have hc : q.count > 0 := by
      rw [gt_iff_lt, UInt8.lt_iff_toNat_lt, hn]
      exact Nat.succ_pos n
    obtain ⟨hwf, hentries, hretry, hslots⟩ := pop_spec hq hc
    have hlt : q.pop.count.toNat = n := by
      rw [pop_count hc]
      omega
    rw [processLoop, dif_pos hc, hentries, TxQueue.process]
    by_cases hold : nowMs - (q.slots q.head.toNat).queuedMs > dedupWindowMs
    · obtain ⟨h1, h2, h3⟩ := ih (q := { q.pop with stats := { q.stats with
        responsesDropped := q.stats.responsesDropped + 1 } }) ⟨hwf.head, hwf.count⟩ i hlt
      simp only [if_pos hold]
      refine ⟨h1, ?_, ?_⟩
      · rw [h2]
        show (TxQueue.process nowMs q.pop.retryNotBeforeMs link q.pop.entries i).1 = _
        rw [hretry]
      · rw [h3]
        show _ :: (TxQueue.process nowMs q.pop.retryNotBeforeMs link q.pop.entries i).2 = _
        rw [hretry]
    · simp only [if_neg hold]
      by_cases hwait : reached nowMs q.retryNotBeforeMs = false
      · simp only [if_pos hwait]
        refine ⟨hq, ?_, trivial⟩
        rw [queue, hentries]
      · simp only [if_neg hwait]
        cases hl : link i with
        | ok =>
          obtain ⟨h1, h2, h3⟩ := ih (q := { q.pop with stats := { q.stats with
            responsesQueued := q.stats.responsesQueued + 1 } }) ⟨hwf.head, hwf.count⟩ (i + 1) hlt
          simp only [if_true]
          refine ⟨h1, ?_, ?_⟩
          · rw [h2]
            show (TxQueue.process nowMs q.pop.retryNotBeforeMs link q.pop.entries (i + 1)).1 = _
            rw [hretry]
          · rw [h3]
            show _ :: (TxQueue.process nowMs q.pop.retryNotBeforeMs link q.pop.entries (i + 1)).2 = _
            rw [hretry]
        | busy =>
          simp only [reduceCtorEq, if_false]
          refine ⟨⟨hq.head, hq.count⟩, ?_, trivial⟩
          show TxQueue.mk q.entries _ = _
          rw [hentries]
        | error =>
          simp only [reduceCtorEq, if_false]
          refine ⟨⟨hq.head, hq.count⟩, ?_, trivial⟩
          show TxQueue.mk q.entries _ = _
          rw [hentries]

/-- `App_Control_Can_Process` handles no more than the queued entries. -/
theorem process_events_le {q : TxRing} (nowMs : UInt32) (link : ℕ → LinkStatus) (i : ℕ) :
    (processLoop nowMs link q i).2.length ≤ q.count.toNat := by
  induction hn : q.count.toNat generalizing q i with
  | zero =>
    rw [processLoop, dif_neg]
    · exact Nat.zero_le _
    · rw [gt_iff_lt, UInt8.lt_iff_toNat_lt, hn]
      exact Nat.lt_irrefl 0
  | succ n ih =>
    have hc : q.count > 0 := by
      rw [gt_iff_lt, UInt8.lt_iff_toNat_lt, hn]
      exact Nat.succ_pos n
    have hlt : q.pop.count.toNat = n := by
      rw [pop_count hc]
      omega
    rw [processLoop, dif_pos hc]
    simp only
    split_ifs
    · exact Nat.succ_le_succ (ih i hlt)
    · exact Nat.zero_le _
    · split
      · exact Nat.succ_le_succ (ih (i + 1) hlt)
      · exact Nat.zero_le _
      · exact Nat.zero_le _

end TxRing

end J1939Gen.Control
