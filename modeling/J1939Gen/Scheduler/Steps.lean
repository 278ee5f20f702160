import J1939Gen.Scheduler.Model
import J1939Gen.Catalog.Facts

/-!
# What the parts of a tick can do

A tick is two loops over the PGN slots, the drain and the transport step. For
each part, one lemma says which parts of the scheduler it touches.

* `startTpPgn_frame`: starting a BAM leaves queue, timers and statistics alone.
* `enqueue_cases`: the queue after an insertion.
* `scheduleSlot_cases`, `offer_cases`: what one slot of the second loop does.
* `drainLoop_cons`: one frame of the drain.
* `tick_indices`: a tick keeps the PGN table.
-/

namespace J1939Gen.Scheduler

open SerialClock ValueStore

/-! ## Slots -/

/-- The PGN indices of the slots; only `Sched.addPgn` and `Sched.clear` change
    them. -/
def Sched.indices (s : Sched) : List ℕ := s.pgns.map PgnEntry.catalogPgnIndex

/-- The due times of the slots. -/
def Sched.dues (s : Sched) : List UInt32 := s.pgns.map PgnEntry.nextDueMs

theorem Sched.entry_catalogPgnIndex (s : Sched) (i : ℕ) :
    (s.entry i).catalogPgnIndex = s.indices.getD i 0 := by
  exact (List.getD_map s.pgns default PgnEntry.catalogPgnIndex).symm

theorem Sched.entry_nextDueMs (s : Sched) (i : ℕ) :
    (s.entry i).nextDueMs = s.dues.getD i 0 := by
  exact (List.getD_map s.pgns default PgnEntry.nextDueMs).symm

/-- A part of a tick that only moves the transport layer: queue, retry gate,
    statistics, result and timers stay. -/
structure TpOnly (t t' : Tick) : Prop where
  indices : t'.sched.indices = t.sched.indices
  dues : t'.sched.dues = t.sched.dues
  queue : t'.sched.queue = t.sched.queue
  retry : t'.sched.retryNotBeforeMs = t.sched.retryNotBeforeMs
  stats : t'.sched.stats = t.sched.stats
  result : t'.result = t.result
  sends : t'.sends = t.sends
  events : ∃ evs : List Tp.Event, t'.events = t.events ++ evs.map Event.tp

theorem TpOnly.refl (t : Tick) : TpOnly t t := ⟨rfl, rfl, rfl, rfl, rfl, rfl, rfl, [], by simp⟩

theorem TpOnly.trans {t t' t'' : Tick} (h : TpOnly t t') (h' : TpOnly t' t'') : TpOnly t t'' where
  indices := h'.indices.trans h.indices
  dues := h'.dues.trans h.dues
  queue := h'.queue.trans h.queue
  retry := h'.retry.trans h.retry
  stats := h'.stats.trans h.stats
  result := h'.result.trans h.result
  sends := h'.sends.trans h.sends
  events := by
    obtain ⟨e, he⟩ := h.events
    obtain ⟨e', he'⟩ := h'.events
    exact ⟨e ++ e', by simp [he, he']⟩

theorem map_set_self {α β : Type*} [Inhabited α] (f : α → β) (l : List α) (i : ℕ) {a : α}
    (h : f a = f (l.getD i default)) : (l.set i a).map f = l.map f := by
  rw [List.map_set, h]
  by_cases hi : i < l.length
  · rw [List.getD_eq_getElem _ _ hi]
    refine List.ext_getElem (by simp) fun j h1 h2 => ?_
    by_cases hj : i = j
    · subst hj; simp
    · simp [hj]
  · exact List.set_eq_of_length_le (by simpa using hi)

theorem startTpPgn_frame (store : Store) (slot : ℕ) (nowMs : UInt32) (t : Tick) :
    TpOnly t (startTpPgn store slot nowMs t) := by
  have hidx : ∀ b, (t.sched.pgns.set slot { t.sched.entry slot with tpPending := b }).map
      PgnEntry.catalogPgnIndex = t.sched.indices := fun b => map_set_self _ _ _ rfl
  have hdue : ∀ b, (t.sched.pgns.set slot { t.sched.entry slot with tpPending := b }).map
      PgnEntry.nextDueMs = t.sched.dues := fun b => map_set_self _ _ _ rfl
  unfold startTpPgn
  simp only
  split_ifs with h1 h2 h3
  · exact ⟨hidx _, hdue _, rfl, rfl, rfl, rfl, rfl, [], by simp⟩
  · exact ⟨hidx _, hdue _, rfl, rfl, rfl, rfl, rfl, [], by simp⟩
  · exact ⟨hidx _, hdue _, rfl, rfl, rfl, rfl, rfl, [_], rfl⟩
  · exact ⟨hidx _, hdue _, rfl, rfl, rfl, rfl, rfl, [], by simp⟩

theorem retryPending_frame (store : Store) (nowMs : UInt32) (t : Tick) (slot : ℕ) :
    TpOnly t (retryPending store nowMs t slot) := by
  unfold retryPending
  split_ifs
  · exact .refl t
  · exact startTpPgn_frame store slot nowMs t
  · exact .refl t

theorem foldl_retryPending_frame (store : Store) (nowMs : UInt32) (slots : List ℕ) (t : Tick) :
    TpOnly t (slots.foldl (retryPending store nowMs) t) := by
  induction slots generalizing t with
  | nil => exact .refl t
  | cons i slots ih =>
    exact (retryPending_frame store nowMs t i).trans (ih (retryPending store nowMs t i))

theorem processTp_frame (nowMs : UInt32) (link : ℕ → LinkStatus) (t : Tick) :
    TpOnly t (processTp nowMs link t) := by
  unfold processTp
  exact ⟨rfl, rfl, rfl, rfl, rfl, rfl, rfl, _, rfl⟩

/-! ## The queue -/

/-- An insertion is refused by a full queue, and otherwise puts the frame in
    front of frames it goes before. -/
theorem enqueue_cases (s : Sched) (frame : TxEntry) :
    (txQueueCapacity ≤ s.queue.length ∧ (s.enqueue frame).2 = false ∧
      (s.enqueue frame).1 = { s with stats := (s.enqueue frame).1.stats }) ∨
    (s.queue.length < txQueueCapacity ∧ (s.enqueue frame).2 = true ∧ ∃ pre post,
      s.queue = pre ++ post ∧ (∀ e ∈ post, s.queueBefore frame e = true) ∧
      (s.enqueue frame).1 =
        { s with queue := pre ++ frame :: post, stats := (s.enqueue frame).1.stats }) := by
  unfold Sched.enqueue
  by_cases h : s.queue.length ≥ txQueueCapacity
  · rw [if_pos h]
    exact .inl ⟨h, rfl, rfl⟩
  · rw [if_neg h]
    exact .inr ⟨not_le.mp h, rfl, _, _, List.rdropWhile_append_rtakeWhile.symm,
      fun e he => List.mem_rtakeWhile_imp he, rfl⟩

/-! ## One slot of the second loop -/

/-- The frame the second loop queues for a due slot. -/
def Sched.newFrame (store : Store) (s : Sched) (nowMs : UInt32) (slot : ℕ) : TxEntry :=
  ⟨(s.entry slot).deadlineMs nowMs, (s.entry slot).periodMs,
    (packFrame store (s.catalogPgn slot)).1, slot⟩

/-- A tick after a frame was offered to the queue. -/
def Tick.offer (t : Tick) (frame : TxEntry) : Tick :=
  let (sched, accepted) := t.sched.enqueue frame
  if accepted then
    { t with
      sched := sched
      result := { t.result with enqueued := t.result.enqueued + 1 }
      events := t.events ++ [.queued frame] }
  else
    { t with
      sched := sched
      result := { t.result with dropped := t.result.dropped + 1 } }

theorem advance_catalogPgn (t : Tick) (slot i : ℕ) (nowMs : UInt32) :
    (t.advance slot nowMs).sched.catalogPgn i = t.sched.catalogPgn i := by
  have hidx : (t.advance slot nowMs).sched.indices = t.sched.indices := map_set_self _ _ _ rfl
  rw [Sched.catalogPgn, Sched.catalogPgn, Sched.entry_catalogPgnIndex, hidx,
    ← Sched.entry_catalogPgnIndex]

/-- A due single-frame PGN with something to send offers its frame to the queue. -/
theorem scheduleSlot_offer (store : Store) {nowMs : UInt32} {t : Tick} {slot : ℕ}
    (hp : (t.sched.entry slot).periodMs ≠ 0)
    (hr : reached nowMs (t.sched.entry slot).nextDueMs = true)
    (hs : pgnNeedsTp (t.sched.catalogPgn slot) = false)
    (hpack : (packFrame store (t.sched.catalogPgn slot)).2 = true) :
    scheduleSlot store nowMs t slot =
      (t.advance slot nowMs).offer (t.sched.newFrame store nowMs slot) := by
  have hs' : ¬ pgnNeedsTp (pgnAt (t.sched.entry slot).catalogPgnIndex) = true := by
    show ¬ pgnNeedsTp (t.sched.catalogPgn slot) = true
    simp [hs]
  unfold scheduleSlot
  simp only
  rw [if_neg (by simp [hp, hr]), if_neg hs']
  unfold scheduleDuePgn
  rw [advance_catalogPgn]
  dsimp only
  rw [if_neg (by simp [hpack])]
  rfl

/-- Any other due PGN starts a BAM or has nothing to send. -/
theorem scheduleSlot_noFrame {store : Store} {nowMs : UInt32} {t : Tick} {slot : ℕ}
    (hp : (t.sched.entry slot).periodMs ≠ 0)
    (hr : reached nowMs (t.sched.entry slot).nextDueMs = true)
    (h : pgnNeedsTp (t.sched.catalogPgn slot) = true ∨
      (packFrame store (t.sched.catalogPgn slot)).2 = false) :
    TpOnly (t.advance slot nowMs) (scheduleSlot store nowMs t slot) := by
  unfold scheduleSlot
  simp only
  rw [if_neg (by simp [hp, hr])]
  by_cases hs : pgnNeedsTp (pgnAt (t.sched.entry slot).catalogPgnIndex) = true
  · rw [if_pos hs]
    exact startTpPgn_frame store slot nowMs _
  · rw [if_neg hs]
    unfold scheduleDuePgn
    rw [advance_catalogPgn]
    dsimp only
    rw [if_pos (h.resolve_left hs)]
    exact .refl _

/-- What one slot of the second loop does: nothing when it is not due; a BAM
    start, or nothing to send; or one frame for the queue. -/
theorem scheduleSlot_cases (store : Store) (nowMs : UInt32) (t : Tick) (slot : ℕ) :
    (((t.sched.entry slot).periodMs = 0 ∨
        reached nowMs (t.sched.entry slot).nextDueMs = false) ∧
      scheduleSlot store nowMs t slot = t) ∨
    ((t.sched.entry slot).periodMs ≠ 0 ∧
      reached nowMs (t.sched.entry slot).nextDueMs = true ∧
      (TpOnly (t.advance slot nowMs) (scheduleSlot store nowMs t slot) ∨
        pgnNeedsTp (t.sched.catalogPgn slot) = false ∧
          (packFrame store (t.sched.catalogPgn slot)).2 = true ∧
          scheduleSlot store nowMs t slot =
            (t.advance slot nowMs).offer (t.sched.newFrame store nowMs slot))) := by
  by_cases h1 : (t.sched.entry slot).periodMs = 0 ∨
      reached nowMs (t.sched.entry slot).nextDueMs = false
  · refine .inl ⟨h1, ?_⟩
    unfold scheduleSlot
    exact if_pos h1
  simp only [not_or, Bool.not_eq_false] at h1
  refine .inr ⟨h1.1, h1.2, ?_⟩
  by_cases h2 : pgnNeedsTp (t.sched.catalogPgn slot) = true ∨
      (packFrame store (t.sched.catalogPgn slot)).2 = false
  · exact .inl (scheduleSlot_noFrame h1.1 h1.2 h2)
  · simp only [not_or, Bool.not_eq_true, Bool.not_eq_false] at h2
    exact .inr ⟨h2.1, h2.2, scheduleSlot_offer store h1.1 h1.2 h2.1 h2.2⟩

/-- What offering a frame does: a full queue drops it, otherwise it goes in front
    of frames it goes before. -/
theorem offer_cases (t : Tick) (frame : TxEntry) :
    (txQueueCapacity ≤ t.sched.queue.length ∧ (t.offer frame).events = t.events ∧
      (t.offer frame).sends = t.sends ∧
      (t.offer frame).result.dropped = t.result.dropped + 1 ∧
      (t.offer frame).sched = { t.sched with stats := (t.offer frame).sched.stats }) ∨
    (t.sched.queue.length < txQueueCapacity ∧
      (t.offer frame).events = t.events ++ [.queued frame] ∧
      (t.offer frame).sends = t.sends ∧
      (t.offer frame).result.dropped = t.result.dropped ∧ ∃ pre post,
      t.sched.queue = pre ++ post ∧ (∀ e ∈ post, t.sched.queueBefore frame e = true) ∧
      (t.offer frame).sched =
        { t.sched with
          queue := pre ++ frame :: post
          stats := (t.offer frame).sched.stats }) := by
  unfold Tick.offer
  rcases enqueue_cases t.sched frame with ⟨h1, h2, h3⟩ | ⟨h1, h2, pre, post, h3, h4, h5⟩
  · dsimp only
    rw [h2, if_neg (by simp)]
    exact .inl ⟨h1, rfl, rfl, rfl, h3⟩
  · dsimp only
    rw [h2, if_pos rfl]
    exact .inr ⟨h1, rfl, rfl, rfl, pre, post, h3, h4, h5⟩

theorem advance_indices (t : Tick) (slot : ℕ) (nowMs : UInt32) :
    (t.advance slot nowMs).sched.indices = t.sched.indices :=
  map_set_self _ _ _ rfl

/-- The due time of the slot moves to the end of the latest period; the others
    stay. -/
theorem advance_nextDueMs (t : Tick) (slot i : ℕ) (nowMs : UInt32) (h : slot < t.sched.pgns.length) :
    ((t.advance slot nowMs).sched.entry i).nextDueMs =
      if i = slot then (t.sched.entry slot).deadlineMs nowMs +
        (t.sched.entry slot).periodMs.toUInt32
      else (t.sched.entry i).nextDueMs := by
  unfold Sched.entry Tick.advance
  simp only
  by_cases hi : i = slot
  · subst hi
    rw [if_pos rfl, List.getD_eq_getElem _ _ (by simpa using h), List.getElem_set_self]
    simp only [PgnEntry.deadlineMs, Sched.entry]
    grind
  · rw [if_neg hi]
    simp only [List.getD_eq_getElem?_getD, List.getElem?_set, Ne.symm hi, if_false]

theorem offer_indices (t : Tick) (frame : TxEntry) :
    (t.offer frame).sched.indices = t.sched.indices := by
  rcases offer_cases t frame with ⟨-, -, -, -, heq⟩ | ⟨-, -, -, -, pre, post, -, -, heq⟩ <;>
    rw [heq] <;> rfl

theorem scheduleSlot_indices (store : Store) (nowMs : UInt32) (t : Tick) (slot : ℕ) :
    (scheduleSlot store nowMs t slot).sched.indices = t.sched.indices := by
  rcases scheduleSlot_cases store nowMs t slot with ⟨-, heq⟩ | ⟨-, -, htp | ⟨-, -, heq⟩⟩
  · rw [heq]
  · rw [htp.indices, advance_indices]
  · rw [heq, offer_indices, advance_indices]

theorem foldl_scheduleSlot_indices (store : Store) (nowMs : UInt32) (slots : List ℕ) (t : Tick) :
    (slots.foldl (scheduleSlot store nowMs) t).sched.indices = t.sched.indices := by
  induction slots generalizing t with
  | nil => rfl
  | cons i slots ih =>
    rw [List.foldl_cons, ih, scheduleSlot_indices]

/-! ## The drain -/

theorem drainLoop_nil (nowMs : UInt32) (link : ℕ → LinkStatus) (t : Tick) :
    drainLoop nowMs link [] t = t := rfl

/-- The state after a frame has left the front of the queue. -/
def Tick.popped (t : Tick) (rest : List TxEntry) (t' : Tick) : Prop :=
  t'.sched.queue = rest ∧ t'.sched.pgns = t.sched.pgns ∧ t'.sched.tp = t.sched.tp ∧
    t'.sched.retryNotBeforeMs = t.sched.retryNotBeforeMs

/-- One frame of the drain: expired frames leave, an accepted frame leaves, a
    refused one stays and ends the drain. -/
theorem drainLoop_cons (nowMs : UInt32) (link : ℕ → LinkStatus) {t : Tick} {frame : TxEntry}
    {rest : List TxEntry} (hq : t.sched.queue = frame :: rest) :
    (frame.expired nowMs = true ∧ ∃ t',
      drainLoop nowMs link (frame :: rest) t = drainLoop nowMs link rest t' ∧
      t.popped rest t' ∧ t'.sends = t.sends ∧ t'.result.dropped = t.result.dropped ∧
      t'.events = t.events) ∨
    (frame.expired nowMs = false ∧ link t.sends = .ok ∧ ∃ t',
      drainLoop nowMs link (frame :: rest) t = drainLoop nowMs link rest t' ∧
      t.popped rest t' ∧ t'.sends = t.sends + 1 ∧ t'.result.dropped = t.result.dropped ∧
      t'.events = t.events ++ [.handed frame (t.sched.frameOf frame) .ok]) ∨
    (frame.expired nowMs = false ∧ link t.sends ≠ .ok ∧ ∃ t',
      drainLoop nowMs link (frame :: rest) t = t' ∧
      t'.sched.queue = frame :: rest ∧ t'.sched.pgns = t.sched.pgns ∧
      t'.sched.tp = t.sched.tp ∧ t'.sched.retryNotBeforeMs = nowMs + 1 ∧
      t'.sends = t.sends + 1 ∧ t'.result.dropped = t.result.dropped ∧
      t'.events = t.events ++ [.handed frame (t.sched.frameOf frame) (link t.sends)]) := by
  rw [drainLoop]
  cases hx : frame.expired nowMs with
  | true =>
    rw [if_pos rfl]
    exact .inl ⟨rfl, _, rfl, ⟨by simp [Sched.popQueueFront, hq], rfl, rfl, rfl⟩, rfl, rfl, rfl⟩
  | false =>
    rw [if_neg (by simp)]
    dsimp only
    by_cases hok : link t.sends = .ok
    · rw [if_pos hok]
      exact .inr (.inl ⟨rfl, hok, _, rfl, ⟨by simp [Sched.popQueueFront, hq], rfl, rfl, rfl⟩, rfl,
        rfl, by rw [hok]⟩)
    · rw [if_neg hok]
      refine .inr (.inr ⟨rfl, hok, _, rfl, ?_⟩)
      split_ifs <;> exact ⟨hq, rfl, rfl, rfl, rfl, rfl, rfl⟩

theorem drainLoop_pgns (nowMs : UInt32) (link : ℕ → LinkStatus) (queue : List TxEntry) (t : Tick) :
    (drainLoop nowMs link queue t).sched.pgns = t.sched.pgns := by
  induction queue generalizing t with
  | nil => rfl
  | cons frame rest ih =>
    rw [drainLoop]
    dsimp only
    split_ifs
    · rw [ih]; rfl
    · rw [ih]; rfl
    · rfl
    · rfl

theorem drainQueue_pgns (nowMs : UInt32) (link : ℕ → LinkStatus) (t : Tick) :
    (drainQueue nowMs link t).sched.pgns = t.sched.pgns := by
  unfold drainQueue
  split_ifs
  · rfl
  · exact drainLoop_pgns nowMs link t.sched.queue t

/-! ## A whole tick -/

/-- A loop over the slots reaches slot `i` after the slots below it. -/
theorem range_split {i n : ℕ} (h : i < n) :
    List.range n = List.range i ++ i :: List.range' (i + 1) (n - i - 1) := by
  have happend : List.range' 0 i ++ List.range' (0 + i) (n - i - 1 + 1) =
      List.range' 0 (i + (n - i - 1 + 1)) := List.range'_append_1
  rw [Nat.zero_add, show i + (n - i - 1 + 1) = n by omega] at happend
  rw [List.range_eq_range', List.range_eq_range', ← List.range'_succ, happend]

/-- A tick after its two loops over the slots. -/
def Sched.scheduled (store : Store) (nowMs : UInt32) (s : Sched) : Tick :=
  (List.range s.pgns.length).foldl (scheduleSlot store nowMs)
    ((List.range s.pgns.length).foldl (retryPending store nowMs) ⟨s, ⟨0, 0, 0, 0, 0, 0, 0⟩, 0, []⟩)

theorem tick_eq (store : Store) (nowMs : UInt32) (link : ℕ → LinkStatus) (s : Sched) :
    tick store nowMs link s =
      processTp nowMs link (drainQueue nowMs link (s.scheduled store nowMs)) := rfl

theorem tick_dues (store : Store) (nowMs : UInt32) (link : ℕ → LinkStatus) (s : Sched) :
    (tick store nowMs link s).sched.dues = (s.scheduled store nowMs).sched.dues := by
  rw [tick_eq, (processTp_frame _ _ _).dues, Sched.dues, drainQueue_pgns]
  rfl

/-- One tick keeps the PGN table. -/
theorem tick_indices (store : Store) (nowMs : UInt32) (link : ℕ → LinkStatus) (s : Sched) :
    (tick store nowMs link s).sched.indices = s.indices := by
  rw [tick_eq, (processTp_frame _ _ _).indices, Sched.indices, drainQueue_pgns]
  show (s.scheduled store nowMs).sched.indices = s.indices
  rw [Sched.scheduled, foldl_scheduleSlot_indices, (foldl_retryPending_frame _ _ _ _).indices]

end J1939Gen.Scheduler
