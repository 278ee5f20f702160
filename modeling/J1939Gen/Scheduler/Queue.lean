import J1939Gen.Lib.SortedQueue
import J1939Gen.Scheduler.Grid

/-!
# Integrity of the software queue

Between two resets less than `2 ^ 31` ms apart the deadline of a frame names one
instant, and `prv_queue_before` compares class, instant and CAN identifier. The
queue is a `SortedQueue` under that key, and every frame that entered it is
accepted, has expired or is still there.

* `queueBefore_iff`: the comparison of the insertion is the order of the keys.
* `QueueOk.scheduleSlot`, `drainLoop_moves`: the parts of a tick.
* `QueueOk.tick`, `tick_moves`: one tick.

Main result `queue_integrity`.
-/

namespace J1939Gen.Scheduler

open SerialClock ValueStore

/-! ## The order -/

/-- Fast class first, then the deadline as an instant since `t₀`, then the CAN
identifier. -/
def Sched.key (t₀ : ℕ) (s : Sched) (e : TxEntry) : ℕ ×ₗ ℕ ×ₗ ℕ :=
  toLex (queueClass e.periodMs, toLex (e.deadline t₀, (canIdOf (s.catalogPgn e.pgnSlot)).toNat))

theorem deadline_inj (t₀ : ℕ) {a b : TxEntry} :
    a.deadline t₀ = b.deadline t₀ ↔ a.deadlineMs = b.deadlineMs := by
  constructor
  · intro h
    have := congrArg UInt32.ofNat h
    rwa [TxEntry.deadline, TxEntry.deadline, ofNat_instant, ofNat_instant] at this
  · intro h
    rw [TxEntry.deadline, TxEntry.deadline, h]

/-- The wrapping comparison of the insertion is the order of the keys. -/
theorem queueBefore_iff {t₀ : ℕ} (s : Sched) {a b : TxEntry} (ha : a.deadline t₀ < t₀ + 2 ^ 31)
    (hb : b.deadline t₀ < t₀ + 2 ^ 31) :
    s.queueBefore a b = true ↔ s.key t₀ a < s.key t₀ b := by
  unfold Sched.queueBefore Sched.key
  rw [Prod.Lex.toLex_lt_toLex, Prod.Lex.toLex_lt_toLex]
  by_cases hclass : queueClass a.periodMs = queueClass b.periodMs
  · rw [if_neg (not_not.mpr hclass)]
    by_cases hdl : a.deadlineMs = b.deadlineMs
    · have hd := (deadline_inj t₀).mpr hdl
      rw [if_neg (not_not.mpr hdl), decide_eq_true_iff, UInt32.lt_iff_toNat_lt]
      simp only [hclass, hd, lt_irrefl, false_or, true_and]
    · have hd := mt (deadline_inj t₀).mp hdl
      rw [if_pos hdl]
      simp only [hclass, hd, lt_irrefl, false_or, true_and, false_and, or_false]
      exact before_instant ha hb
  · rw [if_pos hclass, decide_eq_true_iff]
    simp only [hclass, false_and, or_false]

/-- What holds of the queue between two resets. -/
structure QueueOk (t₀ : ℕ) (s : Sched) : Prop where
  sorted : SortedQueue.Sorted (s.key t₀) s.queue
  capacity : s.queue.length ≤ txQueueCapacity
  known : ∀ e ∈ s.queue, e.pgnSlot < s.pgns.length

theorem key_congr {s s' : Sched} (h : s'.indices = s.indices) (t₀ : ℕ) : s'.key t₀ = s.key t₀ := by
  funext e
  simp only [Sched.key, Sched.catalogPgn, Sched.entry_catalogPgnIndex, h]

/-- Frames leaving the queue keep it. -/
theorem QueueOk.sublist {t₀ : ℕ} {s s' : Sched} (h : QueueOk t₀ s) (hi : s'.indices = s.indices)
    (hsub : s'.queue.Sublist s.queue) : QueueOk t₀ s' where
  sorted := by rw [key_congr hi]; exact h.sorted.sublist hsub
  capacity := hsub.length_le.trans h.capacity
  known e he := by
    rw [Sched.length_pgns, hi, ← Sched.length_pgns]
    exact h.known e (hsub.subset he)

/-! ## The second loop -/

theorem offer_queue (t : Tick) (frame : TxEntry) :
    (t.offer frame).sched.queue = if txQueueCapacity ≤ t.sched.queue.length then t.sched.queue
      else SortedQueue.insert (t.sched.queueBefore frame) frame t.sched.queue := by
  unfold Tick.offer Sched.enqueue
  by_cases hfull : txQueueCapacity ≤ t.sched.queue.length
  · rw [if_pos hfull, if_pos hfull]
    rfl
  · rw [if_neg hfull, if_neg hfull]
    rfl

section Schedule

variable {t₀ now : ℕ} {sent : List TxEntry} {t : Tick} {slot : ℕ}

theorem QueueOk.scheduleSlot (h : QueueOk t₀ t.sched) (ht : Timely t₀ now sent t.sched)
    (h0 : t₀ ≤ now) (hlt : now < t₀ + 2 ^ 31) (hi : slot < t.sched.pgns.length) (store : Store) :
    QueueOk t₀ (scheduleSlot store (UInt32.ofNat now) t slot).sched := by
  have hidx := scheduleSlot_indices store (UInt32.ofNat now) t slot
  rcases scheduleSlot_cases store (UInt32.ofNat now) t slot with ⟨-, heq⟩ | ⟨-, hr, htp | ⟨-, -, heq⟩⟩
  · rw [heq]; exact h
  · refine h.sublist hidx ?_
    rw [htp.queue]
    exact List.Sublist.refl _
  set frame := t.sched.newFrame store (UInt32.ofNat now) slot with hframe
  set adv := t.advance slot (UInt32.ofNat now) with hadv
  have hqueue : adv.sched.queue = t.sched.queue := rfl
  have hdue := (reached_due ht h0 hlt hi).mp hr
  have hnew : frame.deadline t₀ < t₀ + 2 ^ 31 :=
    lt_of_le_of_lt (deadlineMs_instant h0 hlt (ht.period_pos hi) hdue).2.1 hlt
  have hbefore : ∀ e ∈ t.sched.queue, adv.sched.queueBefore frame e = true ↔
      t.sched.key t₀ frame < t.sched.key t₀ e := by
    intro e he
    rw [queueBefore_iff adv.sched hnew (lt_of_le_of_lt (ht.past e he) hlt),
      key_congr (advance_indices t slot (UInt32.ofNat now))]
  have hlen : (Scheduler.scheduleSlot store (UInt32.ofNat now) t slot).sched.pgns.length =
      t.sched.pgns.length := by
    rw [Sched.length_pgns, hidx, ← Sched.length_pgns]
  constructor
  · rw [key_congr hidx, heq, offer_queue, hqueue]
    split_ifs with hfull
    · exact h.sorted
    · exact SortedQueue.insert_sorted h.sorted hbefore
  · rw [heq, offer_queue, hqueue]
    split_ifs with hfull
    · exact h.capacity
    · rw [SortedQueue.length_insert]
      omega
  · intro e he
    rw [hlen]
    rw [heq, offer_queue, hqueue] at he
    split_ifs at he with hfull
    · exact h.known e he
    · rcases List.mem_append.mp ((SortedQueue.insert_perm _ _ _).subset he) with he | he
      · exact h.known e he
      · rw [List.mem_singleton.mp he]
        exact hi

theorem QueueOk.foldl_scheduleSlot (h : QueueOk t₀ t.sched) (ht : Timely t₀ now sent t.sched)
    (h0 : t₀ ≤ now) (hlt : now < t₀ + 2 ^ 31) (store : Store) (slots : List ℕ)
    (hs : ∀ i ∈ slots, i < t.sched.pgns.length) :
    QueueOk t₀ (slots.foldl (Scheduler.scheduleSlot store (UInt32.ofNat now)) t).sched := by
  induction slots generalizing t with
  | nil => exact h
  | cons i slots ih =>
    have hi := hs i List.mem_cons_self
    refine ih (h.scheduleSlot ht h0 hlt hi store) (ht.scheduleSlot h0 hlt hi store) fun j hj => ?_
    rw [Sched.length_pgns, scheduleSlot_indices, ← Sched.length_pgns]
    exact hs j (List.mem_cons_of_mem _ hj)

end Schedule

/-! ## Frames in and out -/

/-- The frames that entered the queue, and the frames offered to the link. -/
def queuedFrames (events : List Event) : List TxEntry :=
  events.filterMap fun
    | .queued frame => some frame
    | _ => none

def handedFrames (events : List Event) : List TxEntry :=
  events.filterMap fun
    | .handed frame _ _ => some frame
    | _ => none

theorem queuedFrames_append (a b : List Event) :
    queuedFrames (a ++ b) = queuedFrames a ++ queuedFrames b := by simp [queuedFrames]

theorem handedFrames_append (a b : List Event) :
    handedFrames (a ++ b) = handedFrames a ++ handedFrames b := by simp [handedFrames]

theorem queuedFrames_tp (evs : List Tp.Event) : queuedFrames (evs.map Event.tp) = [] := by
  simp [queuedFrames]

theorem handedFrames_tp (evs : List Tp.Event) : handedFrames (evs.map Event.tp) = [] := by
  simp [handedFrames]

/-- Between two states every frame that was queued or entered is accepted, among
the `expired`, or still queued, and the statistics count these frames. -/
structure Moves (s s' : Sched) (events : List Event) (expired : List TxEntry) : Prop where
  frames : (s.queue ++ queuedFrames events).Perm (acceptedFrames events ++ expired ++ s'.queue)
  enqueued : s'.stats.enqueued = s.stats.enqueued + UInt32.ofNat (queuedFrames events).length
  sent : s'.stats.sent = s.stats.sent + UInt32.ofNat (acceptedFrames events).length
  expired : s'.stats.expired = s.stats.expired + UInt32.ofNat expired.length

/-- A part of a tick that moves no frame. -/
theorem Moves.idle {s s' : Sched} {events : List Event} (hq : s'.queue = s.queue)
    (h1 : s'.stats.enqueued = s.stats.enqueued) (h2 : s'.stats.sent = s.stats.sent)
    (h3 : s'.stats.expired = s.stats.expired) (hin : queuedFrames events = [])
    (hout : acceptedFrames events = []) : Moves s s' events [] where
  frames := by rw [hin, hout, hq, List.append_nil]; exact .refl _
  enqueued := by rw [hin, h1]; exact (UInt32.add_zero _).symm
  sent := by rw [hout, h2]; exact (UInt32.add_zero _).symm
  expired := by rw [h3]; exact (UInt32.add_zero _).symm

theorem Moves.trans {s s' s'' : Sched} {events events' : List Event} {expired expired' : List TxEntry}
    (h : Moves s s' events expired) (h' : Moves s' s'' events' expired') :
    Moves s s'' (events ++ events') (expired ++ expired') where
  frames := by
    rw [queuedFrames_append, acceptedFrames_append, ← List.append_assoc]
    refine (h.frames.append_right _).trans ?_
    rw [List.append_assoc]
    refine (h'.frames.append_left _).trans ?_
    -- accepted, expired, accepted, expired, queued
    simp only [List.append_assoc]
    exact (List.perm_append_comm_assoc _ _ _).append_left _
  enqueued := by
    rw [h'.enqueued, h.enqueued, queuedFrames_append, List.length_append, ← ofNat_add_ofNat,
      UInt32.add_assoc]
  sent := by
    rw [h'.sent, h.sent, acceptedFrames_append, List.length_append, ← ofNat_add_ofNat,
      UInt32.add_assoc]
  expired := by
    rw [h'.expired, h.expired, List.length_append, ← ofNat_add_ofNat, UInt32.add_assoc]

theorem TpOnly.moves {t t' : Tick} (h : TpOnly t t') :
    ∃ evs, t'.events = t.events ++ evs ∧ handedFrames evs = [] ∧
      Moves t.sched t'.sched evs [] := by
  obtain ⟨evs, hevs⟩ := h.events
  exact ⟨_, hevs, handedFrames_tp evs, .idle h.queue (by rw [h.stats]) (by rw [h.stats])
    (by rw [h.stats]) (queuedFrames_tp evs) (acceptedFrames_tp evs)⟩

/-- An offered frame enters the queue, or is dropped. -/
theorem offer_moves (t : Tick) (frame : TxEntry) :
    ∃ evs, (t.offer frame).events = t.events ++ evs ∧ handedFrames evs = [] ∧
      Moves t.sched (t.offer frame).sched evs [] := by
  by_cases hfull : txQueueCapacity ≤ t.sched.queue.length
  · refine ⟨[], ?_, rfl, ?_⟩
    · obtain ⟨-, hev, -⟩ | ⟨hfree, -⟩ := offer_cases t frame
      · rw [hev, List.append_nil]
      · exact absurd hfull (not_le.mpr hfree)
    · have hq := offer_queue t frame
      rw [if_pos hfull] at hq
      refine .idle hq ?_ ?_ ?_ rfl rfl <;> unfold Tick.offer Sched.enqueue <;> rw [if_pos hfull] <;> rfl
  · refine ⟨[.queued frame], ?_, rfl, ?_⟩
    · obtain ⟨hfull', -⟩ | ⟨-, hev, -⟩ := offer_cases t frame
      · exact absurd hfull' hfull
      · exact hev
    · have hq := offer_queue t frame
      rw [if_neg hfull] at hq
      constructor
      · rw [hq]
        exact (SortedQueue.insert_perm _ _ _).symm
      · unfold Tick.offer Sched.enqueue
        rw [if_neg hfull]
        rfl
      · unfold Tick.offer Sched.enqueue
        rw [if_neg hfull]
        exact (UInt32.add_zero _).symm
      · unfold Tick.offer Sched.enqueue
        rw [if_neg hfull]
        exact (UInt32.add_zero _).symm

theorem scheduleSlot_moves (store : Store) (nowMs : UInt32) (t : Tick) (slot : ℕ) :
    ∃ evs, (scheduleSlot store nowMs t slot).events = t.events ++ evs ∧ handedFrames evs = [] ∧
      Moves t.sched (scheduleSlot store nowMs t slot).sched evs [] := by
  have hadv : Moves t.sched (t.advance slot nowMs).sched [] [] := .idle rfl rfl rfl rfl rfl rfl
  rcases scheduleSlot_cases store nowMs t slot with ⟨-, heq⟩ | ⟨-, -, htp | ⟨-, -, heq⟩⟩
  · rw [heq]
    exact ⟨[], (List.append_nil _).symm, rfl, .idle rfl rfl rfl rfl rfl rfl⟩
  · obtain ⟨evs, hevs, hno, hmoves⟩ := htp.moves
    exact ⟨evs, hevs, hno, hadv.trans hmoves⟩
  · obtain ⟨evs, hevs, hno, hmoves⟩ :=
      offer_moves (t.advance slot nowMs) (t.sched.newFrame store nowMs slot)
    rw [heq]
    exact ⟨evs, hevs, hno, hadv.trans hmoves⟩

theorem foldl_scheduleSlot_moves (store : Store) (nowMs : UInt32) (slots : List ℕ) (t : Tick) :
    ∃ evs, (slots.foldl (scheduleSlot store nowMs) t).events = t.events ++ evs ∧
      handedFrames evs = [] ∧
      Moves t.sched (slots.foldl (scheduleSlot store nowMs) t).sched evs [] := by
  induction slots generalizing t with
  | nil => exact ⟨[], (List.append_nil _).symm, rfl, .idle rfl rfl rfl rfl rfl rfl⟩
  | cons i slots ih =>
    obtain ⟨evs, hevs, hno, hmoves⟩ := scheduleSlot_moves store nowMs t i
    obtain ⟨evs', hevs', hno', hmoves'⟩ := ih (scheduleSlot store nowMs t i)
    refine ⟨evs ++ evs', ?_, ?_, hmoves.trans hmoves'⟩
    · rw [List.foldl_cons, hevs', hevs, List.append_assoc]
    · rw [handedFrames_append, hno, hno', List.append_nil]

/-! ## The drain -/

/-- The drain offers frames in queue order, and leaves the end of the queue. -/
theorem drainLoop_moves (nowMs : UInt32) (link : ℕ → LinkStatus) {queue : List TxEntry} {t : Tick}
    (hq : t.sched.queue = queue) :
    ∃ evs expired, (drainLoop nowMs link queue t).events = t.events ++ evs ∧
      (handedFrames evs).Sublist queue ∧
      (drainLoop nowMs link queue t).sched.queue.Sublist queue ∧
      (∀ e ∈ expired, e.expired nowMs = true) ∧
      Moves t.sched (drainLoop nowMs link queue t).sched evs expired := by
  induction queue generalizing t with
  | nil =>
    refine ⟨[], [], (List.append_nil _).symm, .slnil, ?_, by simp, .idle rfl rfl rfl rfl rfl rfl⟩
    rw [drainLoop_nil, hq]
  | cons frame rest ih =>
    rw [drainLoop]
    by_cases hx : frame.expired nowMs = true
    · rw [if_pos hx]
      dsimp only
      set t' : Tick := { t with
        sched := ({ t.sched with
          stats := { t.sched.stats with expired := t.sched.stats.expired + 1 } } : Sched).popQueueFront
        result := { t.result with expired := t.result.expired + 1 } } with ht'
      have hq' : t'.sched.queue = rest := by simp [ht', Sched.popQueueFront, hq]
      have hpop : Moves t.sched t'.sched [] [frame] := by
        refine ⟨?_, (UInt32.add_zero _).symm, (UInt32.add_zero _).symm, rfl⟩
        rw [hq, hq']
        simp [queuedFrames, acceptedFrames]
      obtain ⟨evs, expired, h1, h2, h3, h4, h5⟩ := ih hq'
      refine ⟨evs, frame :: expired, h1, h2.trans (List.sublist_cons_self _ _),
        h3.trans (List.sublist_cons_self _ _), ?_, hpop.trans h5⟩
      exact List.forall_mem_cons.mpr ⟨hx, h4⟩
    rw [if_neg hx]
    dsimp only
    by_cases hok : link t.sends = .ok
    · rw [if_pos hok]
      set t' : Tick := { t with
        sends := t.sends + 1
        events := t.events ++ [.handed frame (t.sched.frameOf frame) (link t.sends)]
        sched := ({ t.sched with
          stats := { t.sched.stats with sent := t.sched.stats.sent + 1 } } : Sched).popQueueFront
        result := { t.result with sent := t.result.sent + 1 } } with ht'
      have hq' : t'.sched.queue = rest := by simp [ht', Sched.popQueueFront, hq]
      have hsend : Moves t.sched t'.sched [.handed frame (t.sched.frameOf frame) .ok] [] := by
        refine ⟨?_, (UInt32.add_zero _).symm, rfl, (UInt32.add_zero _).symm⟩
        rw [hq, hq']
        simp [queuedFrames, acceptedFrames]
      obtain ⟨evs, expired, h1, h2, h3, h4, h5⟩ := ih hq'
      refine ⟨.handed frame (t.sched.frameOf frame) .ok :: evs, expired, ?_, ?_,
        h3.trans (List.sublist_cons_self _ _), h4, hsend.trans h5⟩
      · rw [h1, ht', hok, List.append_assoc]
        rfl
      · exact h2.cons_cons frame
    · -- a refused frame stays at the front
      rw [if_neg hok]
      have hnone : acceptedFrames [.handed frame (t.sched.frameOf frame) (link t.sends)] = [] := by
        cases hs : link t.sends with
        | ok => exact absurd hs hok
        | busy => rfl
        | error => rfl
      refine ⟨[.handed frame (t.sched.frameOf frame) (link t.sends)], [], ?_, ?_, ?_, by simp, ?_⟩
      · split_ifs <;> rfl
      · exact (List.nil_sublist rest).cons_cons frame
      · split_ifs <;> exact hq ▸ List.Sublist.refl _
      · split_ifs <;> exact .idle rfl rfl rfl rfl rfl hnone

theorem drainQueue_moves (nowMs : UInt32) (link : ℕ → LinkStatus) (t : Tick) :
    ∃ evs expired, (drainQueue nowMs link t).events = t.events ++ evs ∧
      (handedFrames evs).Sublist t.sched.queue ∧
      (drainQueue nowMs link t).sched.queue.Sublist t.sched.queue ∧
      (∀ e ∈ expired, e.expired nowMs = true) ∧
      Moves t.sched (drainQueue nowMs link t).sched evs expired := by
  unfold drainQueue
  split_ifs with hgate
  · exact ⟨[], [], (List.append_nil _).symm, List.nil_sublist _, List.Sublist.refl _, by simp,
      .idle rfl rfl rfl rfl rfl rfl⟩
  · exact drainLoop_moves nowMs link rfl

/-! ## Ticks -/

/-- What a tick moves. -/
theorem tick_moves (s : Sched) (i : TickInput) :
    ∃ expired, (handedFrames (tickStep s i).2).Sublist
        (s.scheduled i.store (UInt32.ofNat i.now)).sched.queue ∧
      (tickStep s i).1.queue.Sublist (s.scheduled i.store (UInt32.ofNat i.now)).sched.queue ∧
      (∀ e ∈ expired, e.expired (UInt32.ofNat i.now) = true) ∧
      Moves s (tickStep s i).1 (tickStep s i).2 expired := by
  set nowMs := UInt32.ofNat i.now with hnow
  set t₀ : Tick := ⟨s, ⟨0, 0, 0, 0, 0, 0, 0⟩, 0, []⟩ with ht₀
  set t₁ := (List.range s.pgns.length).foldl (retryPending i.store nowMs) t₀ with ht₁
  set t₂ := s.scheduled i.store nowMs with ht₂
  set t₃ := drainQueue nowMs i.link t₂ with ht₃
  obtain ⟨e₁, hev₁, hno₁, hm₁⟩ := (foldl_retryPending_frame i.store nowMs _ t₀).moves
  obtain ⟨e₂, hev₂, hno₂, hm₂⟩ := foldl_scheduleSlot_moves i.store nowMs (List.range s.pgns.length) t₁
  obtain ⟨e₃, expired, hev₃, hhanded, hqueue, hexp, hm₃⟩ := drainQueue_moves nowMs i.link t₂
  have hf₄ := processTp_frame nowMs i.link t₃
  obtain ⟨e₄, hev₄, hno₄, hm₄⟩ := hf₄.moves
  have hstep : tickStep s i = ((processTp nowMs i.link t₃).sched, (processTp nowMs i.link t₃).events) :=
    rfl
  have hevents : (tickStep s i).2 = e₁ ++ (e₂ ++ (e₃ ++ e₄)) := by
    have h₂ : t₂.events = t₁.events ++ e₂ := hev₂
    have h₃ : t₃.events = t₂.events ++ e₃ := hev₃
    have h₁ : t₁.events = [] ++ e₁ := hev₁
    rw [hstep, hev₄, h₃, h₂, h₁]
    simp only [List.nil_append, List.append_assoc]
  refine ⟨expired, ?_, ?_, hexp, ?_⟩
  · rw [hevents, handedFrames_append, handedFrames_append, handedFrames_append, hno₁, hno₂, hno₄,
      List.append_nil]
    exact hhanded
  · rw [hstep, hf₄.queue]
    exact hqueue
  · rw [hevents]
    have := hm₁.trans (hm₂.trans (hm₃.trans hm₄))
    rwa [List.nil_append, List.nil_append, List.append_nil] at this

section Tick

variable {t₀ before now : ℕ} {sent : List TxEntry} {s : Sched}

/-- The queue at every slot of the second loop. -/
theorem QueueOk.atSlot (h : QueueOk t₀ s) (ht : Timely t₀ before sent s) (hle : before ≤ now)
    (h0 : t₀ ≤ now) (hlt : now < t₀ + 2 ^ 31) (store : Store) {slot : ℕ}
    (hslot : slot ≤ s.pgns.length) : QueueOk t₀ (s.atSlot store (UInt32.ofNat now) slot).sched := by
  unfold Sched.atSlot
  set t₁ : Tick := (List.range s.pgns.length).foldl (retryPending store (UInt32.ofNat now))
    ⟨s, ⟨0, 0, 0, 0, 0, 0, 0⟩, 0, []⟩ with ht₁
  have hf : TpOnly ⟨s, ⟨0, 0, 0, 0, 0, 0, 0⟩, 0, []⟩ t₁ := foldl_retryPending_frame store _ _ _
  have hlen : t₁.sched.pgns.length = s.pgns.length := by
    rw [Sched.length_pgns, hf.indices, ← Sched.length_pgns]
  have hok : QueueOk t₀ t₁.sched := h.sublist hf.indices (hf.queue ▸ List.Sublist.refl _)
  refine hok.foldl_scheduleSlot ((ht.mono hle).congr hf.indices hf.dues hf.queue) h0 hlt store _ ?_
  intro j hj
  rw [hlen]
  exact lt_of_lt_of_le (List.mem_range.mp hj) hslot

/-- **One tick.** -/
theorem QueueOk.tick (h : QueueOk t₀ s) (i : TickInput) (ht : Timely t₀ before sent s)
    (hle : before ≤ i.now) (h0 : t₀ ≤ i.now) (hlt : i.now < t₀ + 2 ^ 31) :
    SortedQueue.Sorted (s.key t₀) (handedFrames (tickStep s i).2) ∧
      QueueOk t₀ (tickStep s i).1 := by
  have hfull : QueueOk t₀ (s.scheduled i.store (UInt32.ofNat i.now)).sched :=
    h.atSlot ht hle h0 hlt i.store le_rfl
  have hidx : (s.scheduled i.store (UInt32.ofNat i.now)).sched.indices = s.indices :=
    atSlot_indices i.store (UInt32.ofNat i.now) s s.pgns.length
  have hidx' : (tickStep s i).1.indices = s.indices := tick_indices _ _ _ s
  obtain ⟨expired, hhanded, hqueue, -, -⟩ := tick_moves s i
  refine ⟨?_, hfull.sublist (hidx'.trans hidx.symm) hqueue⟩
  have := hfull.sorted.sublist hhanded
  rwa [key_congr hidx] at this

end Tick

/-! ## Runs between two resets -/

/-- What the queue promises for one tick: it is in order, within its capacity and
over known slots at every slot of the second loop and afterwards, and frames are
offered to the link in that order. -/
structure QueueTick (t₀ : ℕ) (s : Sched) (i : TickInput) : Prop where
  during : ∀ slot ≤ s.pgns.length, QueueOk t₀ (s.atSlot i.store (UInt32.ofNat i.now) slot).sched
  after : QueueOk t₀ (tickStep s i).1
  offered : SortedQueue.Sorted (s.key t₀) (handedFrames (tickStep s i).2)

theorem QueueOk.run {t₀ now : ℕ} {sent : List TxEntry} {s : Sched} (h : QueueOk t₀ s)
    (ht : Timely t₀ now sent s) (h0 : t₀ ≤ now) (inputs : List TickInput)
    (hmono : (now :: inputs.map TickInput.now).Pairwise (· ≤ ·))
    (hspan : ∀ i ∈ inputs, i.now < t₀ + 2 ^ 31) :
    Mealy.Always (QueueTick t₀) tickStep s inputs ∧
      ∃ expired, Moves s (Mealy.run tickStep s inputs).1 (Mealy.run tickStep s inputs).2.flatten
        expired := by
  induction inputs generalizing now sent s with
  | nil => exact ⟨trivial, [], .idle rfl rfl rfl rfl rfl rfl⟩
  | cons i inputs ih =>
    rw [List.map_cons] at hmono
    obtain ⟨hle, hrest⟩ := List.pairwise_cons.mp hmono
    have hi := hle i.now List.mem_cons_self
    have hlt := hspan i List.mem_cons_self
    obtain ⟨hoffered, hafter⟩ := h.tick i ht hi (h0.trans hi) hlt
    obtain ⟨htimely, -, -⟩ := ht.tick hi (h0.trans hi) hlt i.store i.link
    obtain ⟨expired, -, -, -, hmoves⟩ := tick_moves s i
    obtain ⟨hlater, expired', hmoves'⟩ := ih hafter htimely (h0.trans hi) hrest
      fun j hj => hspan j (List.mem_cons_of_mem _ hj)
    refine ⟨⟨⟨?_, hafter, hoffered⟩, hlater⟩, expired ++ expired', hmoves.trans hmoves'⟩
    exact fun slot hslot => h.atSlot ht hi (h0.trans hi) hlt i.store hslot

theorem QueueOk.reset (s : Sched) (t₀ : ℕ) : QueueOk t₀ (s.resetTimers (UInt32.ofNat t₀)) where
  sorted := .nil
  capacity := Nat.zero_le _
  known := by simp [Sched.resetTimers]

/-- Since a reset of `s` every frame that entered the queue was accepted by the link,
has expired or is still queued, and the statistics count them. -/
structure Conserved (s final : Sched) (events : List Event) (expired : List TxEntry) : Prop where
  frames : (queuedFrames events).Perm (acceptedFrames events ++ expired ++ final.queue)
  total : (queuedFrames events).length =
    (acceptedFrames events).length + expired.length + final.queue.length
  enqueued : final.stats.enqueued - s.stats.enqueued = UInt32.ofNat (queuedFrames events).length
  sent : final.stats.sent - s.stats.sent = UInt32.ofNat (acceptedFrames events).length
  expired : final.stats.expired - s.stats.expired = UInt32.ofNat expired.length

theorem Moves.conserved {s final : Sched} {t₀ : ℕ} {events : List Event} {expired : List TxEntry}
    (h : Moves (s.resetTimers (UInt32.ofNat t₀)) final events expired) :
    Conserved s final events expired where
  frames := h.frames
  total := by
    have hframes : (queuedFrames events).Perm (acceptedFrames events ++ expired ++ final.queue) :=
      h.frames
    rw [hframes.length_eq, List.length_append, List.length_append]
  enqueued := by rw [h.enqueued, UInt32.add_comm]; exact UInt32.add_sub_cancel _ _
  sent := by rw [h.sent, UInt32.add_comm]; exact UInt32.add_sub_cancel _ _
  expired := by rw [h.expired, UInt32.add_comm]; exact UInt32.add_sub_cancel _ _

/-- **Integrity of the TX queue.** Ticks at non-decreasing instants less than
`2 ^ 31` after `J1939_Sched_Reset_Timers`, whatever the stores and the link do: the
queue is sorted, within its 32 entries and over existing slots throughout; frames
are offered to the link in order; and the frames that entered it are the accepted,
the expired and the queued ones, as the statistics count them. -/
theorem queue_integrity (s : Sched) (hn : s.indices.Nodup) (hp : ∀ p ∈ s.indices, p < pgnCount)
    (t₀ : ℕ) (inputs : List TickInput)
    (hmono : (t₀ :: inputs.map TickInput.now).Pairwise (· ≤ ·))
    (hspan : ∀ i ∈ inputs, i.now < t₀ + 2 ^ 31) :
    let run := Mealy.run tickStep (s.resetTimers (UInt32.ofNat t₀)) inputs
    Mealy.Always (QueueTick t₀) tickStep (s.resetTimers (UInt32.ofNat t₀)) inputs ∧
      ∃ expired, Conserved s run.1 run.2.flatten expired := by
  intro run
  obtain ⟨hticks, expired, hmoves⟩ :=
    (QueueOk.reset s t₀).run (Timely.reset hn hp t₀) le_rfl inputs hmono hspan
  exact ⟨hticks, expired, hmoves.conserved⟩

/-- Two PGNs across the wrap of the clock, with one refused tick. -/
theorem queue_integrity_wrap :
    let inputs : List TickInput :=
      [⟨twoPgnStore, 2 ^ 32 + 60, fun _ => .busy⟩, ⟨twoPgnStore, 2 ^ 32 + 90, fun _ => .ok⟩]
    let run := Mealy.run tickStep (twoPgnSched.resetTimers (UInt32.ofNat (2 ^ 32 - 3))) inputs
    Mealy.Always (QueueTick (2 ^ 32 - 3)) tickStep
        (twoPgnSched.resetTimers (UInt32.ofNat (2 ^ 32 - 3))) inputs ∧
      ∃ expired, Conserved twoPgnSched run.1 run.2.flatten expired :=
  queue_integrity twoPgnSched (by decide) (by decide) (2 ^ 32 - 3) _ (by simp) (by simp)

end J1939Gen.Scheduler
