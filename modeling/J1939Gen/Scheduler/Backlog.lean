import J1939Gen.Scheduler.Freshness

/-!
# The backlog of the software queue

Frames expire only at the front of the queue (`prv_drain_queue`), so an expired
frame behind a refused one stays, next to the next instance of its PGN. This
module proves when that does not happen: `Unblocked` is the condition on one
tick, `Caught` the invariant of a run of 1 ms ticks whose steps all meet it.

* `Caught.cleared`, `Cleared.caught`: what an unblocked tick leaves.
* `Caught.tick`: one tick.
* `backlog_bounded`: runs whose ticks are all unblocked.
* `backlog_unbounded`: an outage in which the queue holds two frames of a PGN.
-/

namespace J1939Gen.Scheduler

open SerialClock ValueStore

/-- The slots below `k` that come due at `nowMs` with something to send. -/
def Sched.dueBelow (store : Store) (s : Sched) (nowMs : UInt32) (k : ℕ) : List ℕ :=
  (List.range k).filter fun i =>
    (s.entry i).periodMs ≠ 0 ∧ reached nowMs (s.entry i).nextDueMs ∧
      (packFrame store (s.catalogPgn i)).2

/-- All slots that come due at `nowMs` with something to send. -/
def Sched.newlyDue (store : Store) (s : Sched) (nowMs : UInt32) : List ℕ :=
  s.dueBelow store nowMs s.pgns.length

/-- A tick at `nowMs` that clears its expired frames: whenever a queued frame
    has expired, the queue has room for every frame that comes due, the retry
    gate is open, and the link accepts at least as many frames as there are
    unexpired ones, queued or newly due, in front of the expired one. -/
def Unblocked (store : Store) (s : Sched) (nowMs : UInt32) (link : ℕ → LinkStatus) : Prop :=
  ∀ i, ∀ h : i < s.queue.length, s.queue[i].expired nowMs = true →
    s.queue.length + (s.newlyDue store nowMs).length ≤ txQueueCapacity ∧
    reached nowMs s.retryNotBeforeMs = true ∧
    ∀ k < ((s.queue.take i).filter fun f => !f.expired nowMs).length +
      ((s.newlyDue store nowMs).filter fun j =>
        s.queueBefore (s.newFrame store nowMs j) s.queue[i]).length, link k = .ok

instance (store : Store) (s : Sched) (nowMs : UInt32) (link : ℕ → LinkStatus) :
    Decidable (Unblocked store s nowMs link) :=
  inferInstanceAs (Decidable (∀ i, ∀ _ : i < s.queue.length, _))

/-- The condition at the place of one expired frame. -/
theorem Unblocked.at_frame {store : Store} {s : Sched} {nowMs : UInt32} {link : ℕ → LinkStatus}
    (h : Unblocked store s nowMs link) {pre post : List TxEntry} {e : TxEntry}
    (hq : s.queue = pre ++ e :: post) (he : e.expired nowMs = true) :
    s.queue.length + (s.newlyDue store nowMs).length ≤ txQueueCapacity ∧
    reached nowMs s.retryNotBeforeMs = true ∧
    ∀ k < (pre.filter fun f => !f.expired nowMs).length +
      ((s.newlyDue store nowMs).filter fun j =>
        s.queueBefore (s.newFrame store nowMs j) e).length, link k = .ok := by
  have hlt : pre.length < s.queue.length := by rw [hq]; simp
  have hget : s.queue[pre.length] = e := by simp [hq]
  have htake : s.queue.take pre.length = pre := by rw [hq, List.take_left' rfl]
  have := h pre.length hlt (by rw [hget]; exact he)
  rwa [hget, htake] at this

/-- What the scheduler promises for one tick: afterwards the queue holds at most
    one frame of each PGN, and no due frame was dropped while it held expired
    frames. -/
def BoundedTick (store : Store) (s : Sched) (nowMs : UInt32) (link : ℕ → LinkStatus) : Prop :=
  (∀ p, ((tick store nowMs link s).sched.queue.filter fun e =>
      s.indices[e.pgnSlot]? = some p).length ≤ 1) ∧
    ((tick store nowMs link s).result.dropped ≠ 0 → ∀ e ∈ s.queue, e.expired nowMs = false)

/-! ## 1 ms ticks -/

/-- What a 1 ms tick meets: the value store and the answers of the link. -/
structure MsInput where
  store : Store
  link : ℕ → LinkStatus

/-- The clock and the scheduler; a step advances the clock by 1 ms and ticks. -/
def msStep (st : UInt32 × Sched) (i : MsInput) : (UInt32 × Sched) × List Event :=
  let t := tick i.store (st.1 + 1) i.link st.2
  ((st.1 + 1, t.sched), t.events)

/-- The distance to a slot's next due time. -/
def Sched.wait (s : Sched) (nowMs : UInt32) (i : ℕ) : ℕ := ((s.entry i).nextDueMs - nowMs).toNat

/-- The invariant after a tick at `nowMs`: single-frame slots due within their
    period, and queued frames that are the latest instance of their slot. -/
structure Caught (nowMs : UInt32) (s : Sched) : Prop where
  indices : ∀ p ∈ s.indices, p < pgnCount
  distinct : s.indices.Nodup
  single : ∀ p ∈ s.indices, pgnNeedsTp (pgnAt p) = false
  wait : ∀ i < s.pgns.length, 1 ≤ s.wait nowMs i ∧ s.wait nowMs i ≤ (s.entry i).periodMs.toNat
  known : ∀ e ∈ s.queue, e.pgnSlot < s.pgns.length
  period : ∀ e ∈ s.queue, e.periodMs = (s.entry e.pgnSlot).periodMs
  latest : ∀ e ∈ s.queue, e.deadlineMs + e.periodMs.toUInt32 = (s.entry e.pgnSlot).nextDueMs
  nodup : (s.queue.map TxEntry.pgnSlot).Nodup

theorem Caught.period_pos {nowMs : UInt32} {s : Sched} (h : Caught nowMs s) {i : ℕ}
    (hi : i < s.pgns.length) : 0 < (s.entry i).periodMs.toNat :=
  lt_of_lt_of_le (h.wait i hi).1 (h.wait i hi).2

theorem periodMs_ne_zero {p : UInt16} (h : 0 < p.toNat) : p ≠ 0 := by
  rintro rfl
  exact absurd h (by decide)

/-- A slot is due at the next tick exactly when it waits 1 ms. -/
theorem reached_succ {nowMs due : UInt32} (h1 : 1 ≤ (due - nowMs).toNat)
    (h2 : (due - nowMs).toNat ≤ 65535) :
    reached (nowMs + 1) due = true ↔ due = nowMs + 1 := by
  have hsub : nowMs + 1 - due = 1 - (due - nowMs) := by grind
  rw [reached_iff, hsub, UInt32.toNat_sub]
  have hiff : due = nowMs + 1 ↔ (due - nowMs).toNat = 1 := by
    constructor
    · rintro rfl
      rw [show nowMs + 1 - nowMs = 1 by grind]
      rfl
    · intro h
      have : due - nowMs = 1 := by rw [← UInt32.toNat_inj, h]; rfl
      grind
  rw [hiff]
  simp only [UInt32.reduceToNat]
  omega

theorem Caught.reached_iff {nowMs : UInt32} {s : Sched} (h : Caught nowMs s) {i : ℕ}
    (hi : i < s.pgns.length) :
    reached (nowMs + 1) (s.entry i).nextDueMs = true ↔ (s.entry i).nextDueMs = nowMs + 1 := by
  have hp16 := (s.entry i).periodMs.toNat_lt
  obtain ⟨h1, h2⟩ := h.wait i hi
  exact reached_succ h1 (by unfold Sched.wait at h2; omega)

/-- A queued frame has expired exactly when its slot is due again. -/
theorem Caught.expired_iff {nowMs : UInt32} {s : Sched} (h : Caught nowMs s) {e : TxEntry}
    (he : e ∈ s.queue) :
    e.expired (nowMs + 1) = true ↔ (s.entry e.pgnSlot).nextDueMs = nowMs + 1 := by
  have hpos := h.period_pos (h.known e he)
  rw [← h.period e he] at hpos
  rw [← h.reached_iff (h.known e he), ← h.latest e he]
  simp [TxEntry.expired, periodMs_ne_zero hpos]

/-- The frame of a slot that is due on time. -/
theorem deadlineMs_on_time {e : PgnEntry} {nowMs : UInt32} (h : e.nextDueMs = nowMs) :
    e.deadlineMs nowMs = nowMs := by
  rw [PgnEntry.deadlineMs, PgnEntry.periodsLate, h, UInt32.sub_self, UInt32.zero_div,
    UInt32.zero_mul, UInt32.add_zero]

theorem not_expired_new {nowMs : UInt32} {e : TxEntry} (hd : e.deadlineMs = nowMs)
    (hp : 0 < e.periodMs.toNat) : e.expired nowMs = false := by
  have hp16 := e.periodMs.toNat_lt
  have hsub : nowMs - (nowMs + e.periodMs.toUInt32) = 0 - e.periodMs.toUInt32 := by grind
  have hnot : reached nowMs (nowMs + e.periodMs.toUInt32) = false := by
    rw [← Bool.not_eq_true, SerialClock.reached_iff, hsub, UInt32.toNat_sub]
    simp only [UInt16.toNat_toUInt32, UInt32.reduceToNat]
    omega
  simp [TxEntry.expired, hd, hnot]

/-! ## The second loop -/

theorem queueBefore_congr {s s' : Sched} (h : s'.indices = s.indices) (f e : TxEntry) :
    s'.queueBefore f e = s.queueBefore f e := by
  simp only [Sched.queueBefore, Sched.catalogPgn, Sched.entry_catalogPgnIndex, h]

theorem newFrame_congr (store : Store) {s s' : Sched} (h : s'.indices = s.indices) {i : ℕ}
    (hd : (s'.entry i).nextDueMs = (s.entry i).nextDueMs) (nowMs : UInt32) :
    s'.newFrame store nowMs i = s.newFrame store nowMs i := by
  simp only [Sched.newFrame, PgnEntry.deadlineMs, PgnEntry.periodsLate, hd, Sched.entry_periodMs,
    Sched.catalogPgn, Sched.entry_catalogPgnIndex, h]

theorem dueBelow_succ (store : Store) (s : Sched) (nowMs : UInt32) (k : ℕ) :
    (s.dueBelow store nowMs k).Sublist (s.dueBelow store nowMs (k + 1)) := by
  unfold Sched.dueBelow
  rw [List.range_succ, List.filter_append]
  exact List.sublist_append_left _ _

theorem dueBelow_mono (store : Store) (s : Sched) (nowMs : UInt32) {k n : ℕ} (h : k ≤ n) :
    (s.dueBelow store nowMs k).Sublist (s.dueBelow store nowMs n) := by
  induction n, h using Nat.le_induction with
  | base => exact .refl _
  | succ n _ ih => exact ih.trans (dueBelow_succ store s nowMs n)

theorem dueBelow_succ_of_due (store : Store) {s : Sched} {nowMs : UInt32} {k : ℕ}
    (h1 : (s.entry k).periodMs ≠ 0) (h2 : reached nowMs (s.entry k).nextDueMs = true)
    (h3 : (packFrame store (s.catalogPgn k)).2 = true) :
    s.dueBelow store nowMs (k + 1) = s.dueBelow store nowMs k ++ [k] := by
  unfold Sched.dueBelow
  rw [List.range_succ, List.filter_append]
  simp [h1, h2, h3]

/-- The frames of a list that have not expired. -/
def unexpired (nowMs : UInt32) (l : List TxEntry) : List TxEntry :=
  l.filter fun e => !e.expired nowMs

/-- The second loop after slots below `k`, from the state `s` before the tick. -/
structure Mid (store : Store) (nowMs : UInt32) (s : Sched) (k : ℕ) (t : Tick) : Prop where
  indices : t.sched.indices = s.indices
  retry : t.sched.retryNotBeforeMs = s.retryNotBeforeMs
  sends : t.sends = 0
  due : ∀ i < s.pgns.length, (t.sched.entry i).nextDueMs =
    if i < k ∧ (s.entry i).nextDueMs = nowMs then nowMs + (s.entry i).periodMs.toUInt32
    else (s.entry i).nextDueMs
  origin : ∀ e ∈ t.sched.queue, e ∈ s.queue ∨ e.pgnSlot < k ∧ e.pgnSlot < s.pgns.length ∧
    (s.entry e.pgnSlot).nextDueMs = nowMs ∧ e.deadlineMs = nowMs ∧
    e.periodMs = (s.entry e.pgnSlot).periodMs
  nodup : ((unexpired nowMs t.sched.queue).map TxEntry.pgnSlot).Nodup
  length : t.sched.queue.length ≤ s.queue.length + (s.dueBelow store nowMs k).length
  ahead : ∀ a e b, t.sched.queue = a ++ e :: b → e.expired nowMs = true →
    ∃ pre post, s.queue = pre ++ e :: post ∧ (unexpired nowMs a).length ≤
      (unexpired nowMs pre).length + ((s.dueBelow store nowMs k).filter fun i =>
        s.queueBefore (s.newFrame store nowMs i) e).length
  dropped : t.result.dropped ≠ 0 → ∀ e ∈ s.queue, e.expired nowMs = false

theorem unexpired_nodup {nowMs : UInt32} {l : List TxEntry}
    (h : (l.map TxEntry.pgnSlot).Nodup) : ((unexpired nowMs l).map TxEntry.pgnSlot).Nodup :=
  h.sublist (List.filter_sublist.map _)

/-- The loop starts from the state before the tick. -/
theorem Mid.start {nowMs : UInt32} {s : Sched} (h : Caught nowMs s) (store : Store) {t : Tick}
    (hr : t.result.dropped = 0) (hs : t.sends = 0) {t0 : Tick} (ht0 : t0.sched = s)
    (hf : TpOnly t0 t) : Mid store (nowMs + 1) s 0 t where
  indices := by rw [hf.indices, ht0]
  retry := by rw [hf.retry, ht0]
  sends := hs
  due i _ := by
    rw [if_neg (by omega), Sched.entry_nextDueMs, hf.dues, ht0, ← Sched.entry_nextDueMs]
  origin e he := by rw [hf.queue, ht0] at he; exact .inl he
  nodup := by rw [hf.queue, ht0]; exact unexpired_nodup h.nodup
  length := by rw [hf.queue, ht0]; omega
  ahead a e b hq _ := by rw [hf.queue, ht0] at hq; exact ⟨a, b, hq, by omega⟩
  dropped hd := absurd hr hd

section Loop

variable {store : Store} {nowMs : UInt32} {s : Sched} {k : ℕ} {t t' : Tick}

/-- A slot that leaves the queue alone. -/
theorem Mid.keep (h : Mid store nowMs s k t) (hi : t'.sched.indices = t.sched.indices)
    (hr : t'.sched.retryNotBeforeMs = t.sched.retryNotBeforeMs) (hs : t'.sends = t.sends)
    (hq : t'.sched.queue = t.sched.queue)
    (hd : t'.result.dropped ≠ 0 → ∀ e ∈ s.queue, e.expired nowMs = false)
    (hdue : ∀ i < s.pgns.length, (t'.sched.entry i).nextDueMs =
      if i < k + 1 ∧ (s.entry i).nextDueMs = nowMs then nowMs + (s.entry i).periodMs.toUInt32
      else (s.entry i).nextDueMs) : Mid store nowMs s (k + 1) t' where
  indices := hi.trans h.indices
  retry := hr.trans h.retry
  sends := hs.trans h.sends
  due := hdue
  origin e he := by
    rw [hq] at he
    rcases h.origin e he with h' | ⟨h1, h2⟩
    · exact .inl h'
    · exact .inr ⟨by omega, h2⟩
  nodup := by rw [hq]; exact h.nodup
  length := by
    rw [hq]
    have := (dueBelow_succ store s nowMs k).length_le
    have := h.length
    omega
  ahead a e b hab he := by
    rw [hq] at hab
    obtain ⟨pre, post, h1, h2⟩ := h.ahead a e b hab he
    have := ((dueBelow_succ store s nowMs k).filter
      fun i => s.queueBefore (s.newFrame store nowMs i) e).length_le
    exact ⟨pre, post, h1, by omega⟩
  dropped := hd

/-- A split of a list after an insertion, at an element that is not the new
    one. -/
theorem split_insert {α : Type*} {A B a b : List α} {f e : α} (h : A ++ f :: B = a ++ e :: b)
    (hne : e ≠ f) :
    (∃ m, A = a ++ e :: m ∧ b = m ++ f :: B) ∨ (∃ m, B = m ++ e :: b ∧ a = A ++ f :: m) := by
  rcases List.append_eq_append_iff.mp h with ⟨m, h1, h2⟩ | ⟨m, h1, h2⟩
  · cases m with
    | nil => exact absurd (List.cons.inj h2).1.symm hne
    | cons x m =>
      obtain ⟨rfl, rfl⟩ := List.cons.inj h2
      exact .inr ⟨m, rfl, h1⟩
  · cases m with
    | nil => exact absurd (List.cons.inj h2).1 hne
    | cons x m =>
      obtain ⟨rfl, rfl⟩ := List.cons.inj h2
      exact .inl ⟨m, h1, rfl⟩

theorem unexpired_append (nowMs : UInt32) (a b : List TxEntry) :
    unexpired nowMs (a ++ b) = unexpired nowMs a ++ unexpired nowMs b := List.filter_append ..

theorem unexpired_cons {nowMs : UInt32} {e : TxEntry} (h : e.expired nowMs = false)
    (l : List TxEntry) : unexpired nowMs (e :: l) = e :: unexpired nowMs l :=
  List.filter_cons_of_pos (by simp [h])

theorem unexpired_cons_expired {nowMs : UInt32} {e : TxEntry} (h : e.expired nowMs = true)
    (l : List TxEntry) : unexpired nowMs (e :: l) = unexpired nowMs l :=
  List.filter_cons_of_neg (by simp [h])

/-- The frame of slot `k` enters the queue. -/
theorem Mid.insert (h : Mid store nowMs s k t) {f : TxEntry} {A B : List TxEntry}
    (hk : k < s.pgns.length) (hdk : (s.entry k).nextDueMs = nowMs)
    (hbelow : s.dueBelow store nowMs (k + 1) = s.dueBelow store nowMs k ++ [k])
    (hf : f = s.newFrame store nowMs k) (hnew : f.expired nowMs = false)
    (hfd : f.deadlineMs = nowMs) (hab : t.sched.queue = A ++ B)
    (hB : ∀ e ∈ B, s.queueBefore f e = true) (hq : t'.sched.queue = A ++ f :: B)
    (hold : ∀ e ∈ s.queue, e.pgnSlot = k → e.expired nowMs = true)
    (hi : t'.sched.indices = t.sched.indices)
    (hr : t'.sched.retryNotBeforeMs = t.sched.retryNotBeforeMs) (hs : t'.sends = t.sends)
    (hd : t'.result.dropped = t.result.dropped)
    (hdue : ∀ i < s.pgns.length, (t'.sched.entry i).nextDueMs =
      if i < k + 1 ∧ (s.entry i).nextDueMs = nowMs then nowMs + (s.entry i).periodMs.toUInt32
      else (s.entry i).nextDueMs) : Mid store nowMs s (k + 1) t' where
  indices := hi.trans h.indices
  retry := hr.trans h.retry
  sends := hs.trans h.sends
  due := hdue
  origin e he := by
    rw [hq] at he
    have hmem : e = f ∨ e ∈ t.sched.queue := by
      rw [hab]
      simp only [List.mem_append, List.mem_cons] at he ⊢
      tauto
    rcases hmem with rfl | hmem
    · refine .inr ⟨?_, ?_, ?_, hfd, ?_⟩ <;> rw [hf]
      · exact Nat.lt_succ_self k
      · exact hk
      · exact hdk
      · rfl
    · rcases h.origin e hmem with h' | ⟨h1, h2⟩
      · exact .inl h'
      · exact .inr ⟨by omega, h2⟩
  nodup := by
    have hn := h.nodup
    rw [hab, unexpired_append, List.map_append] at hn
    rw [hq, unexpired_append, unexpired_cons hnew, List.map_append, List.map_cons,
      List.nodup_middle, List.nodup_cons]
    refine ⟨fun hin => ?_, hn⟩
    -- an unexpired frame of slot `k` would be old, or from a slot below `k`
    rw [← List.map_append, ← unexpired_append, ← hab] at hin
    obtain ⟨e, he, hek⟩ := List.mem_map.mp hin
    obtain ⟨hin, hun⟩ := List.mem_filter.mp he
    have hfk : f.pgnSlot = k := by rw [hf]; rfl
    rw [hfk] at hek
    rcases h.origin e hin with h' | ⟨h1, -⟩
    · simp [hold e h' hek] at hun
    · omega
  length := by
    have := h.length
    rw [hab] at this
    rw [hq, hbelow]
    simp only [List.length_append, List.length_cons, List.length_nil] at this ⊢
    omega
  ahead a e b hsplit he := by
    rw [hq] at hsplit
    have hne : e ≠ f := by
      rintro rfl
      simp [hnew] at he
    rcases split_insert hsplit hne with ⟨m, h1, -⟩ | ⟨m, h1, h2⟩
    · obtain ⟨pre, post, h3, h4⟩ := h.ahead a e (m ++ B) (by rw [hab, h1]; simp) he
      refine ⟨pre, post, h3, ?_⟩
      rw [hbelow, List.filter_append, List.length_append]
      omega
    · obtain ⟨pre, post, h3, h4⟩ := h.ahead (A ++ m) e b (by rw [hab, h1]; simp) he
      refine ⟨pre, post, h3, ?_⟩
      -- the new frame goes before the expired one, so its slot is counted
      have hin : s.queueBefore (s.newFrame store nowMs k) e = true := by
        rw [← hf]
        exact hB e (by rw [h1]; simp)
      rw [unexpired_append] at h4
      rw [hbelow, List.filter_append, h2, unexpired_append, unexpired_cons hnew]
      simp only [List.length_append, List.length_cons, List.filter_cons, hin, if_true,
        List.filter_nil, List.length_nil] at h4 ⊢
      omega
  dropped hdr := h.dropped (hd ▸ hdr)

end Loop

/-- The due times after slot `k` of the loop moved on. -/
theorem advance_due {store : Store} {nowMs : UInt32} {s : Sched} {k : ℕ} {t : Tick}
    (h : Mid store nowMs s k t) (hk : k < s.pgns.length) (hdk : (s.entry k).nextDueMs = nowMs)
    (i : ℕ) (hi : i < s.pgns.length) :
    ((t.advance k nowMs).sched.entry i).nextDueMs =
      if i < k + 1 ∧ (s.entry i).nextDueMs = nowMs then nowMs + (s.entry i).periodMs.toUInt32
      else (s.entry i).nextDueMs := by
  have hlen : t.sched.pgns.length = s.pgns.length := by
    rw [Sched.length_pgns, h.indices, ← Sched.length_pgns]
  have hper : (t.sched.entry k).periodMs = (s.entry k).periodMs := by
    rw [Sched.entry_periodMs, h.indices, ← Sched.entry_periodMs]
  have hnd : (t.sched.entry k).nextDueMs = nowMs := by
    rw [h.due k hk, if_neg (by omega), hdk]
  rw [advance_nextDueMs t k i nowMs (hlen ▸ hk), deadlineMs_on_time hnd, hper, h.due i hi]
  by_cases hik : i = k
  · subst hik
    rw [if_pos rfl, if_pos ⟨by omega, hdk⟩]
  · rw [if_neg hik]
    simp only [show i < k + 1 ↔ i < k by omega]

/-- One slot of the second loop, in an unblocked tick. -/
theorem Mid.schedule {store : Store} {before : UInt32} {s : Sched} {k : ℕ} {t : Tick}
    (hc : Caught before s) (hu : ∀ e ∈ s.queue, e.expired (before + 1) = true →
      s.queue.length + (s.newlyDue store (before + 1)).length ≤ txQueueCapacity)
    (h : Mid store (before + 1) s k t) (hk : k < s.pgns.length) :
    Mid store (before + 1) s (k + 1) (scheduleSlot store (before + 1) t k) := by
  have hper : (t.sched.entry k).periodMs = (s.entry k).periodMs := by
    rw [Sched.entry_periodMs, h.indices, ← Sched.entry_periodMs]
  have hnd : (t.sched.entry k).nextDueMs = (s.entry k).nextDueMs := by
    rw [h.due k hk, if_neg (by omega)]
  have hcat : t.sched.catalogPgn k = s.catalogPgn k := by
    rw [Sched.catalogPgn, Sched.entry_catalogPgnIndex, h.indices, ← Sched.entry_catalogPgnIndex]
    rfl
  have hpos := hc.period_pos hk
  rcases scheduleSlot_cases store (before + 1) t k with ⟨hn, heq⟩ | ⟨hp0, hr, hcase⟩
  · -- not due
    rw [heq]
    have hne : (s.entry k).nextDueMs ≠ before + 1 := by
      intro hdk
      rcases hn with hn | hn
      · rw [hper] at hn
        exact periodMs_ne_zero hpos hn
      · rw [hnd, (hc.reached_iff hk).mpr hdk] at hn
        cases hn
    refine h.keep rfl rfl rfl rfl h.dropped fun i hi => ?_
    rw [h.due i hi]
    by_cases hik : i = k
    · subst hik
      simp [hne]
    · simp only [show i < k + 1 ↔ i < k by omega]
  have hdk : (s.entry k).nextDueMs = before + 1 := (hc.reached_iff hk).mp (hnd ▸ hr)
  have hadv := advance_due h hk hdk
  rcases hcase with htp | ⟨-, hpack, heq⟩
  · refine h.keep (htp.indices.trans (advance_indices t k _)) htp.retry htp.sends htp.queue ?_ ?_
    · rw [htp.result]
      exact h.dropped
    · intro i hi
      rw [Sched.entry_nextDueMs, htp.dues, ← Sched.entry_nextDueMs]
      exact hadv i hi
  rw [heq, newFrame_congr store h.indices hnd]
  rw [hcat] at hpack
  set f := s.newFrame store (before + 1) k with hf
  have hfd : f.deadlineMs = before + 1 := deadlineMs_on_time hdk
  have hnew : f.expired (before + 1) = false := not_expired_new hfd hpos
  have hbelow := dueBelow_succ_of_due store (periodMs_ne_zero hpos)
    ((hc.reached_iff hk).mpr hdk) hpack
  have hold : ∀ e ∈ s.queue, e.pgnSlot = k → e.expired (before + 1) = true := fun e he hek =>
    (hc.expired_iff he).mpr (by rw [hek]; exact hdk)
  have hdue : ∀ st : Stats, ∀ q : List TxEntry, ∀ i < s.pgns.length,
      (({ (t.advance k (before + 1)).sched with queue := q, stats := st } : Sched).entry i).nextDueMs
        = if i < k + 1 ∧ (s.entry i).nextDueMs = before + 1 then
            before + 1 + (s.entry i).periodMs.toUInt32
          else (s.entry i).nextDueMs := fun _ _ i hi => hadv i hi
  rcases offer_cases (t.advance k (before + 1)) f with
    ⟨hfull, -, hsends, -, hsch⟩ | ⟨-, -, hsends, hdrop, A, B, hAB, hB, hsch⟩
  · -- dropped: the queue was full, so it held no expired frame
    have hno : ∀ e ∈ s.queue, e.expired (before + 1) = false := by
      intro e he
      by_contra hx
      have hroom := hu e he (by simpa using hx)
      have hl := h.length
      have hm := (dueBelow_mono store s (before + 1) (show k + 1 ≤ s.pgns.length from hk)).length_le
      rw [hbelow, List.length_append, List.length_singleton] at hm
      have hq : (t.advance k (before + 1)).sched.queue = t.sched.queue := rfl
      rw [hq] at hfull
      unfold Sched.newlyDue at hroom
      omega
    refine h.keep ?_ (by rw [hsch]; rfl) hsends (by rw [hsch]; rfl) (fun _ => hno) ?_
    · rw [offer_indices, advance_indices]
    · rw [hsch]; exact hdue _ _
  · refine h.insert (A := A) (B := B) hk hdk hbelow hf hnew hfd hAB ?_ (by rw [hsch]) hold ?_
      (by rw [hsch]; rfl) hsends hdrop ?_
    · intro e he
      rw [← queueBefore_congr ((advance_indices t k _).trans h.indices)]
      exact hB e he
    · rw [offer_indices, advance_indices]
    · rw [hsch]; exact hdue _ _

theorem Mid.foldl {store : Store} {before : UInt32} {s : Sched} (hc : Caught before s)
    (hu : ∀ e ∈ s.queue, e.expired (before + 1) = true →
      s.queue.length + (s.newlyDue store (before + 1)).length ≤ txQueueCapacity) {t : Tick}
    (h : Mid store (before + 1) s 0 t) {k : ℕ} (hk : k ≤ s.pgns.length) :
    Mid store (before + 1) s k ((List.range k).foldl (scheduleSlot store (before + 1)) t) := by
  induction k with
  | zero => exact h
  | succ k ih =>
    rw [List.range_succ, List.foldl_append]
    exact (ih (by omega)).schedule hc hu hk

/-! ## The drain -/

/-- When the link accepts every unexpired frame in front of an expired one, the
    drain leaves no expired frame. -/
theorem drainLoop_clears {nowMs : UInt32} {link : ℕ → LinkStatus} {queue : List TxEntry}
    {t : Tick} (hq : t.sched.queue = queue)
    (hl : ∀ a e b, queue = a ++ e :: b → e.expired nowMs = true →
      ∀ j < (unexpired nowMs a).length, link (t.sends + j) = .ok) :
    let t' := drainLoop nowMs link queue t
    t'.sched.queue.Sublist queue ∧ (∀ e ∈ t'.sched.queue, e.expired nowMs = false) ∧
      t'.sched.pgns = t.sched.pgns ∧ t'.result.dropped = t.result.dropped := by
  induction queue generalizing t with
  | nil => exact ⟨by simp [drainLoop_nil, hq], by simp [drainLoop_nil, hq], rfl, rfl⟩
  | cons f rest ih =>
    rcases drainLoop_cons nowMs link hq with
      ⟨hx, t1, heq, ⟨hq1, hp1, -⟩, hs1, hd1, -⟩ | ⟨hx, -, t1, heq, ⟨hq1, hp1, -⟩, hs1, hd1, -⟩ |
      ⟨hx, hne, t1, heq, hq1, hp1, -, -, -, hd1, -⟩
    · rw [heq]
      obtain ⟨h1, h2, h3, h4⟩ := ih hq1 fun a e b hab he j hj => by
        have := hl (f :: a) e b (by rw [hab]; rfl) he j
        rw [unexpired_cons_expired hx] at this
        rw [hs1]
        exact this hj
      exact ⟨h1.trans (List.sublist_cons_self _ _), h2, h3.trans hp1, h4.trans hd1⟩
    · rw [heq]
      obtain ⟨h1, h2, h3, h4⟩ := ih hq1 fun a e b hab he j hj => by
        have := hl (f :: a) e b (by rw [hab]; rfl) he (j + 1)
        rw [unexpired_cons hx, List.length_cons] at this
        rw [hs1, Nat.add_assoc, Nat.add_comm 1 j]
        exact this (by omega)
      exact ⟨h1.trans (List.sublist_cons_self _ _), h2, h3.trans hp1, h4.trans hd1⟩
    · rw [heq]
      refine ⟨by rw [hq1], fun e he => ?_, hp1, hd1⟩
      rw [hq1] at he
      rcases List.mem_cons.mp he with rfl | he
      · exact hx
      · -- an expired frame behind the refused one contradicts the condition
        by_contra hexp
        obtain ⟨a, b, rfl⟩ := List.append_of_mem he
        have := hl (f :: a) e b rfl (by simpa using hexp) 0 (by rw [unexpired_cons hx]; simp)
        exact hne this

/-! ## Ticks and runs -/

/-- A list of frames of distinct slots holds at most one frame of a PGN. -/
theorem length_filter_pgn_le {indices : List ℕ} (hn : indices.Nodup) {l : List TxEntry}
    (hl : (l.map TxEntry.pgnSlot).Nodup) (p : ℕ) :
    (l.filter fun e => indices[e.pgnSlot]? = some p).length ≤ 1 := by
  by_contra hlt
  obtain ⟨a, b, rest, hab⟩ : ∃ a b rest,
      (l.filter fun e => indices[e.pgnSlot]? = some p) = a :: b :: rest := by
    match h : l.filter fun e => indices[e.pgnSlot]? = some p with
    | [] => simp [h] at hlt
    | [_] => simp [h] at hlt
    | a :: b :: rest => exact ⟨a, b, rest, h⟩
  have hsub : [a, b].Sublist l := by
    refine List.Sublist.trans ?_ (List.filter_sublist (p := fun e => indices[e.pgnSlot]? = some p))
    rw [hab]
    simp
  have hslot : ∀ e ∈ [a, b], indices[e.pgnSlot]? = some p := by
    intro e he
    have : e ∈ l.filter fun e => indices[e.pgnSlot]? = some p := by
      rw [hab]
      simp only [List.mem_cons, List.not_mem_nil, or_false] at he ⊢
      tauto
    simpa using (List.mem_filter.mp this).2
  obtain ⟨ha, hpa⟩ := List.getElem?_eq_some_iff.mp (hslot a (by simp))
  obtain ⟨hb, hpb⟩ := List.getElem?_eq_some_iff.mp (hslot b (by simp))
  have heq : a.pgnSlot = b.pgnSlot := (List.Nodup.getElem_inj_iff hn).mp (hpa.trans hpb.symm)
  have := hl.sublist (hsub.map TxEntry.pgnSlot)
  simp [heq] at this

theorem unexpired_eq_self {nowMs : UInt32} {l : List TxEntry}
    (h : ∀ e ∈ l, e.expired nowMs = false) : unexpired nowMs l = l :=
  List.filter_eq_self.mpr fun e he => by simp [h e he]

/-- The drain of an unblocked tick leaves unexpired frames only. -/
theorem Mid.drainQueue {store : Store} {nowMs : UInt32} {s : Sched} {t : Tick}
    {link : ℕ → LinkStatus} (h : Mid store nowMs s s.pgns.length t)
    (hu : Unblocked store s nowMs link) :
    (drainQueue nowMs link t).sched.queue.Sublist t.sched.queue ∧
      (∀ e ∈ (drainQueue nowMs link t).sched.queue, e.expired nowMs = false) ∧
      (drainQueue nowMs link t).sched.pgns = t.sched.pgns ∧
      (drainQueue nowMs link t).result.dropped = t.result.dropped := by
  unfold Scheduler.drainQueue
  split_ifs with hgate
  · -- a closed gate contradicts the condition at an expired frame
    refine ⟨.refl _, fun e he => ?_, rfl, rfl⟩
    by_contra hx
    obtain ⟨a, b, hab⟩ := List.append_of_mem he
    obtain ⟨pre, post, hpre, -⟩ := h.ahead a e b hab (by simpa using hx)
    have hopen := (hu.at_frame hpre (by simpa using hx)).2.1
    rw [← h.retry, hgate.2] at hopen
    cases hopen
  · refine drainLoop_clears rfl fun a e b hab hx j hj => ?_
    obtain ⟨pre, post, hpre, hle⟩ := h.ahead a e b hab hx
    rw [h.sends, Nat.zero_add]
    exact (hu.at_frame hpre hx).2.2 j (lt_of_lt_of_le hj hle)

/-- What an unblocked tick at `nowMs` leaves of the state `s` before it: each queued frame
    is an old one whose slot is not due, or the new one of a slot that is. -/
structure Cleared (nowMs : UInt32) (s : Sched) (t : Tick) : Prop where
  indices : t.sched.indices = s.indices
  due : ∀ i < s.pgns.length, (t.sched.entry i).nextDueMs =
    if (s.entry i).nextDueMs = nowMs then nowMs + (s.entry i).periodMs.toUInt32
    else (s.entry i).nextDueMs
  origin : ∀ e ∈ t.sched.queue, e ∈ s.queue ∧ (s.entry e.pgnSlot).nextDueMs ≠ nowMs ∨
    e.pgnSlot < s.pgns.length ∧ (s.entry e.pgnSlot).nextDueMs = nowMs ∧ e.deadlineMs = nowMs ∧
      e.periodMs = (s.entry e.pgnSlot).periodMs
  nodup : (t.sched.queue.map TxEntry.pgnSlot).Nodup
  dropped : t.result.dropped ≠ 0 → ∀ e ∈ s.queue, e.expired nowMs = false

theorem Caught.cleared {before : UInt32} {s : Sched} (hc : Caught before s) {store : Store}
    {link : ℕ → LinkStatus} (hu : Unblocked store s (before + 1) link) :
    Cleared (before + 1) s (Scheduler.tick store (before + 1) link s) := by
  have hroom : ∀ e ∈ s.queue, e.expired (before + 1) = true →
      s.queue.length + (s.newlyDue store (before + 1)).length ≤ txQueueCapacity := by
    intro e he hx
    obtain ⟨pre, post, hpre⟩ := List.append_of_mem he
    exact (hu.at_frame hpre hx).1
  set t1 : Tick := ⟨s, ⟨0, 0, 0, 0, 0, 0, 0⟩, 0, []⟩ with ht1
  set t2 := (List.range s.pgns.length).foldl (retryPending store (before + 1)) t1 with ht2
  set t3 := (List.range s.pgns.length).foldl (scheduleSlot store (before + 1)) t2 with ht3
  set t4 := Scheduler.drainQueue (before + 1) link t3 with ht4
  set t5 := processTp (before + 1) link t4 with ht5
  have hf2 : TpOnly t1 t2 := foldl_retryPending_frame store _ _ t1
  have hmid : Mid store (before + 1) s s.pgns.length t3 :=
    (Mid.start hc store (by rw [hf2.result]) (by rw [hf2.sends]) rfl hf2).foldl hc hroom le_rfl
  obtain ⟨hsub, hclear, hp4, hd4⟩ := hmid.drainQueue hu
  rw [← ht4] at hsub hclear hp4 hd4
  have hf5 : TpOnly t4 t5 := processTp_frame _ link t4
  show Cleared (before + 1) s t5
  constructor
  · rw [hf5.indices, Sched.indices, hp4]
    exact hmid.indices
  · intro i hi
    have h3 := hmid.due i hi
    rw [Sched.entry_nextDueMs, hf5.dues, ← Sched.entry_nextDueMs, Sched.entry, hp4]
    simp only [hi, true_and] at h3
    exact h3
  · intro e he
    rw [hf5.queue] at he
    rcases hmid.origin e (hsub.subset he) with h | ⟨-, h⟩
    · refine .inl ⟨h, fun hd => ?_⟩
      have hx := (hc.expired_iff h).mpr hd
      rw [hclear e he] at hx
      cases hx
    · exact .inr h
  · rw [hf5.queue, ← unexpired_eq_self hclear]
    exact hmid.nodup.sublist ((hsub.filter _).map _)
  · rw [hf5.result, hd4]
    exact hmid.dropped

/-- A due time that was not reached is 1 ms closer. -/
theorem toNat_sub_succ {nowMs due : UInt32} (h : 1 ≤ (due - nowMs).toNat) (hne : due ≠ nowMs + 1) :
    1 ≤ (due - (nowMs + 1)).toNat ∧ (due - (nowMs + 1)).toNat ≤ (due - nowMs).toNat := by
  have hsub : due - (nowMs + 1) = due - nowMs - 1 := by grind
  have hne1 : (due - nowMs).toNat ≠ 1 := by
    intro h1
    have hone : due - nowMs = 1 := by
      rw [← UInt32.toNat_inj, h1]
      rfl
    exact hne (by grind)
  have hle : (1 : UInt32) ≤ due - nowMs := by
    rw [UInt32.le_iff_toNat_le]
    exact h
  rw [hsub, UInt32.toNat_sub_of_le _ _ hle]
  simp only [UInt32.reduceToNat]
  omega

theorem Cleared.caught {before : UInt32} {s : Sched} {t : Tick} (h : Cleared (before + 1) s t)
    (hc : Caught before s) : Caught (before + 1) t.sched := by
  have hlen : t.sched.pgns.length = s.pgns.length := by
    rw [Sched.length_pgns, h.indices, ← Sched.length_pgns]
  have hper : ∀ i, (t.sched.entry i).periodMs = (s.entry i).periodMs := fun i => by
    rw [Sched.entry_periodMs, h.indices, ← Sched.entry_periodMs]
  constructor
  · rw [h.indices]; exact hc.indices
  · rw [h.indices]; exact hc.distinct
  · rw [h.indices]; exact hc.single
  · intro i hi
    rw [hlen] at hi
    obtain ⟨hw1, hw2⟩ := hc.wait i hi
    unfold Sched.wait at hw1 hw2 ⊢
    rw [h.due i hi, hper]
    split_ifs with hd
    · rw [show before + 1 + (s.entry i).periodMs.toUInt32 - (before + 1) =
        (s.entry i).periodMs.toUInt32 by grind, UInt16.toNat_toUInt32]
      exact ⟨hc.period_pos hi, le_rfl⟩
    · obtain ⟨h1, h2⟩ := toNat_sub_succ hw1 hd
      exact ⟨h1, h2.trans hw2⟩
  · intro e he
    rw [hlen]
    rcases h.origin e he with ⟨hin, -⟩ | ⟨hlt, -⟩
    · exact hc.known e hin
    · exact hlt
  · intro e he
    rw [hper]
    rcases h.origin e he with ⟨hin, -⟩ | ⟨-, -, -, hp⟩
    · exact hc.period e hin
    · exact hp
  · intro e he
    rcases h.origin e he with ⟨hin, hd⟩ | ⟨hlt, hd, hdl, hp⟩
    · rw [h.due _ (hc.known e hin), if_neg hd]
      exact hc.latest e hin
    · rw [h.due _ hlt, if_pos hd, hdl, hp]
  · exact h.nodup

/-- **One unblocked tick.** -/
theorem Caught.tick {before : UInt32} {s : Sched} (hc : Caught before s) {store : Store}
    {link : ℕ → LinkStatus} (hu : Unblocked store s (before + 1) link) :
    Caught (before + 1) (tick store (before + 1) link s).sched ∧
      BoundedTick store s (before + 1) link := by
  have h := hc.cleared hu
  refine ⟨h.caught hc, fun p => ?_, h.dropped⟩
  rw [← h.indices]
  exact length_filter_pgn_le (h.indices ▸ hc.distinct) h.nodup p

theorem Caught.reset {s : Sched} (hn : s.indices.Nodup) (hp : ∀ p ∈ s.indices, p < pgnCount)
    (hs : ∀ p ∈ s.indices, pgnNeedsTp (pgnAt p) = false) (t₀ : UInt32) :
    Caught t₀ (s.resetTimers t₀) := by
  constructor
  · rw [resetTimers_indices]; exact hp
  · rw [resetTimers_indices]; exact hn
  · rw [resetTimers_indices]; exact hs
  · intro i hi
    have hi' : i < s.pgns.length := by simpa [Sched.resetTimers] using hi
    rw [Sched.wait, resetTimers_nextDueMs _ hi', Sched.entry_periodMs, resetTimers_indices,
      ← Sched.entry_periodMs, show t₀ + phase s.pgns i - t₀ = phase s.pgns i by grind]
    exact reset_phase hn hp hi'
  · intro e he; simp [Sched.resetTimers] at he
  · intro e he; simp [Sched.resetTimers] at he
  · intro e he; simp [Sched.resetTimers] at he
  · simp [Sched.resetTimers]

/-- The backlog promise for a run of 1 ms ticks after a reset at `t₀`. -/
def BacklogBounded (s : Sched) (t₀ : UInt32) (inputs : List MsInput) : Prop :=
  Mealy.Always (fun st i => BoundedTick i.store st.2 (st.1 + 1) i.link) msStep
    (t₀, s.resetTimers t₀) inputs

/-- **The backlog is bounded in unblocked runs.** For every set of single-frame
    PGNs and every run of 1 ms ticks that are all unblocked, each with its own
    store, after each tick the queue holds at most one frame of each PGN, and no
    due frame is dropped while the queue holds an expired one. -/
theorem backlog_bounded (s : Sched) (hn : s.indices.Nodup)
    (hp : ∀ p ∈ s.indices, p < pgnCount) (hs : ∀ p ∈ s.indices, pgnNeedsTp (pgnAt p) = false)
    (t₀ : UInt32) (inputs : List MsInput)
    (hu : Mealy.Always (fun st i => Unblocked i.store st.2 (st.1 + 1) i.link) msStep
      (t₀, s.resetTimers t₀) inputs) : BacklogBounded s t₀ inputs :=
  Mealy.Always.of_invariant (fun st => Caught st.1 st.2)
    (fun _ _ hc hu => hc.tick hu) (Caught.reset hn hp hs t₀) inputs hu

/-! ### An outage -/

/-- Ticks with the store that owns one record in each of the two PGNs. -/
def outageTicks (n : ℕ) (answer : LinkStatus) : List MsInput :=
  List.replicate n ⟨twoPgnStore, fun _ => answer⟩

/-- A link that accepts everything, then refuses everything for 25 ms, then
    accepts again, while the store is emptied for the last ten ticks: every tick
    is unblocked, also the one that clears the expired frame. -/
theorem backlog_bounded_recovery :
    BacklogBounded twoPgnSched 0xFFFFFFF0
      (outageTicks 19 .ok ++ outageTicks 25 .busy ++ outageTicks 20 .ok ++
        List.replicate 10 ⟨init, fun _ => .ok⟩) :=
  backlog_bounded twoPgnSched (by decide) (by decide) (by decide) 0xFFFFFFF0 _
    (by decide +kernel)

/-- The state before the last tick of an outage of 100 ms. -/
def outageState : UInt32 × Sched :=
  (Mealy.run msStep (0, twoPgnSched.resetTimers 0) (outageTicks 99 .busy)).1

/-- Its last tick leaves two frames of `0xF003`. -/
theorem outage_two_frames :
    1 < ((tick twoPgnStore (outageState.1 + 1) (fun _ => .busy) outageState.2).sched.queue.filter
      fun e => outageState.2.indices[e.pgnSlot]? = some 5).length := by
  decide +kernel

theorem BacklogBounded.last {s : Sched} {t₀ : UInt32} {inputs : List MsInput} {i : MsInput}
    (h : BacklogBounded s t₀ (inputs ++ [i])) :
    let st := (Mealy.run msStep (t₀, s.resetTimers t₀) inputs).1
    BoundedTick i.store st.2 (st.1 + 1) i.link :=
  Mealy.Always.last inputs h

/-- The fast PGN stays at the front of the queue, so a link that refuses
    everything leaves the expired frame of the slow PGN behind it: after 100 ms
    the queue holds two frames of `0xF003`. -/
theorem backlog_unbounded :
    twoPgnSched.indices.Nodup ∧ (∀ p ∈ twoPgnSched.indices, p < pgnCount) ∧
      (∀ p ∈ twoPgnSched.indices, pgnNeedsTp (pgnAt p) = false) ∧
      ¬ BacklogBounded twoPgnSched 0 (outageTicks 100 .busy) := by
  refine ⟨by decide, by decide, by decide, fun h => ?_⟩
  have hsplit : outageTicks 100 .busy =
      outageTicks 99 .busy ++ [⟨twoPgnStore, fun _ => .busy⟩] := List.replicate_succ'
  rw [hsplit] at h
  have hlast := h.last
  dsimp only at hlast
  rw [← outageState] at hlast
  exact absurd (hlast.1 5) (not_le.mpr outage_two_frames)

end J1939Gen.Scheduler
