import J1939Gen.Scheduler.Backlog
import J1939Gen.Scheduler.Grid

/-!
# Phase spreading bounds bursts

The phases `J1939_Sched_Reset_Timers` gives to the PGNs of one period are
pairwise different, so with a tick every millisecond at most one of them is due
at a time, the queue never fills and an accepting link empties it every tick.

`prv_drain_queue` waits for `s_tx_retry_not_before_ms`, which only the reset and
a refused frame set. It compares with `prv_time_reached`, so a gate that no
refusal renews closes again `2 ^ 31` ms after the reset.

* `phase_injective`: the phases.
* `Filling.schedule`, `drainLoop_all`: the second loop and the drain of a tick.
* `Clear.tick`, `Clear.closed`: one tick with the gate open, and with it closed.

Main result `phases_spread_iff`.
-/

namespace J1939Gen.Scheduler

open SerialClock ValueStore PeriodicGrid

/-! ## Phases -/

/-- A period has at least as many milliseconds as the catalog has PGNs with it. -/
theorem peers_le_period : ∀ p ∈ List.range pgnCount,
    ((List.range pgnCount).filter fun q => (pgnAt q).periodMs = (pgnAt p).periodMs).length ≤
      (pgnAt p).periodMs.toNat := by
  decide +kernel

theorem phasePeers_eq (s : Sched) (i : ℕ) :
    phasePeers s.pgns i =
      (s.indices.filter fun q => (pgnAt q).periodMs = (s.entry i).periodMs).length := by
  have hmap : s.indices = (List.range s.pgns.length).map fun j => (s.entry j).catalogPgnIndex := by
    refine List.ext_getElem (by simp [Sched.indices]) fun j h1 h2 => ?_
    have hj : j < s.pgns.length := by simpa using h2
    simp [Sched.indices, Sched.entry, hj]
  rw [hmap, List.filter_map, List.length_map]
  rfl

section Phase

variable {s : Sched} {i j : ℕ}

theorem phasePeers_le (hn : s.indices.Nodup) (hp : ∀ p ∈ s.indices, p < pgnCount)
    (hi : i < s.pgns.length) : phasePeers s.pgns i ≤ (s.entry i).periodMs.toNat := by
  have hin : (s.entry i).catalogPgnIndex ∈ s.indices := by
    rw [Sched.indices, Sched.entry, List.getD_eq_getElem _ _ hi]
    exact List.mem_map_of_mem (List.getElem_mem hi)
  have hpeers := peers_le_period _ (List.mem_range.mpr (hp _ hin))
  rw [phasePeers_eq]
  refine le_trans (List.Subperm.length_le ?_) hpeers
  refine List.subperm_of_subset (hn.filter _) fun q hq => ?_
  obtain ⟨hq, hperiod⟩ := List.mem_filter.mp hq
  exact List.mem_filter.mpr ⟨List.mem_range.mpr (hp q hq), hperiod⟩

theorem phase_lt (hn : s.indices.Nodup) (hp : ∀ p ∈ s.indices, p < pgnCount) (hij : i < j)
    (hj : j < s.pgns.length) (hperiod : (s.entry i).periodMs = (s.entry j).periodMs) :
    (phase s.pgns i).toNat < (phase s.pgns j).toNat := by
  have hlen : s.pgns.length ≤ pgnCount := by
    rw [s.length_pgns]
    exact length_le_of_nodup hn hp
  have hi : i < s.pgns.length := by omega
  have hrank : phaseRank s.pgns i < phaseRank s.pgns j := phaseRank_lt hij hperiod
  have hpeers : phasePeers s.pgns i = phasePeers s.pgns j := by
    rw [phasePeers_eq, phasePeers_eq, hperiod]
  have hle := phasePeers_le hn hp hj
  have hpos := phaseRank_lt_peers hj
  have hlast : (s.pgns.getD i default).periodMs = (s.pgns.getD j default).periodMs := hperiod
  rw [phase_toNat hlen hi, phase_toNat hlen hj, hpeers, hlast]
  have hper : (s.pgns.getD j default).periodMs = (s.entry j).periodMs := rfl
  rw [hper]
  set period := (s.entry j).periodMs.toNat
  set peers := phasePeers s.pgns j
  have hmul : (phaseRank s.pgns i + 1 + 1) * period ≤ (phaseRank s.pgns j + 1) * period :=
    Nat.mul_le_mul_right _ (by omega)
  rw [Nat.succ_mul] at hmul
  -- one rank more is one period more, which is at least one share
  calc ((phaseRank s.pgns i + 1) * period + peers - 1) / peers
      < ((phaseRank s.pgns i + 1) * period + peers - 1) / peers + 1 := Nat.lt_succ_self _
    _ = ((phaseRank s.pgns i + 1) * period + peers - 1 + peers) / peers :=
        (Nat.add_div_right _ (by omega)).symm
    _ ≤ ((phaseRank s.pgns j + 1) * period + peers - 1) / peers :=
        Nat.div_le_div_right (by omega)

/-- The phases of two PGNs of one period differ. -/
theorem phase_injective (hn : s.indices.Nodup) (hp : ∀ p ∈ s.indices, p < pgnCount)
    (hi : i < s.pgns.length) (hj : j < s.pgns.length)
    (hperiod : (s.entry i).periodMs = (s.entry j).periodMs)
    (h : (phase s.pgns i).toNat = (phase s.pgns j).toNat) : i = j := by
  rcases Nat.lt_trichotomy i j with hlt | heq | hgt
  · have := phase_lt hn hp hlt hj hperiod
    omega
  · exact heq
  · have := phase_lt hn hp hgt hi hperiod.symm
    omega

end Phase

/-! ## The second loop when every due slot is on time -/

/-- `prv_pack_pgn` finds an active record of PGN `p` for a frame. -/
def HasData (store : Store) (p : ℕ) : Prop := (packFrame store (pgnAt p)).2 = true

theorem OwnsActive.hasData {store : Store} {p : ℕ} (h : OwnsActive store p) (hp : p < pgnCount)
    (hs : pgnNeedsTp (pgnAt p) = false) : HasData store p :=
  packPgn_packs hp h (room_frame hs) _

/-- The slots below `m` whose frame a tick queues. -/
def Sched.frameSlots (store : Store) (s : Sched) (nowMs : UInt32) (m : ℕ) : List ℕ :=
  (List.range m).filter fun i => s.isDue nowMs i ∧ pgnNeedsTp (s.catalogPgn i) = false ∧
    (packFrame store (s.catalogPgn i)).2 = true

/-- What neither a queued nor a sent frame counts. -/
def Stats.losses (st : Stats) : UInt32 × UInt32 × UInt32 :=
  (st.dropped, st.expired, st.deadlineMissed)

/-- The second loop after the slots below `m`, from a state `s` with an empty queue. -/
structure Filling (store : Store) (nowMs : UInt32) (s : Sched) (m : ℕ) (t : Tick) : Prop where
  indices : t.sched.indices = s.indices
  ahead : ∀ i, m ≤ i → (t.sched.entry i).nextDueMs = (s.entry i).nextDueMs
  retry : t.sched.retryNotBeforeMs = s.retryNotBeforeMs
  losses : t.sched.stats.losses = s.stats.losses
  frames : (t.sched.queue.map TxEntry.pgnSlot).Perm (s.frameSlots store nowMs m)
  fresh : ∀ e ∈ t.sched.queue, e.expired nowMs = false
  events : NoHanded t.events

section Loop

variable {store : Store} {nowMs : UInt32} {s : Sched} {m : ℕ} {t : Tick}

theorem Filling.start (hq : s.queue = []) {t₀ : Tick} (h₀ : t₀.sched = s) (he : t₀.events = [])
    (hf : TpOnly t₀ t) : Filling store nowMs s 0 t where
  indices := by rw [hf.indices, h₀]
  ahead i _ := by rw [Sched.entry_nextDueMs, hf.dues, h₀, ← Sched.entry_nextDueMs]
  retry := by rw [hf.retry, h₀]
  losses := by rw [hf.stats, h₀]
  frames := by rw [hf.queue, h₀, hq]; exact .nil
  fresh e he' := by rw [hf.queue, h₀, hq] at he'; cases he'
  events := by
    obtain ⟨evs, hevs⟩ := hf.events
    rw [hevs, he]
    simp [NoHanded]

theorem frameSlots_succ (m : ℕ) :
    s.frameSlots store nowMs (m + 1) = s.frameSlots store nowMs m ++
      if s.isDue nowMs m ∧ pgnNeedsTp (s.catalogPgn m) = false ∧
        (packFrame store (s.catalogPgn m)).2 = true then [m] else [] := by
  unfold Sched.frameSlots
  rw [List.range_succ, List.filter_append, List.filter_singleton, Bool.cond_decide]

theorem frameSlots_mono {m n : ℕ} (h : m ≤ n) :
    (s.frameSlots store nowMs m).Sublist (s.frameSlots store nowMs n) :=
  (List.range_sublist.mpr h).filter _

theorem mem_frameSlots {i : ℕ} : i ∈ s.frameSlots store nowMs m ↔ i < m ∧ s.isDue nowMs i ∧
    pgnNeedsTp (s.catalogPgn i) = false ∧ (packFrame store (s.catalogPgn i)).2 = true := by
  rw [Sched.frameSlots, List.mem_filter, List.mem_range, decide_eq_true_eq]

/-- A frame that finds room is counted as enqueued only. -/
theorem offer_losses {frame : TxEntry} (h : t.sched.queue.length < txQueueCapacity) :
    (t.offer frame).sched.stats.losses = t.sched.stats.losses := by
  unfold Tick.offer Sched.enqueue
  rw [if_neg (not_le.mpr h)]
  rfl

/-- The slots the loop has not reached are those of the state before the tick. -/
theorem Filling.catalogPgn (h : Filling store nowMs s m t) :
    t.sched.catalogPgn m = s.catalogPgn m := by
  rw [Sched.catalogPgn, Sched.entry_catalogPgnIndex, h.indices, ← Sched.entry_catalogPgnIndex]
  rfl

theorem Filling.isDue_iff (h : Filling store nowMs s m t) :
    t.sched.isDue nowMs m ↔ s.isDue nowMs m := by
  have hper : (t.sched.entry m).periodMs = (s.entry m).periodMs := by
    rw [Sched.entry_periodMs, h.indices, ← Sched.entry_periodMs]
  rw [Sched.isDue, hper, h.ahead m le_rfl]
  rfl

/-- What one slot has to show for the loop to go on. -/
theorem Filling.step (h : Filling store nowMs s m t)
    (hretry : (scheduleSlot store nowMs t m).sched.retryNotBeforeMs = s.retryNotBeforeMs)
    (hlosses : (scheduleSlot store nowMs t m).sched.stats.losses = s.stats.losses)
    (hframes : ((scheduleSlot store nowMs t m).sched.queue.map TxEntry.pgnSlot).Perm
      (s.frameSlots store nowMs (m + 1)))
    (hfresh : ∀ e ∈ (scheduleSlot store nowMs t m).sched.queue, e.expired nowMs = false) :
    Filling store nowMs s (m + 1) (scheduleSlot store nowMs t m) where
  indices := by rw [scheduleSlot_indices, h.indices]
  ahead i hi := by rw [scheduleSlot_other (by omega), h.ahead i (by omega)]
  retry := hretry
  losses := hlosses
  frames := hframes
  fresh := hfresh
  events := scheduleSlot_noHanded store nowMs t m h.events

/-- A slot that is on time has skipped nothing. -/
theorem Filling.losses_advance (h : Filling store nowMs s m t)
    (hontime : (s.entry m).nextDueMs = nowMs) :
    (t.advance m nowMs).sched.stats.losses = s.stats.losses := by
  have hlate : (t.sched.entry m).periodsLate nowMs = 0 := by
    rw [PgnEntry.periodsLate, h.ahead m le_rfl, hontime, UInt32.sub_self, UInt32.zero_div]
  rw [← h.losses]
  simp only [Stats.losses, Tick.advance, hlate, UInt32.add_zero]

theorem Filling.not_due (h : Filling store nowMs s m t) (hdue : ¬ s.isDue nowMs m) :
    Filling store nowMs s (m + 1) (scheduleSlot store nowMs t m) := by
  have heq := scheduleSlot_of_not_due store (mt h.isDue_iff.mp hdue)
  refine h.step ?_ ?_ ?_ ?_ <;> rw [heq]
  · exact h.retry
  · exact h.losses
  · rw [frameSlots_succ, if_neg (fun hc => hdue hc.1), List.append_nil]
    exact h.frames
  · exact h.fresh

/-- A due slot without a frame, multi-packet or without data. -/
theorem Filling.no_frame (h : Filling store nowMs s m t) (hdue : s.isDue nowMs m)
    (hontime : (s.entry m).nextDueMs = nowMs)
    (hframe : ¬ (pgnNeedsTp (s.catalogPgn m) = false ∧
      (packFrame store (s.catalogPgn m)).2 = true)) :
    Filling store nowMs s (m + 1) (scheduleSlot store nowMs t m) := by
  obtain ⟨hp0, hr⟩ := h.isDue_iff.mpr hdue
  have htp : TpOnly (t.advance m nowMs) (scheduleSlot store nowMs t m) := by
    refine scheduleSlot_noFrame hp0 hr ?_
    rw [h.catalogPgn]
    simpa [Bool.not_eq_true, or_iff_not_imp_left] using hframe
  have hqueue : (t.advance m nowMs).sched.queue = t.sched.queue := rfl
  refine h.step ?_ ?_ ?_ ?_
  · rw [htp.retry]; exact h.retry
  · rw [htp.stats]; exact h.losses_advance hontime
  · rw [htp.queue, hqueue, frameSlots_succ, if_neg (fun hc => hframe hc.2), List.append_nil]
    exact h.frames
  · rw [htp.queue]; exact h.fresh

/-- A due slot with a frame, and room for it. -/
theorem Filling.frame (h : Filling store nowMs s m t) (hdue : s.isDue nowMs m)
    (hontime : (s.entry m).nextDueMs = nowMs) (htp : pgnNeedsTp (s.catalogPgn m) = false)
    (hpack : (packFrame store (s.catalogPgn m)).2 = true)
    (hroom : (s.frameSlots store nowMs (m + 1)).length ≤ txQueueCapacity) :
    Filling store nowMs s (m + 1) (scheduleSlot store nowMs t m) := by
  obtain ⟨hp0, hr⟩ := h.isDue_iff.mpr hdue
  have heq := scheduleSlot_offer store hp0 hr (by rw [h.catalogPgn]; exact htp)
    (by rw [h.catalogPgn]; exact hpack)
  have hqueue : (t.advance m nowMs).sched.queue = t.sched.queue := rfl
  have hslots : s.frameSlots store nowMs (m + 1) = s.frameSlots store nowMs m ++ [m] := by
    rw [frameSlots_succ, if_pos ⟨hdue, htp, hpack⟩]
  have hfree : (t.advance m nowMs).sched.queue.length < txQueueCapacity := by
    have hlen := h.frames.length_eq
    rw [hslots, List.length_append, List.length_singleton] at hroom
    rw [List.length_map] at hlen
    rw [hqueue]
    omega
  set frame := t.sched.newFrame store nowMs m with hf
  obtain ⟨hfull, -⟩ | ⟨-, -, -, -, pre, post, hq, -, hsched⟩ := offer_cases (t.advance m nowMs) frame
  · exact absurd hfree (not_lt.mpr hfull)
  have hnew : frame.expired nowMs = false := by
    refine not_expired_new (deadlineMs_on_time ((h.ahead m le_rfl).trans hontime)) ?_
    show 0 < (t.sched.entry m).periodMs.toNat
    exact Nat.pos_of_ne_zero fun h0 => hp0 (UInt16.toNat_inj.mp h0)
  refine h.step ?_ ?_ ?_ ?_
  · rw [heq, hsched]; exact h.retry
  · rw [heq, offer_losses hfree, h.losses_advance hontime]
  · rw [heq, hsched, hslots]
    have hperm := h.frames
    rw [← hqueue, hq, List.map_append] at hperm
    rw [List.map_append, List.map_cons]
    exact (List.perm_middle.trans (hperm.cons _)).trans (List.perm_append_singleton _ _).symm
  · rw [heq, hsched]
    intro e he
    rcases List.mem_append.mp he with he | he
    · exact h.fresh e (by rw [← hqueue, hq]; exact List.mem_append_left _ he)
    · rcases List.mem_cons.mp he with rfl | he
      · exact hnew
      · exact h.fresh e (by rw [← hqueue, hq]; exact List.mem_append_right _ he)

/-- One slot: nothing is late, and the queue has room. -/
theorem Filling.schedule (h : Filling store nowMs s m t)
    (hontime : s.isDue nowMs m → (s.entry m).nextDueMs = nowMs)
    (hroom : (s.frameSlots store nowMs (m + 1)).length ≤ txQueueCapacity) :
    Filling store nowMs s (m + 1) (scheduleSlot store nowMs t m) := by
  by_cases hdue : s.isDue nowMs m
  · by_cases hframe : pgnNeedsTp (s.catalogPgn m) = false ∧
        (packFrame store (s.catalogPgn m)).2 = true
    · exact h.frame hdue (hontime hdue) hframe.1 hframe.2 hroom
    · exact h.no_frame hdue (hontime hdue) hframe
  · exact h.not_due hdue

theorem Filling.foldl (h : Filling store nowMs s 0 t)
    (hontime : ∀ i < s.pgns.length, s.isDue nowMs i → (s.entry i).nextDueMs = nowMs)
    (hroom : (s.frameSlots store nowMs s.pgns.length).length ≤ txQueueCapacity) {m : ℕ}
    (hm : m ≤ s.pgns.length) :
    Filling store nowMs s m ((List.range m).foldl (scheduleSlot store nowMs) t) := by
  induction m with
  | zero => exact h
  | succ m ih =>
    rw [List.range_succ, List.foldl_append]
    exact (ih (by omega)).schedule (hontime m hm)
      ((frameSlots_mono hm).length_le.trans hroom)

end Loop

/-! ## The drain to an accepting link -/

/-- Fresh frames and a link that accepts everything leave the queue empty. -/
theorem drainLoop_all {nowMs : UInt32} {link : ℕ → LinkStatus} (hok : ∀ k, link k = .ok)
    {queue : List TxEntry} {t : Tick} (hq : t.sched.queue = queue)
    (hfresh : ∀ e ∈ queue, e.expired nowMs = false) :
    (drainLoop nowMs link queue t).sched.queue = [] ∧
      (drainLoop nowMs link queue t).sched.retryNotBeforeMs = t.sched.retryNotBeforeMs ∧
      (drainLoop nowMs link queue t).sched.stats.losses = t.sched.stats.losses ∧
      acceptedFrames (drainLoop nowMs link queue t).events =
        acceptedFrames t.events ++ queue := by
  induction queue generalizing t with
  | nil => exact ⟨hq, rfl, rfl, (List.append_nil _).symm⟩
  | cons frame rest ih =>
    rw [drainLoop, if_neg (by simp [hfresh frame List.mem_cons_self])]
    dsimp only
    rw [if_pos (hok _)]
    obtain ⟨h1, h2, h3, h4⟩ := ih
      (t := { t with
        sends := t.sends + 1
        events := t.events ++ [.handed frame (t.sched.frameOf frame) (link t.sends)]
        sched := ({ t.sched with
          stats := { t.sched.stats with sent := t.sched.stats.sent + 1 } } : Sched).popQueueFront
        result := { t.result with sent := t.result.sent + 1 } })
      (by simp [Sched.popQueueFront, hq]) fun e he => hfresh e (List.mem_cons_of_mem _ he)
    refine ⟨h1, h2, h3, h4.trans ?_⟩
    rw [acceptedFrames_append, hok]
    simp [acceptedFrames]

/-! ## Ticks every millisecond -/

/-- One tick a millisecond after `t₀`, and a link that accepts everything. -/
def MsTicks (t₀ : ℕ) (inputs : List TickInput) : Prop :=
  (t₀ :: inputs.map TickInput.now).IsChain (fun a b => b = a + 1) ∧
    ∀ i ∈ inputs, ∀ k, i.link k = .ok

/-- PGN `p` has a grid instant at `now`. -/
def AtInstant (first p now : ℕ) : Prop := ∃ k, first + k * (pgnAt p).periodMs.toNat = now

/-- A tick without a burst: the single-frame PGNs of one period are not
due together, the queue is empty afterwards, nothing is lost. -/
structure SpreadTick (s : Sched) (i : TickInput) : Prop where
  apart : ∀ a p b q, s.indices[a]? = some p → s.indices[b]? = some q →
    pgnNeedsTp (pgnAt p) = false → pgnNeedsTp (pgnAt q) = false →
    (pgnAt p).periodMs = (pgnAt q).periodMs →
    s.isDue (UInt32.ofNat i.now) a → s.isDue (UInt32.ofNat i.now) b → a = b
  empty : (tickStep s i).1.queue = []
  losses : (tickStep s i).1.stats.losses = s.stats.losses

/-- After the tick at `now` of a run since the reset at `t₀`: every slot waits for
its next grid instant, no frame is queued, and the gate is where the reset set it. -/
structure Clear (t₀ : ℕ) (phases : ℕ → ℕ) (now : ℕ) (s : Sched) : Prop where
  le : t₀ ≤ now
  bound : ∀ slot p, s.indices[slot]? = some p →
    1 ≤ phases slot ∧ phases slot ≤ (pgnAt p).periodMs.toNat
  distinct : ∀ a p b q, s.indices[a]? = some p → s.indices[b]? = some q →
    (pgnAt p).periodMs = (pgnAt q).periodMs → phases a = phases b → a = b
  grid : ∀ slot p, s.indices[slot]? = some p → ∃ k, OnGrid (t₀ + phases slot) p now k slot s
  queue : s.queue = []
  retry : s.retryNotBeforeMs = UInt32.ofNat t₀

theorem getElem?_indices {s : Sched} {slot : ℕ} (h : slot < s.pgns.length) :
    s.indices[slot]? = some (s.entry slot).catalogPgnIndex := by
  rw [s.entry_catalogPgnIndex, List.getD_eq_getElem _ _ (by rwa [← s.length_pgns]),
    List.getElem?_eq_getElem]

/-- The periods of single-frame PGNs are fewer than the queue has places. -/
theorem single_periods : (((List.range pgnCount).filter fun p => pgnNeedsTp (pgnAt p) = false).map
    fun p => (pgnAt p).periodMs).dedup.length ≤ txQueueCapacity := by
  decide +kernel

section Tick

variable {t₀ now : ℕ} {phases : ℕ → ℕ} {s : Sched}

theorem Clear.entry (h : Clear t₀ phases now s) {slot p : ℕ} (hs : s.indices[slot]? = some p) :
    slot < s.pgns.length ∧ (s.entry slot).catalogPgnIndex = p ∧
      (s.entry slot).periodMs = (pgnAt p).periodMs ∧ p < pgnCount := by
  obtain ⟨k, hk⟩ := h.grid slot p hs
  exact ⟨hk.slot_lt, hk.pgn, by rw [PgnEntry.periodMs, hk.pgn], hk.pgn_lt⟩

/-- A slot is due at the next tick exactly when that is one of its instants. -/
theorem Clear.isDue_iff (h : Clear t₀ phases now s) {slot p : ℕ} (hs : s.indices[slot]? = some p) :
    s.isDue (UInt32.ofNat (now + 1)) slot ↔ AtInstant (t₀ + phases slot) p (now + 1) := by
  obtain ⟨k, hk⟩ := h.grid slot p hs
  have hbound := (h.bound slot p hs).2
  have hp16 := (pgnAt p).periodMs.toNat_lt
  have hle := h.le
  have hahead := hk.next.ahead
  rw [hk.isDue_iff (by omega) (Nat.le_succ now) (by omega)]
  constructor
  · intro hcome
    exact ⟨k, by omega⟩
  · rintro ⟨j, hj⟩
    by_cases hjk : j < k
    · have := hk.next.past j hjk
      omega
    · have := Nat.mul_le_mul_right (pgnAt p).periodMs.toNat (not_lt.mp hjk)
      omega

theorem Clear.on_time (h : Clear t₀ phases now s) {slot : ℕ} (hslot : slot < s.pgns.length)
    (hdue : s.isDue (UInt32.ofNat (now + 1)) slot) :
    (s.entry slot).nextDueMs = UInt32.ofNat (now + 1) := by
  obtain ⟨k, hk⟩ := h.grid slot _ (getElem?_indices hslot)
  have hbound := (h.bound slot _ (getElem?_indices hslot)).2
  have hp16 := (s.entry slot).periodMs.toNat_lt
  have hle := h.le
  have hahead := hk.next.ahead
  have hcome := (hk.isDue_iff (by unfold PgnEntry.periodMs at hp16; omega) (Nat.le_succ now)
    (by omega)).mp hdue
  rw [hk.due]
  congr 1
  omega

/-- Two slots of one period never share an instant. -/
theorem Clear.apart (h : Clear t₀ phases now s) {a p b q : ℕ} (ha : s.indices[a]? = some p)
    (hb : s.indices[b]? = some q) (hperiod : (pgnAt p).periodMs = (pgnAt q).periodMs) {at' : ℕ}
    (hda : AtInstant (t₀ + phases a) p at') (hdb : AtInstant (t₀ + phases b) q at') : a = b := by
  refine h.distinct a p b q ha hb hperiod ?_
  obtain ⟨j, hj⟩ := hda
  obtain ⟨k, hk⟩ := hdb
  have hba := h.bound a p ha
  have hbb := h.bound b q hb
  rw [hperiod] at hj hba
  rcases Nat.lt_trichotomy j k with hlt | rfl | hgt
  · have := Nat.mul_le_mul_right (pgnAt q).periodMs.toNat (Nat.succ_le_of_lt hlt)
    rw [Nat.succ_mul] at this
    omega
  · omega
  · have := Nat.mul_le_mul_right (pgnAt q).periodMs.toNat (Nat.succ_le_of_lt hgt)
    rw [Nat.succ_mul] at this
    omega

/-- The frames of one tick fit the queue: at most one a period. -/
theorem Clear.room (h : Clear t₀ phases now s) (store : Store) (m : ℕ) (hm : m ≤ s.pgns.length) :
    (s.frameSlots store (UInt32.ofNat (now + 1)) m).length ≤ txQueueCapacity := by
  set slots := s.frameSlots store (UInt32.ofNat (now + 1)) m with hslots
  refine le_trans ?_ single_periods
  rw [← List.length_map fun i => (s.entry i).periodMs]
  refine List.Subperm.length_le (List.subperm_of_subset ?_ ?_)
  · refine List.Nodup.map_on ?_ (List.nodup_range.filter _)
    intro a ha b hb hab
    obtain ⟨hal, hda, -⟩ := mem_frameSlots.mp ha
    obtain ⟨hbl, hdb, -⟩ := mem_frameSlots.mp hb
    have hia := getElem?_indices (show a < s.pgns.length by omega)
    have hib := getElem?_indices (show b < s.pgns.length by omega)
    exact h.apart hia hib hab ((h.isDue_iff hia).mp hda) ((h.isDue_iff hib).mp hdb)
  · intro period hperiod
    obtain ⟨i, hi, rfl⟩ := List.mem_map.mp hperiod
    obtain ⟨hil, -, hs, -⟩ := mem_frameSlots.mp hi
    obtain ⟨-, -, -, hp⟩ := h.entry (getElem?_indices (show i < s.pgns.length by omega))
    refine List.mem_dedup.mpr (List.mem_map.mpr ⟨(s.entry i).catalogPgnIndex, ?_, rfl⟩)
    exact List.mem_filter.mpr ⟨List.mem_range.mpr hp, decide_eq_true hs⟩

/-- The second loop of a tick has queued one fresh frame a due slot. -/
theorem Clear.filled (h : Clear t₀ phases now s) (store : Store) :
    Filling store (UInt32.ofNat (now + 1)) s s.pgns.length
      (s.scheduled store (UInt32.ofNat (now + 1))) := by
  unfold Sched.scheduled
  exact (Filling.start h.queue rfl rfl (foldl_retryPending_frame store _ _ _)).foldl
    (fun i hi hdue => h.on_time hi hdue) (h.room store _ le_rfl) le_rfl

/-- The gate the reset set, at a later instant. -/
theorem gate_iff (h : t₀ ≤ now) :
    reached (UInt32.ofNat now) (UInt32.ofNat t₀) = true ↔ (now - t₀) % 2 ^ 32 < 2 ^ 31 := by
  rw [reached_iff, ofNat_sub_ofNat h, UInt32.toNat_ofNat']

theorem tickStep_indices (s : Sched) (i : TickInput) : (tickStep s i).1.indices = s.indices :=
  tick_indices i.store (UInt32.ofNat i.now) i.link s

/-- The slot of a PGN over one tick of this run. -/
theorem Clear.grid_tick (h : Clear t₀ phases now s) {i : TickInput} (hi : i.now = now + 1)
    {slot p k : ℕ} (hs : s.indices[slot]? = some p) (hk : OnGrid (t₀ + phases slot) p now k slot s) :
    (AtInstant (t₀ + phases slot) p i.now →
        OnGrid (t₀ + phases slot) p i.now (k + 1) slot (tickStep s i).1) ∧
      (¬ AtInstant (t₀ + phases slot) p i.now →
        OnGrid (t₀ + phases slot) p i.now k slot (tickStep s i).1) := by
  have hbound := (h.bound slot p hs).2
  have hp16 := (pgnAt p).periodMs.toNat_lt
  have hle := h.le
  have hfirst : t₀ + phases slot ≤ now + 65535 := by omega
  have hahead := hk.next.ahead
  have hinst : s.isDue (UInt32.ofNat i.now) slot ↔ AtInstant (t₀ + phases slot) p i.now := by
    rw [hi]; exact h.isDue_iff hs
  have hcome : s.isDue (UInt32.ofNat i.now) slot ↔
      t₀ + phases slot + k * (pgnAt p).periodMs.toNat ≤ i.now :=
    hk.isDue_iff hfirst (by omega) (by omega)
  have hdue := hcome.symm.trans hinst
  constructor
  · intro hat
    have hmoves := hk.tick_moves hfirst (by omega) (by omega) (hdue.mpr hat) i.store i.link
    rwa [show i.now - (t₀ + phases slot + k * (pgnAt p).periodMs.toNat) = 0 by omega,
      Nat.zero_div, Nat.add_zero] at hmoves
  · intro hat
    exact hk.tick_waits hfirst (by omega) (by omega) (not_le.mp (mt hdue.mp hat)) i.store i.link

/-- **One tick with the gate open**, or with nothing to send. -/
theorem Clear.tick (h : Clear t₀ phases now s) {i : TickInput} (hi : i.now = now + 1)
    (hok : ∀ k, i.link k = .ok)
    (hgate : s.frameSlots i.store (UInt32.ofNat i.now) s.pgns.length = [] ∨
      (i.now - t₀) % 2 ^ 32 < 2 ^ 31) :
    SpreadTick s i ∧ Clear t₀ phases i.now (tickStep s i).1 ∧
      ((acceptedFrames (tickStep s i).2).map TxEntry.pgnSlot).Perm
        (s.frameSlots i.store (UInt32.ofNat i.now) s.pgns.length) := by
  have hfill := h.filled i.store
  rw [← hi] at hfill
  set t := s.scheduled i.store (UInt32.ofNat i.now) with ht
  have hdrain : drainQueue (UInt32.ofNat i.now) i.link t =
      drainLoop (UInt32.ofNat i.now) i.link t.sched.queue t := by
    refine if_neg fun hclosed => ?_
    rcases hgate with hnone | hopen
    · have hlen := hfill.frames.length_eq
      rw [hnone, List.length_map, List.length_nil] at hlen
      omega
    · have hle := h.le
      rw [hfill.retry, h.retry, (gate_iff (by omega)).mpr hopen] at hclosed
      exact absurd hclosed.2 (by decide)
  obtain ⟨hq, hretry, hloss, hsent⟩ := drainLoop_all hok (t := t) rfl hfill.fresh
  have htp := processTp_frame (UInt32.ofNat i.now) i.link
    (drainLoop (UInt32.ofNat i.now) i.link t.sched.queue t)
  have hstep : Scheduler.tick i.store (UInt32.ofNat i.now) i.link s = processTp (UInt32.ofNat i.now) i.link
      (drainLoop (UInt32.ofNat i.now) i.link t.sched.queue t) := by
    rw [tick_eq, ← hdrain]
  have hqueue : (tickStep s i).1.queue = [] := by
    show (Scheduler.tick _ _ _ _).sched.queue = _
    rw [hstep, htp.queue, hq]
  refine ⟨⟨?_, hqueue, ?_⟩, ⟨?_, ?_, ?_, ?_, hqueue, ?_⟩, ?_⟩
  · intro a p b q ha hb _ _ hperiod hda hdb
    rw [hi] at hda hdb
    exact h.apart ha hb hperiod ((h.isDue_iff ha).mp hda) ((h.isDue_iff hb).mp hdb)
  · show (Scheduler.tick _ _ _ _).sched.stats.losses = _
    rw [hstep, htp.stats, hloss, hfill.losses]
  · have := h.le
    omega
  · rw [tickStep_indices]; exact h.bound
  · rw [tickStep_indices]; exact h.distinct
  · intro slot p hs
    rw [tickStep_indices] at hs
    obtain ⟨k, hk⟩ := h.grid slot p hs
    obtain ⟨hat, hno⟩ := h.grid_tick hi hs hk
    by_cases hinst : AtInstant (t₀ + phases slot) p i.now
    · exact ⟨k + 1, hat hinst⟩
    · exact ⟨k, hno hinst⟩
  · show (Scheduler.tick _ _ _ _).sched.retryNotBeforeMs = _
    rw [hstep, htp.retry, hretry, hfill.retry, h.retry]
  · obtain ⟨evs, hevs⟩ := htp.events
    have hevents : acceptedFrames (tickStep s i).2 = t.sched.queue := by
      show acceptedFrames (Scheduler.tick _ _ _ _).events = _
      rw [hstep, hevs, acceptedFrames_append, acceptedFrames_tp, List.append_nil, hsent,
        hfill.events.accepted, List.nil_append]
    rw [hevents]
    exact hfill.frames

/-- **One tick with the gate closed**: a due frame stays in the queue. -/
theorem Clear.closed (h : Clear t₀ phases now s) {i : TickInput} (hi : i.now = now + 1)
    (hdue : s.frameSlots i.store (UInt32.ofNat i.now) s.pgns.length ≠ [])
    (hgate : ¬ (i.now - t₀) % 2 ^ 32 < 2 ^ 31) : (tickStep s i).1.queue ≠ [] := by
  have hfill := h.filled i.store
  rw [← hi] at hfill
  set t := s.scheduled i.store (UInt32.ofNat i.now) with ht
  have hle := h.le
  have hne : t.sched.queue ≠ [] := by
    intro hnil
    have := hfill.frames
    rw [hnil, List.map_nil, List.nil_perm] at this
    exact hdue this
  have hwait : reached (UInt32.ofNat i.now) t.sched.retryNotBeforeMs = false := by
    rw [hfill.retry, h.retry, ← Bool.not_eq_true, gate_iff (by omega)]
    exact hgate
  have hdrain : drainQueue (UInt32.ofNat i.now) i.link t = t :=
    if_pos ⟨List.length_pos_iff.mpr hne, hwait⟩
  show (Scheduler.tick _ _ _ _).sched.queue ≠ []
  rw [tick_eq, ← ht, hdrain, (processTp_frame _ _ _).queue]
  exact hne

end Tick

/-! ## Runs -/

/-- Whenever a single-frame PGN with something to send has an instant, the gate the
reset set at `t₀` reads as passed. -/
def GateOpen (indices : List ℕ) (t₀ : ℕ) (phases : ℕ → ℕ) (inputs : List TickInput) : Prop :=
  ∀ i ∈ inputs, ∀ slot p, indices[slot]? = some p → pgnNeedsTp (pgnAt p) = false →
    HasData i.store p → AtInstant (t₀ + phases slot) p i.now → (i.now - t₀) % 2 ^ 32 < 2 ^ 31

section Run

variable {t₀ now : ℕ} {phases : ℕ → ℕ} {s : Sched}

theorem MsTicks.cons {i : TickInput} {inputs : List TickInput} (h : MsTicks now (i :: inputs)) :
    i.now = now + 1 ∧ (∀ k, i.link k = .ok) ∧ MsTicks i.now inputs := by
  obtain ⟨hchain, hok⟩ := h
  rw [List.map_cons, List.isChain_cons_cons] at hchain
  exact ⟨hchain.1, hok i List.mem_cons_self, hchain.2, fun j hj => hok j (List.mem_cons_of_mem _ hj)⟩

/-- The slots whose frames the next tick queues are the ones with an instant. -/
theorem Clear.mem_frameSlots (h : Clear t₀ phases now s) {i : TickInput} (hi : i.now = now + 1)
    {slot p : ℕ} (hs : s.indices[slot]? = some p) :
    slot ∈ s.frameSlots i.store (UInt32.ofNat i.now) s.pgns.length ↔
      AtInstant (t₀ + phases slot) p i.now ∧ pgnNeedsTp (pgnAt p) = false ∧ HasData i.store p := by
  obtain ⟨hlt, hp, -, -⟩ := h.entry hs
  have hcat : s.catalogPgn slot = pgnAt p := by rw [Sched.catalogPgn, hp]
  rw [Scheduler.mem_frameSlots, hcat, hi, h.isDue_iff hs]
  exact and_iff_right hlt

theorem Clear.gate (h : Clear t₀ phases now s) {i : TickInput} (hi : i.now = now + 1)
    (hgate : GateOpen s.indices t₀ phases [i]) :
    s.frameSlots i.store (UInt32.ofNat i.now) s.pgns.length = [] ∨
      (i.now - t₀) % 2 ^ 32 < 2 ^ 31 := by
  by_cases hnone : s.frameSlots i.store (UInt32.ofNat i.now) s.pgns.length = []
  · exact .inl hnone
  obtain ⟨slot, hslot⟩ := List.exists_mem_of_ne_nil _ hnone
  have hs := getElem?_indices (Scheduler.mem_frameSlots.mp hslot).1
  obtain ⟨hat, hsingle, hdata⟩ := (h.mem_frameSlots hi hs).mp hslot
  exact .inr (hgate i (List.mem_singleton.mpr rfl) slot _ hs hsingle hdata hat)

theorem gateOpen_cons {indices : List ℕ} {i : TickInput} {inputs : List TickInput} :
    GateOpen indices t₀ phases (i :: inputs) ↔
      GateOpen indices t₀ phases [i] ∧ GateOpen indices t₀ phases inputs := by
  simp only [GateOpen, List.forall_mem_cons, List.not_mem_nil, false_imp_iff, implies_true, and_true]

/-- **Every run**: no tick has a burst exactly when the gate is open at every frame,
by induction on the ticks. -/
theorem Clear.ticks_iff (h : Clear t₀ phases now s) (inputs : List TickInput)
    (hticks : MsTicks now inputs) :
    Mealy.Always SpreadTick tickStep s inputs ↔ GateOpen s.indices t₀ phases inputs := by
  induction inputs generalizing now s with
  | nil => exact ⟨fun _ i hi => absurd hi List.not_mem_nil, fun _ => trivial⟩
  | cons i inputs ih =>
    obtain ⟨hi, hok, hrest⟩ := hticks.cons
    rw [gateOpen_cons]
    constructor
    · rintro ⟨hspread, hlater⟩
      have hgate : GateOpen s.indices t₀ phases [i] := by
        intro j hj slot p hs hsingle hdata hat
        obtain rfl := List.mem_singleton.mp hj
        by_contra hclosed
        have hmem := (h.mem_frameSlots hi hs).mpr ⟨hat, hsingle, hdata⟩
        exact h.closed hi (List.ne_nil_of_mem hmem) hclosed hspread.empty
      obtain ⟨-, hclear, -⟩ := h.tick hi hok (h.gate hi hgate)
      exact ⟨hgate, tickStep_indices s i ▸ (ih hclear hrest).mp hlater⟩
    · rintro ⟨hgate, hlater⟩
      obtain ⟨hspread, hclear, -⟩ := h.tick hi hok (h.gate hi hgate)
      exact ⟨hspread, (ih hclear hrest).mpr (tickStep_indices s i ▸ hlater)⟩

/-- A PGN that always has something to send is sent at each of its instants. -/
theorem Clear.sent (h : Clear t₀ phases now s) (inputs : List TickInput)
    (hticks : MsTicks now inputs) (hgate : GateOpen s.indices t₀ phases inputs) {slot p k : ℕ}
    (hs : s.indices[slot]? = some p) (hsingle : pgnNeedsTp (pgnAt p) = false)
    (hdata : ∀ i ∈ inputs, HasData i.store p) (hk : OnGrid (t₀ + phases slot) p now k slot s) :
    ∃ k', OnGrid (t₀ + phases slot) p (now + inputs.length) k' slot
        (Mealy.run tickStep s inputs).1 ∧
      k' = k + (acceptedFrames (Mealy.run tickStep s inputs).2.flatten).countP fun e =>
        e.pgnSlot = slot := by
  induction inputs generalizing now s k with
  | nil => exact ⟨k, hk, rfl⟩
  | cons i inputs ih =>
    obtain ⟨hi, hok, hrest⟩ := hticks.cons
    obtain ⟨hnow, hlater⟩ := gateOpen_cons.mp hgate
    obtain ⟨-, hclear, hframes⟩ := h.tick hi hok (h.gate hi hnow)
    obtain ⟨hat, hno⟩ := h.grid_tick hi hs hk
    -- the slot sends one frame at its instants and none between them
    have hcount : (acceptedFrames (tickStep s i).2).countP (fun e => e.pgnSlot = slot) =
        (s.frameSlots i.store (UInt32.ofNat i.now) s.pgns.length).count slot := by
      rw [← hframes.count_eq, List.count_eq_countP, List.countP_map]
      exact List.countP_congr fun e _ => by simp
    have hnodup : (s.frameSlots i.store (UInt32.ofNat i.now) s.pgns.length).Nodup :=
      List.nodup_range.filter _
    obtain ⟨k₁, hk₁, hk₁'⟩ : ∃ k₁, OnGrid (t₀ + phases slot) p i.now k₁ slot (tickStep s i).1 ∧
        k₁ = k + (acceptedFrames (tickStep s i).2).countP fun e => e.pgnSlot = slot := by
      rw [hcount]
      by_cases hinst : AtInstant (t₀ + phases slot) p i.now
      · refine ⟨k + 1, hat hinst, ?_⟩
        rw [List.count_eq_one_of_mem hnodup
          ((h.mem_frameSlots hi hs).mpr ⟨hinst, hsingle, hdata i List.mem_cons_self⟩)]
      · refine ⟨k, hno hinst, ?_⟩
        rw [List.count_eq_zero_of_not_mem fun hmem => hinst ((h.mem_frameSlots hi hs).mp hmem).1,
          Nat.add_zero]
    obtain ⟨k', hk', heq⟩ := ih hclear hrest (tickStep_indices s i ▸ hlater)
      (by rw [tickStep_indices]; exact hs) (fun j hj => hdata j (List.mem_cons_of_mem _ hj)) hk₁
    refine ⟨k', ?_, ?_⟩
    · rw [Mealy.run_cons, List.length_cons, show now + (inputs.length + 1) = i.now + inputs.length by
        omega]
      exact hk'
    · rw [Mealy.run_cons, List.flatten_cons, acceptedFrames_append, List.countP_append, heq, hk₁',
        Nat.add_assoc]

end Run

/-! ### Runs after a reset -/

theorem Clear.reset {s : Sched} (hn : s.indices.Nodup) (hp : ∀ p ∈ s.indices, p < pgnCount) (t₀ : ℕ) :
    Clear t₀ (fun slot => (phase s.pgns slot).toNat) t₀ (s.resetTimers (UInt32.ofNat t₀)) := by
  have hslot : ∀ {slot p}, s.indices[slot]? = some p → slot < s.pgns.length ∧
      (s.entry slot).catalogPgnIndex = p := by
    intro slot p hs
    obtain ⟨hlt, heq⟩ := List.getElem?_eq_some_iff.mp hs
    refine ⟨by rwa [← s.length_pgns] at hlt, ?_⟩
    rw [s.entry_catalogPgnIndex, List.getD_eq_getElem _ _ hlt, heq]
  refine ⟨le_rfl, ?_, ?_, ?_, rfl, rfl⟩
  · intro slot p hs
    rw [resetTimers_indices] at hs
    obtain ⟨hlt, hpgn⟩ := hslot hs
    have := reset_phase hn hp hlt
    rwa [PgnEntry.periodMs, hpgn] at this
  · intro a p b q ha hb hperiod hphase
    rw [resetTimers_indices] at ha hb
    obtain ⟨hla, hpa⟩ := hslot ha
    obtain ⟨hlb, hpb⟩ := hslot hb
    refine phase_injective hn hp hla hlb ?_ hphase
    rw [PgnEntry.periodMs, PgnEntry.periodMs, hpa, hpb, hperiod]
  · intro slot p hs
    rw [resetTimers_indices] at hs
    obtain ⟨hlt, hpgn⟩ := hslot hs
    exact ⟨0, hpgn ▸ OnGrid.reset hn hp hlt t₀⟩

/-- What phase spreading promises for a run of ticks after a reset at `t₀`. -/
structure PhasesSpread (s : Sched) (t₀ : ℕ) (inputs : List TickInput) : Prop where
  bound : ∀ slot p, s.indices[slot]? = some p →
    1 ≤ (phase s.pgns slot).toNat ∧ (phase s.pgns slot).toNat ≤ (pgnAt p).periodMs.toNat
  distinct : ∀ a p b q, s.indices[a]? = some p → s.indices[b]? = some q →
    (pgnAt p).periodMs = (pgnAt q).periodMs → a ≠ b → phase s.pgns a ≠ phase s.pgns b
  ticks : Mealy.Always SpreadTick tickStep (s.resetTimers (UInt32.ofNat t₀)) inputs
  sent : ∀ slot p, s.indices[slot]? = some p → pgnNeedsTp (pgnAt p) = false →
    (∀ i ∈ inputs, HasData i.store p) →
    ((acceptedFrames (Mealy.run tickStep (s.resetTimers (UInt32.ofNat t₀)) inputs).2.flatten).countP
      fun e => e.pgnSlot = slot) =
        count (t₀ + (phase s.pgns slot).toNat) (pgnAt p).periodMs.toNat (t₀ + inputs.length)

/-- The phases of a table are spread, and its ticks are as promised only while the
gate is open. -/
theorem PhasesSpread.gateOpen {s : Sched} {t₀ : ℕ} {inputs : List TickInput}
    (h : PhasesSpread s t₀ inputs) (hn : s.indices.Nodup) (hp : ∀ p ∈ s.indices, p < pgnCount)
    (hticks : MsTicks t₀ inputs) :
    GateOpen s.indices t₀ (fun slot => (phase s.pgns slot).toNat) inputs := by
  have := ((Clear.reset hn hp t₀).ticks_iff inputs hticks).mp h.ticks
  rwa [resetTimers_indices] at this

/-- **Phase spreading bounds bursts while the gate is open.** For every set of PGNs
and a tick every millisecond with an accepting link, whatever the stores hold: the
phases of one period are distinct, at most one single-frame PGN a period is due at
a time, the queue is empty after every tick, nothing is lost and every PGN is sent
at each of its instants, if and only if no frame comes due while the retry gate of
the reset reads as still to come, from `2 ^ 31` to `2 ^ 32` ms after it. -/
theorem phases_spread_iff (s : Sched) (hn : s.indices.Nodup) (hp : ∀ p ∈ s.indices, p < pgnCount)
    (t₀ : ℕ) (inputs : List TickInput) (hticks : MsTicks t₀ inputs) :
    PhasesSpread s t₀ inputs ↔
      ∀ i ∈ inputs, ∀ slot p, s.indices[slot]? = some p → pgnNeedsTp (pgnAt p) = false →
        HasData i.store p → AtInstant (t₀ + (phase s.pgns slot).toNat) p i.now →
        (i.now - t₀) % 2 ^ 32 < 2 ^ 31 := by
  have hclear := Clear.reset hn hp t₀
  have hidx : (s.resetTimers (UInt32.ofNat t₀)).indices = s.indices := resetTimers_indices _
  constructor
  · exact fun h => h.gateOpen hn hp hticks
  · intro hgate
    refine ⟨?_, ?_, ?_, ?_⟩
    · intro slot p hs
      exact hclear.bound slot p (by rw [hidx]; exact hs)
    · intro a p b q ha hb hperiod hne heq
      exact hne (hclear.distinct a p b q (by rw [hidx]; exact ha) (by rw [hidx]; exact hb) hperiod
        (by rw [heq]))
    · rw [hclear.ticks_iff inputs hticks, hidx]
      exact hgate
    · intro slot p hs hsingle hdata
      have hs' : (s.resetTimers (UInt32.ofNat t₀)).indices[slot]? = some p := by rw [hidx]; exact hs
      obtain ⟨hlt, hpgn, -, hpc⟩ := hclear.entry hs'
      have hlt' : slot < s.pgns.length := by simpa [Sched.resetTimers] using hlt
      have hreset := OnGrid.reset hn hp hlt' t₀
      have hpgn' : (s.entry slot).catalogPgnIndex = p := by
        rw [← hpgn, Sched.entry_catalogPgnIndex, Sched.entry_catalogPgnIndex, hidx]
      rw [hpgn'] at hreset
      obtain ⟨k', hk', heq⟩ := hclear.sent inputs hticks (by rw [hidx]; exact hgate) hs' hsingle hdata
        hreset
      rw [hk'.next.count_eq (pgn_periodic hpc).1, heq, Nat.zero_add]

/-! ### The gate closes again -/

/-- `n` ticks, one a millisecond after `t₀`. -/
def msRun (store : Store) (t₀ n : ℕ) : List TickInput :=
  (List.range n).map fun k => ⟨store, t₀ + k + 1, fun _ => .ok⟩

theorem msTicks_msRun (store : Store) (t₀ n : ℕ) : MsTicks t₀ (msRun store t₀ n) := by
  constructor
  · rw [List.isChain_iff_getElem]
    intro j hj
    cases j with
    | zero => simp [msRun]
    | succ j => simp [msRun]; omega
  · intro i hi k
    obtain ⟨m, -, rfl⟩ := List.mem_map.mp hi
    rfl

theorem exists_mem_msRun (store : Store) (t₀ : ℕ) {n k : ℕ} (h : k < n) :
    ∃ i ∈ msRun store t₀ n, i.store = store ∧ i.now = t₀ + k + 1 :=
  ⟨_, List.mem_map.mpr ⟨k, List.mem_range.mpr h, rfl⟩, rfl, rfl⟩

/-- Twenty milliseconds of the two PGNs. -/
theorem phases_spread_twenty :
    PhasesSpread twoPgnSched 100 (msRun twoPgnStore 100 20) ↔
      ∀ i ∈ msRun twoPgnStore 100 20, ∀ slot p, twoPgnSched.indices[slot]? = some p →
        pgnNeedsTp (pgnAt p) = false → HasData i.store p →
        AtInstant (100 + (phase twoPgnSched.pgns slot).toNat) p i.now →
        (i.now - 100) % 2 ^ 32 < 2 ^ 31 :=
  phases_spread_iff _ (by decide) (by decide) 100 _ (msTicks_msRun ..)

/-- The frame due `2 ^ 31 + 12` ms after the reset stays in the queue. -/
theorem phases_spread_stalled {n : ℕ} (hn : 2 ^ 31 + 12 ≤ n) :
    ¬ PhasesSpread twoPgnSched 0 (msRun twoPgnStore 0 n) := by
  intro h
  have hgate := h.gateOpen (by decide) (by decide) (msTicks_msRun _ _ _)
  have hphase : (phase twoPgnSched.pgns 0).toNat = 20 := by decide
  have hperiod : (pgnAt 9).periodMs.toNat = 20 := by decide
  obtain ⟨i, hi, hstore, hnow⟩ := exists_mem_msRun twoPgnStore 0
    (show 2 ^ 31 + 11 < n by omega)
  have hat : AtInstant (0 + (phase twoPgnSched.pgns 0).toNat) 9 i.now := by
    refine ⟨107374182, ?_⟩
    rw [hphase, hperiod, hnow]
    omega
  have hdata : HasData i.store 9 := by
    rw [hstore]
    exact twoPgnStore_owns.hasData (by decide) (by decide)
  have hopen := hgate i hi 0 9 (by decide) (by decide) hdata hat
  rw [hnow] at hopen
  omega

/-- A run of 25 days: the tables are as the code builds them, the link accepts
everything, and the promise fails. -/
theorem phases_not_spread :
    twoPgnSched.indices.Nodup ∧ (∀ p ∈ twoPgnSched.indices, p < pgnCount) ∧
      OwnsActive twoPgnStore 9 ∧ MsTicks 0 (msRun twoPgnStore 0 2160000000) ∧
      ¬ PhasesSpread twoPgnSched 0 (msRun twoPgnStore 0 2160000000) :=
  ⟨by decide, by decide, twoPgnStore_owns, msTicks_msRun _ _ _, phases_spread_stalled (by omega)⟩

end J1939Gen.Scheduler
