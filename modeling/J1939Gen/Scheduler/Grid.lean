import J1939Gen.Scheduler.Freshness
import J1939Gen.Scheduler.Packing
import J1939Gen.Lib.PeriodicGrid

/-!
# No drift and no lost slot

After `J1939_Sched_Reset_Timers` the due times of a PGN form a grid: its phase,
then one instant a period. Ticks may come at any instants, as long as two of
them are less than `2 ^ 31` ms apart; the clock may wrap any number of times.

`placement` names what the second loop of a tick did with a due slot, and
`placement_spec` says what each name stands for.

* `scheduleSlot_of_due`: what the turn of a due slot moves.
* `OnGrid.tick_waits`, `OnGrid.tick_moves`, `OnGrid.tick`: one tick.

Main result `no_drift`.
-/

namespace J1939Gen.Scheduler

open SerialClock ValueStore PeriodicGrid

/-! ## What the second loop does with a slot -/

/-- How a due PGN is placed: in the queue, lost to a full queue, as a running BAM
session or waiting for one. -/
inductive Placement
  | enqueued
  | dropped
  | bamStarted
  | bamPending
deriving DecidableEq, Repr

/-- The placement of a slot by the body of the second loop of `J1939_Sched_Tick`,
along the branches of `scheduleSlot`. -/
def placement (store : Store) (nowMs : UInt32) (t : Tick) (slot : ℕ) : Option Placement :=
  let entry := t.sched.entry slot
  if entry.periodMs = 0 ∨ reached nowMs entry.nextDueMs = false then none
  else
    let pgn := t.sched.catalogPgn slot
    if pgnNeedsTp pgn then
      let prepared := Tp.bamPrepare t.sched.tp (txLength pgn)
      if prepared.2 = false then some .bamPending
      else
        let packed := packPgn store pgn prepared.1.payload (txLength pgn)
        if packed.2 = false then none
        else if (Tp.bamStart { prepared.1 with payload := packed.1 } pgn.pgn pgn.sourceAddress
            nowMs).2 then some .bamStarted
        else none
    else if (packFrame store pgn).2 = false then none
    else if t.sched.queue.length < txQueueCapacity then some .enqueued
    else some .dropped

/-- The slot is due. -/
def Sched.isDue (s : Sched) (nowMs : UInt32) (slot : ℕ) : Prop :=
  (s.entry slot).periodMs ≠ 0 ∧ reached nowMs (s.entry slot).nextDueMs = true

instance (s : Sched) (nowMs : UInt32) (slot : ℕ) : Decidable (s.isDue nowMs slot) :=
  inferInstanceAs (Decidable (_ ∧ _))

theorem bamStart_of_prepared {s : Tp.Session} {length : UInt16} (h : (Tp.bamPrepare s length).2 = true)
    (payload : ByteMem.Mem) (pgn : UInt32) (sourceAddress : UInt8) (nowMs : UInt32) :
    (Tp.bamStart { (Tp.bamPrepare s length).1 with payload := payload } pgn sourceAddress nowMs).2 =
      true := by
  unfold Tp.bamPrepare at h ⊢
  split_ifs at h ⊢ with hno
  rfl

/-- A due slot of a PGN that owns an active record is placed. -/
theorem placement_isSome {store : Store} {nowMs : UInt32} {t : Tick} {slot : ℕ}
    (hdue : t.sched.isDue nowMs slot) (hp : (t.sched.entry slot).catalogPgnIndex < pgnCount)
    (hown : OwnsActive store (t.sched.entry slot).catalogPgnIndex) :
    (placement store nowMs t slot).isSome = true := by
  unfold placement
  simp only
  rw [if_neg (by simp [hdue.1, hdue.2])]
  split_ifs with htp hgrant hpacked hstart hpacked hroom
  · rfl
  · have : (packPgn store (t.sched.catalogPgn slot)
        (Tp.bamPrepare t.sched.tp (txLength (t.sched.catalogPgn slot))).1.payload
        (txLength (t.sched.catalogPgn slot))).2 = true := packPgn_packs hp hown (room_tp _) _
    exact absurd hpacked (by simp [this])
  · rfl
  · exact absurd (bamStart_of_prepared (by simpa using hgrant) _ _ _ _) hstart
  · have : (packFrame store (t.sched.catalogPgn slot)).2 = true :=
      packPgn_packs hp hown (room_frame (by simpa [Sched.catalogPgn] using htp)) _
    exact absurd hpacked (by simp [this])
  · rfl
  · rfl

theorem placement_of_not_due {store : Store} {nowMs : UInt32} {t : Tick} {slot : ℕ}
    (hdue : ¬ t.sched.isDue nowMs slot) : placement store nowMs t slot = none := by
  unfold placement
  simp only
  rw [if_pos]
  by_cases hp : (t.sched.entry slot).periodMs = 0
  · exact .inl hp
  · exact .inr (by simpa [Sched.isDue, hp] using hdue)

/-- What a placement stands for: a queued frame of the slot, a frame counted as
dropped, a started BAM session, a mark in the table. -/
theorem placement_spec (store : Store) (nowMs : UInt32) (t : Tick) {slot : ℕ}
    (hslot : slot < t.sched.pgns.length) :
    match placement store nowMs t slot with
    | some .enqueued => ∃ frame : TxEntry, frame.pgnSlot = slot ∧
        (scheduleSlot store nowMs t slot).events = t.events ++ [.queued frame]
    | some .dropped =>
        (scheduleSlot store nowMs t slot).result.dropped = t.result.dropped + 1
    | some .bamStarted => ∃ b,
        (scheduleSlot store nowMs t slot).events = t.events ++ [.tp (.started b)]
    | some .bamPending =>
        ((scheduleSlot store nowMs t slot).sched.entry slot).tpPending = true
    | none => (scheduleSlot store nowMs t slot).events = t.events := by
  have hcat := advance_catalogPgn t slot slot nowMs
  have htp' : (t.advance slot nowMs).sched.tp = t.sched.tp := rfl
  unfold placement scheduleSlot
  simp only
  by_cases hdue : (t.sched.entry slot).periodMs = 0 ∨
      reached nowMs (t.sched.entry slot).nextDueMs = false
  · rw [if_pos hdue, if_pos hdue]
  rw [if_neg hdue, if_neg hdue]
  by_cases htp : pgnNeedsTp (t.sched.catalogPgn slot) = true
  · have htp2 : pgnNeedsTp (pgnAt (t.sched.entry slot).catalogPgnIndex) = true := htp
    rw [if_pos htp, if_pos htp2]
    unfold startTpPgn
    simp only [hcat, htp']
    by_cases hgrant : (Tp.bamPrepare t.sched.tp (txLength (t.sched.catalogPgn slot))).2 = false
    · rw [if_pos hgrant, if_pos hgrant]
      simp only
      rw [Sched.entry, List.getD_eq_getElem _ _ (by simpa [Tick.advance] using hslot),
        List.getElem_set_self]
    · rw [if_neg hgrant, if_neg hgrant]
      by_cases hpacked : (packPgn store (t.sched.catalogPgn slot)
          (Tp.bamPrepare t.sched.tp (txLength (t.sched.catalogPgn slot))).1.payload
          (txLength (t.sched.catalogPgn slot))).2 = false
      · rw [if_pos hpacked, if_pos hpacked]
        rfl
      · have hstart := bamStart_of_prepared (by simpa using hgrant)
          (packPgn store (t.sched.catalogPgn slot)
            (Tp.bamPrepare t.sched.tp (txLength (t.sched.catalogPgn slot))).1.payload
            (txLength (t.sched.catalogPgn slot))).1
          (t.sched.catalogPgn slot).pgn (t.sched.catalogPgn slot).sourceAddress nowMs
        rw [if_neg hpacked, if_neg hpacked, if_pos hstart, if_pos hstart]
        exact ⟨_, rfl⟩
  · have htp2 : ¬ pgnNeedsTp (pgnAt (t.sched.entry slot).catalogPgnIndex) = true := htp
    rw [if_neg htp, if_neg htp2]
    unfold scheduleDuePgn
    simp only [hcat]
    by_cases hpacked : (packFrame store (t.sched.catalogPgn slot)).2 = false
    · rw [if_pos hpacked, if_pos hpacked]
      rfl
    rw [if_neg hpacked, if_neg hpacked]
    have hoffer := offer_cases (t.advance slot nowMs) (t.sched.newFrame store nowMs slot)
    by_cases hroom : t.sched.queue.length < txQueueCapacity
    · rw [if_pos hroom]
      obtain ⟨hfull, -⟩ | ⟨-, hev, -⟩ := hoffer
      · exact absurd hfull (not_le.mpr hroom)
      · exact ⟨_, rfl, hev⟩
    · rw [if_neg hroom]
      obtain ⟨-, -, -, hdrop, -⟩ | ⟨hfree, -⟩ := hoffer
      · exact hdrop
      · exact absurd hfree hroom

/-! ## Timers and the missed count -/

theorem offer_timers (t : Tick) (frame : TxEntry) :
    (t.offer frame).sched.dues = t.sched.dues ∧
      (t.offer frame).sched.stats.deadlineMissed = t.sched.stats.deadlineMissed := by
  unfold Tick.offer Sched.enqueue
  dsimp only
  split_ifs <;> exact ⟨rfl, rfl⟩

theorem scheduleSlot_of_not_due (store : Store) {nowMs : UInt32} {t : Tick} {slot : ℕ}
    (h : ¬ t.sched.isDue nowMs slot) : scheduleSlot store nowMs t slot = t := by
  rcases scheduleSlot_cases store nowMs t slot with ⟨-, heq⟩ | ⟨hp, hr, -⟩
  · exact heq
  · exact absurd ⟨hp, hr⟩ h

/-- A due slot moves its timer and counts the periods it skipped. -/
theorem scheduleSlot_of_due (store : Store) {nowMs : UInt32} {t : Tick} {slot : ℕ}
    (h : t.sched.isDue nowMs slot) :
    (scheduleSlot store nowMs t slot).sched.dues = (t.advance slot nowMs).sched.dues ∧
      (scheduleSlot store nowMs t slot).sched.stats.deadlineMissed =
        t.sched.stats.deadlineMissed + (t.sched.entry slot).periodsLate nowMs := by
  rcases scheduleSlot_cases store nowMs t slot with ⟨hno, -⟩ | ⟨-, -, htp | ⟨-, -, heq⟩⟩
  · rcases hno with hno | hno
    · exact absurd hno h.1
    · exact absurd (hno.symm.trans h.2) (by decide)
  · exact ⟨htp.dues, by rw [htp.stats]; rfl⟩
  · obtain ⟨hdues, hmissed⟩ :=
      offer_timers (t.advance slot nowMs) (t.sched.newFrame store nowMs slot)
    rw [heq]
    exact ⟨hdues, hmissed⟩

/-- A slot moves no timer but its own. -/
theorem scheduleSlot_other {store : Store} {nowMs : UInt32} {t : Tick} {slot i : ℕ} (hne : i ≠ slot) :
    ((scheduleSlot store nowMs t slot).sched.entry i).nextDueMs = (t.sched.entry i).nextDueMs := by
  by_cases hdue : t.sched.isDue nowMs slot
  · rw [Sched.entry_nextDueMs, (scheduleSlot_of_due store hdue).1, ← Sched.entry_nextDueMs]
    unfold Sched.entry Tick.advance
    simp only [List.getD_eq_getElem?_getD, List.getElem?_set, Ne.symm hne, if_false]
  · rw [scheduleSlot_of_not_due store hdue]

theorem foldl_scheduleSlot_other (store : Store) (nowMs : UInt32) {slots : List ℕ} {i : ℕ}
    (h : i ∉ slots) (t : Tick) :
    ((slots.foldl (scheduleSlot store nowMs) t).sched.entry i).nextDueMs =
      (t.sched.entry i).nextDueMs := by
  induction slots generalizing t with
  | nil => rfl
  | cons slot slots ih =>
    rw [List.mem_cons, not_or] at h
    rw [List.foldl_cons, ih h.2, scheduleSlot_other h.1]

/-! ## One slot of one tick -/

/-- The tick in progress when its second loop reaches a slot. -/
def Sched.atSlot (store : Store) (nowMs : UInt32) (s : Sched) (slot : ℕ) : Tick :=
  (List.range slot).foldl (scheduleSlot store nowMs)
    ((List.range s.pgns.length).foldl (retryPending store nowMs) ⟨s, ⟨0, 0, 0, 0, 0, 0, 0⟩, 0, []⟩)

/-- What a tick does with a slot: its placement, and what the slot adds to
`s_stats.deadline_missed`. -/
structure SlotReport where
  placement : Option Placement
  missed : UInt32
deriving DecidableEq, Repr

def Sched.slotReport (store : Store) (nowMs : UInt32) (s : Sched) (slot : ℕ) : SlotReport :=
  let t := s.atSlot store nowMs slot
  ⟨Scheduler.placement store nowMs t slot,
    (scheduleSlot store nowMs t slot).sched.stats.deadlineMissed - t.sched.stats.deadlineMissed⟩

theorem atSlot_indices (store : Store) (nowMs : UInt32) (s : Sched) (slot : ℕ) :
    (s.atSlot store nowMs slot).sched.indices = s.indices := by
  rw [Sched.atSlot, foldl_scheduleSlot_indices, (foldl_retryPending_frame _ _ _ _).indices]

/-- The slot comes to its turn as it was. -/
theorem atSlot_nextDueMs (store : Store) (nowMs : UInt32) (s : Sched) (slot : ℕ) :
    ((s.atSlot store nowMs slot).sched.entry slot).nextDueMs = (s.entry slot).nextDueMs := by
  rw [Sched.atSlot, foldl_scheduleSlot_other _ _ (by simp), Sched.entry_nextDueMs,
    (foldl_retryPending_frame _ _ _ _).dues, ← Sched.entry_nextDueMs]

/-- After its turn nothing moves the timer of the slot. -/
theorem tick_nextDueMs (store : Store) (nowMs : UInt32) (link : ℕ → LinkStatus) (s : Sched)
    {slot : ℕ} (hslot : slot < s.pgns.length) :
    ((tick store nowMs link s).sched.entry slot).nextDueMs =
      ((scheduleSlot store nowMs (s.atSlot store nowMs slot) slot).sched.entry slot).nextDueMs := by
  have hscheduled : s.scheduled store nowMs =
      (List.range' (slot + 1) (s.pgns.length - slot - 1)).foldl (scheduleSlot store nowMs)
        (scheduleSlot store nowMs (s.atSlot store nowMs slot) slot) := by
    unfold Sched.scheduled Sched.atSlot
    conv_lhs => rw [range_split hslot, List.foldl_append, List.foldl_cons, ← range_split hslot]
  rw [Sched.entry_nextDueMs, tick_dues, ← Sched.entry_nextDueMs, hscheduled,
    foldl_scheduleSlot_other _ _ (by simp)]

/-! ## The grid -/

/-- At instant `now` the slot of PGN `p` is due at instant `k` of the grid, and
that is the first instant to come. -/
structure OnGrid (first p now k slot : ℕ) (s : Sched) : Prop where
  slot_lt : slot < s.pgns.length
  indices : ∀ q ∈ s.indices, q < pgnCount
  pgn : (s.entry slot).catalogPgnIndex = p
  due : (s.entry slot).nextDueMs = UInt32.ofNat (first + k * (pgnAt p).periodMs.toNat)
  next : Next first (pgnAt p).periodMs.toNat now k

theorem OnGrid.pgn_lt {first p now k slot : ℕ} {s : Sched} (h : OnGrid first p now k slot s) :
    p < pgnCount := by
  rw [← h.pgn, s.entry_catalogPgnIndex]
  have hlt : slot < s.indices.length := by rw [← s.length_pgns]; exact h.slot_lt
  rw [List.getD_eq_getElem _ _ hlt]
  exact h.indices _ (List.getElem_mem hlt)

section Tick

variable {first p now now' k slot : ℕ} {s : Sched}

/-- The slot is due when its grid instant has come, over any gap below `2 ^ 31`. -/
theorem OnGrid.isDue_iff (h : OnGrid first p now k slot s) (hfirst : first ≤ now + 65535)
    (hle : now ≤ now') (hgap : now' < now + 2 ^ 31) :
    s.isDue (UInt32.ofNat now') slot ↔ first + k * (pgnAt p).periodMs.toNat ≤ now' := by
  obtain ⟨hpos, -⟩ := pgn_periodic h.pgn_lt
  have hp16 := (pgnAt p).periodMs.toNat_lt
  have hperiod : (s.entry slot).periodMs = (pgnAt p).periodMs := by rw [PgnEntry.periodMs, h.pgn]
  have hne : (pgnAt p).periodMs ≠ 0 := by
    intro h0
    rw [h0] at hpos
    exact absurd hpos (by decide)
  have hahead : first + k * (pgnAt p).periodMs.toNat ≤ now + 65535 := by
    rcases h.next.le with hk | hk
    · omega
    · rw [hk]; omega
  have := h.next.ahead
  rw [Sched.isDue, hperiod, h.due, reached_ofNat (by omega) (by omega)]
  exact and_iff_right hne

/-- The periods skipped by a due slot, and its new due time. -/
theorem OnGrid.late (h : OnGrid first p now k slot s) (hgap : now' < now + 2 ^ 31)
    (hcome : first + k * (pgnAt p).periodMs.toNat ≤ now') :
    ((s.entry slot).periodsLate (UInt32.ofNat now')).toNat =
        (now' - (first + k * (pgnAt p).periodMs.toNat)) / (pgnAt p).periodMs.toNat ∧
      (s.entry slot).deadlineMs (UInt32.ofNat now') + (s.entry slot).periodMs.toUInt32 =
        UInt32.ofNat (first + (k + (now' - (first + k * (pgnAt p).periodMs.toNat)) /
          (pgnAt p).periodMs.toNat + 1) * (pgnAt p).periodMs.toNat) := by
  have hperiod : (s.entry slot).periodMs = (pgnAt p).periodMs := by rw [PgnEntry.periodMs, h.pgn]
  have hahead := h.next.ahead
  set due := first + k * (pgnAt p).periodMs.toNat with hdue
  have hlate : ((s.entry slot).periodsLate (UInt32.ofNat now')).toNat =
      (now' - due) / (pgnAt p).periodMs.toNat := by
    rw [PgnEntry.periodsLate, UInt32.toNat_div, UInt16.toNat_toUInt32, h.due, ← hdue, hperiod,
      toNat_sub_ofNat hcome (by omega)]
  refine ⟨hlate, ?_⟩
  have hlate' : (s.entry slot).periodsLate (UInt32.ofNat now') =
      UInt32.ofNat ((now' - due) / (pgnAt p).periodMs.toNat) := by
    rw [← hlate, UInt32.ofNat_toNat]
  rw [PgnEntry.deadlineMs, hlate', h.due, hperiod, ofNat_period, ← UInt32.ofNat_mul,
    ofNat_add_ofNat, ofNat_add_ofNat, ← hdue]
  congr 1
  rw [hdue]
  ring

/-- The slot comes to its turn as it was. -/
theorem OnGrid.atSlot (h : OnGrid first p now k slot s) (store : Store) (nowMs : UInt32) :
    OnGrid first p now k slot (s.atSlot store nowMs slot).sched := by
  have hidx := atSlot_indices store nowMs s slot
  refine ⟨?_, ?_, ?_, ?_, h.next⟩
  · rw [Sched.length_pgns, hidx, ← s.length_pgns]; exact h.slot_lt
  · rw [hidx]; exact h.indices
  · rw [Sched.entry_catalogPgnIndex, hidx, ← s.entry_catalogPgnIndex, h.pgn]
  · rw [atSlot_nextDueMs, h.due]

/-- What the slot's turn leaves as its due time, the tick leaves. -/
theorem OnGrid.of_turn (h : OnGrid first p now k slot s) {store : Store} {nowMs : UInt32} {k' : ℕ}
    (hdue : ((scheduleSlot store nowMs (s.atSlot store nowMs slot) slot).sched.entry slot).nextDueMs =
      UInt32.ofNat (first + k' * (pgnAt p).periodMs.toNat))
    (hnext : Next first (pgnAt p).periodMs.toNat now' k') (link : ℕ → LinkStatus) :
    OnGrid first p now' k' slot (Scheduler.tick store nowMs link s).sched := by
  refine ⟨?_, ?_, ?_, ?_, hnext⟩
  · rw [Sched.length_pgns, tick_indices, ← s.length_pgns]; exact h.slot_lt
  · rw [tick_indices]; exact h.indices
  · rw [Sched.entry_catalogPgnIndex, tick_indices, ← s.entry_catalogPgnIndex, h.pgn]
  · rw [tick_nextDueMs store nowMs link s h.slot_lt, hdue]

/-- A tick before the slot's instant leaves the slot waiting for it. -/
theorem OnGrid.tick_waits (h : OnGrid first p now k slot s) (hfirst : first ≤ now + 65535)
    (hle : now ≤ now') (hgap : now' < now + 2 ^ 31)
    (hwait : now' < first + k * (pgnAt p).periodMs.toNat) (store : Store) (link : ℕ → LinkStatus) :
    OnGrid first p now' k slot (Scheduler.tick store (UInt32.ofNat now') link s).sched := by
  have hgrid := h.atSlot store (UInt32.ofNat now')
  have hdue := mt (hgrid.isDue_iff hfirst hle hgap).mp (not_le.mpr hwait)
  refine h.of_turn ?_ (h.next.stay hle hwait) link
  rw [scheduleSlot_of_not_due store hdue]
  exact hgrid.due

/-- A tick at or after the slot's instant moves the slot to the first one to come. -/
theorem OnGrid.tick_moves (h : OnGrid first p now k slot s) (hfirst : first ≤ now + 65535)
    (hle : now ≤ now') (hgap : now' < now + 2 ^ 31)
    (hcome : first + k * (pgnAt p).periodMs.toNat ≤ now') (store : Store) (link : ℕ → LinkStatus) :
    OnGrid first p now' (k + (now' - (first + k * (pgnAt p).periodMs.toNat)) /
        (pgnAt p).periodMs.toNat + 1) slot
      (Scheduler.tick store (UInt32.ofNat now') link s).sched := by
  have hgrid := h.atSlot store (UInt32.ofNat now')
  have hdue := (hgrid.isDue_iff hfirst hle hgap).mpr hcome
  have hpos := (pgn_periodic h.pgn_lt).1
  refine h.of_turn ?_ (Next.of_passed hpos hcome) link
  rw [Sched.entry_nextDueMs, (scheduleSlot_of_due store hdue).1, ← Sched.entry_nextDueMs,
    advance_nextDueMs _ slot slot _ hgrid.slot_lt, if_pos rfl, (hgrid.late hgap hcome).2]

/-- **One tick**: the slot moves to the first instant to come, and the instants
passed were scheduled once and otherwise missed. -/
theorem OnGrid.tick (h : OnGrid first p now k slot s) (hfirst : first ≤ now + 65535)
    (hle : now ≤ now') (hgap : now' < now + 2 ^ 31) {store : Store} (hown : OwnsActive store p)
    (link : ℕ → LinkStatus) :
    ∃ k', OnGrid first p now' k' slot (Scheduler.tick store (UInt32.ofNat now') link s).sched ∧
      let r := s.slotReport store (UInt32.ofNat now') slot
      k' = k + r.placement.isSome.toNat + r.missed.toNat := by
  have hgrid := h.atSlot store (UInt32.ofNat now')
  set nowMs := UInt32.ofNat now' with hnow
  set t := s.atSlot store nowMs slot with ht
  by_cases hcome : first + k * (pgnAt p).periodMs.toNat ≤ now'
  · have hdue : t.sched.isDue nowMs slot := (hgrid.isDue_iff hfirst hle hgap).mpr hcome
    have hlate := (hgrid.late hgap hcome).1
    have hmissed := (scheduleSlot_of_due store hdue).2
    have hsome : (Scheduler.placement store nowMs t slot).isSome = true :=
      placement_isSome hdue (hgrid.pgn ▸ hgrid.pgn_lt) (hgrid.pgn ▸ hown)
    refine ⟨_, h.tick_moves hfirst hle hgap hcome store link, ?_⟩
    simp only [Sched.slotReport, ← ht, hsome, hmissed, Bool.toNat_true]
    rw [show t.sched.stats.deadlineMissed + (t.sched.entry slot).periodsLate nowMs -
      t.sched.stats.deadlineMissed = (t.sched.entry slot).periodsLate nowMs by grind, hnow, hlate]
    omega
  · have hdue : ¬ t.sched.isDue nowMs slot := mt (hgrid.isDue_iff hfirst hle hgap).mp hcome
    refine ⟨k, h.tick_waits hfirst hle hgap (not_le.mp hcome) store link, ?_⟩
    simp only [Sched.slotReport, ← ht, placement_of_not_due hdue, scheduleSlot_of_not_due store hdue,
      Option.isSome_none, Bool.toNat_false, UInt32.sub_self]
    rfl

end Tick

/-! ## Runs -/

/-- The call of a tick, with what it does with one slot as output. -/
def slotStep (slot : ℕ) (s : Sched) (i : TickInput) : Sched × SlotReport :=
  ((tickStep s i).1, s.slotReport i.store (UInt32.ofNat i.now) slot)

/-- How often the slot was scheduled, and how many of its instants were skipped. -/
def scheduledCount (reports : List SlotReport) : ℕ :=
  reports.countP fun r => r.placement.isSome

def missedCount (reports : List SlotReport) : ℕ := (reports.map fun r => r.missed.toNat).sum

/-- The grid instants a run has accounted for. -/
def accounted (reports : List SlotReport) : ℕ := scheduledCount reports + missedCount reports

theorem OnGrid.reset {s : Sched} (hn : s.indices.Nodup) (hp : ∀ p ∈ s.indices, p < pgnCount)
    {slot : ℕ} (hslot : slot < s.pgns.length) (t₀ : ℕ) :
    OnGrid (t₀ + (phase s.pgns slot).toNat) (s.entry slot).catalogPgnIndex t₀ 0 slot
      (s.resetTimers (UInt32.ofNat t₀)) := by
  have hphase := (reset_phase hn hp hslot).1
  refine ⟨by simpa [Sched.resetTimers] using hslot, by rw [resetTimers_indices]; exact hp, ?_, ?_,
    .zero (by omega)⟩
  · rw [Sched.entry_catalogPgnIndex, resetTimers_indices, ← s.entry_catalogPgnIndex]
  · rw [resetTimers_nextDueMs _ hslot, Nat.zero_mul, Nat.add_zero, ← ofNat_add_ofNat,
      UInt32.ofNat_toNat]

/-- **Every run of ticks**, by induction on the ticks. -/
theorem OnGrid.run {first p now k slot : ℕ} {s : Sched} (h : OnGrid first p now k slot s)
    (hfirst : first ≤ now + 65535) (inputs : List TickInput)
    (hgaps : (now :: inputs.map TickInput.now).IsChain fun a b => a ≤ b ∧ b < a + 2 ^ 31)
    (hown : ∀ i ∈ inputs, OwnsActive i.store p) :
    ∃ k', OnGrid first p ((inputs.map TickInput.now).getLastD now) k' slot
        (Mealy.run (slotStep slot) s inputs).1 ∧
      k' = k + scheduledCount (Mealy.run (slotStep slot) s inputs).2 +
        missedCount (Mealy.run (slotStep slot) s inputs).2 := by
  induction inputs generalizing now k s with
  | nil => exact ⟨k, h, rfl⟩
  | cons i inputs ih =>
    rw [List.map_cons, List.isChain_cons_cons] at hgaps
    obtain ⟨⟨hle, hgap⟩, hrest⟩ := hgaps
    obtain ⟨k₁, h₁, hk₁⟩ := h.tick hfirst hle hgap (hown i List.mem_cons_self) i.link
    obtain ⟨k', h', hk'⟩ := ih h₁ (by omega) hrest fun j hj => hown j (by simp [hj])
    refine ⟨k', by rw [List.map_cons, List.getLastD_cons]; exact h', ?_⟩
    have hstep : (slotStep slot s i).2 = s.slotReport i.store (UInt32.ofNat i.now) slot := rfl
    rw [Mealy.run_cons, scheduledCount, missedCount, List.countP_cons, List.map_cons,
      List.sum_cons, ← scheduledCount, ← missedCount, hstep]
    have hfst : (slotStep slot s i).1 = (Scheduler.tick i.store (UInt32.ofNat i.now) i.link s).sched := rfl
    rw [hfst, hk', hk₁]
    cases (s.slotReport i.store (UInt32.ofNat i.now) slot).placement with
    | none =>
      rw [if_neg (by simp), Option.isSome_none, Bool.toNat_false]
      omega
    | some place =>
      rw [if_pos (by simp), Option.isSome_some, Bool.toNat_true]
      omega

/-- **No drift and no lost slot.** After `J1939_Sched_Reset_Timers` at `t₀`, ticks
at non-decreasing instants less than `2 ^ 31` apart, whatever the link answers:
the due time of a PGN is the reading of its first grid instant after the last
tick, and every instant up to there was scheduled or counted as missed. -/
theorem no_drift (s : Sched) (hn : s.indices.Nodup) (hp : ∀ p ∈ s.indices, p < pgnCount)
    (t₀ slot : ℕ) (hslot : slot < s.pgns.length) (inputs : List TickInput)
    (hgaps : (t₀ :: inputs.map TickInput.now).IsChain fun a b => a ≤ b ∧ b < a + 2 ^ 31)
    (hown : ∀ i ∈ inputs, OwnsActive i.store (s.entry slot).catalogPgnIndex) :
    let period := (s.entry slot).periodMs.toNat
    let p := (phase s.pgns slot).toNat
    let run := Mealy.run (slotStep slot) (s.resetTimers (UInt32.ofNat t₀)) inputs
    let now := (inputs.map TickInput.now).getLastD t₀
    let k := count (t₀ + p) period now
    (1 ≤ p ∧ p ≤ period ∧
        ((s.resetTimers (UInt32.ofNat t₀)).entry slot).nextDueMs = UInt32.ofNat (t₀ + p)) ∧
      (run.1.entry slot).nextDueMs = UInt32.ofNat (t₀ + p + k * period) ∧
      now < t₀ + p + k * period ∧ (∀ j < k, t₀ + p + j * period ≤ now) ∧
      accounted run.2 = k := by
  intro period p run now k
  obtain ⟨hphase, hphase'⟩ := reset_phase hn hp hslot
  have hreset := OnGrid.reset hn hp hslot t₀
  have hp16 := (s.entry slot).periodMs.toNat_lt
  obtain ⟨k', hgrid, hk'⟩ := hreset.run (by omega) inputs hgaps hown
  have hcount : k = k' := hgrid.next.count_eq (pgn_periodic hgrid.pgn_lt).1
  rw [hcount]
  refine ⟨⟨hphase, hphase', ?_⟩, hgrid.due, hgrid.next.ahead, hgrid.next.past, ?_⟩
  · have := hreset.due
    rwa [Nat.zero_mul, Nat.add_zero] at this
  · rw [accounted, hk', Nat.zero_add]

theorem twoPgnStore_owns : OwnsActive twoPgnStore 9 := by
  refine ⟨⟨[.beginEmpty, .write (.setRaw 83 0), .write (.setRaw 94 0), .commit], ?_⟩, 33, by decide,
    by decide +kernel⟩
  simp only [storeAfter, Mealy.run_cons, Mealy.run_nil, apiStep, apiWrite, twoPgnStore]

/-- The first PGN over the wrap of the clock, the second tick 13 periods late. -/
theorem no_drift_late :
    let inputs : List TickInput :=
      [⟨twoPgnStore, 2 ^ 32 + 20, fun _ => .busy⟩, ⟨twoPgnStore, 2 ^ 32 + 300, fun _ => .ok⟩]
    let period := (twoPgnSched.entry 0).periodMs.toNat
    let p := (phase twoPgnSched.pgns 0).toNat
    let run := Mealy.run (slotStep 0) (twoPgnSched.resetTimers (UInt32.ofNat (2 ^ 32 - 3))) inputs
    let now := (inputs.map TickInput.now).getLastD (2 ^ 32 - 3)
    let k := count (2 ^ 32 - 3 + p) period now
    (1 ≤ p ∧ p ≤ period ∧
        ((twoPgnSched.resetTimers (UInt32.ofNat (2 ^ 32 - 3))).entry 0).nextDueMs =
          UInt32.ofNat (2 ^ 32 - 3 + p)) ∧
      (run.1.entry 0).nextDueMs = UInt32.ofNat (2 ^ 32 - 3 + p + k * period) ∧
      now < 2 ^ 32 - 3 + p + k * period ∧ (∀ j < k, 2 ^ 32 - 3 + p + j * period ≤ now) ∧
      accounted run.2 = k :=
  no_drift twoPgnSched (by decide) (by decide) (2 ^ 32 - 3) 0 (by decide) _ (by simp) fun i hi => by
    have hpgn : (twoPgnSched.entry 0).catalogPgnIndex = 9 := by decide
    have hstore : i.store = twoPgnStore := by
      simp only [List.mem_cons, List.not_mem_nil, or_false] at hi
      rcases hi with rfl | rfl <;> simp only
    rw [hpgn, hstore]
    exact twoPgnStore_owns

end J1939Gen.Scheduler
