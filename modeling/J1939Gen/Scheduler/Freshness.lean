import J1939Gen.Scheduler.Steps

/-!
# No frame is sent stale or out of order

Instants are natural numbers; the scheduler sees their 32-bit readings. Within
`2 ^ 31` of the origin `t₀` a deadline names one instant. `Timely` is the
invariant of a run: the deadlines of a PGN slot, of the frames sent and of the
frames queued, are strictly increasing and below the slot's next due time.

* `Timely.insert`: a frame may join the queue behind the frames of its slot.
* `Timely.scheduleSlot`, `Timely.drainLoop`: what the parts of a tick preserve.
* `Timely.tick`: one tick.
* `fresh_in_order`: every run of ticks.
-/

namespace J1939Gen.Scheduler

open SerialClock ValueStore

/-- The instant of a frame's deadline. -/
def TxEntry.deadline (t₀ : ℕ) (e : TxEntry) : ℕ := instant t₀ e.deadlineMs

/-- The instant at which a slot is due next. -/
def Sched.due (t₀ : ℕ) (s : Sched) (slot : ℕ) : ℕ := instant t₀ (s.entry slot).nextDueMs

/-- The deadlines of the frames of one slot, in list order. -/
def slotDeadlines (t₀ slot : ℕ) (l : List TxEntry) : List ℕ :=
  (l.filter fun e => e.pgnSlot = slot).map (TxEntry.deadline t₀)

/-! ## Deadlines as instants -/

theorem ofNat_period (p : UInt16) : p.toUInt32 = UInt32.ofNat p.toNat := by
  rw [← UInt32.toNat_inj, UInt16.toNat_toUInt32, UInt32.toNat_ofNat']
  have := p.toNat_lt
  omega

/-- The latest due slot of a due entry is at most one period old. -/
theorem deadlineMs_instant {t₀ now : ℕ} (h0 : t₀ ≤ now) (hlt : now < t₀ + 2 ^ 31) {e : PgnEntry}
    (hp : 0 < e.periodMs.toNat) (hdue : instant t₀ e.nextDueMs ≤ now) :
    instant t₀ e.nextDueMs ≤ instant t₀ (e.deadlineMs (UInt32.ofNat now)) ∧
      instant t₀ (e.deadlineMs (UInt32.ofNat now)) ≤ now ∧
      now < instant t₀ (e.deadlineMs (UInt32.ofNat now)) + e.periodMs.toNat ∧
      instant t₀ (e.deadlineMs (UInt32.ofNat now) + e.periodMs.toUInt32) =
        instant t₀ (e.deadlineMs (UInt32.ofNat now)) + e.periodMs.toNat := by
  have hle := le_instant t₀ e.nextDueMs
  have hp16 := e.periodMs.toNat_lt
  have hlate : e.periodsLate (UInt32.ofNat now) =
      UInt32.ofNat ((now - instant t₀ e.nextDueMs) / e.periodMs.toNat) := by
    rw [← UInt32.toNat_inj, PgnEntry.periodsLate, UInt32.toNat_div, UInt16.toNat_toUInt32]
    conv_lhs => rw [← ofNat_instant t₀ e.nextDueMs]
    rw [toNat_sub_ofNat hdue (by omega), UInt32.toNat_ofNat', Nat.mod_eq_of_lt]
    exact lt_of_le_of_lt (Nat.div_le_self _ _) (by omega)
  have hdl : e.deadlineMs (UInt32.ofNat now) = UInt32.ofNat (instant t₀ e.nextDueMs +
      (now - instant t₀ e.nextDueMs) / e.periodMs.toNat * e.periodMs.toNat) := by
    rw [PgnEntry.deadlineMs, hlate, ofNat_period, ← UInt32.ofNat_mul]
    conv_lhs => rw [← ofNat_instant t₀ e.nextDueMs]
    rw [ofNat_add_ofNat, ofNat_instant]
  have hmul := Nat.div_add_mod (now - instant t₀ e.nextDueMs) e.periodMs.toNat
  have hmod := Nat.mod_lt (now - instant t₀ e.nextDueMs) hp
  rw [Nat.mul_comm] at hmul
  rw [hdl, ofNat_period, ofNat_add_ofNat, instant_ofNat (by omega) (by omega),
    instant_ofNat (by omega) (by omega)]
  omega

/-! ## The invariant -/

/-- The invariant at instant `now`, after the frames `sent` were accepted. -/
structure Timely (t₀ now : ℕ) (sent : List TxEntry) (s : Sched) : Prop where
  indices : ∀ p ∈ s.indices, p < pgnCount
  due : ∀ i < s.pgns.length, s.due t₀ i ≤ now + 65535
  known : ∀ e ∈ sent ++ s.queue, e.pgnSlot < s.pgns.length
  period : ∀ e ∈ s.queue, e.periodMs = (s.entry e.pgnSlot).periodMs
  past : ∀ e ∈ s.queue, e.deadline t₀ ≤ now
  order : ∀ i, (slotDeadlines t₀ i (sent ++ s.queue)).Pairwise (· < ·)
  below : ∀ i < s.pgns.length, ∀ d ∈ slotDeadlines t₀ i (sent ++ s.queue), d < s.due t₀ i

theorem Sched.length_pgns (s : Sched) : s.pgns.length = s.indices.length := by
  simp [Sched.indices]

theorem Sched.entry_periodMs (s : Sched) (i : ℕ) :
    (s.entry i).periodMs = (pgnAt (s.indices.getD i 0)).periodMs := by
  rw [PgnEntry.periodMs, s.entry_catalogPgnIndex]

theorem Timely.period_pos {t₀ now : ℕ} {sent : List TxEntry} {s : Sched}
    (h : Timely t₀ now sent s) {i : ℕ} (hi : i < s.pgns.length) :
    0 < (s.entry i).periodMs.toNat := by
  rw [s.entry_periodMs]
  have hi' : i < s.indices.length := by rwa [← s.length_pgns]
  rw [List.getD_eq_getElem _ _ hi']
  exact (pgn_periodic (h.indices _ (List.getElem_mem hi'))).1

/-- Only slots and queue matter. -/
theorem Timely.congr {t₀ now : ℕ} {sent : List TxEntry} {s s' : Sched} (h : Timely t₀ now sent s)
    (h1 : s'.indices = s.indices) (h2 : s'.dues = s.dues) (h3 : s'.queue = s.queue) :
    Timely t₀ now sent s' := by
  have hlen : s'.pgns.length = s.pgns.length := by rw [s'.length_pgns, h1, s.length_pgns]
  have hdue : ∀ i, s'.due t₀ i = s.due t₀ i := fun i => by
    rw [Sched.due, Sched.due, s'.entry_nextDueMs, h2, s.entry_nextDueMs]
  constructor
  · rw [h1]; exact h.indices
  · intro i hi; rw [hdue]; exact h.due i (hlen ▸ hi)
  · rw [h3, hlen]; exact h.known
  · rw [h3]; intro e he; rw [s'.entry_periodMs, h1, ← s.entry_periodMs]; exact h.period e he
  · rw [h3]; exact h.past
  · rw [h3]; exact h.order
  · rw [h3]; intro i hi; rw [hdue]; exact h.below i (hlen ▸ hi)

theorem Timely.mono {t₀ now now' : ℕ} {sent : List TxEntry} {s : Sched}
    (h : Timely t₀ now sent s) (hle : now ≤ now') : Timely t₀ now' sent s :=
  { h with
    due := fun i hi => (h.due i hi).trans (by omega)
    past := fun e he => (h.past e he).trans hle }

/-- Frames leaving the queue keep the invariant. -/
theorem Timely.sublist {t₀ now : ℕ} {sent queue : List TxEntry} (sent' : List TxEntry) {s s' : Sched}
    (h : Timely t₀ now sent s) (hp : s'.pgns = s.pgns) (hq : s'.queue = queue)
    (hsub : (sent' ++ queue).Sublist (sent ++ s.queue)) (hq' : queue ⊆ s.queue) :
    Timely t₀ now sent' s' := by
  have hsl : ∀ i, (slotDeadlines t₀ i (sent' ++ queue)).Sublist
      (slotDeadlines t₀ i (sent ++ s.queue)) := fun i => (hsub.filter _).map _
  have hentry : ∀ i, s'.entry i = s.entry i := fun i => by rw [Sched.entry, hp]; rfl
  have hdue : ∀ i, s'.due t₀ i = s.due t₀ i := fun i => by rw [Sched.due, hentry]; rfl
  constructor
  · rw [Sched.indices, hp]; exact h.indices
  · intro i hi; rw [hdue]; exact h.due i (hp ▸ hi)
  · rw [hq, hp]; exact fun e he => h.known e (hsub.subset he)
  · rw [hq]; intro e he; rw [hentry]; exact h.period e (hq' he)
  · rw [hq]; exact fun e he => h.past e (hq' he)
  · rw [hq]; exact fun i => (h.order i).sublist (hsl i)
  · rw [hq]; intro i hi d hd; rw [hdue]; exact h.below i (hp ▸ hi) d ((hsl i).subset hd)

theorem slotDeadlines_append (t₀ i : ℕ) (l l' : List TxEntry) :
    slotDeadlines t₀ i (l ++ l') = slotDeadlines t₀ i l ++ slotDeadlines t₀ i l' := by
  simp [slotDeadlines]

theorem slotDeadlines_cons (t₀ i : ℕ) (e : TxEntry) (l : List TxEntry) :
    slotDeadlines t₀ i (e :: l) =
      if e.pgnSlot = i then e.deadline t₀ :: slotDeadlines t₀ i l else slotDeadlines t₀ i l := by
  unfold slotDeadlines
  by_cases h : e.pgnSlot = i <;> simp [h]

theorem mem_slotDeadlines {t₀ : ℕ} {e : TxEntry} {l : List TxEntry} (h : e ∈ l) :
    e.deadline t₀ ∈ slotDeadlines t₀ e.pgnSlot l :=
  List.mem_map_of_mem (List.mem_filter.mpr ⟨h, by simp⟩)

/-! ## A frame joins the queue -/

section Insert

variable {t₀ now : ℕ} {sent pre post : List TxEntry} {frame : TxEntry} {s s' : Sched}

/-- The deadlines of each slot when a frame stands behind all frames of its own. -/
theorem slotDeadlines_insert (hlast : ∀ e ∈ post, e.pgnSlot ≠ frame.pgnSlot) (i : ℕ) :
    slotDeadlines t₀ i (sent ++ (pre ++ frame :: post)) =
      if i = frame.pgnSlot then slotDeadlines t₀ i (sent ++ (pre ++ post)) ++ [frame.deadline t₀]
      else slotDeadlines t₀ i (sent ++ (pre ++ post)) := by
  simp only [slotDeadlines_append, slotDeadlines_cons]
  by_cases hi : i = frame.pgnSlot
  · have hnone : slotDeadlines t₀ i post = [] := by
      unfold slotDeadlines
      rw [List.filter_eq_nil_iff.mpr fun e he => by simpa [hi] using hlast e he]
      rfl
    rw [if_pos hi.symm, if_pos hi, hnone]
    simp
  · rw [if_neg (Ne.symm hi), if_neg hi]

/-- A frame does not pass one of the same period that is due earlier. -/
theorem not_queueBefore_of_later {e : TxEntry} (hperiod : frame.periodMs = e.periodMs)
    (hlate : frame.deadline t₀ < t₀ + 2 ^ 31) (hlater : e.deadline t₀ < frame.deadline t₀) :
    s.queueBefore frame e ≠ true := by
  intro hbefore
  have hne : frame.deadlineMs ≠ e.deadlineMs := by
    intro heq
    have hsame : frame.deadline t₀ = e.deadline t₀ := by
      rw [TxEntry.deadline, heq]
      rfl
    omega
  rw [Sched.queueBefore, if_neg (by simp [hperiod]), if_pos hne] at hbefore
  have hearlier : frame.deadline t₀ < e.deadline t₀ :=
    (before_instant hlate (hlater.trans hlate)).mp hbefore
  omega

/-- A frame that is due, later than every frame of its slot and before the slot's next due
    time, may join the queue behind those frames. -/
theorem Timely.insert (h : Timely t₀ now sent s) (hpgns : s'.pgns = s.pgns)
    (hqueue : s.queue = pre ++ post) (hqueue' : s'.queue = pre ++ frame :: post)
    (hlast : ∀ e ∈ post, e.pgnSlot ≠ frame.pgnSlot) (hslot : frame.pgnSlot < s.pgns.length)
    (hperiod : frame.periodMs = (s.entry frame.pgnSlot).periodMs) (hpast : frame.deadline t₀ ≤ now)
    (hlatest : ∀ d ∈ slotDeadlines t₀ frame.pgnSlot (sent ++ s.queue), d < frame.deadline t₀)
    (hbelow : frame.deadline t₀ < s.due t₀ frame.pgnSlot) : Timely t₀ now sent s' := by
  have hmem : ∀ e ∈ s'.queue, e = frame ∨ e ∈ s.queue := by
    intro e he
    rw [hqueue'] at he
    rw [hqueue]
    simp only [List.mem_append, List.mem_cons] at he ⊢
    tauto
  have hslots : ∀ i, slotDeadlines t₀ i (sent ++ s'.queue) =
      if i = frame.pgnSlot then slotDeadlines t₀ i (sent ++ s.queue) ++ [frame.deadline t₀]
      else slotDeadlines t₀ i (sent ++ s.queue) := by
    intro i
    rw [hqueue', hqueue]
    exact slotDeadlines_insert hlast i
  have hentry : ∀ i, s'.entry i = s.entry i := fun i => by rw [Sched.entry, hpgns]; rfl
  have hdue : ∀ i, s'.due t₀ i = s.due t₀ i := fun i => by rw [Sched.due, hentry]; rfl
  constructor
  · rw [Sched.indices, hpgns]; exact h.indices
  · intro i hi; rw [hdue]; exact h.due i (hpgns ▸ hi)
  · intro e he
    rw [hpgns]
    rcases List.mem_append.mp he with he | he
    · exact h.known e (List.mem_append_left _ he)
    · rcases hmem e he with rfl | he
      · exact hslot
      · exact h.known e (List.mem_append_right _ he)
  · intro e he
    rw [hentry]
    rcases hmem e he with rfl | he
    · exact hperiod
    · exact h.period e he
  · intro e he
    rcases hmem e he with rfl | he
    · exact hpast
    · exact h.past e he
  · intro i
    rw [hslots]
    split_ifs with hi
    · refine List.pairwise_append.mpr ⟨h.order i, List.pairwise_singleton _ _, ?_⟩
      intro d hd d' hd'
      rw [List.mem_singleton.mp hd']
      exact hlatest d (hi ▸ hd)
    · exact h.order i
  · intro i hi d hd
    rw [hdue]
    rw [hslots] at hd
    split_ifs at hd with his
    · rcases List.mem_append.mp hd with hd | hd
      · exact h.below i (hpgns ▸ hi) d hd
      · rw [List.mem_singleton.mp hd, his]
        exact hbelow
    · exact h.below i (hpgns ▸ hi) d hd

end Insert

/-! ## The second loop -/

section Schedule

variable {t₀ now : ℕ} {sent : List TxEntry} {t : Tick} {slot : ℕ}

theorem due_advance (i : ℕ) (hi : slot < t.sched.pgns.length) :
    (t.advance slot (UInt32.ofNat now)).sched.due t₀ i =
      if i = slot then instant t₀ ((t.sched.entry slot).deadlineMs (UInt32.ofNat now) +
        (t.sched.entry slot).periodMs.toUInt32)
      else t.sched.due t₀ i := by
  rw [Sched.due, advance_nextDueMs t slot i _ hi]
  split_ifs <;> rfl

theorem reached_due (h : Timely t₀ now sent t.sched) (h0 : t₀ ≤ now) (hlt : now < t₀ + 2 ^ 31)
    (hi : slot < t.sched.pgns.length) :
    reached (UInt32.ofNat now) (t.sched.entry slot).nextDueMs = true ↔ t.sched.due t₀ slot ≤ now :=
  reached_instant h0 hlt ((h.due slot hi).trans (by omega))

/-- Moving the due time of a due slot keeps the invariant. -/
theorem Timely.advance (h : Timely t₀ now sent t.sched) (h0 : t₀ ≤ now)
    (hlt : now < t₀ + 2 ^ 31) (hi : slot < t.sched.pgns.length)
    (hdue : t.sched.due t₀ slot ≤ now) :
    Timely t₀ now sent (t.advance slot (UInt32.ofNat now)).sched := by
  obtain ⟨h1, h2, h3, h4⟩ := deadlineMs_instant h0 hlt (h.period_pos hi) hdue
  have hp16 := (t.sched.entry slot).periodMs.toNat_lt
  have hlen : (t.advance slot (UInt32.ofNat now)).sched.pgns.length = t.sched.pgns.length := by
    simp [Tick.advance]
  constructor
  · rw [advance_indices]; exact h.indices
  · intro i hi'
    rw [due_advance i hi]
    split_ifs
    · rw [h4]; omega
    · exact h.due i (hlen ▸ hi')
  · rw [hlen]; exact h.known
  · intro e he
    rw [Sched.entry_periodMs, advance_indices, ← Sched.entry_periodMs]
    exact h.period e he
  · exact h.past
  · exact h.order
  · intro i hi' d hd
    have hlow := h.below i (hlen ▸ hi') d hd
    rw [due_advance i hi]
    split_ifs with his
    · subst his
      unfold Sched.due at hlow
      rw [h4]; omega
    · exact hlow

/-- A newly due frame joins the queue behind the older frames of its slot. -/
theorem Timely.offer (h : Timely t₀ now sent t.sched) (h0 : t₀ ≤ now)
    (hlt : now < t₀ + 2 ^ 31) (hi : slot < t.sched.pgns.length)
    (hdue : t.sched.due t₀ slot ≤ now) (store : Store) :
    Timely t₀ now sent ((t.advance slot (UInt32.ofNat now)).offer
      (t.sched.newFrame store (UInt32.ofNat now) slot)).sched := by
  obtain ⟨h1, h2, h3, h4⟩ := deadlineMs_instant h0 hlt (h.period_pos hi) hdue
  have hadv := h.advance h0 hlt hi hdue
  set frame : TxEntry := t.sched.newFrame store (UInt32.ofNat now) slot with hframe
  have hfd : frame.deadline t₀ = instant t₀ ((t.sched.entry slot).deadlineMs (UInt32.ofNat now)) :=
    rfl
  have hfs : frame.pgnSlot = slot := rfl
  have hlater : ∀ d ∈ slotDeadlines t₀ slot (sent ++ t.sched.queue), d < frame.deadline t₀ :=
    fun d hd => lt_of_lt_of_le (h.below slot hi d hd) (hfd ▸ h1)
  rcases offer_cases (t.advance slot (UInt32.ofNat now)) frame with
    ⟨-, -, -, -, heq⟩ | ⟨-, -, -, -, pre, post, hqueue, hpost, heq⟩
  · rw [heq]
    exact hadv.congr rfl rfl rfl
  have hq : t.sched.queue = pre ++ post := hqueue
  -- an older frame of the slot is never passed: same class, smaller deadline
  have hlast : ∀ e ∈ post, e.pgnSlot ≠ frame.pgnSlot := by
    intro e he hsame
    have heslot : e.pgnSlot = slot := hsame
    have hin : e ∈ t.sched.queue := by rw [hq]; exact List.mem_append_right _ he
    have hperiod : frame.periodMs = e.periodMs := by rw [h.period e hin, heslot]; rfl
    exact not_queueBefore_of_later hperiod (lt_of_le_of_lt (hfd ▸ h2) hlt)
      (hlater _ (heslot ▸ mem_slotDeadlines (List.mem_append_right _ hin))) (hpost e he)
  rw [heq]
  refine hadv.insert rfl hqueue rfl hlast ?_ ?_ (hfd ▸ h2) hlater ?_
  · rw [hfs]
    simpa [Tick.advance] using hi
  · rw [Sched.entry_periodMs, advance_indices, ← Sched.entry_periodMs]
    rfl
  · rw [hfs, due_advance _ hi, if_pos rfl, h4, hfd]
    have hpos := h.period_pos hi
    omega

theorem Timely.scheduleSlot (h : Timely t₀ now sent t.sched) (h0 : t₀ ≤ now)
    (hlt : now < t₀ + 2 ^ 31) (hi : slot < t.sched.pgns.length) (store : Store) :
    Timely t₀ now sent (scheduleSlot store (UInt32.ofNat now) t slot).sched := by
  rcases scheduleSlot_cases store (UInt32.ofNat now) t slot with ⟨-, heq⟩ | ⟨-, hr, hcase⟩
  · rw [heq]; exact h
  have hdue := (reached_due h h0 hlt hi).mp hr
  rcases hcase with htp | ⟨-, -, heq⟩
  · exact (h.advance h0 hlt hi hdue).congr htp.indices htp.dues htp.queue
  · rw [heq]
    exact h.offer h0 hlt hi hdue store

end Schedule

theorem Timely.foldl_scheduleSlot {t₀ now : ℕ} {sent : List TxEntry} {t : Tick}
    (h : Timely t₀ now sent t.sched) (h0 : t₀ ≤ now) (hlt : now < t₀ + 2 ^ 31) (store : Store)
    (slots : List ℕ) (hs : ∀ i ∈ slots, i < t.sched.pgns.length) :
    Timely t₀ now sent (slots.foldl (Scheduler.scheduleSlot store (UInt32.ofNat now)) t).sched := by
  induction slots generalizing t with
  | nil => exact h
  | cons i slots ih =>
    refine ih (h.scheduleSlot h0 hlt (hs i (by simp)) store) fun j hj => ?_
    rw [Sched.length_pgns, scheduleSlot_indices, ← Sched.length_pgns]
    exact hs j (by simp [hj])

/-! ## The drain -/

/-- The frames the link accepted. -/
def acceptedFrames (events : List Event) : List TxEntry :=
  events.filterMap fun
    | .handed frame _ .ok => some frame
    | _ => none

theorem acceptedFrames_append (a b : List Event) :
    acceptedFrames (a ++ b) = acceptedFrames a ++ acceptedFrames b := by
  simp [acceptedFrames]

/-- A frame is handed to the link inside its period. -/
def FreshAt (t₀ now : ℕ) (events : List Event) : Prop :=
  ∀ e sent status, Event.handed e sent status ∈ events →
    e.deadline t₀ ≤ now ∧ now < e.deadline t₀ + e.periodMs.toNat

theorem FreshAt.append {t₀ now : ℕ} {a b : List Event} (ha : FreshAt t₀ now a)
    (hb : FreshAt t₀ now b) : FreshAt t₀ now (a ++ b) := by
  intro e sent status h
  rcases List.mem_append.mp h with h | h
  · exact ha e sent status h
  · exact hb e sent status h

theorem expired_iff {t₀ now : ℕ} (h0 : t₀ ≤ now) (hlt : now < t₀ + 2 ^ 31) {e : TxEntry}
    (hp : 0 < e.periodMs.toNat) (hd : e.deadline t₀ ≤ now) :
    e.expired (UInt32.ofNat now) = true ↔ e.deadline t₀ + e.periodMs.toNat ≤ now := by
  have hp16 := e.periodMs.toNat_lt
  have hle : t₀ ≤ e.deadline t₀ := le_instant t₀ _
  have hsum : instant t₀ (e.deadlineMs + e.periodMs.toUInt32) =
      e.deadline t₀ + e.periodMs.toNat := by
    rw [ofNat_period]
    conv_lhs => rw [← ofNat_instant t₀ e.deadlineMs]
    rw [ofNat_add_ofNat, instant_ofNat]
    · rfl
    · exact le_trans hle (Nat.le_add_right _ _)
    · have : instant t₀ e.deadlineMs = e.deadline t₀ := rfl
      omega
  have hne : e.periodMs ≠ 0 := by
    intro h0'
    rw [h0'] at hp
    exact absurd hp (by decide)
  rw [← hsum]
  unfold TxEntry.expired
  simp only [hne, ne_eq, not_false_eq_true, true_and, Bool.decide_eq_true]
  exact reached_instant h0 hlt (by omega)

theorem Timely.drainLoop {t₀ now : ℕ} (h0 : t₀ ≤ now) (hlt : now < t₀ + 2 ^ 31)
    (link : ℕ → LinkStatus) {sent queue : List TxEntry} {t : Tick}
    (h : Timely t₀ now sent t.sched) (hq : t.sched.queue = queue) :
    ∃ evs, (drainLoop (UInt32.ofNat now) link queue t).events = t.events ++ evs ∧
      Timely t₀ now (sent ++ acceptedFrames evs)
        (drainLoop (UInt32.ofNat now) link queue t).sched ∧
      FreshAt t₀ now evs ∧
      (drainLoop (UInt32.ofNat now) link queue t).sched.indices = t.sched.indices := by
  induction queue generalizing t sent with
  | nil =>
    exact ⟨[], by simp [drainLoop_nil], by simpa [drainLoop_nil, acceptedFrames] using h,
      by simp [FreshAt], rfl⟩
  | cons frame rest ih =>
    have hmem : frame ∈ t.sched.queue := by simp [hq]
    have hpos : 0 < frame.periodMs.toNat := by
      rw [h.period frame hmem]
      exact h.period_pos (h.known frame (List.mem_append_right _ hmem))
    have hpast := h.past frame hmem
    have hexp := expired_iff h0 hlt hpos hpast
    have hfresh : frame.expired (UInt32.ofNat now) = false → ∀ f st,
        FreshAt t₀ now [.handed frame f st] := by
      intro hx f st e f' st' he
      simp only [List.mem_singleton, Event.handed.injEq] at he
      rw [he.1]
      refine ⟨hpast, ?_⟩
      by_contra hge
      rw [hexp.mpr (not_lt.mp hge)] at hx
      cases hx
    rcases drainLoop_cons (UInt32.ofNat now) link hq with
      ⟨-, t', heq, ⟨hq', hp', -⟩, -, -, hev⟩ | ⟨hx, -, t', heq, ⟨hq', hp', -⟩, -, -, hev⟩ |
      ⟨hx, hl, t', heq, hq', hp', -, -, -, -, hev⟩
    · have h' := h.sublist sent hp' hq' (by
        rw [hq]; exact List.Sublist.append_left (List.sublist_cons_self _ _) _)
        (by rw [hq]; exact List.subset_cons_self _ _)
      obtain ⟨evs, h1, h2, h3, h4⟩ := ih h' hq'
      rw [heq]
      exact ⟨evs, by rw [h1, hev], h2, h3, by rw [h4, Sched.indices, hp']; rfl⟩
    · have h' := h.sublist (sent ++ [frame]) hp' hq' (by rw [hq]; simp)
        (by rw [hq]; exact List.subset_cons_self _ _)
      obtain ⟨evs, h1, h2, h3, h4⟩ := ih h' hq'
      rw [heq]
      refine ⟨.handed frame (t.sched.frameOf frame) .ok :: evs, by rw [h1, hev]; simp, ?_, ?_, ?_⟩
      · simpa [acceptedFrames] using h2
      · exact FreshAt.append (hfresh hx _ _) h3
      · rw [h4, Sched.indices, hp']; rfl
    · have h' := h.sublist sent hp' hq' (by rw [hq]) (by rw [hq]; exact fun _ h => h)
      rw [heq]
      refine ⟨[.handed frame (t.sched.frameOf frame) (link t.sends)], hev, ?_, hfresh hx _ _, ?_⟩
      · have hno : acceptedFrames [.handed frame (t.sched.frameOf frame) (link t.sends)] = [] := by
          cases hs : link t.sends with
          | ok => exact absurd hs hl
          | busy => rfl
          | error => rfl
        rw [hno, List.append_nil]
        exact h'
      · rw [Sched.indices, hp']; rfl

/-! ## Ticks and runs -/

/-- The events before the drain hand nothing to the link. -/
def NoHanded (events : List Event) : Prop := ∀ e sent status, Event.handed e sent status ∉ events

theorem scheduleSlot_noHanded (store : Store) (nowMs : UInt32) (t : Tick) (slot : ℕ)
    (h : NoHanded t.events) : NoHanded (scheduleSlot store nowMs t slot).events := by
  have hadv : (t.advance slot nowMs).events = t.events := rfl
  rcases scheduleSlot_cases store nowMs t slot with ⟨-, heq⟩ | ⟨-, -, htp | ⟨-, -, heq⟩⟩
  · rw [heq]; exact h
  · obtain ⟨evs, hevs⟩ := htp.events
    rw [hevs, hadv]
    intro e f st
    simpa using h e f st
  · rw [heq]
    rcases offer_cases (t.advance slot nowMs) (t.sched.newFrame store nowMs slot) with
      ⟨-, hev, -⟩ | ⟨-, hev, -⟩
    · rw [hev]; exact h
    · rw [hev, hadv]
      intro e f st
      simpa using h e f st

theorem foldl_scheduleSlot_noHanded (store : Store) (nowMs : UInt32) (slots : List ℕ) (t : Tick)
    (h : NoHanded t.events) : NoHanded (slots.foldl (scheduleSlot store nowMs) t).events := by
  induction slots generalizing t with
  | nil => exact h
  | cons i slots ih => exact ih _ (scheduleSlot_noHanded store nowMs t i h)

theorem NoHanded.accepted {events : List Event} (h : NoHanded events) :
    acceptedFrames events = [] := by
  unfold acceptedFrames
  rw [List.filterMap_eq_nil_iff]
  intro ev hev
  cases ev with
  | handed e f st => exact absurd hev (h e f st)
  | queued e => rfl
  | tp e => rfl

theorem acceptedFrames_tp (evs : List Tp.Event) : acceptedFrames (evs.map Event.tp) = [] :=
  NoHanded.accepted (by simp [NoHanded])

/-- **One tick.** -/
theorem Timely.tick {t₀ before now : ℕ} {sent : List TxEntry} {s : Sched}
    (h : Timely t₀ before sent s) (hle : before ≤ now) (h0 : t₀ ≤ now)
    (hlt : now < t₀ + 2 ^ 31) (store : Store) (link : ℕ → LinkStatus) :
    Timely t₀ now (sent ++ acceptedFrames (Scheduler.tick store (UInt32.ofNat now) link s).events)
        (Scheduler.tick store (UInt32.ofNat now) link s).sched ∧
      FreshAt t₀ now (Scheduler.tick store (UInt32.ofNat now) link s).events ∧
      (Scheduler.tick store (UInt32.ofNat now) link s).sched.indices = s.indices := by
  unfold Scheduler.tick
  dsimp only
  set t1 : Tick := ⟨s, ⟨0, 0, 0, 0, 0, 0, 0⟩, 0, []⟩ with ht1
  set t2 := (List.range s.pgns.length).foldl (retryPending store (UInt32.ofNat now)) t1 with ht2
  set t3 := (List.range s.pgns.length).foldl (Scheduler.scheduleSlot store (UInt32.ofNat now)) t2
    with ht3
  have hf2 : TpOnly t1 t2 := foldl_retryPending_frame store _ _ t1
  have h2 : Timely t₀ now sent t2.sched := (h.mono hle).congr hf2.indices hf2.dues hf2.queue
  have hlen : t2.sched.pgns.length = s.pgns.length := by
    rw [Sched.length_pgns, hf2.indices, ← Sched.length_pgns]
  have h3 : Timely t₀ now sent t3.sched := h2.foldl_scheduleSlot h0 hlt store _
    fun i hi => hlen ▸ List.mem_range.mp hi
  have hev2 : NoHanded t2.events := by
    obtain ⟨evs, hevs⟩ := hf2.events
    rw [hevs]
    simp [NoHanded, ht1]
  have hev3 : NoHanded t3.events := foldl_scheduleSlot_noHanded store _ _ t2 hev2
  have hidx3 : t3.sched.indices = s.indices := by
    rw [ht3, foldl_scheduleSlot_indices, hf2.indices]
  obtain ⟨evs, h41, h42, h43, h44⟩ : ∃ evs,
      (drainQueue (UInt32.ofNat now) link t3).events = t3.events ++ evs ∧
      Timely t₀ now (sent ++ acceptedFrames evs) (drainQueue (UInt32.ofNat now) link t3).sched ∧
      FreshAt t₀ now evs ∧
      (drainQueue (UInt32.ofNat now) link t3).sched.indices = t3.sched.indices := by
    unfold drainQueue
    split_ifs
    · exact ⟨[], by simp, by simpa [acceptedFrames] using h3, by simp [FreshAt], rfl⟩
    · exact h3.drainLoop h0 hlt link rfl
  have hf5 := processTp_frame (UInt32.ofNat now) link (drainQueue (UInt32.ofNat now) link t3)
  obtain ⟨tps, htps⟩ := hf5.events
  rw [htps, h41]
  refine ⟨?_, ?_, ?_⟩
  · rw [acceptedFrames_append, acceptedFrames_append, hev3.accepted, acceptedFrames_tp]
    simpa using h42.congr hf5.indices hf5.dues hf5.queue
  · refine FreshAt.append (FreshAt.append ?_ h43) ?_
    · exact fun e f st he => absurd he (hev3 e f st)
    · intro e f st he; simp at he
  · rw [hf5.indices, h44, hidx3]

/-! ### Runs after `J1939_Sched_Reset_Timers` -/

/-- One call of `J1939_Sched_Tick`: the store it reads, the instant, and the
    answers of the link. -/
structure TickInput where
  store : Store
  now : ℕ
  link : ℕ → LinkStatus

/-- The call as a machine step with the events as output. -/
def tickStep (s : Sched) (i : TickInput) : Sched × List Event :=
  let t := tick i.store (UInt32.ofNat i.now) i.link s
  (t.sched, t.events)

theorem length_le_of_nodup {l : List ℕ} {n : ℕ} (hn : l.Nodup) (hl : ∀ p ∈ l, p < n) :
    l.length ≤ n := by
  rw [← List.toFinset_card_of_nodup hn, ← Finset.card_range n]
  exact Finset.card_le_card fun p hp =>
    Finset.mem_range.mpr (hl p (List.mem_toFinset.mp hp))

/-- How many slots before `i` have its period. -/
def phaseRank (pgns : List PgnEntry) (i : ℕ) : ℕ :=
  ((List.range i).filter fun j =>
    (pgns.getD j default).periodMs = (pgns.getD i default).periodMs).length

/-- How many slots have the period of slot `i`. -/
def phasePeers (pgns : List PgnEntry) (i : ℕ) : ℕ :=
  ((List.range pgns.length).filter fun j =>
    (pgns.getD j default).periodMs = (pgns.getD i default).periodMs).length

/-- A later slot of the same period ranks higher. -/
theorem phaseRank_lt {pgns : List PgnEntry} {i j : ℕ} (hij : i < j)
    (hperiod : (pgns.getD i default).periodMs = (pgns.getD j default).periodMs) :
    phaseRank pgns i < phaseRank pgns j := by
  rw [phaseRank, phaseRank, hperiod, range_split hij, List.filter_append, List.length_append,
    List.filter_cons_of_pos (by simpa using hperiod), List.length_cons]
  omega

theorem phaseRank_lt_peers {pgns : List PgnEntry} {i : ℕ} (hi : i < pgns.length) :
    phaseRank pgns i < phasePeers pgns i := by
  rw [phaseRank, phasePeers, range_split hi, List.filter_append, List.length_append,
    List.filter_cons_of_pos (by simp), List.length_cons]
  omega

/-- The phase without the 32-bit arithmetic: the rank's share of the period,
rounded up. -/
theorem phase_toNat {pgns : List PgnEntry} (hlen : pgns.length ≤ pgnCount) {i : ℕ}
    (hi : i < pgns.length) :
    (phase pgns i).toNat = ((phaseRank pgns i + 1) * (pgns.getD i default).periodMs.toNat +
      phasePeers pgns i - 1) / phasePeers pgns i := by
  have hlt := phaseRank_lt_peers hi
  have hpl : phasePeers pgns i ≤ 60 := by
    refine le_trans (List.length_filter_le _ _) ?_
    rw [List.length_range]
    exact hlen
  show ((UInt32.ofNat (phaseRank pgns i + 1) * (pgns.getD i default).periodMs.toUInt32 +
    UInt32.ofNat (phasePeers pgns i) - 1) / UInt32.ofNat (phasePeers pgns i)).toNat = _
  set period := (pgns.getD i default).periodMs with hper
  have hp16 := period.toNat_lt
  have hmul : (phaseRank pgns i + 1) * period.toNat ≤ 60 * period.toNat :=
    Nat.mul_le_mul_right _ (by omega)
  have hsum : UInt32.ofNat (phaseRank pgns i + 1) * period.toUInt32 +
      UInt32.ofNat (phasePeers pgns i) =
        UInt32.ofNat ((phaseRank pgns i + 1) * period.toNat + phasePeers pgns i) := by
    rw [ofNat_period, ← UInt32.ofNat_mul, ofNat_add_ofNat]
  have hnum : (UInt32.ofNat (phaseRank pgns i + 1) * period.toUInt32 +
      UInt32.ofNat (phasePeers pgns i) - 1).toNat =
        (phaseRank pgns i + 1) * period.toNat + phasePeers pgns i - 1 := by
    rw [hsum]
    exact toNat_sub_ofNat (b := 1) (by omega) (by omega)
  rw [UInt32.toNat_div, hnum]
  simp only [UInt32.toNat_ofNat']
  rw [Nat.mod_eq_of_lt (by omega)]

/-- The first due time lies at most one period ahead. -/
theorem phase_bounds {pgns : List PgnEntry} (hlen : pgns.length ≤ pgnCount) {i : ℕ}
    (hi : i < pgns.length) (hpos : 0 < (pgns.getD i default).periodMs.toNat) :
    1 ≤ (phase pgns i).toNat ∧
      (phase pgns i).toNat ≤ (pgns.getD i default).periodMs.toNat := by
  have hlt := phaseRank_lt_peers hi
  rw [phase_toNat hlen hi]
  set period := (pgns.getD i default).periodMs with hper
  set peers := phasePeers pgns i with hpeers
  set rank := phaseRank pgns i with hrank
  have hmul : (rank + 1) * period.toNat ≤ peers * period.toNat := Nat.mul_le_mul_right _ hlt
  have hone : (rank + 1) * 1 ≤ (rank + 1) * period.toNat := Nat.mul_le_mul_left _ hpos
  refine ⟨(Nat.le_div_iff_mul_le (by omega)).mpr (by omega),
    Nat.lt_succ_iff.mp ((Nat.div_lt_iff_lt_mul (by omega)).mpr ?_)⟩
  have hexp : (period.toNat + 1) * peers = peers * period.toNat + peers := by ring
  rw [Nat.succ_eq_add_one, hexp]
  omega

section Reset

variable {s : Sched}

theorem resetTimers_indices (nowMs : UInt32) : (s.resetTimers nowMs).indices = s.indices := by
  unfold Sched.indices Sched.resetTimers
  refine List.ext_getElem (by simp) fun i h1 h2 => ?_
  simp

theorem resetTimers_nextDueMs (nowMs : UInt32) {i : ℕ} (hi : i < s.pgns.length) :
    ((s.resetTimers nowMs).entry i).nextDueMs = nowMs + phase s.pgns i := by
  have hi' : i < (s.resetTimers nowMs).pgns.length := by simpa [Sched.resetTimers] using hi
  rw [Sched.entry, List.getD_eq_getElem _ _ hi']
  simp [Sched.resetTimers]

/-- After a reset every slot is due within its period. -/
theorem reset_phase (hn : s.indices.Nodup) (hp : ∀ p ∈ s.indices, p < pgnCount) {i : ℕ}
    (hi : i < s.pgns.length) :
    1 ≤ (phase s.pgns i).toNat ∧ (phase s.pgns i).toNat ≤ (s.entry i).periodMs.toNat := by
  have hlen : s.pgns.length ≤ pgnCount := by
    rw [s.length_pgns]
    exact length_le_of_nodup hn hp
  refine phase_bounds hlen hi ?_
  have hi' : i < s.indices.length := by rwa [← s.length_pgns]
  have := s.entry_periodMs i
  rw [Sched.entry] at this
  rw [this, List.getD_eq_getElem _ _ hi']
  exact (pgn_periodic (hp _ (List.getElem_mem hi'))).1

theorem Timely.reset (hn : s.indices.Nodup) (hp : ∀ p ∈ s.indices, p < pgnCount) (t₀ : ℕ) :
    Timely t₀ t₀ [] (s.resetTimers (UInt32.ofNat t₀)) := by
  constructor
  · rw [resetTimers_indices]; exact hp
  · intro i hi
    have hi' : i < s.pgns.length := by simpa [Sched.resetTimers] using hi
    have hph := (reset_phase hn hp hi').2
    have hp16 := (s.entry i).periodMs.toNat_lt
    rw [Sched.due, resetTimers_nextDueMs _ hi', instant,
      show UInt32.ofNat t₀ + phase s.pgns i - UInt32.ofNat t₀ = phase s.pgns i by grind]
    omega
  · intro e he; simp [Sched.resetTimers] at he
  · intro e he; simp [Sched.resetTimers] at he
  · intro e he; simp [Sched.resetTimers] at he
  · intro i; simp [Sched.resetTimers, slotDeadlines]
  · intro i _ d hd; simp [Sched.resetTimers, slotDeadlines] at hd

end Reset

theorem Timely.run {t₀ t : ℕ} {sent : List TxEntry} {s : Sched} (h : Timely t₀ t sent s)
    (h0 : t₀ ≤ t) (inputs : List TickInput)
    (hmono : (t :: inputs.map TickInput.now).Pairwise (· ≤ ·))
    (hspan : ∀ i ∈ inputs, i.now < t₀ + 2 ^ 31) :
    List.Forall₂ (fun i events => FreshAt t₀ i.now events) inputs
        (Mealy.run tickStep s inputs).2 ∧
      ∃ now, Timely t₀ now (sent ++ acceptedFrames (Mealy.run tickStep s inputs).2.flatten)
        (Mealy.run tickStep s inputs).1 ∧
      (Mealy.run tickStep s inputs).1.indices = s.indices := by
  induction inputs generalizing t sent s with
  | nil => exact ⟨.nil, t, by simpa [acceptedFrames] using h, rfl⟩
  | cons i inputs ih =>
    rw [List.map_cons] at hmono
    obtain ⟨hle, hrest⟩ := List.pairwise_cons.mp hmono
    have hti := hle i.now (by simp)
    obtain ⟨h1, h2, h3⟩ := h.tick hti (h0.trans hti) (hspan i (by simp)) i.store i.link
    obtain ⟨h4, now, h5, h6⟩ := ih h1 (h0.trans hti) hrest fun j hj => hspan j (by simp [hj])
    rw [Mealy.run_cons]
    refine ⟨.cons h2 h4, now, ?_, h6.trans h3⟩
    rw [List.flatten_cons, acceptedFrames_append, ← List.append_assoc]
    exact h5

/-- **No frame is sent stale or out of order.** Ticks at non-decreasing
    instants less than `2 ^ 31` after `J1939_Sched_Reset_Timers`, whatever the
    store and the link do: a frame is handed to the link inside its period, and
    the accepted frames of a PGN have strictly increasing deadlines. -/
theorem fresh_in_order (s : Sched) (hn : s.indices.Nodup) (hp : ∀ p ∈ s.indices, p < pgnCount)
    (t₀ : ℕ) (inputs : List TickInput)
    (hmono : (t₀ :: inputs.map TickInput.now).Pairwise (· ≤ ·))
    (hspan : ∀ i ∈ inputs, i.now < t₀ + 2 ^ 31) :
    let outs := (Mealy.run tickStep (s.resetTimers (UInt32.ofNat t₀)) inputs).2
    List.Forall₂ (fun i events => ∀ e sent status, Event.handed e sent status ∈ events →
        e.deadline t₀ ≤ i.now ∧ i.now < e.deadline t₀ + e.periodMs.toNat) inputs outs ∧
      ∀ p, (((acceptedFrames outs.flatten).filter fun e =>
        s.indices[e.pgnSlot]? = some p).map (TxEntry.deadline t₀)).Pairwise (· < ·) := by
  obtain ⟨h1, now, h2, h3⟩ := (Timely.reset hn hp t₀).run le_rfl inputs hmono hspan
  refine ⟨h1, fun p => ?_⟩
  by_cases hin : p ∈ s.indices
  · obtain ⟨i, hi, rfl⟩ := List.mem_iff_getElem.mp hin
    have hfilter : ∀ e : TxEntry,
        (s.indices[e.pgnSlot]? = some s.indices[i]) ↔ e.pgnSlot = i := by
      intro e
      constructor
      · intro he
        obtain ⟨hlt, he⟩ := List.getElem?_eq_some_iff.mp he
        exact (List.Nodup.getElem_inj_iff hn).mp he
      · rintro rfl
        exact List.getElem?_eq_getElem hi
    simp only [hfilter]
    have := h2.order i
    rw [List.nil_append, slotDeadlines_append] at this
    exact (List.pairwise_append.mp this).1
  · have hnone : ∀ e : TxEntry, ¬ s.indices[e.pgnSlot]? = some p :=
      fun e he => hin (List.mem_of_getElem? he)
    simp [hnone]

/-- A store with one record of `0xF00B` and one of `0xF003`. -/
def twoPgnStore : Store :=
  (commit (setRaw (setRaw (begin init .empty).1 83 0).1 94 0).1).1

/-- Both PGNs scheduled: `0xF00B` every 20 ms, `0xF003` every 50 ms. -/
def twoPgnSched : Sched :=
  { Sched.clear with pgns := [⟨0, 9, false⟩, ⟨0, 5, false⟩] }

/-- Two PGNs across the wrap of the clock, with one refused tick. -/
theorem fresh_in_order_wrap :
    let s := twoPgnSched
    let inputs : List TickInput :=
      [⟨twoPgnStore, 2 ^ 32 + 20, fun _ => .busy⟩, ⟨twoPgnStore, 2 ^ 32 + 60, fun _ => .ok⟩]
    let outs := (Mealy.run tickStep (s.resetTimers (UInt32.ofNat (2 ^ 32 - 3))) inputs).2
    List.Forall₂ (fun i events => ∀ e sent status, Event.handed e sent status ∈ events →
        e.deadline (2 ^ 32 - 3) ≤ i.now ∧
          i.now < e.deadline (2 ^ 32 - 3) + e.periodMs.toNat) inputs outs ∧
      ∀ p, (((acceptedFrames outs.flatten).filter fun e =>
        s.indices[e.pgnSlot]? = some p).map (TxEntry.deadline (2 ^ 32 - 3))).Pairwise (· < ·) :=
  fresh_in_order _ (by decide) (by decide) (2 ^ 32 - 3) _ (by simp) (by simp)

end J1939Gen.Scheduler
