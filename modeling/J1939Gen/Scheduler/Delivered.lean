import J1939Gen.Lib.History
import J1939Gen.Scheduler.Snapshot

/-!
# What reaches the bus was packed by one tick

A frame is packed when it is queued and a BAM when it starts; the bank may
change many times before the link takes the bytes. The log of a run has each
event with the value store its tick read.

* `Justified`: an accepted frame was queued, and a completed message started,
  from a snapshot of the store of that tick.
* `Kept`: the queue and the BAM buffer keep what was packed.
* `Kept.tick`: every tick keeps this, whatever store it reads.
-/

namespace J1939Gen.Scheduler

open ByteMem SerialClock ValueStore

/-! ## The log of a run -/

/-- What the scheduler showed, each event with the store its tick read. -/
abbrev Log := List (Store × Event)

/-- The BAM events of a log. -/
def tpEvents (log : Log) : List (Store × Tp.Event) :=
  log.filterMap fun x => match x.2 with
    | .tp e => some (x.1, e)
    | _ => none

/-- An accepted frame was queued before, and its bytes are a snapshot of the store
    that tick read. -/
def FrameJustified (before : Log) (frame : TxEntry) (sent : CanFrame) : Prop :=
  ∃ store p, (store, .queued frame) ∈ before ∧ p < pgnCount ∧
    sent = linkFrame (pgnAt p).pgn sent.data (pgnAt p).priority (pgnAt p).sourceAddress ∧
    Snapshot store p sent.data

/-- A completed message was started before, and the link has accepted its frames
    since, in order; any receiver has it. Its bytes are a snapshot of the store the
    starting tick read. -/
def MessageJustified (before : Log) : Prop :=
  ∃ store p, ∃ b : Tp.Bam, ∃ earlier since, p < pgnCount ∧
    b.pgn = (pgnAt p).pgn ∧ b.sourceAddress = (pgnAt p).sourceAddress ∧
    tpEvents before = earlier ++ (store, .started b) :: since ∧
    since.map Prod.snd = ((List.range (b.packets + 1)).map fun k => Tp.Event.accepted (b.frame k)) ∧
    (∀ r : Tp.Receiver, (r.readAll ((List.range (b.packets + 1)).map b.frame)).delivered =
      r.delivered ++ [b.message]) ∧
    (ScalarPgn p → Snapshot store p b.message.payload)

/-- What the events before it say about an event. -/
def Justified (before : Log) : Store × Event → Prop
  | (_, .handed frame sent .ok) => FrameJustified before frame sent
  | (_, .tp .completed) => MessageJustified before
  | _ => True

/-! ## The queue and the BAM buffer -/

/-- A queued frame is the packing of the store of the tick that queued it. -/
def Packed (s : Sched) (log : Log) (e : TxEntry) : Prop :=
  ∃ store p, (store, .queued e) ∈ log ∧ s.indices[e.pgnSlot]? = some p ∧ p < pgnCount ∧
    pgnNeedsTp (pgnAt p) = false ∧ store.active.Wf ∧ e.payload = (packFrame store (pgnAt p)).1

/-- The message a tick packs for multi-packet PGN `p`. -/
def messageFor (store : Store) (p : ℕ) : Tp.Bam where
  pgn := (pgnAt p).pgn
  sourceAddress := (pgnAt p).sourceAddress
  payload := bytes (packPgn store (pgnAt p) (fun _ => 0xFF) (txLength (pgnAt p))).1 0
    (txLength (pgnAt p)).toNat

/-- The running session carries the packing of the store of the tick that started
    it, and its log has the frames accepted since. -/
def Sending (s : Tp.Session) (log : Log) : Prop :=
  ∃ store p earlier since, p < pgnCount ∧ store.active.Wf ∧ s.Running ∧
    s.bam = messageFor store p ∧
    tpEvents log = earlier ++ (store, .started s.bam) :: since ∧
    since.map Prod.snd = (List.range s.nextPacket.toNat).map fun k => Tp.Event.accepted (s.bam.frame k)

/-- The queue and the BAM buffer keep what was packed. -/
structure Kept (s : Sched) (log : Log) : Prop where
  queued : ∀ e ∈ s.queue, Packed s log e
  sending : s.tp.state = .sending → Sending s.tp log
  justified : History.Every Justified log

theorem tpEvents_append (log log' : Log) : tpEvents (log ++ log') = tpEvents log ++ tpEvents log' :=
  List.filterMap_append

theorem tpEvents_tp (store : Store) (evs : List Tp.Event) :
    tpEvents ((evs.map Event.tp).map (Prod.mk store)) = evs.map (Prod.mk store) := by
  induction evs with
  | nil => rfl
  | cons e evs ih => exact congrArg ((store, e) :: ·) ih

/-- A queued frame stays what it is while the table and the log only grow. -/
theorem Packed.mono {s s' : Sched} {log log' : Log} {e : TxEntry} (h : Packed s log e)
    (hs : s.indices <+: s'.indices) (hlog : ∀ x ∈ log, x ∈ log') : Packed s' log' e := by
  obtain ⟨store, p, hmem, hp, hrest⟩ := h
  refine ⟨store, p, hlog _ hmem, ?_, hrest⟩
  obtain ⟨more, heq⟩ := hs
  have hlt := (List.getElem?_eq_some_iff.mp hp).1
  rw [← heq, List.getElem?_append_left hlt, hp]

theorem Kept.empty : Kept Sched.clear [] where
  queued e he := by cases he
  sending h := by cases h
  justified := History.every_nil

/-- The queue only shrinks, slots keep their PGN while it is not empty, and no
    session starts. -/
structure Quiet (s s' : Sched) : Prop where
  queue : ∀ e ∈ s'.queue, e ∈ s.queue
  indices : s'.queue ≠ [] → s.indices <+: s'.indices
  tp : s'.tp = s.tp ∨ s'.tp.state ≠ .sending

theorem Quiet.refl (s : Sched) : Quiet s s := ⟨fun _ he => he, fun _ => List.prefix_refl _, .inl rfl⟩

theorem Quiet.trans {s s' s'' : Sched} (h : Quiet s s') (h' : Quiet s' s'') : Quiet s s'' where
  queue e he := h.queue e (h'.queue e he)
  indices hne := by
    have hne' : s'.queue ≠ [] := by
      obtain ⟨e, he⟩ := List.exists_mem_of_ne_nil _ hne
      exact List.ne_nil_of_mem (h'.queue e he)
    exact (h.indices hne').trans (h'.indices hne)
  tp := by
    rcases h'.tp with heq | hq
    · rw [heq]
      exact h.tp
    · exact .inr hq

theorem Quiet.clear (s : Sched) : Quiet s Sched.clear where
  queue e he := by cases he
  indices hne := absurd rfl hne
  tp := .inr (by simp [Sched.clear, Tp.init])

theorem Kept.quiet {s s' : Sched} {log : Log} (h : Kept s log) (hq : Quiet s s') : Kept s' log where
  queued e he := by
    have hne := List.ne_nil_of_mem he
    exact (h.queued e (hq.queue e he)).mono (hq.indices hne) fun _ hx => hx
  sending hs := by
    rcases hq.tp with heq | hne
    · rw [heq] at hs ⊢
      exact h.sending hs
    · exact absurd hs hne
  justified := h.justified

/-- A justified event that is not of the BAM transmitter. -/
theorem Kept.concat {s : Sched} {log : Log} (h : Kept s log) {x : Store × Event}
    (hx : Justified log x) (htp : tpEvents [x] = []) : Kept s (log ++ [x]) where
  queued e he := (h.queued e he).mono (List.prefix_refl _) fun _ hy => List.mem_append_left _ hy
  sending hs := by
    obtain ⟨store, p, earlier, since, h1, h2, h3, h4, h5, h6⟩ := h.sending hs
    refine ⟨store, p, earlier, since, h1, h2, h3, h4, ?_, h6⟩
    rw [tpEvents_append, htp, List.append_nil]
    exact h5
  justified := History.every_concat h.justified hx

/-! ## The loops over the slots -/

section Tick

variable {store : Store} (hw : store.active.Wf) {log : Log}

/-- The queue and the buffer of a tick in progress, with its events in the log. -/
def KeptTick (store : Store) (log : Log) (t : Tick) : Prop :=
  Kept t.sched (log ++ t.events.map (Prod.mk store))

theorem KeptTick.quiet {t t' : Tick} (h : KeptTick store log t) (hq : Quiet t.sched t'.sched)
    (he : t'.events = t.events) : KeptTick store log t' := by
  unfold KeptTick
  rw [he]
  exact Kept.quiet h hq

theorem indices_slot {s : Sched} {slot : ℕ} (h : slot < s.pgns.length) :
    s.indices[slot]? = some (s.entry slot).catalogPgnIndex := by
  rw [Sched.entry, List.getD_eq_getElem _ _ h, Sched.indices, List.getElem?_map,
    List.getElem?_eq_getElem h]
  rfl

/-- What starting a BAM does: the buffer is taken, or nothing is packed into it,
    or a session starts with the packing of the store. -/
theorem startTpPgn_cases (store : Store) (slot : ℕ) (nowMs : UInt32) (t : Tick) :
    ((startTpPgn store slot nowMs t).events = t.events ∧
      ((startTpPgn store slot nowMs t).sched.tp = t.sched.tp ∨
        (startTpPgn store slot nowMs t).sched.tp.state ≠ .sending)) ∨
    ((startTpPgn store slot nowMs t).events =
        t.events ++ [.tp (.started (startTpPgn store slot nowMs t).sched.tp.bam)] ∧
      (startTpPgn store slot nowMs t).sched.tp.Running ∧
      (startTpPgn store slot nowMs t).sched.tp.nextPacket = 0 ∧
      (startTpPgn store slot nowMs t).sched.tp.bam =
        messageFor store (t.sched.entry slot).catalogPgnIndex) := by
  unfold startTpPgn
  dsimp only
  by_cases hbusy : t.sched.tp.state = .sending ∨ txLength (t.sched.catalogPgn slot) ≤ 8 ∨
      txLength (t.sched.catalogPgn slot) > UInt16.ofNat maxPayloadBytes
  · rw [Tp.bamPrepare, if_pos hbusy]
    exact .inl ⟨rfl, .inl rfl⟩
  rw [Tp.bamPrepare, if_neg hbusy]
  dsimp only
  rw [if_neg (by simp)]
  by_cases hpack : (packPgn store (t.sched.catalogPgn slot) (fun _ => 0xFF)
      (txLength (t.sched.catalogPgn slot))).2 = false
  · rw [if_pos hpack]
    exact .inl ⟨rfl, .inr (by simp)⟩
  rw [if_neg hpack]
  simp only [not_or, UInt16.not_le, UInt16.not_lt, gt_iff_lt] at hbusy
  obtain ⟨-, hlow, hhigh⟩ := hbusy
  rw [UInt16.lt_iff_toNat_lt] at hlow
  rw [UInt16.le_iff_toNat_le] at hhigh
  refine .inr ⟨rfl, ?_, rfl, rfl⟩
  show (Tp.bamStart _ _ _ _).1.Running
  refine Tp.running_started ?_ _ _ _ rfl
  exact ⟨hlow, hhigh⟩

include hw in
/-- Starting a BAM, for a slot of a PGN of the catalog. -/
theorem KeptTick.startTpPgn {t : Tick} (h : KeptTick store log t) {slot : ℕ} (nowMs : UInt32)
    (hp : (t.sched.entry slot).catalogPgnIndex < pgnCount) :
    KeptTick store log (startTpPgn store slot nowMs t) := by
  have hframe := startTpPgn_frame store slot nowMs t
  rcases startTpPgn_cases store slot nowMs t with ⟨he, htp⟩ | ⟨he, hrun, hnext, hbam⟩
  · exact h.quiet ⟨fun e => hframe.queue ▸ id, fun _ => by rw [hframe.indices], htp⟩ he
  unfold KeptTick at h ⊢
  rw [he, List.map_append, ← List.append_assoc]
  refine ⟨?_, fun _ => ?_, History.every_concat h.justified trivial⟩
  · intro e hmem
    rw [hframe.queue] at hmem
    exact (h.queued e hmem).mono (by rw [hframe.indices]) fun _ hy => List.mem_append_left _ hy
  · exact ⟨store, _, _, [], hp, hw, hrun, hbam, tpEvents_append _ _, by rw [hnext]; rfl⟩

include hw in
theorem KeptTick.retryPending {t : Tick} (h : KeptTick store log t) (nowMs : UInt32) {slot : ℕ}
    (hp : (t.sched.entry slot).catalogPgnIndex < pgnCount) :
    KeptTick store log (retryPending store nowMs t slot) := by
  unfold Scheduler.retryPending
  split_ifs
  · exact h
  · exact h.startTpPgn hw nowMs hp
  · exact h

theorem KeptTick.advance {t : Tick} (h : KeptTick store log t) (slot : ℕ) (nowMs : UInt32) :
    KeptTick store log (t.advance slot nowMs) := by
  have hq : Quiet t.sched (t.advance slot nowMs).sched :=
    ⟨fun _ he => he, fun _ => by rw [advance_indices], .inl rfl⟩
  exact h.quiet hq rfl

/-- A frame that packs the store may be offered. -/
theorem KeptTick.offer {t : Tick} (h : KeptTick store log t) (frame : TxEntry)
    (hframe : ∀ log', (store, .queued frame) ∈ log' → Packed t.sched log' frame) :
    KeptTick store log (t.offer frame) := by
  rcases offer_cases t frame with ⟨-, he, -, -, hs⟩ | ⟨-, he, -, -, pre, post, hq, -, hs⟩
  · apply h.quiet _ he
    rw [hs]
    exact ⟨fun _ he => he, fun _ => List.prefix_refl _, .inl rfl⟩
  unfold KeptTick at h ⊢
  rw [he, List.map_append, ← List.append_assoc, hs]
  have hgrown : Kept t.sched (_ ++ [(store, Event.queued frame)]) := h.concat trivial rfl
  refine ⟨?_, hgrown.sending, hgrown.justified⟩
  intro e hmem
  rcases List.mem_append.mp hmem with hpre | hpost
  · exact hgrown.queued e (by rw [hq]; exact List.mem_append_left _ hpre)
  · rcases List.mem_cons.mp hpost with rfl | hpost
    · exact hframe _ (List.mem_append_right _ (by simp))
    · exact hgrown.queued e (by rw [hq]; exact List.mem_append_right _ hpost)

include hw in
theorem KeptTick.scheduleSlot {t : Tick} (h : KeptTick store log t) (nowMs : UInt32) {slot : ℕ}
    (hslot : slot < t.sched.pgns.length)
    (hp : (t.sched.entry slot).catalogPgnIndex < pgnCount) :
    KeptTick store log (scheduleSlot store nowMs t slot) := by
  have hadv : ((t.advance slot nowMs).sched.entry slot).catalogPgnIndex =
      (t.sched.entry slot).catalogPgnIndex := by
    rw [Sched.entry_catalogPgnIndex, advance_indices, Sched.entry_catalogPgnIndex]
  unfold Scheduler.scheduleSlot
  dsimp only
  split_ifs with hdue htp
  · exact h
  · exact (h.advance slot nowMs).startTpPgn hw nowMs (by rw [hadv]; exact hp)
  unfold scheduleDuePgn
  rw [advance_catalogPgn]
  dsimp only
  by_cases hpack : (packFrame store (t.sched.catalogPgn slot)).2 = false
  · rw [if_pos hpack]
    exact h.advance slot nowMs
  rw [if_neg hpack]
  refine (h.advance slot nowMs).offer (t.sched.newFrame store nowMs slot) ?_
  intro log' hmem
  refine ⟨store, _, hmem, ?_, hp, by simpa using htp, hw, rfl⟩
  rw [advance_indices]
  exact indices_slot hslot

/-- Every slot has a PGN of the catalog. -/
def SlotsOk (s : Sched) : Prop := ∀ p ∈ s.indices, p < pgnCount

theorem SlotsOk.slot {s : Sched} (h : SlotsOk s) {slot : ℕ} (hslot : slot < s.pgns.length) :
    (s.entry slot).catalogPgnIndex < pgnCount :=
  h _ (List.mem_of_getElem? (indices_slot hslot))

theorem length_of_indices {s s' : Sched} (h : s'.indices = s.indices) :
    s'.pgns.length = s.pgns.length := by
  simpa [Sched.indices] using congrArg List.length h

include hw in
theorem KeptTick.foldl_retryPending (nowMs : UInt32) (slots : List ℕ) {t : Tick}
    (h : KeptTick store log t) (hok : SlotsOk t.sched)
    (hslots : ∀ i ∈ slots, i < t.sched.pgns.length) :
    KeptTick store log (slots.foldl (Scheduler.retryPending store nowMs) t) := by
  induction slots generalizing t with
  | nil => exact h
  | cons i slots ih =>
    have hi := hslots i (by simp)
    have hidx := (retryPending_frame store nowMs t i).indices
    apply ih (h.retryPending hw nowMs (hok.slot hi))
    · unfold SlotsOk
      rw [hidx]
      exact hok
    · rw [length_of_indices hidx]
      exact fun j hj => hslots j (List.mem_cons_of_mem i hj)

include hw in
theorem KeptTick.foldl_scheduleSlot (nowMs : UInt32) (slots : List ℕ) {t : Tick}
    (h : KeptTick store log t) (hok : SlotsOk t.sched)
    (hslots : ∀ i ∈ slots, i < t.sched.pgns.length) :
    KeptTick store log (slots.foldl (Scheduler.scheduleSlot store nowMs) t) := by
  induction slots generalizing t with
  | nil => exact h
  | cons i slots ih =>
    have hi := hslots i (by simp)
    have hidx := scheduleSlot_indices store nowMs t i
    apply ih (h.scheduleSlot hw nowMs hi (hok.slot hi))
    · unfold SlotsOk
      rw [hidx]
      exact hok
    · rw [length_of_indices hidx]
      exact fun j hj => hslots j (List.mem_cons_of_mem i hj)

/-! ## The drain -/

/-- The frame handed on for a queued entry is justified by the tick that queued it. -/
theorem Packed.justified {s : Sched} {e : TxEntry} (h : Packed s log e) :
    FrameJustified log e (s.frameOf e) := by
  obtain ⟨store, p, hmem, hslot, hp, hneeds, hw, hpayload⟩ := h
  have hpgn : s.catalogPgn e.pgnSlot = pgnAt p := by
    rw [Sched.catalogPgn, Sched.entry_catalogPgnIndex, List.getD_eq_getElem?_getD, hslot]
    rfl
  refine ⟨store, p, hmem, hp, ?_, ?_⟩
  · rw [Sched.frameOf, hpgn]
    rfl
  · show Snapshot store p (bytes e.payload 0 8)
    rw [hpayload]
    exact packPgn_snapshot hw hp (scalarPgn_frame hneeds) (room_frame hneeds)

theorem Quiet.popped {t t' : Tick} {frame : TxEntry} {rest : List TxEntry}
    (hq : t.sched.queue = frame :: rest) (h : t.popped rest t') : Quiet t.sched t'.sched where
  queue e he := by
    rw [h.1] at he
    rw [hq]
    exact List.mem_cons_of_mem frame he
  indices _ := by
    rw [Sched.indices, Sched.indices, h.2.1]
  tp := .inl h.2.2.1

/-- A frame is handed to the link. -/
theorem KeptTick.handed {t t' : Tick} (h : KeptTick store log t) {frame : TxEntry}
    (hmem : frame ∈ t.sched.queue) {status : LinkStatus} (hq : Quiet t.sched t'.sched)
    (he : t'.events = t.events ++ [.handed frame (t.sched.frameOf frame) status]) :
    KeptTick store log t' := by
  have hjust : Justified (log ++ t.events.map (Prod.mk store))
      (store, .handed frame (t.sched.frameOf frame) status) := by
    cases status with
    | ok => exact (h.queued frame hmem).justified
    | busy | error => trivial
  unfold KeptTick at h ⊢
  rw [he, List.map_append, ← List.append_assoc]
  exact (h.concat hjust rfl).quiet hq

theorem KeptTick.drainLoop (nowMs : UInt32) (link : ℕ → LinkStatus) (queue : List TxEntry)
    {t : Tick} (h : KeptTick store log t) (hq : t.sched.queue = queue) :
    KeptTick store log (drainLoop nowMs link queue t) := by
  induction queue generalizing t with
  | nil => exact h
  | cons frame rest ih =>
    have hmem : frame ∈ t.sched.queue := by
      rw [hq]
      simp
    rcases drainLoop_cons nowMs link hq with ⟨-, t', heq, hpop, -, -, he⟩ |
        ⟨-, -, t', heq, hpop, -, -, he⟩ | ⟨-, -, t', heq, h1, h2, h3, -, -, -, he⟩
    · rw [heq]
      exact ih (h.quiet (.popped hq hpop) he) hpop.1
    · rw [heq]
      exact ih (h.handed hmem (.popped hq hpop) he) hpop.1
    · rw [heq]
      refine h.handed hmem ⟨fun e he => ?_, fun _ => ?_, .inl h3⟩ he
      · rw [h1] at he
        rw [hq]
        exact he
      · rw [Sched.indices, Sched.indices, h2]

theorem KeptTick.drainQueue {t : Tick} (h : KeptTick store log t) (nowMs : UInt32)
    (link : ℕ → LinkStatus) : KeptTick store log (drainQueue nowMs link t) := by
  unfold Scheduler.drainQueue
  split_ifs
  · exact h
  · exact h.drainLoop nowMs link _ rfl

/-! ## The BAM transmitter -/

/-- What the transmitter does at the end of a tick: it shows nothing and keeps its
    message, it aborts the session, or the link accepts the next frame. -/
theorem tpStep_cases (s : Tp.Session) (nowMs : UInt32) (link : LinkStatus) :
    let s' := (Tp.step s (.process nowMs link)).1
    let evs := (Tp.step s (.process nowMs link)).2
    (evs = [] ∧ s'.state = s.state ∧ s'.bam = s.bam ∧ s'.packets = s.packets ∧
      s'.nextPacket = s.nextPacket) ∨
    ((∀ e ∈ evs, e = .aborted) ∧ s'.state ≠ .sending) ∨
    (s.state = .sending ∧ s.packets ≤ s.nextPacket ∧
      evs = [.accepted (Tp.nextFrame s), .completed] ∧ s'.state ≠ .sending) ∨
    (s.state = .sending ∧ s.nextPacket < s.packets ∧ evs = [.accepted (Tp.nextFrame s)] ∧
      s'.bam = s.bam ∧ s'.packets = s.packets ∧ s'.nextPacket = s.nextPacket + 1) := by
  have hone : ∀ n : UInt32, n + 1 ≠ n := by grind
  unfold Tp.step
  dsimp only
  rcases Tp.process_cases s nowMs link with heq | ⟨hs, heq⟩ | ⟨hs, hl, heq⟩ | ⟨hs, hl, hp, heq⟩ |
      ⟨hs, hl, hp, heq⟩ <;> rw [heq]
  · exact .inl ⟨by simp [Tp.counted], rfl, rfl, rfl, rfl⟩
  · refine .inr (.inl ⟨?_, by simp [Tp.cancel]⟩)
    intro e he
    simpa [Tp.counted, Tp.cancel, hs, hone] using he
  · exact .inl ⟨by simp [hl, Tp.counted], rfl, rfl, rfl, rfl⟩
  · exact .inr (.inr (.inl ⟨hs, hp, by simp [hl, Tp.counted, hone], by simp⟩))
  · exact .inr (.inr (.inr ⟨hs, hp, by simp [hl, Tp.counted], rfl, rfl, rfl⟩))

/-- A session whose last frame is accepted delivers its message. -/
theorem Sending.justified {s : Tp.Session} (h : Sending s log) (hlast : s.packets ≤ s.nextPacket)
    (now : Store) :
    MessageJustified (log ++ [(now, .tp (.accepted (Tp.nextFrame s)))]) := by
  obtain ⟨store, p, earlier, since, hp, hw, hrun, hbam, hlog, hsince⟩ := h
  have hnext : s.nextPacket.toNat = s.bam.packets :=
    le_antisymm hrun.next (hrun.packets ▸ UInt8.le_iff_toNat_le.mp hlast)
  refine ⟨store, p, s.bam, earlier, since ++ [(now, .accepted (Tp.nextFrame s))], hp, ?_, ?_, ?_, ?_,
    ?_, ?_⟩
  · rw [hbam]
    rfl
  · rw [hbam]
    rfl
  · rw [tpEvents_append, hlog]
    simp [tpEvents]
  · rw [List.map_append, hsince, Tp.nextFrame_eq hrun, hnext, List.range_succ, List.map_append]
    rfl
  · intro r
    rw [Tp.receive_frames r hrun.valid]
  · intro hscalar
    show Snapshot store p s.bam.payload
    rw [hbam]
    exact packPgn_snapshot hw hp hscalar (room_tp p)

theorem KeptTick.processTp {t : Tick} (h : KeptTick store log t) (nowMs : UInt32)
    (link : ℕ → LinkStatus) : KeptTick store log (processTp nowMs link t) := by
  have hqueue : ∀ (evs : List Tp.Event) (tp : Tp.Session),
      ∀ e ∈ t.sched.queue, Packed { t.sched with tp := tp }
        (log ++ t.events.map (Prod.mk store) ++ (evs.map Event.tp).map (Prod.mk store)) e :=
    fun _ _ e he => (h.queued e he).mono (List.prefix_refl _)
      fun _ hx => List.mem_append_left _ hx
  unfold KeptTick at h ⊢
  unfold Scheduler.processTp
  have hcases := tpStep_cases t.sched.tp nowMs (link t.sends)
  generalize Tp.step t.sched.tp (.process nowMs (link t.sends)) = r at hcases ⊢
  obtain ⟨s', evs⟩ := r
  dsimp only at hcases ⊢
  rw [List.map_append, ← List.append_assoc]
  have hframe := tpEvents_append (log ++ t.events.map (Prod.mk store))
    ((evs.map Event.tp).map (Prod.mk store))
  rw [tpEvents_tp] at hframe
  rcases hcases with ⟨rfl, hst, hbam, hpk, hnext⟩ | ⟨hev, hst⟩ | ⟨hs, hp, rfl, hst⟩ |
      ⟨hs, hp, rfl, hbam, hpk, hnext⟩
  · refine ⟨hqueue [] s', fun hsend => ?_, by simpa using h.justified⟩
    obtain ⟨store', p, earlier, since, h1, h2, h3, h4, h5, h6⟩ := h.sending (hst ▸ hsend)
    refine ⟨store', p, earlier, since, h1, h2, ⟨?_, ?_, ?_⟩, hbam ▸ h4, ?_, ?_⟩
    · rw [hbam]
      exact h3.valid
    · rw [hpk, hbam]
      exact h3.packets
    · rw [hnext, hbam]
      exact h3.next
    · rw [hbam, hframe, h5, List.map_nil, List.append_nil]
    · rw [hbam, hnext]
      exact h6
  · refine ⟨hqueue evs s', fun hsend => absurd hsend hst, ?_⟩
    apply History.every_append h.justified
    intro x hx before
    obtain ⟨y, hy, rfl⟩ := List.mem_map.mp hx
    obtain ⟨e, he, rfl⟩ := List.mem_map.mp hy
    rw [hev e he]
    trivial
  · refine ⟨hqueue _ s', fun hsend => absurd hsend hst, ?_⟩
    have hacc : History.Every Justified (_ ++ [(store, .tp (.accepted (Tp.nextFrame t.sched.tp)))]) :=
      History.every_concat h.justified trivial
    have hdone : History.Every Justified (_ ++ [(store, .tp .completed)]) :=
      History.every_concat hacc ((h.sending hs).justified hp store)
    simpa using hdone
  · obtain ⟨store', p, earlier, since, h1, h2, h3, h4, h5, h6⟩ := h.sending hs
    have hlt : t.sched.tp.nextPacket.toNat < t.sched.tp.bam.packets :=
      h3.packets ▸ UInt8.lt_iff_toNat_lt.mp hp
    have hpks := h3.valid.packets_le
    have hsucc : s'.nextPacket.toNat = t.sched.tp.nextPacket.toNat + 1 := by
      rw [hnext, UInt8.toNat_add]
      simp only [UInt8.reduceToNat]
      omega
    refine ⟨hqueue _ s', fun _ => ?_, History.every_concat h.justified trivial⟩
    refine ⟨store', p, earlier, since ++ [(store, .accepted (Tp.nextFrame t.sched.tp))], h1, h2,
      ⟨?_, ?_, ?_⟩, hbam ▸ h4, ?_, ?_⟩
    · rw [hbam]
      exact h3.valid
    · rw [hpk, hbam]
      exact h3.packets
    · rw [hsucc, hbam]
      exact hlt
    · rw [hbam, hframe, h5, List.append_assoc]
      rfl
    · rw [hbam, hsucc, List.map_append, h6, Tp.nextFrame_eq h3, List.range_succ, List.map_append]
      rfl

/-! ## A whole tick -/

include hw in
/-- **Step lemma.** A tick keeps what was packed, and adds what it packs. -/
theorem Kept.tick {s : Sched} (h : Kept s log) (hok : SlotsOk s) (nowMs : UInt32)
    (link : ℕ → LinkStatus) :
    Kept (tick store nowMs link s).sched
      (log ++ (tick store nowMs link s).events.map (Prod.mk store)) := by
  have hslots : ∀ i ∈ List.range s.pgns.length, i < s.pgns.length :=
    fun i hi => List.mem_range.mp hi
  have hstart : KeptTick store log ⟨s, ⟨0, 0, 0, 0, 0, 0, 0⟩, 0, []⟩ := by
    unfold KeptTick
    simpa using h
  have hretry := hstart.foldl_retryPending hw nowMs (List.range s.pgns.length) hok hslots
  have hidx := (foldl_retryPending_frame store nowMs (List.range s.pgns.length)
    ⟨s, ⟨0, 0, 0, 0, 0, 0, 0⟩, 0, []⟩).indices
  have hsched := hretry.foldl_scheduleSlot hw nowMs (List.range s.pgns.length)
    (by unfold SlotsOk; rw [hidx]; exact hok)
    (by rw [length_of_indices hidx]; exact hslots)
  exact (hsched.drainQueue nowMs link).processTp nowMs link

end Tick

end J1939Gen.Scheduler
