import J1939Gen.Transport.Bam
import J1939Gen.Lib.Mealy

/-!
# Runs of the BAM transmitter

A run of the transmitter, under any interleaving of its operations, emits a
trace of events. `Inv` says how the trace of a run splits into sessions.

* `inv_step`: what each operation preserves.
* `transmitter_sessions`: the trace of every run.
-/

namespace J1939Gen.Tp

open ByteMem

/-! ## Runs of the transmitter -/

/-- What happens to the transmitter. `fill` is one byte the caller writes into
    the buffer `J1939_Tp_Bam_Prepare` handed out, before it starts the session;
    `process` carries the answer the link would give. -/
inductive Op
  | prepare (length : UInt16)
  | fill (offset : ℕ) (value : UInt8)
  | start (pgn : UInt32) (sourceAddress : UInt8) (nowMs : UInt32)
  | process (nowMs : UInt32) (link : LinkStatus)
  | cancel

/-- What an observer sees: a session starting with its message, a frame the
    link accepted, a session counted as completed or as aborted. -/
inductive Event
  | started (b : Bam)
  | accepted (f : CanFrame)
  | completed
  | aborted
deriving DecidableEq, Repr

/-- The changes of the session counters. -/
def counted (s s' : Session) : List Event :=
  (if s'.stats.completed ≠ s.stats.completed then [.completed] else []) ++
    (if s'.stats.aborted ≠ s.stats.aborted then [.aborted] else [])

/-- One operation and the events it causes. -/
def step (s : Session) : Op → Session × List Event
  | .prepare length => ((bamPrepare s length).1, [])
  | .fill offset value =>
    if s.state = .prepared ∧ offset < s.length.toNat then
      ({ s with payload := Function.update s.payload offset value }, [])
    else (s, [])
  | .start pgn sourceAddress nowMs =>
    let (s', started) := bamStart s pgn sourceAddress nowMs
    (s', if started then [.started s'.bam] else [])
  | .process nowMs link =>
    let (s', frame) := process s nowMs link
    (s', (if link = .ok then frame.toList.map Event.accepted else []) ++ counted s s')
  | .cancel => (cancel s, counted s (cancel s))

/-- How a session ended, if it did. -/
inductive Outcome
  | completed
  | aborted
  | sending
deriving DecidableEq, Repr

def Outcome.events : Outcome → List Event
  | .completed => [.completed]
  | .aborted => [.aborted]
  | .sending => []

/-- A session as the trace shows it: its message, how many frames the link
    accepted, and how it ended. -/
structure Record where
  bam : Bam
  sent : ℕ
  outcome : Outcome

/-- The accepted frames of a session: TP.CM, then TP.DT 1, 2, 3, … -/
def Record.frames (r : Record) : List CanFrame := (List.range r.sent).map r.bam.frame

/-- The part of the trace that belongs to a session. -/
def Record.trace (r : Record) : List Event :=
  .started r.bam :: r.frames.map Event.accepted ++ r.outcome.events

/-- The message fits, and the session completes exactly when its last frame is
    accepted. -/
structure Record.Valid (r : Record) : Prop where
  bam : r.bam.Valid
  sent : r.sent ≤ r.bam.packets + 1
  completed : r.outcome = .completed ↔ r.sent = r.bam.packets + 1

/-- The closed sessions of a trace, and the counters that count them. -/
structure Closed (s : Session) (sessions : List Record) : Prop where
  valid : ∀ r ∈ sessions, r.Valid
  closed : ∀ r ∈ sessions, r.outcome ≠ .sending
  completed : s.stats.completed =
    UInt32.ofNat (sessions.countP fun r => r.outcome = .completed)
  aborted : s.stats.aborted = UInt32.ofNat (sessions.countP fun r => r.outcome = .aborted)

/-- The invariant of a run: the trace splits into closed sessions and, while
    sending, one running session whose next frame is `nextPacket`. -/
inductive Inv (s : Session) (trace : List (List Event)) : Prop
  | sending (closed : List Record) (hc : Closed s closed) (hs : s.state = .sending)
      (hr : s.Running) (hstarted : s.stats.started = UInt32.ofNat (closed.length + 1))
      (htrace : trace.flatten = closed.flatMap Record.trace ++
        Record.trace ⟨s.bam, s.nextPacket.toNat, .sending⟩)
  | quiet (closed : List Record) (hc : Closed s closed) (hs : s.state ≠ .sending)
      (hp : s.state = .prepared → 9 ≤ s.length.toNat ∧ s.length.toNat ≤ maxPayloadBytes)
      (hstarted : s.stats.started = UInt32.ofNat closed.length)
      (htrace : trace.flatten = closed.flatMap Record.trace)

theorem Inv.init : Inv Tp.init [] :=
  .quiet [] ⟨by simp, by simp, rfl, rfl⟩ (by simp [Tp.init]) (by simp [Tp.init]) rfl rfl

/-- A step that shows nothing and touches neither counters nor a running
    session keeps the invariant. -/
theorem Inv.silent {s s' : Session} {trace : List (List Event)} (h : Inv s trace)
    (hst : s'.stats.started = s.stats.started) (hco : s'.stats.completed = s.stats.completed)
    (hab : s'.stats.aborted = s.stats.aborted)
    (hs : s.state = .sending → s'.state = .sending ∧ s'.bam = s.bam ∧ s'.packets = s.packets ∧
      s'.nextPacket = s.nextPacket)
    (hq : s.state ≠ .sending → s'.state ≠ .sending ∧
      (s'.state = .prepared → 9 ≤ s'.length.toNat ∧ s'.length.toNat ≤ maxPayloadBytes)) :
    Inv s' (trace ++ [[]]) := by
  have hclosed : ∀ {l}, Closed s l → Closed s' l := fun hc =>
    ⟨hc.valid, hc.closed, by rw [hco]; exact hc.completed, by rw [hab]; exact hc.aborted⟩
  cases h with
  | sending closed hc hsend hr hstarted htrace =>
    obtain ⟨h1, h2, h3, h4⟩ := hs hsend
    refine .sending closed (hclosed hc) h1 ⟨?_, ?_, ?_⟩ (by rw [hst]; exact hstarted) ?_
    · rw [h2]; exact hr.valid
    · rw [h3, h2]; exact hr.packets
    · rw [h4, h2]; exact hr.next
    · rw [h2, h4]; simpa using htrace
  | quiet closed hc hsend hp hstarted htrace =>
    obtain ⟨h1, h2⟩ := hq hsend
    exact .quiet closed (hclosed hc) h1 h2 (by rw [hst]; exact hstarted) (by simpa using htrace)

theorem Closed.append {s s' : Session} {l : List Record} (h : Closed s l) {r : Record}
    (hv : r.Valid) (hr : r.outcome ≠ .sending)
    (hco : s'.stats.completed = s.stats.completed + if r.outcome = .completed then 1 else 0)
    (hab : s'.stats.aborted = s.stats.aborted + if r.outcome = .aborted then 1 else 0) :
    Closed s' (l ++ [r]) where
  valid x hx := by
    rcases List.mem_append.mp hx with hx | hx
    · exact h.valid x hx
    · rw [List.mem_singleton.mp hx]; exact hv
  closed x hx := by
    rcases List.mem_append.mp hx with hx | hx
    · exact h.closed x hx
    · rw [List.mem_singleton.mp hx]; exact hr
  completed := by
    rw [hco, h.completed, List.countP_append, List.countP_singleton]
    split_ifs <;> simp_all
  aborted := by
    rw [hab, h.aborted, List.countP_append, List.countP_singleton]
    split_ifs <;> simp_all

/-- Cancelling ends a running session as aborted. -/
theorem Inv.cancel {s : Session} {trace : List (List Event)} (h : Inv s trace) :
    Inv (cancel s) (trace ++ [counted s (cancel s)]) := by
  by_cases hs : s.state = .sending
  · cases h with
    | quiet _ _ hq => exact absurd hs hq
    | sending closed hc _ hr hstarted htrace =>
      have hne : s.stats.aborted + 1 ≠ s.stats.aborted := by grind
      have hev : counted s (Tp.cancel s) = [.aborted] := by simp [counted, Tp.cancel, hs, hne]
      have hnext := hr.next
      refine .quiet (closed ++ [⟨s.bam, s.nextPacket.toNat, .aborted⟩])
        (hc.append ⟨hr.valid, by simp only; omega, ?_⟩ (by simp) (by simp [Tp.cancel, hs])
          (by simp [Tp.cancel, hs])) (by simp [Tp.cancel]) (by simp [Tp.cancel]) ?_ ?_
      · simp only [reduceCtorEq, false_iff]; omega
      · simpa [Tp.cancel, hs] using hstarted
      · rw [hev, List.flatten_append, htrace]
        simp [Record.trace, Outcome.events, Record.frames]
  · have hev : counted s (Tp.cancel s) = [] := by simp [counted, Tp.cancel, hs]
    rw [hev]
    exact h.silent (by simp [Tp.cancel, hs]) (by simp [Tp.cancel, hs]) (by simp [Tp.cancel, hs])
      (fun h' => absurd h' hs) fun _ => by simp [Tp.cancel]

theorem Inv.prepare {s : Session} {trace : List (List Event)} (h : Inv s trace)
    (length : UInt16) : Inv (bamPrepare s length).1 (trace ++ [[]]) := by
  unfold bamPrepare
  by_cases hr : s.state = .sending ∨ length ≤ 8 ∨ length > UInt16.ofNat maxPayloadBytes
  · rw [if_pos hr]
    refine h.silent rfl rfl rfl (fun hs => ⟨hs, rfl, rfl, rfl⟩) fun hs => ⟨hs, ?_⟩
    cases h with
    | sending _ _ hs' => exact absurd hs' hs
    | quiet _ _ _ hp => exact hp
  · rw [if_neg hr]
    simp only [not_or] at hr
    refine h.silent rfl rfl rfl (fun hs => absurd hs hr.1) fun _ => ⟨by simp, fun _ => ?_⟩
    have h1 := hr.2.1
    have h2 := hr.2.2
    rw [UInt16.not_le, UInt16.lt_iff_toNat_lt] at h1
    rw [gt_iff_lt, UInt16.not_lt, UInt16.le_iff_toNat_le] at h2
    exact ⟨h1, h2⟩

theorem Inv.fill {s : Session} {trace : List (List Event)} (h : Inv s trace) (offset : ℕ)
    (value : UInt8) :
    Inv (step s (.fill offset value)).1 (trace ++ [(step s (.fill offset value)).2]) := by
  have hp : s.state ≠ .sending → (s.state = .prepared →
      9 ≤ s.length.toNat ∧ s.length.toNat ≤ maxPayloadBytes) := by
    intro hs
    cases h with
    | sending _ _ hs' => exact absurd hs' hs
    | quiet _ _ _ hp => exact hp
  unfold step
  simp only
  split_ifs with hf
  · refine h.silent rfl rfl rfl (fun hs => ?_) fun hs => ⟨hs, hp hs⟩
    rw [hf.1] at hs
    cases hs
  · exact h.silent rfl rfl rfl (fun hs => ⟨hs, rfl, rfl, rfl⟩) fun hs => ⟨hs, hp hs⟩

/-- A started session is running: its length fits, so its packet count does too. -/
theorem running_started {s : Session} (hlen : 9 ≤ s.length.toNat ∧ s.length.toNat ≤ maxPayloadBytes)
    (pgn : UInt32) (sourceAddress : UInt8) (nowMs : UInt32) (hprep : s.state = .prepared) :
    (bamStart s pgn sourceAddress nowMs).1.Running := by
  obtain ⟨hlow, hhigh⟩ := hlen
  have hcount : ((s.length.toUInt32 + 7 - 1) / 7).toUInt8.toNat = (s.length.toNat + 6) / 7 := by
    simp only [maxPayloadBytes] at hhigh
    rw [UInt32.toNat_toUInt8, UInt32.toNat_div, show s.length.toUInt32 + 7 - 1 =
      s.length.toUInt32 + 6 by grind, UInt32.toNat_add]
    simp only [UInt16.toNat_toUInt32, UInt32.reduceToNat]
    omega
  rw [bamStart, if_neg (by simp [hprep])]
  refine ⟨?_, ?_, Nat.zero_le _⟩
  · simp only [Session.bam, Bam.Valid, length_bytes]
    exact ⟨hlow, hhigh⟩
  · simp only [Session.bam, Bam.packets, length_bytes]
    exact hcount

theorem Inv.start {s : Session} {trace : List (List Event)} (h : Inv s trace) (pgn : UInt32)
    (sourceAddress : UInt8) (nowMs : UInt32) :
    Inv (step s (.start pgn sourceAddress nowMs)).1
      (trace ++ [(step s (.start pgn sourceAddress nowMs)).2]) := by
  cases h with
  | sending closed hc hs hr hstarted htrace =>
    simp only [step, bamStart, hs, ne_eq, reduceCtorEq, not_false_eq_true, if_true,
      Bool.false_eq_true, if_false]
    exact (Inv.sending closed hc hs hr hstarted htrace).silent rfl rfl rfl
      (fun _ => ⟨hs, rfl, rfl, rfl⟩) fun hs' => absurd hs hs'
  | quiet closed hc hs hp hstarted htrace =>
    by_cases hprep : s.state = .prepared
    · have hrun := running_started (hp hprep) pgn sourceAddress nowMs hprep
      simp only [bamStart, hprep, ne_eq, not_true_eq_false, if_false] at hrun
      simp only [step, bamStart, hprep, ne_eq, not_true_eq_false, if_false, if_true]
      refine .sending closed ⟨hc.valid, hc.closed, hc.completed, hc.aborted⟩ rfl hrun ?_ ?_
      · simp [hstarted]
      · rw [List.flatten_append, htrace]
        simp [Record.trace, Record.frames, Outcome.events]
    · simp only [step, bamStart, hprep, ne_eq, not_false_eq_true, if_true, Bool.false_eq_true,
        if_false]
      exact (Inv.quiet closed hc hs hp hstarted htrace).silent rfl rfl rfl
        (fun hs' => absurd hs' hs) fun _ => ⟨hs, hp⟩

/-- What `process` does: nothing, abort the late session, or hand on the next
    frame, which may be refused, accepted, or accepted as the last one. -/
theorem process_cases (s : Session) (nowMs : UInt32) (link : LinkStatus) :
    process s nowMs link = (s, none) ∨
      (s.state = .sending ∧ process s nowMs link = (cancel s, none)) ∨
      (s.state = .sending ∧ link ≠ .ok ∧ process s nowMs link =
        ({ s with
            stats := { s.stats with busy := s.stats.busy + 1 }
            nextDueMs := nowMs + 1 }, some (nextFrame s))) ∨
      (s.state = .sending ∧ link = .ok ∧ s.packets ≤ s.nextPacket ∧ process s nowMs link =
        ({ s with
            state := .idle
            stats := { s.stats with
              framesSent := s.stats.framesSent + 1
              completed := s.stats.completed + 1 } }, some (nextFrame s))) ∨
      (s.state = .sending ∧ link = .ok ∧ s.nextPacket < s.packets ∧ process s nowMs link =
        ({ s with
            stats := { s.stats with framesSent := s.stats.framesSent + 1 }
            nextPacket := s.nextPacket + 1
            slotMs := nowMs + bamPacketGapMs
            nextDueMs := nowMs + bamPacketGapMs }, some (nextFrame s))) := by
  unfold process
  by_cases h1 : s.state ≠ .sending ∨ SerialClock.reached nowMs s.nextDueMs = false
  · exact .inl (if_pos h1)
  have hs : s.state = .sending := by tauto
  rw [if_neg h1]
  by_cases h2 : SerialClock.reached nowMs (s.slotMs + bamAbortLateMs) = true
  · exact .inr (.inl ⟨hs, if_pos h2⟩)
  rw [if_neg h2]
  by_cases h3 : link ≠ .ok
  · exact .inr (.inr (.inl ⟨hs, h3, if_pos h3⟩))
  rw [if_neg h3]
  have hok : link = .ok := not_not.mp h3
  by_cases h4 : s.nextPacket ≥ s.packets
  · exact .inr (.inr (.inr (.inl ⟨hs, hok, h4, if_pos h4⟩)))
  · exact .inr (.inr (.inr (.inr ⟨hs, hok, UInt8.not_le.mp h4, if_neg h4⟩)))

theorem Inv.process {s : Session} {trace : List (List Event)} (h : Inv s trace) (nowMs : UInt32)
    (link : LinkStatus) :
    Inv (step s (.process nowMs link)).1 (trace ++ [(step s (.process nowMs link)).2]) := by
  have hquiet : s.state ≠ .sending → (s.state = .prepared →
      9 ≤ s.length.toNat ∧ s.length.toNat ≤ maxPayloadBytes) := by
    intro hs
    cases h with
    | sending _ _ hs' => exact absurd hs' hs
    | quiet _ _ _ hp => exact hp
  simp only [step]
  rcases process_cases s nowMs link with heq | ⟨hs, heq⟩ | ⟨hs, hl, heq⟩ | ⟨hs, hl, hp, heq⟩ |
      ⟨hs, hl, hp, heq⟩ <;> rw [heq]
  · have hev : (if link = .ok then (none : Option CanFrame).toList.map Event.accepted else []) ++
        counted s s = [] := by simp [counted]
    rw [hev]
    exact h.silent rfl rfl rfl (fun hs => ⟨hs, rfl, rfl, rfl⟩) fun hs => ⟨hs, hquiet hs⟩
  · have hev : (if link = .ok then (none : Option CanFrame).toList.map Event.accepted else []) ++
        counted s (Tp.cancel s) = counted s (Tp.cancel s) := by simp
    rw [hev]
    exact h.cancel
  · simp only [hl, if_false, counted, ne_eq, not_true_eq_false, List.append_nil]
    exact h.silent rfl rfl rfl (fun hs => ⟨hs, rfl, rfl, rfl⟩) fun hs' => absurd hs hs'
  · cases h with
    | quiet _ _ hq => exact absurd hs hq
    | sending closed hc _ hr hstarted htrace =>
      have hlast : s.nextPacket.toNat = s.bam.packets :=
        le_antisymm hr.next (hr.packets ▸ UInt8.le_iff_toNat_le.mp hp)
      have hne : s.stats.completed + 1 ≠ s.stats.completed := by grind
      refine .quiet (closed ++ [⟨s.bam, s.nextPacket.toNat + 1, .completed⟩])
        (hc.append ⟨hr.valid, by simp only; omega, ?_⟩ (by simp) (by simp) (by simp)) (by simp)
        (by simp) ?_ ?_
      · simp only [true_iff]; omega
      · simpa using hstarted
      · rw [List.flatten_append, htrace, nextFrame_eq hr]
        simp [Record.trace, Record.frames, Outcome.events, counted, hl, hne, List.range_succ]
  · cases h with
    | quiet _ _ hq => exact absurd hs hq
    | sending closed hc _ hr hstarted htrace =>
      have hlt : s.nextPacket.toNat < s.bam.packets := hr.packets ▸ UInt8.lt_iff_toNat_lt.mp hp
      have hpk := hr.valid.packets_le
      have hadd : (s.nextPacket + 1).toNat = s.nextPacket.toNat + 1 := by
        rw [UInt8.toNat_add]
        simp only [UInt8.reduceToNat]
        omega
      refine .sending closed ⟨hc.valid, hc.closed, hc.completed, hc.aborted⟩ hs
        ⟨hr.valid, hr.packets, ?_⟩ hstarted ?_
      · show (s.nextPacket + 1).toNat ≤ s.bam.packets
        omega
      · rw [List.flatten_append, htrace, nextFrame_eq hr]
        simp only [hadd]
        simp [Record.trace, Record.frames, Outcome.events, counted, hl, List.range_succ,
          Session.bam]

theorem inv_step (s : Session) (trace : List (List Event)) (op : Op) (h : Inv s trace) :
    Inv (step s op).1 (trace ++ [(step s op).2]) := by
  cases op with
  | prepare length => exact h.prepare length
  | fill offset value => exact h.fill offset value
  | start pgn sourceAddress nowMs => exact h.start pgn sourceAddress nowMs
  | process nowMs link => exact h.process nowMs link
  | cancel => exact h.cancel

theorem countP_outcomes (l : List Record) (h : ∀ r ∈ l, r.outcome ≠ .sending) :
    l.length = l.countP (fun r => r.outcome = .completed) +
      l.countP (fun r => r.outcome = .aborted) := by
  induction l with
  | nil => rfl
  | cons r l ih =>
    have hr := h r (by simp)
    rw [List.length_cons, ih fun x hx => h x (by simp [hx]), List.countP_cons, List.countP_cons]
    cases ho : r.outcome with
    | completed => simp; omega
    | aborted => simp; omega
    | sending => exact absurd ho hr

theorem and_pgn_mask {v : UInt32} (h : v.toNat < 2 ^ 24) : v &&& 0xFFFFFF = v := by
  rw [← UInt32.toNat_inj, UInt32.toNat_and, show (0xFFFFFF : UInt32).toNat = 2 ^ 24 - 1 from rfl,
    Nat.and_two_pow_sub_one_of_lt_two_pow h]

/-- The counters of the invariant add up. -/
theorem Closed.started_eq {s : Session} {l : List Record} (h : Closed s l) :
    UInt32.ofNat l.length = s.stats.completed + s.stats.aborted := by
  rw [countP_outcomes l h.closed, h.completed, h.aborted, SerialClock.ofNat_add_ofNat]

/-- **Every run is a sequence of sessions.** The trace of a run is a
    concatenation of sessions, each a TP.CM and TP.DT 1, 2, 3, …; only the last
    one can still be running; a session is completed exactly when its last frame
    was accepted, and then any receiver delivers the message as it was started,
    with `0xFF` past its end; and the counters add up. -/
theorem transmitter_sessions (ops : List Op) :
    let (s, trace) := Mealy.run step init ops
    ∃ sessions : List Record,
      trace.flatten = sessions.flatMap Record.trace ∧
      (∀ r ∈ sessions, r.Valid) ∧
      (∀ r ∈ sessions.dropLast, r.outcome ≠ .sending) ∧
      (∀ r ∈ sessions, r.outcome = .completed → ∀ receiver : Receiver, ∃ padding,
        receiver.readAll r.frames = ⟨none, receiver.delivered ++
          [⟨r.bam.pgn &&& 0xFFFFFF, r.bam.sourceAddress, r.bam.payload, padding⟩]⟩ ∧
        (r.bam.pgn.toNat < 2 ^ 24 → r.bam.pgn &&& 0xFFFFFF = r.bam.pgn) ∧
        ∀ b ∈ padding, b = 0xFF) ∧
      s.stats.started = s.stats.completed + s.stats.aborted + (if isBusy s then 1 else 0) ∧
      s.stats.completed = UInt32.ofNat (sessions.countP fun r => r.outcome = .completed) := by
  have hinv : Inv (Mealy.run step init ops).1 (Mealy.run step init ops).2 :=
    Mealy.run_trace_invariant inv_step Inv.init ops
  generalize Mealy.run step init ops = run at hinv ⊢
  obtain ⟨s, trace⟩ := run
  change Inv s trace at hinv
  have hdeliver : ∀ r : Record, r.Valid → r.outcome = .completed → ∀ receiver : Receiver,
      ∃ padding, receiver.readAll r.frames = ⟨none, receiver.delivered ++
          [⟨r.bam.pgn &&& 0xFFFFFF, r.bam.sourceAddress, r.bam.payload, padding⟩]⟩ ∧
        (r.bam.pgn.toNat < 2 ^ 24 → r.bam.pgn &&& 0xFFFFFF = r.bam.pgn) ∧
        ∀ b ∈ padding, b = 0xFF := by
    intro r hv hc receiver
    refine ⟨r.bam.message.padding, ?_, and_pgn_mask, fun b hb => (List.mem_replicate.mp hb).2⟩
    rw [Record.frames, hv.completed.mp hc]
    exact receive_frames receiver hv.bam
  cases hinv with
  | sending closed hc hs hr hstarted htrace =>
    have hnext := hr.next
    have hvalid : ∀ r ∈ closed ++ [⟨s.bam, s.nextPacket.toNat, .sending⟩], r.Valid := by
      intro r hrec
      rcases List.mem_append.mp hrec with hrec | hrec
      · exact hc.valid r hrec
      · rw [List.mem_singleton.mp hrec]
        exact ⟨hr.valid, by simp only; omega, by simp only [reduceCtorEq, false_iff]; omega⟩
    refine ⟨closed ++ [⟨s.bam, s.nextPacket.toNat, .sending⟩], by simpa using htrace, hvalid, ?_,
      fun r hrec hcomp => hdeliver r (hvalid r hrec) hcomp, ?_, ?_⟩
    · rw [List.dropLast_concat]
      exact hc.closed
    · rw [if_pos (by simp [isBusy, hs]), hstarted, ← hc.started_eq, ← SerialClock.ofNat_add_ofNat]
      rfl
    · rw [hc.completed, List.countP_append]
      simp
  | quiet closed hc hs hp hstarted htrace =>
    refine ⟨closed, htrace, hc.valid, fun r hrec => hc.closed r (List.dropLast_subset _ hrec),
      fun r hrec hcomp => hdeliver r (hc.valid r hrec) hcomp, ?_, hc.completed⟩
    rw [if_neg (by simp [isBusy, hs]), hstarted, ← hc.started_eq]
    exact (UInt32.add_zero _).symm

end J1939Gen.Tp
