import J1939Gen.Transport.Sessions

/-!
# The spacing of BAM packets

Runs of the transmitter with the instant of every call, watched from the bus:
the watcher notes when a packet of the running session is accepted and emits
the time since the previous one.

`J1939_Tp_Process` times a packet from its slot, 50 ms after the previous
packet, and gives up 750 ms after the slot. A receiver times from the previous
packet itself, so between 700 and 749 ms after the slot the session still goes
on although every receiver has timed out.

* `paced_step`: what one call does to the pace of the running session, and what
  is known of the gap it shows.
* `paced_run`: the same at every call of a run.
* `givesUp_run`: when a session is given up.

Main result `bam_spacing`; `bam_spacing_late` is a run with a gap of 790 ms.
-/

namespace J1939Gen.Tp

open SerialClock

/-- A call to the transmitter. Those that are given the time carry its instant. -/
inductive Call
  | prepare (length : UInt16)
  | fill (offset : ℕ) (value : UInt8)
  | start (pgn : UInt32) (sourceAddress : UInt8) (now : ℕ)
  | process (now : ℕ) (link : LinkStatus)
  | cancel
deriving DecidableEq, Repr

/-- The operation as the transmitter sees it, the instant read off the clock. -/
def Call.op : Call → Op
  | .prepare length => .prepare length
  | .fill offset value => .fill offset value
  | .start pgn sourceAddress now => .start pgn sourceAddress (UInt32.ofNat now)
  | .process now link => .process (UInt32.ofNat now) link
  | .cancel => .cancel

/-- The instant of the latest `J1939_Tp_Process` call, this one included. -/
def Call.clock (previous : ℕ) : Call → ℕ
  | .process now _ => now
  | _ => previous

/-- The transmitter and its watcher. -/
structure Watched where
  session : Session
  /-- The instant of the latest `J1939_Tp_Process` call. -/
  clock : ℕ
  /-- When the previous packet of the session was accepted. -/
  last : Option ℕ

/-- What the watcher makes of the events of a call: the instant of the latest
accepted packet of the session, and the gaps between its packets. -/
def watch (last : Option ℕ) (now : ℕ) : List Event → Option ℕ × List ℕ
  | [] => (last, [])
  | .started _ :: events => watch none now events
  | .accepted _ :: events =>
    let rest := watch (some now) now events
    (rest.1, (last.map (now - ·)).toList ++ rest.2)
  | .completed :: events => watch last now events
  | .aborted :: events => watch last now events

/-- One call under the watcher's eyes; the output is the gaps it saw. -/
def watchedStep (w : Watched) (call : Call) : Watched × List ℕ :=
  let (session, events) := step w.session call.op
  let now := call.clock w.clock
  let (last, gaps) := watch w.last now events
  (⟨session, now, last⟩, gaps)

/-- Power-up at instant `t₀`. -/
def Watched.init (t₀ : ℕ) : Watched := ⟨Tp.init, t₀, none⟩

/-- The instants of the `J1939_Tp_Process` calls do not decrease. -/
def Forward (w : Watched) (call : Call) : Prop := w.clock ≤ call.clock w.clock

/-- Between two packets of a session, `J1939_Tp_Process` is called again within
half a turn of the clock. -/
def Attended (w : Watched) (call : Call) : Prop :=
  w.session.state = .sending → w.session.nextPacket ≠ 0 → call.clock w.clock < w.clock + 2 ^ 31

/-- No packet after the first finds a free mailbox 700 ms or more after its
slot, while the session is not yet given up. -/
def Punctual (w : Watched) : Call → Prop
  | .process now .ok =>
    w.session.state = .sending → w.session.nextPacket ≠ 0 →
      reached (UInt32.ofNat now) w.session.nextDueMs = true →
      reached (UInt32.ofNat now) (w.session.slotMs + bamAbortLateMs) = false →
      reached (UInt32.ofNat now) (w.session.slotMs + 700) = false
  | _ => True

/-- A call of `J1939_Tp_Process` gives up a session that has a packet out exactly
from 800 ms after that packet on. -/
def GivesUp (w : Watched) : Call → Prop
  | .process now link => ∀ T, w.session.state = .sending → w.last = some T →
      ((process w.session (UInt32.ofNat now) link).1 = cancel w.session ↔ T + 800 ≤ now)
  | _ => True

/-! ## The watcher -/

/-- The slot and the next attempt of the running session, against the instant
of its previous packet. In an `attended` run the session is given up in time. -/
inductive Paced (attended : Prop) (w : Watched) : Prop
  | quiet (hs : w.session.state ≠ .sending)
  | first (hs : w.session.state = .sending) (hn : w.session.nextPacket = 0) (hl : w.last = none)
  | later (T due : ℕ) (hs : w.session.state = .sending) (hn : w.session.nextPacket ≠ 0)
      (hl : w.last = some T) (hT : T ≤ w.clock) (hslot : w.session.slotMs = UInt32.ofNat (T + 50))
      (hdue : w.session.nextDueMs = UInt32.ofNat due) (hlow : T + 50 ≤ due)
      (hhigh : due ≤ max (T + 50) (w.clock + 1))
      (hlive : attended → w.clock < due ∧ w.clock < T + 800)

theorem Paced.init (attended : Prop) (t₀ : ℕ) : Paced attended (Watched.init t₀) :=
  .quiet (by simp [Watched.init, Tp.init])

theorem watch_counted (s s' : Session) (last : Option ℕ) (now : ℕ) :
    watch last now (counted s s') = (last, []) := by
  unfold counted
  split_ifs <;> rfl

theorem watch_accepted (f : CanFrame) (s s' : Session) (last : Option ℕ) (now : ℕ) :
    watch last now (.accepted f :: counted s s') = (some now, (last.map (now - ·)).toList) := by
  rw [watch, watch_counted, List.append_nil]

/-- `step` on a process call, by what `process` returns. -/
theorem watchedStep_process {w : Watched} {now : ℕ} {link : LinkStatus} {s' : Session}
    {frame : Option CanFrame} (h : process w.session (UInt32.ofNat now) link = (s', frame)) :
    watchedStep w (.process now link) =
      if link = .ok ∧ frame.isSome then
        (⟨s', now, some now⟩, (w.last.map (now - ·)).toList)
      else (⟨s', now, w.last⟩, []) := by
  have hstep : step w.session (.process (UInt32.ofNat now) link) =
      (s', (if link = .ok then frame.toList.map Event.accepted else []) ++
        counted w.session s') := by
    simp only [step, h]
  simp only [watchedStep, Call.op, Call.clock, hstep]
  by_cases hok : link = .ok
  · cases frame with
    | none => simp [hok, watch_counted]
    | some f => simp [hok, watch_accepted]
  · simp [hok, watch_counted]

/-- A process call that does not send a packet. -/
theorem process_wait {s : Session} {nowMs : UInt32} (link : LinkStatus)
    (h : s.state ≠ .sending ∨ reached nowMs s.nextDueMs = false) :
    process s nowMs link = (s, none) := by
  rw [process, if_pos h]

theorem process_late {s : Session} {nowMs : UInt32} (link : LinkStatus) (hs : s.state = .sending)
    (hdue : reached nowMs s.nextDueMs = true)
    (hlate : reached nowMs (s.slotMs + bamAbortLateMs) = true) :
    process s nowMs link = (cancel s, none) := by
  rw [process, if_neg (by simp [hs, hdue]), if_pos hlate]

theorem process_busy {s : Session} {nowMs : UInt32} {link : LinkStatus} (hs : s.state = .sending)
    (hdue : reached nowMs s.nextDueMs = true)
    (hlate : reached nowMs (s.slotMs + bamAbortLateMs) = false) (hlink : link ≠ .ok) :
    process s nowMs link =
      ({ s with
          stats := { s.stats with busy := s.stats.busy + 1 }
          nextDueMs := nowMs + 1 }, some (nextFrame s)) := by
  rw [process, if_neg (by simp [hs, hdue]), if_neg (by simp [hlate]), if_pos hlink]

theorem process_accepted {s : Session} {nowMs : UInt32} (hs : s.state = .sending)
    (hdue : reached nowMs s.nextDueMs = true)
    (hlate : reached nowMs (s.slotMs + bamAbortLateMs) = false) :
    ∃ s', process s nowMs .ok = (s', some (nextFrame s)) ∧
      (s'.state ≠ .sending ∨ (s'.state = .sending ∧ s'.nextPacket ≠ 0 ∧
        s'.slotMs = nowMs + bamPacketGapMs ∧ s'.nextDueMs = nowMs + bamPacketGapMs)) := by
  rw [process, if_neg (by simp [hs, hdue]), if_neg (by simp [hlate]), if_neg (by simp)]
  by_cases hlast : s.nextPacket ≥ s.packets
  · simp only [if_pos hlast]
    exact ⟨_, rfl, .inl (by simp)⟩
  · simp only [if_neg hlast]
    refine ⟨_, rfl, .inr ⟨hs, ?_, rfl, rfl⟩⟩
    -- The packet counter stays below `packets` and does not wrap.
    show s.nextPacket + 1 ≠ 0
    rw [ge_iff_le, UInt8.not_le, UInt8.lt_iff_toNat_lt] at hlast
    have hlt := s.packets.toNat_lt
    intro h0
    have h1 := congrArg UInt8.toNat h0
    rw [UInt8.toNat_add, show (1 : UInt8).toNat = 1 from rfl,
      show (0 : UInt8).toNat = 0 from rfl] at h1
    omega

/-- What is known of the gap `g` before a packet: in an attended run it is
below 800 ms, and below 750 ms exactly when the call was punctual. -/
def GapOk (attended punctual : Prop) (g : ℕ) : Prop :=
  50 ≤ g ∧ (attended → g < 800 ∧ (g < 750 ↔ punctual))

/-- A packet that is due is at least 50 ms after the previous one. -/
theorem due_low {now clock T due : ℕ} (hT : T ≤ clock) (hf : clock ≤ now) (hlow : T + 50 ≤ due)
    (hhigh : due ≤ max (T + 50) (clock + 1))
    (hdue : reached (UInt32.ofNat now) (UInt32.ofNat due) = true) : T + 50 ≤ now := by
  by_contra hlt
  have heq : due = T + 50 := by omega
  have := (reached_ofNat (a := now) (b := due) (by omega) (by omega)).mp hdue
  omega

/-- `bamAbortLateMs` and the 700 ms after it, against the previous packet. -/
theorem reached_slot {now T : ℕ} (late : ℕ) (h1 : T ≤ now) (h2 : now < T + 800 + 2 ^ 31)
    (hl : late = 700 ∨ late = 750) :
    reached (UInt32.ofNat now) (UInt32.ofNat (T + 50) + UInt32.ofNat late) = true ↔
      T + 50 + late ≤ now ∧ now < T + 50 + late + 2 ^ 31 := by
  rw [ofNat_add_ofNat, reached_iff, UInt32.toNat_sub]
  simp only [UInt32.toNat_ofNat']
  omega

section Process

variable {attended : Prop} {w : Watched} {now : ℕ}

/-- Only a packet that is due in time can be late for the receivers. -/
theorem punctual_of_not_sent {link : LinkStatus}
    (h : link = .ok → w.session.state = .sending →
      reached (UInt32.ofNat now) w.session.nextDueMs = true →
      reached (UInt32.ofNat now) (w.session.slotMs + bamAbortLateMs) = false → False) :
    Punctual w (.process now link) := by
  cases link with
  | ok => exact fun hs _ hdue hlate => absurd (h rfl hs hdue hlate) not_false
  | busy => trivial
  | error => trivial

/-- Nothing is due. -/
theorem Paced.wait (h : Paced attended w) (hf : w.clock ≤ now)
    (hnear : attended → w.session.state = .sending → w.session.nextPacket ≠ 0 →
      now < w.clock + 2 ^ 31)
    (hwait : w.session.state ≠ .sending ∨
      reached (UInt32.ofNat now) w.session.nextDueMs = false) :
    Paced attended ⟨w.session, now, w.last⟩ := by
  cases h with
  | quiet hs => exact .quiet hs
  | first hs hn hl => exact .first hs hn hl
  | later T due hs hn hl hT hslot hdue hlow hhigh hlive =>
    refine .later T due hs hn hl (le_trans hT hf) hslot hdue hlow (by simp only; omega) ?_
    intro hatt
    obtain ⟨h1, h2⟩ := hlive hatt
    have := hnear hatt hs hn
    have hnot : ¬ due ≤ now := by
      rw [← reached_ofNat (a := now) (b := due) (by omega) (by omega), ← hdue]
      simpa [hs] using hwait
    exact ⟨by simp only; omega, by simp only; omega⟩

/-- A later packet may be sent from 50 ms and, in an attended run, up to 800 ms after the
previous one. -/
theorem Paced.bounds (h : Paced attended w) {T : ℕ} (hf : w.clock ≤ now)
    (hnear : attended → now < w.clock + 2 ^ 31) (hl : w.last = some T)
    (hs : w.session.state = .sending) (hdue : reached (UInt32.ofNat now) w.session.nextDueMs = true)
    (hlate : reached (UInt32.ofNat now) (w.session.slotMs + bamAbortLateMs) = false) :
    w.session.slotMs = UInt32.ofNat (T + 50) ∧ T + 50 ≤ now ∧ (attended → now < T + 800) := by
  cases h with
  | quiet hq => exact absurd hs hq
  | first _ _ hnone =>
    rw [hnone] at hl
    cases hl
  | later T' due _ _ hl' hT hslot hdueEq hlow hhigh hlive =>
    rw [hl'] at hl
    obtain rfl := Option.some.inj hl
    rw [hdueEq] at hdue
    refine ⟨hslot, due_low hT hf hlow hhigh hdue, fun hatt => ?_⟩
    have := hnear hatt
    obtain ⟨h1, h2⟩ := hlive hatt
    by_contra hge
    have habort := (reached_slot 750 (show T' ≤ now by omega) (by omega) (.inr rfl)).mpr
      ⟨by omega, by omega⟩
    rw [hslot] at hlate
    exact absurd (hlate.symm.trans habort) (by simp)

/-- The gap before a packet the link takes. -/
theorem Paced.gap (h : Paced attended w) {T : ℕ} (hf : w.clock ≤ now)
    (hnear : attended → now < w.clock + 2 ^ 31) (hl : w.last = some T)
    (hs : w.session.state = .sending) (hn : w.session.nextPacket ≠ 0)
    (hdue : reached (UInt32.ofNat now) w.session.nextDueMs = true)
    (hlate : reached (UInt32.ofNat now) (w.session.slotMs + bamAbortLateMs) = false) :
    GapOk attended (Punctual w (.process now .ok)) (now - T) := by
  obtain ⟨hslot, hlo, hhi⟩ := h.bounds hf hnear hl hs hdue hlate
  refine ⟨by omega, fun hatt => ?_⟩
  have hlt := hhi hatt
  have hslot700 := reached_slot 700 (show T ≤ now by omega) (by omega) (.inl rfl)
  have hpunctual : Punctual w (.process now .ok) ↔
      reached (UInt32.ofNat now) (w.session.slotMs + 700) = false :=
    ⟨fun hp => hp hs hn hdue hlate, fun hp _ _ _ _ => hp⟩
  refine ⟨by omega, ?_⟩
  rw [hpunctual, hslot, ← Bool.not_eq_true]
  show _ ↔ ¬ reached (UInt32.ofNat now) (UInt32.ofNat (T + 50) + UInt32.ofNat 700) = true
  rw [hslot700]
  omega

/-- The session goes on until 800 ms after its latest packet, and not longer. -/
theorem Paced.givesUp (h : Paced attended w) (hatt : attended) {link : LinkStatus}
    (hf : w.clock ≤ now) (ha : Attended w (.process now link)) :
    GivesUp w (.process now link) := by
  intro T hs hl
  cases h with
  | quiet hq => exact absurd hs hq
  | first _ _ hnone =>
    rw [hnone] at hl
    cases hl
  | later T' due _ hn hl' hT hslot hdueEq hlow hhigh hlive =>
    rw [hl'] at hl
    obtain rfl := Option.some.inj hl
    obtain ⟨hdueClock, hclock⟩ := hlive hatt
    have hnear : now < w.clock + 2 ^ 31 := ha hs hn
    have hcancel : (cancel w.session).state = .idle := rfl
    have hlate : reached (UInt32.ofNat now) (w.session.slotMs + bamAbortLateMs) = true ↔
        T' + 800 ≤ now := by
      rw [hslot]
      exact (reached_slot 750 (hT.trans hf) (by omega) (.inr rfl)).trans
        ⟨fun hr => hr.1, fun hr => ⟨hr, by omega⟩⟩
    by_cases hwait : reached (UInt32.ofNat now) w.session.nextDueMs = false
    · -- Nothing is due, so fewer than 800 ms have passed.
      rw [process_wait link (.inr hwait)]
      have hearly : now < due := by
        by_contra hge
        have hdue := (reached_ofNat (show now < due + 2 ^ 31 by omega)
          (show due ≤ now + 2 ^ 31 by omega)).mpr (not_lt.mp hge)
        rw [← hdueEq, hwait] at hdue
        exact absurd hdue Bool.false_ne_true
      constructor
      · intro heq
        rw [← heq, hs] at hcancel
        cases hcancel
      · intro hover
        omega
    have hdue : reached (UInt32.ofNat now) w.session.nextDueMs = true := Bool.of_not_eq_false hwait
    by_cases hover : reached (UInt32.ofNat now) (w.session.slotMs + bamAbortLateMs) = true
    · rw [process_late link hs hdue hover]
      exact ⟨fun _ => hlate.mp hover, fun _ => rfl⟩
    · refine ⟨fun heq => ?_, fun hge => absurd (hlate.mpr hge) hover⟩
      -- A session that goes on, or is complete, has not counted an abort.
      have haborted : (process w.session (UInt32.ofNat now) link).1.stats.aborted =
          w.session.stats.aborted := by
        unfold process
        split_ifs <;> rfl
      rw [heq] at haborted
      unfold cancel at haborted
      rw [if_pos hs] at haborted
      exact absurd haborted (by simp)

/-- The link took a packet, and it was not the last. -/
theorem Paced.sent {s' : Session} (hs : s'.state = .sending) (hn : s'.nextPacket ≠ 0)
    (hslot : s'.slotMs = UInt32.ofNat now + bamPacketGapMs)
    (hdue : s'.nextDueMs = UInt32.ofNat now + bamPacketGapMs) :
    Paced attended ⟨s', now, some now⟩ := by
  refine .later now (now + 50) hs hn rfl le_rfl ?_ ?_ le_rfl (by simp only; omega) ?_
  · rw [hslot, ← ofNat_add_ofNat]
    rfl
  · rw [hdue, ← ofNat_add_ofNat]
    rfl
  · exact fun _ => ⟨by simp only; omega, by simp only; omega⟩

/-- The link refused a packet: the next attempt is 1 ms later. -/
theorem Paced.retry (h : Paced attended w) (hf : w.clock ≤ now)
    (hnear : attended → w.session.nextPacket ≠ 0 → now < w.clock + 2 ^ 31)
    (hs : w.session.state = .sending) (hdue : reached (UInt32.ofNat now) w.session.nextDueMs = true)
    (hlate : reached (UInt32.ofNat now) (w.session.slotMs + bamAbortLateMs) = false)
    (stats : Stats) :
    Paced attended ⟨{ w.session with stats, nextDueMs := UInt32.ofNat now + 1 }, now, w.last⟩ := by
  have hpaced := h
  cases h with
  | quiet hq => exact absurd hs hq
  | first _ hn hl => exact .first hs hn hl
  | later T due _ hn hl hT hslot _ _ _ _ =>
    obtain ⟨-, hlo, hhi⟩ := hpaced.bounds hf (fun hatt => hnear hatt hn) hl hs hdue hlate
    refine .later T (now + 1) hs hn hl (le_trans hT hf) hslot ?_ (by omega)
      (by simp only; omega) fun hatt => ⟨by simp only; omega, hhi hatt⟩
    rw [← ofNat_add_ofNat]
    rfl

theorem Paced.process (h : Paced attended w) {link : LinkStatus} (hf : w.clock ≤ now)
    (ha : attended → Attended w (.process now link)) :
    Paced attended (watchedStep w (.process now link)).1 ∧
      (∀ g ∈ (watchedStep w (.process now link)).2,
        GapOk attended (Punctual w (.process now link)) g) ∧
      ((watchedStep w (.process now link)).2 = [] → Punctual w (.process now link)) := by
  by_cases hwait : w.session.state ≠ .sending ∨
      reached (UInt32.ofNat now) w.session.nextDueMs = false
  · rw [watchedStep_process (process_wait link hwait), if_neg (by simp)]
    exact ⟨h.wait hf ha hwait, by simp,
      fun _ => punctual_of_not_sent fun _ hs hdue _ => by simp [hs, hdue] at hwait⟩
  obtain ⟨hs, hdue⟩ : w.session.state = .sending ∧
      reached (UInt32.ofNat now) w.session.nextDueMs = true := by
    simpa using hwait
  by_cases hlate : reached (UInt32.ofNat now) (w.session.slotMs + bamAbortLateMs) = true
  · -- The session is given up.
    rw [watchedStep_process (process_late link hs hdue hlate), if_neg (by simp)]
    exact ⟨.quiet (by simp [cancel]), by simp,
      fun _ => punctual_of_not_sent fun _ _ _ hnot => by simp [hlate] at hnot⟩
  rw [Bool.not_eq_true] at hlate
  by_cases hlink : link = .ok
  · -- The link takes the packet.
    subst hlink
    obtain ⟨s', hproc, hafter⟩ := process_accepted hs hdue hlate
    rw [watchedStep_process hproc, if_pos (by simp)]
    refine ⟨?_, ?_, ?_⟩
    · rcases hafter with hidle | ⟨hs', hn', hslot', hdue'⟩
      · exact .quiet hidle
      · exact .sent hs' hn' hslot' hdue'
    · intro g hg
      obtain ⟨T, hl, rfl⟩ : ∃ T, w.last = some T ∧ g = now - T := by
        simpa [eq_comm] using hg
      have hn : w.session.nextPacket ≠ 0 := by
        cases h with
        | quiet hq => exact absurd hs hq
        | first _ _ hnone => simp [hnone] at hl
        | later _ _ _ hn => exact hn
      exact h.gap hf (fun hatt => ha hatt hs hn) hl hs hn hdue hlate
    · intro hnone _ hn
      cases h with
      | quiet hq => exact absurd hs hq
      | first _ hn' => exact absurd hn' hn
      | later T due _ _ hl => simp [hl] at hnone
  · -- No mailbox: try again on the next call.
    rw [watchedStep_process (process_busy hs hdue hlate hlink), if_neg (by simp [hlink])]
    exact ⟨h.retry hf (fun hatt hn => ha hatt hs hn) hs hdue hlate _, by simp,
      fun _ => punctual_of_not_sent fun hok => absurd hok hlink⟩

end Process

/-- A running session that is left alone, or a transmitter that stays quiet. -/
theorem Paced.keep {attended : Prop} {w : Watched} (h : Paced attended w) {s' : Session}
    (hs : w.session.state = .sending → s' = w.session)
    (hq : w.session.state ≠ .sending → s'.state ≠ .sending) :
    Paced attended ⟨s', w.clock, w.last⟩ := by
  by_cases hsend : w.session.state = .sending
  · rw [hs hsend]
    exact h
  · exact .quiet (hq hsend)

theorem Paced.start {attended : Prop} {w : Watched} (h : Paced attended w) (pgn : UInt32)
    (sourceAddress : UInt8) (now : ℕ) :
    Paced attended (watchedStep w (.start pgn sourceAddress now)).1 ∧
      (watchedStep w (.start pgn sourceAddress now)).2 = [] := by
  by_cases hp : w.session.state = .prepared
  · have hstart : bamStart w.session pgn sourceAddress (UInt32.ofNat now) =
        ((bamStart w.session pgn sourceAddress (UInt32.ofNat now)).1, true) := by
      simp [bamStart, hp]
    simp only [watchedStep, Call.op, Call.clock, step]
    rw [hstart]
    refine ⟨.first ?_ ?_ rfl, rfl⟩
    · simp [bamStart, hp]
    · simp [bamStart, hp]
  · have hstart : bamStart w.session pgn sourceAddress (UInt32.ofNat now) = (w.session, false) := by
      simp [bamStart, hp]
    simp only [watchedStep, Call.op, Call.clock, step]
    rw [hstart]
    exact ⟨h, rfl⟩

/-- **Step.** Every call keeps the pace, and every gap it shows is explained. -/
theorem paced_step {attended : Prop} {w : Watched} (call : Call) (h : Paced attended w)
    (hf : Forward w call) (ha : attended → Attended w call) :
    Paced attended (watchedStep w call).1 ∧
      (∀ g ∈ (watchedStep w call).2, GapOk attended (Punctual w call) g) ∧
      ((watchedStep w call).2 = [] → Punctual w call) := by
  cases call with
  | prepare length =>
    refine ⟨h.keep (fun hs => by simp [bamPrepare, hs]) fun hs => ?_, by simp [watchedStep, step,
      Call.op, watch], fun _ => trivial⟩
    show (bamPrepare w.session length).1.state ≠ .sending
    rw [bamPrepare]
    split_ifs <;> simp [hs]
  | fill offset value =>
    have hfill : ∃ s', watchedStep w (.fill offset value) = (⟨s', w.clock, w.last⟩, []) ∧
        (w.session.state = .sending → s' = w.session) ∧ s'.state = w.session.state := by
      by_cases hp : w.session.state = .prepared ∧ offset < w.session.length.toNat
      · refine ⟨{ w.session with payload := Function.update w.session.payload offset value },
          ?_, fun hs => ?_, rfl⟩
        · simp only [watchedStep, Call.op, Call.clock, step]
          rw [if_pos hp]
          rfl
        · rw [hs] at hp
          cases hp.1
      · refine ⟨w.session, ?_, fun _ => rfl, rfl⟩
        simp only [watchedStep, Call.op, Call.clock, step]
        rw [if_neg hp]
        rfl
    obtain ⟨s', heq, hsend, hstate⟩ := hfill
    rw [heq]
    exact ⟨h.keep hsend fun hs => by rw [hstate]; exact hs, by simp, fun _ => trivial⟩
  | start pgn sourceAddress now =>
    obtain ⟨hp, hnone⟩ := h.start pgn sourceAddress now
    exact ⟨hp, by simp [hnone], fun _ => trivial⟩
  | process now link => exact h.process hf ha
  | cancel =>
    have hcancel : watchedStep w .cancel = (⟨cancel w.session, w.clock, w.last⟩, []) := by
      simp only [watchedStep, Call.op, Call.clock, step]
      rw [watch_counted]
    rw [hcancel]
    exact ⟨.quiet (by simp [cancel]), by simp, fun _ => trivial⟩

/-! ## Runs -/

section Runs

variable {t₀ : ℕ} {calls : List Call}

/-- What is known of the gaps along a run. -/
theorem paced_run (attended : Prop) (hf : Mealy.Always Forward watchedStep (Watched.init t₀) calls)
    (ha : attended → Mealy.Always Attended watchedStep (Watched.init t₀) calls) :
    Mealy.Always (fun w call =>
      (∀ g ∈ (watchedStep w call).2, GapOk attended (Punctual w call) g) ∧
        ((watchedStep w call).2 = [] → Punctual w call))
      watchedStep (Watched.init t₀) calls := by
  have hboth : Mealy.Always (fun w call => Forward w call ∧ (attended → Attended w call))
      watchedStep (Watched.init t₀) calls := by
    by_cases hatt : attended
    · exact Mealy.Always.of_invariant (fun _ => True)
        (fun _ _ _ h => ⟨trivial, h.1, fun _ => h.2⟩) trivial calls (hf.and (ha hatt))
    · exact Mealy.Always.of_invariant (fun _ => True)
        (fun _ _ _ h => ⟨trivial, h, fun hatt' => absurd hatt' hatt⟩) trivial calls hf
  have hstep : ∀ w call, Paced attended w → Forward w call ∧ (attended → Attended w call) →
      Paced attended (watchedStep w call).1 ∧
        ((∀ g ∈ (watchedStep w call).2, GapOk attended (Punctual w call) g) ∧
          ((watchedStep w call).2 = [] → Punctual w call)) :=
    fun w call h hc => paced_step call h hc.1 hc.2
  exact Mealy.Always.of_invariant (Paced attended) hstep (Paced.init attended t₀) calls hboth

/-- An attended session is given up in time along a run. -/
theorem givesUp_run (hf : Mealy.Always Forward watchedStep (Watched.init t₀) calls)
    (ha : Mealy.Always Attended watchedStep (Watched.init t₀) calls) :
    Mealy.Always GivesUp watchedStep (Watched.init t₀) calls := by
  have hstep : ∀ w call, Paced True w → Forward w call ∧ Attended w call →
      Paced True (watchedStep w call).1 ∧ GivesUp w call := by
    intro w call h ⟨hforward, hatt⟩
    refine ⟨(paced_step call h hforward fun _ => hatt).1, ?_⟩
    cases call with
    | process now link => exact h.givesUp trivial hforward hatt
    | prepare | fill | start | cancel => trivial
  exact Mealy.Always.of_invariant (Paced True) hstep (Paced.init True t₀) calls (hf.and ha)

end Runs

/-- **The spacing of BAM packets.** However the calls are interleaved and
whatever the link answers, consecutive accepted packets of a session are at
least 50 ms apart. While the session is attended they are less than 800 ms
apart, and less than the receivers' 750 ms exactly when no packet is accepted
700 ms or more after its slot; and the session is given up by the first call 800 ms
or more after its latest packet, and by no earlier one. -/
theorem bam_spacing (t₀ : ℕ) (calls : List Call)
    (hf : Mealy.Always Forward watchedStep (Watched.init t₀) calls) :
    let gaps := (Mealy.run watchedStep (Watched.init t₀) calls).2.flatten
    (∀ g ∈ gaps, 50 ≤ g) ∧
    (Mealy.Always Attended watchedStep (Watched.init t₀) calls →
      (∀ g ∈ gaps, g < 800) ∧
      ((∀ g ∈ gaps, g < 750) ↔ Mealy.Always Punctual watchedStep (Watched.init t₀) calls) ∧
      Mealy.Always GivesUp watchedStep (Watched.init t₀) calls) := by
  have hgaps : ∀ P : ℕ → Prop,
      (∀ g ∈ (Mealy.run watchedStep (Watched.init t₀) calls).2.flatten, P g) ↔
        Mealy.Always (fun w call => ∀ g ∈ (watchedStep w call).2, P g) watchedStep
          (Watched.init t₀) calls := by
    intro P
    rw [Mealy.always_output_iff fun out : List ℕ => ∀ g ∈ out, P g]
    simp only [List.mem_flatten, forall_exists_index, and_imp]
    exact ⟨fun h out hout g hg => h g out hout hg, fun h g out hout hg => h out hout g hg⟩
  refine ⟨?_, fun ha => ⟨?_, ?_, givesUp_run hf ha⟩⟩
  · rw [hgaps]
    exact Mealy.Always.of_invariant (fun _ => True)
      (fun _ _ _ h => ⟨trivial, fun g hg => (h.1 g hg).1⟩) trivial calls
      (paced_run False hf False.elim)
  · rw [hgaps]
    exact Mealy.Always.of_invariant (fun _ => True)
      (fun _ _ _ h => ⟨trivial, fun g hg => ((h.1 g hg).2 trivial).1⟩) trivial calls
      (paced_run True hf fun _ => ha)
  · rw [hgaps]
    apply Mealy.Always.congr
    refine Mealy.Always.of_invariant (fun _ => True) (fun w call _ h => ⟨trivial, ?_⟩) trivial calls
      (paced_run True hf fun _ => ha)
    constructor
    · intro hall
      cases hout : (watchedStep w call).2 with
      | nil => exact h.2 hout
      | cons g gaps =>
        have hg : g ∈ (watchedStep w call).2 := by simp [hout]
        exact ((h.1 g hg).2 trivial).2.mp (hall g hg)
    · intro hp g hg
      exact ((h.1 g hg).2 trivial).2.mpr hp

instance (w : Watched) (call : Call) : Decidable (Forward w call) :=
  inferInstanceAs (Decidable (w.clock ≤ call.clock w.clock))

instance (w : Watched) (call : Call) : Decidable (Attended w call) :=
  inferInstanceAs (Decidable (w.session.state = .sending → w.session.nextPacket ≠ 0 →
    call.clock w.clock < w.clock + 2 ^ 31))

/-- A session whose first data packet finds a mailbox 790 ms after TP.CM. -/
def lateCalls : List Call :=
  [.prepare 9, .start 0xFEEC 0x80 0, .process 0 .ok, .process 50 .busy, .process 789 .busy,
    .process 790 .ok]

/-- The late packet goes out 40 ms after the receivers have timed out. -/
theorem bam_spacing_late :
    Mealy.Always Forward watchedStep (Watched.init 0) lateCalls ∧
      Mealy.Always Attended watchedStep (Watched.init 0) lateCalls ∧
      (Mealy.run watchedStep (Watched.init 0) lateCalls).2.flatten = [790] := by
  refine ⟨by decide, by decide, by decide⟩

/-- A session across the wrap of the clock, given up before its last packet. -/
def wrapCalls : List Call :=
  [.prepare 16, .start 0xFEEC 0x80 (2 ^ 32 - 20), .process (2 ^ 32 - 20) .ok,
    .process (2 ^ 32 + 30) .ok, .process (2 ^ 32 + 80) .busy, .process (2 ^ 32 + 90) .ok,
    .process (2 ^ 32 + 889) .busy, .process (2 ^ 32 + 890) .ok]

theorem bam_spacing_wrap :
    let w := Watched.init (2 ^ 32 - 20)
    let gaps := (Mealy.run watchedStep w wrapCalls).2.flatten
    (∀ g ∈ gaps, 50 ≤ g) ∧ (∀ g ∈ gaps, g < 800) ∧
      ((∀ g ∈ gaps, g < 750) ↔ Mealy.Always Punctual watchedStep w wrapCalls) ∧
      Mealy.Always GivesUp watchedStep w wrapCalls ∧
      gaps = [50, 60] ∧ (Mealy.run watchedStep w wrapCalls).1.session.stats.aborted = 1 := by
  intro w gaps
  obtain ⟨hlow, hattended⟩ := bam_spacing (2 ^ 32 - 20) wrapCalls (by decide)
  obtain ⟨hhigh, hpunctual, hgiven⟩ := hattended (by decide)
  exact ⟨hlow, hhigh, hpunctual, hgiven, by decide, by decide⟩

end J1939Gen.Tp
