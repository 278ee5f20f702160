import J1939Gen.Control.TxRing
import J1939Gen.Lib.Ledger

/-!
# Deferred responses keep their order

Runs of the response queue, watched from outside: every generated response is
numbered, and a ledger follows what becomes of it from the events the code
shows.

* `Inv`: the ledger is a first-in first-out one, the ring holds the responses
  that wait, and the counters count what was delivered and dropped.
* `Inv.front`, `Inv.arrive`: what a turn of `App_Control_Can_Process` and a call
  of `prv_send_response` do to it.

Main result `responses_in_order`.
-/

namespace J1939Gen.Control

open SerialClock

namespace TxRing

/-- What happens to the queue: a response is generated, or the queue is
serviced; `elapsed` is the time since the previous call and `link` answers the
transmissions of this one. -/
inductive Call
  | generate (elapsed : ℕ) (response : Response) (link : LinkStatus)
  | process (elapsed : ℕ) (link : ℕ → LinkStatus)

/-- Why a response is dropped: the queue held `queued` entries already, or it
had waited for `age` milliseconds. -/
inductive Drop
  | full (queued : ℕ)
  | old (age : ℕ)
deriving DecidableEq, Repr

/-- The queue and its watcher. -/
structure Watched where
  ring : TxRing
  clock : ℕ
  /-- The generated responses with their instants; a response's number is its place. -/
  generated : List (Response × ℕ)
  ledger : Ledger Drop
  /-- The responses the link accepted, oldest first. -/
  accepted : List Response

/-- The queue after `App_Control_Can_Init`, at instant `t₀`. -/
def Watched.init (t₀ : ℕ) : Watched := ⟨TxRing.init, t₀, [], Ledger.empty, []⟩

/-- The response the link accepted, if the event is that. -/
def transmitted? : TxEvent → Option Response
  | .transmitted r => some r
  | _ => none

/-- The waiting response with these bytes. -/
def Watched.twin (w : Watched) (response : Response) : Option ℕ :=
  w.ledger.waiting.find? fun n => (w.generated[n]?).any fun g => g.1.bytes = response.bytes

/-- The ledger after a response was generated. -/
def Watched.arrive (w : Watched) (response : Response) : TxEvent → Ledger Drop
  | .transmitted _ => w.ledger.settle .delivered
  | .deferred _ => w.ledger.wait
  | .merged _ =>
    match w.twin response with
    | some into => w.ledger.settle (.merged into)
    | none => w.ledger
  | .dropped _ => w.ledger.settle (.dropped (.full w.ring.count.toNat))

/-- The ledger after one turn of `App_Control_Can_Process`. -/
def serve (clock : ℕ) (generated : List (Response × ℕ)) (ledger : Ledger Drop) :
    TxEvent → Ledger Drop
  | .transmitted _ => ledger.front .delivered
  | .dropped _ =>
    match ledger.waiting.head? >>= fun n => generated[n]? with
    | some g => ledger.front (.dropped (.old (clock - g.2)))
    | none => ledger
  | _ => ledger

/-- One call under the watcher's eyes. -/
def watchedStep (w : Watched) : Call → Watched × List TxEvent
  | .generate elapsed response link =>
    let clock := w.clock + elapsed
    let (ring, event) := w.ring.send response (UInt32.ofNat clock) link
    (⟨ring, clock, w.generated ++ [(response, clock)], w.arrive response event,
      w.accepted ++ (transmitted? event).toList⟩, [event])
  | .process elapsed link =>
    let clock := w.clock + elapsed
    let (ring, events) := w.ring.process (UInt32.ofNat clock) link
    (⟨ring, clock, w.generated, events.foldl (serve clock w.generated) w.ledger,
      w.accepted ++ events.filterMap transmitted?⟩, events)

/-! ## The invariant -/

/-- The entry is the waiting response `n`. -/
def Holds (generated : List (Response × ℕ)) (clock : ℕ) (e : TxEntry) (n : ℕ) : Prop :=
  ∃ t, generated[n]? = some (e.response, t) ∧ e.queuedMs = UInt32.ofNat t ∧ t ≤ clock

/-- The invariant of a run. -/
structure Inv (w : Watched) : Prop where
  wf : w.ring.Wf
  sound : w.ledger.Sound
  arrivals : w.ledger.arrivals = w.generated.length
  waiting : List.Forall₂ (Holds w.generated w.clock) w.ring.entries w.ledger.waiting
  accepted : w.ledger.delivered.map (fun n => (w.generated[n]?).map Prod.fst) =
    w.accepted.map some
  merged : ∀ n into, (n, .merged into) ∈ w.ledger.settled → ∃ g g',
    w.generated[n]? = some g ∧ w.generated[into]? = some g' ∧ g.1.bytes = g'.1.bytes
  full : ∀ n queued, (n, .dropped (.full queued)) ∈ w.ledger.settled → queued = txQueueCapacity
  old : ∀ n age, (n, .dropped (.old age)) ∈ w.ledger.settled → dedupWindow < age
  responsesQueued : w.ring.stats.responsesQueued = UInt32.ofNat w.ledger.delivered.length
  responsesDropped : w.ring.stats.responsesDropped = UInt32.ofNat w.ledger.dropped

theorem Inv.init (t₀ : ℕ) : Inv (Watched.init t₀) where
  wf := Wf.init
  sound := .empty
  arrivals := rfl
  waiting := .nil
  accepted := rfl
  merged := by simp [Watched.init, Ledger.empty]
  full := by simp [Watched.init, Ledger.empty]
  old := by simp [Watched.init, Ledger.empty]
  responsesQueued := rfl
  responsesDropped := rfl

theorem Holds.mono {generated : List (Response × ℕ)} {clock clock' : ℕ} {e : TxEntry} {n : ℕ}
    (h : Holds generated clock e n) (more : List (Response × ℕ)) (hc : clock ≤ clock') :
    Holds (generated ++ more) clock' e n := by
  obtain ⟨t, hg, hq, ht⟩ := h
  obtain ⟨hlt, -⟩ := List.getElem?_eq_some_iff.mp hg
  exact ⟨t, by rw [List.getElem?_append_left hlt]; exact hg, hq, le_trans ht hc⟩

theorem Inv.advance {w : Watched} (h : Inv w) (elapsed : ℕ) :
    Inv { w with clock := w.clock + elapsed } where
  wf := h.wf
  sound := h.sound
  arrivals := h.arrivals
  waiting := h.waiting.imp fun e n he => by
    have := he.mono [] (Nat.le_add_right w.clock elapsed)
    rwa [List.append_nil] at this
  accepted := h.accepted
  merged := h.merged
  full := h.full
  old := h.old
  responsesQueued := h.responsesQueued
  responsesDropped := h.responsesDropped

theorem length_delivered_append (l : Ledger Drop) (n : ℕ) (fate : Ledger.Fate Drop) :
    (((l.settled ++ [(n, fate)]).filter fun s => s.2.isDelivered).map Prod.fst).length =
      l.delivered.length + if fate.isDelivered then 1 else 0 := by
  rw [Ledger.delivered_append, List.length_append]
  split_ifs <;> rfl

theorem dropped_append (l : Ledger Drop) (n : ℕ) (fate : Ledger.Fate Drop) :
    (l.settled ++ [(n, fate)]).countP (fun s => s.2.isDropped) =
      l.dropped + if fate.isDropped then 1 else 0 := by
  rw [List.countP_append, List.countP_singleton, Ledger.dropped]

/-! ## A turn of `App_Control_Can_Process` -/

/-- The head of the ring is the front of the line. -/
theorem Inv.head {w : Watched} (h : Inv w) (hc : w.ring.count > 0) :
    ∃ n rest t, w.ledger.waiting = n :: rest ∧
      w.generated[n]? = some ((w.ring.slots w.ring.head.toNat).response, t) ∧
      (w.ring.slots w.ring.head.toNat).queuedMs = UInt32.ofNat t ∧ t ≤ w.clock ∧
      List.Forall₂ (Holds w.generated w.clock) w.ring.pop.entries rest := by
  have hw := h.waiting
  rw [(pop_spec h.wf hc).2.1] at hw
  cases hwait : w.ledger.waiting with
  | nil =>
    rw [hwait] at hw
    cases hw
  | cons n rest =>
    rw [hwait, List.forall₂_cons] at hw
    obtain ⟨⟨t, hg, hq, ht⟩, hrest⟩ := hw
    exact ⟨n, rest, t, rfl, hg, hq, ht, hrest⟩

/-- The front of the line is settled and the ring popped. -/
theorem Inv.front {w : Watched} (h : Inv w) (hc : w.ring.count > 0) (fate : Ledger.Fate Drop)
    (stats : TxStats) (hm : ∀ into, fate ≠ .merged into)
    (hfull : ∀ queued, fate ≠ .dropped (.full queued))
    (hold : ∀ age, fate = .dropped (.old age) → dedupWindow < age)
    (hq : stats.responsesQueued =
      w.ring.stats.responsesQueued + UInt32.ofNat (if fate.isDelivered then 1 else 0))
    (hd : stats.responsesDropped =
      w.ring.stats.responsesDropped + UInt32.ofNat (if fate.isDropped then 1 else 0)) :
    Inv ⟨{ w.ring.pop with stats := stats }, w.clock, w.generated, w.ledger.front fate,
      w.accepted ++ if fate.isDelivered then [(w.ring.slots w.ring.head.toNat).response]
        else []⟩ := by
  obtain ⟨n, rest, t, hwait, hg, -, -, hrest⟩ := h.head hc
  have hpop := (pop_spec h.wf hc).1
  have hfront : w.ledger.front fate =
      ⟨w.ledger.arrivals, rest, w.ledger.settled ++ [(n, fate)]⟩ := by
    rw [Ledger.front, hwait]
  have hsound := h.sound.front hm
  rw [hfront] at hsound ⊢
  refine ⟨⟨hpop.head, hpop.count⟩, hsound, h.arrivals, hrest, ?_, ?_, ?_, ?_, ?_, ?_⟩
  · show (((w.ledger.settled ++ [(n, fate)]).filter _).map Prod.fst).map _ = _
    rw [Ledger.delivered_append, List.map_append, h.accepted, List.map_append]
    split_ifs
    · simp [hg]
    · rfl
  · intro n' into hmem
    rcases List.mem_append.mp hmem with hmem | hmem
    · exact h.merged n' into hmem
    · exact absurd (congrArg Prod.snd (List.mem_singleton.mp hmem)).symm (hm into)
  · intro n' queued hmem
    rcases List.mem_append.mp hmem with hmem | hmem
    · exact h.full n' queued hmem
    · exact absurd (congrArg Prod.snd (List.mem_singleton.mp hmem)).symm (hfull queued)
  · intro n' age hmem
    rcases List.mem_append.mp hmem with hmem | hmem
    · exact h.old n' age hmem
    · exact hold age (congrArg Prod.snd (List.mem_singleton.mp hmem)).symm
  · show stats.responsesQueued = UInt32.ofNat (List.length _)
    rw [hq, h.responsesQueued, ofNat_add_ofNat]
    exact congrArg _ (length_delivered_append w.ledger n fate).symm
  · show stats.responsesDropped = UInt32.ofNat _
    rw [hd, h.responsesDropped, ofNat_add_ofNat]
    exact congrArg _ (dropped_append w.ledger n fate).symm

/-- Entries of the ring move on with their counters only. -/
theorem Inv.retune {w : Watched} (h : Inv w) (stats : TxStats) (retryNotBeforeMs : UInt32)
    (hq : stats.responsesQueued = w.ring.stats.responsesQueued)
    (hd : stats.responsesDropped = w.ring.stats.responsesDropped) :
    Inv { w with ring := { w.ring with stats := stats, retryNotBeforeMs := retryNotBeforeMs } } where
  wf := ⟨h.wf.head, h.wf.count⟩
  sound := h.sound
  arrivals := h.arrivals
  waiting := h.waiting
  accepted := h.accepted
  merged := h.merged
  full := h.full
  old := h.old
  responsesQueued := hq.trans h.responsesQueued
  responsesDropped := hd.trans h.responsesDropped

/-- What is dropped for its age has waited for more than the window, whatever
the clock has wrapped. -/
theorem age_of_old {clock t : ℕ} (ht : t ≤ clock)
    (hold : UInt32.ofNat clock - UInt32.ofNat t > dedupWindowMs) : dedupWindow < clock - t := by
  rw [ofNat_sub_ofNat ht, gt_iff_lt, UInt32.lt_iff_toNat_lt, UInt32.toNat_ofNat'] at hold
  exact lt_of_lt_of_le hold (Nat.mod_le _ _)

/-- **A call of `App_Control_Can_Process`.** The induction is on the number of
queued entries; every turn but the last settles the front of the line. -/
theorem Inv.processLoop {w : Watched} (h : Inv w) (link : ℕ → LinkStatus) (i : ℕ) :
    Inv ⟨(TxRing.processLoop (UInt32.ofNat w.clock) link w.ring i).1, w.clock, w.generated,
      (TxRing.processLoop (UInt32.ofNat w.clock) link w.ring i).2.foldl
        (serve w.clock w.generated) w.ledger,
      w.accepted ++ (TxRing.processLoop (UInt32.ofNat w.clock) link w.ring i).2.filterMap
        transmitted?⟩ := by
  induction hn : w.ring.count.toNat generalizing w i with
  | zero =>
    have hc : ¬ w.ring.count > 0 := by
      rw [gt_iff_lt, UInt8.lt_iff_toNat_lt, hn]
      exact Nat.lt_irrefl 0
    rw [TxRing.processLoop, dif_neg hc, List.filterMap_nil, List.append_nil]
    exact h
  | succ n ih =>
    have hc : w.ring.count > 0 := by
      rw [gt_iff_lt, UInt8.lt_iff_toNat_lt, hn]
      exact Nat.succ_pos n
    have hlt : w.ring.pop.count.toNat = n := by
      rw [pop_count hc]
      omega
    obtain ⟨m, rest, t, hwait, hg, hqueued, ht, -⟩ := h.head hc
    rw [TxRing.processLoop, dif_pos hc]
    by_cases hold : UInt32.ofNat w.clock - (w.ring.slots w.ring.head.toNat).queuedMs > dedupWindowMs
    · -- The front is too old.
      have hserve : serve w.clock w.generated w.ledger
          (.dropped (w.ring.slots w.ring.head.toNat).response) =
          w.ledger.front (.dropped (.old (w.clock - t))) := by
        simp only [serve, hwait, List.head?_cons, Option.bind_eq_bind, Option.bind_some, hg]
      have hfront := h.front hc (.dropped (.old (w.clock - t)))
        { w.ring.stats with responsesDropped := w.ring.stats.responsesDropped + 1 }
        (by simp) (by simp)
        (fun age hage => by
          rw [Ledger.Fate.dropped.injEq, Drop.old.injEq] at hage
          rw [← hage]
          exact age_of_old ht (by rw [← hqueued]; exact hold))
        (by simp [Ledger.Fate.isDelivered]) (by simp [Ledger.Fate.isDropped])
      have hrest := ih hfront i hlt
      simp only [if_pos hold, List.foldl_cons, hserve]
      rw [List.filterMap_cons_none rfl]
      rwa [show (w.accepted ++ if (Ledger.Fate.dropped (Drop.old (w.clock - t))).isDelivered then
        [(w.ring.slots w.ring.head.toNat).response] else []) = w.accepted from
        List.append_nil _] at hrest
    · simp only [if_neg hold]
      by_cases hretry : reached (UInt32.ofNat w.clock) w.ring.retryNotBeforeMs = false
      · rw [if_pos hretry, List.filterMap_nil, List.append_nil]
        exact h
      · rw [if_neg hretry]
        cases hl : link i with
        | ok =>
          -- The link takes the front.
          have hfront := h.front hc .delivered
            { w.ring.stats with responsesQueued := w.ring.stats.responsesQueued + 1 }
            (by simp) (by simp) (by simp) (by simp [Ledger.Fate.isDelivered])
            (by simp [Ledger.Fate.isDropped])
          have hrest := ih hfront (i + 1) hlt
          have hhead : transmitted? (.transmitted (w.ring.slots w.ring.head.toNat).response) =
              some (w.ring.slots w.ring.head.toNat).response := rfl
          simp only [List.foldl_cons]
          rw [List.filterMap_cons_some hhead, List.append_cons]
          exact hrest
        | busy =>
          simp only [List.filterMap_nil, List.append_nil]
          exact h.retune _ _ rfl rfl
        | error =>
          simp only [List.filterMap_nil, List.append_nil]
          exact h.retune _ _ rfl rfl

/-! ## A generated response -/

/-- What was generated stays generated. -/
theorem getElem?_generated {w : Watched} {n : ℕ} {g : Response × ℕ} (h : w.generated[n]? = some g)
    (more : List (Response × ℕ)) : (w.generated ++ more)[n]? = some g := by
  obtain ⟨hlt, -⟩ := List.getElem?_eq_some_iff.mp h
  rw [List.getElem?_append_left hlt]
  exact h

/-- The numbers of delivered responses name the same responses later on. -/
theorem Inv.accepted_append {w : Watched} (h : Inv w) (more : List (Response × ℕ)) :
    w.ledger.delivered.map (fun n => ((w.generated ++ more)[n]?).map Prod.fst) =
      w.accepted.map some := by
  rw [← h.accepted]
  apply List.map_congr_left
  intro n hn
  obtain ⟨s, hs, rfl⟩ := Ledger.mem_delivered hn
  rw [List.getElem?_append_left (by rw [← h.arrivals]; exact h.sound.settled_lt hs)]

/-- A response settled as it is generated. -/
theorem Inv.settle {w : Watched} (h : Inv w) (response : Response) (fate : Ledger.Fate Drop)
    (stats : TxStats) (retryNotBeforeMs : UInt32)
    (hdel : fate.isDelivered = true → w.ledger.waiting = [])
    (hm : ∀ into, fate = .merged into → into ∈ w.ledger.waiting ∧
      ∃ g, w.generated[into]? = some g ∧ response.bytes = g.1.bytes)
    (hfull : ∀ queued, fate = .dropped (.full queued) → queued = txQueueCapacity)
    (hold : ∀ age, fate ≠ .dropped (.old age))
    (hq : stats.responsesQueued =
      w.ring.stats.responsesQueued + UInt32.ofNat (if fate.isDelivered then 1 else 0))
    (hd : stats.responsesDropped =
      w.ring.stats.responsesDropped + UInt32.ofNat (if fate.isDropped then 1 else 0)) :
    Inv ⟨{ w.ring with stats := stats, retryNotBeforeMs := retryNotBeforeMs }, w.clock,
      w.generated ++ [(response, w.clock)], w.ledger.settle fate,
      w.accepted ++ if fate.isDelivered then [response] else []⟩ where
  wf := ⟨h.wf.head, h.wf.count⟩
  sound := h.sound.settle hdel fun into hinto => (hm into hinto).1
  arrivals := by
    show w.ledger.arrivals + 1 = (w.generated ++ [(response, w.clock)]).length
    rw [h.arrivals, List.length_append]
    rfl
  waiting := h.waiting.imp fun _ _ he => he.mono _ le_rfl
  accepted := by
    show (((w.ledger.settled ++ [(w.ledger.arrivals, fate)]).filter _).map Prod.fst).map _ = _
    rw [Ledger.delivered_append, List.map_append, h.accepted_append, List.map_append]
    split_ifs
    · simp [h.arrivals]
    · rfl
  merged := by
    intro n into hmem
    rcases List.mem_append.mp hmem with hmem | hmem
    · obtain ⟨g, g', hg, hg', heq⟩ := h.merged n into hmem
      exact ⟨g, g', getElem?_generated hg _, getElem?_generated hg' _, heq⟩
    · obtain ⟨rfl, hfate⟩ := Prod.mk.inj (List.mem_singleton.mp hmem)
      obtain ⟨-, g, hg, heq⟩ := hm into hfate.symm
      refine ⟨(response, w.clock), g, ?_, getElem?_generated hg _, heq⟩
      rw [h.arrivals]
      exact List.getElem?_concat_length
  full := by
    intro n queued hmem
    rcases List.mem_append.mp hmem with hmem | hmem
    · exact h.full n queued hmem
    · exact hfull queued (congrArg Prod.snd (List.mem_singleton.mp hmem)).symm
  old := by
    intro n age hmem
    rcases List.mem_append.mp hmem with hmem | hmem
    · exact h.old n age hmem
    · exact absurd (congrArg Prod.snd (List.mem_singleton.mp hmem)).symm (hold age)
  responsesQueued := by
    show stats.responsesQueued = UInt32.ofNat (List.length _)
    rw [hq, h.responsesQueued, ofNat_add_ofNat]
    exact congrArg _ (length_delivered_append w.ledger _ fate).symm
  responsesDropped := by
    show stats.responsesDropped = UInt32.ofNat _
    rw [hd, h.responsesDropped, ofNat_add_ofNat]
    exact congrArg _ (dropped_append w.ledger _ fate).symm

/-- A response that goes to the end of the queue. -/
theorem Inv.wait {w : Watched} (h : Inv w) (response : Response) {ring : TxRing}
    (hwf : ring.Wf) (hentries : ring.entries = w.ring.entries ++ [⟨response, UInt32.ofNat w.clock⟩])
    (hq : ring.stats.responsesQueued = w.ring.stats.responsesQueued)
    (hd : ring.stats.responsesDropped = w.ring.stats.responsesDropped) :
    Inv ⟨ring, w.clock, w.generated ++ [(response, w.clock)], w.ledger.wait, w.accepted⟩ where
  wf := hwf
  sound := h.sound.wait
  arrivals := by
    show w.ledger.arrivals + 1 = (w.generated ++ [(response, w.clock)]).length
    rw [h.arrivals, List.length_append]
    rfl
  waiting := by
    show List.Forall₂ _ ring.entries (w.ledger.waiting ++ [w.ledger.arrivals])
    rw [hentries]
    apply List.rel_append
    · exact h.waiting.imp fun _ _ he => he.mono _ le_rfl
    · refine .cons ⟨w.clock, ?_, rfl, le_rfl⟩ .nil
      rw [h.arrivals]
      exact List.getElem?_concat_length
  accepted := h.accepted_append _
  merged := by
    intro n into hmem
    obtain ⟨g, g', hg, hg', heq⟩ := h.merged n into hmem
    exact ⟨g, g', getElem?_generated hg _, getElem?_generated hg' _, heq⟩
  full := h.full
  old := h.old
  responsesQueued := hq.trans h.responsesQueued
  responsesDropped := hd.trans h.responsesDropped

/-- A response with the bytes of a queued one has a twin that waits. -/
theorem Inv.twin {w : Watched} (h : Inv w) {response : Response}
    (hc : w.ring.contains response = true) :
    ∃ into, w.twin response = some into ∧ into ∈ w.ledger.waiting ∧
      ∃ g, w.generated[into]? = some g ∧ response.bytes = g.1.bytes := by
  rw [contains_eq, List.any_eq_true] at hc
  obtain ⟨e, he, hbytes⟩ := hc
  rw [decide_eq_true_eq] at hbytes
  have hex : ∃ n ∈ w.ledger.waiting,
      ((w.generated[n]?).any fun g => g.1.bytes = response.bytes) = true := by
    obtain ⟨k, hk, rfl⟩ := List.mem_iff_getElem.mp he
    have hlen := h.waiting.length_eq
    obtain ⟨t, hg, -, -⟩ := h.waiting.get hk (hlen ▸ hk)
    refine ⟨w.ledger.waiting.get ⟨k, hlen ▸ hk⟩, List.get_mem .., ?_⟩
    rw [hg]
    simpa using hbytes
  have hsome := List.find?_isSome.mpr hex
  obtain ⟨into, hinto⟩ := Option.isSome_iff_exists.mp hsome
  refine ⟨into, hinto, List.mem_of_find?_eq_some hinto, ?_⟩
  have hmatch := List.find?_some hinto
  cases hg : w.generated[into]? with
  | none => simp [hg] at hmatch
  | some g =>
    rw [hg] at hmatch
    exact ⟨g, rfl, by simpa using (by simpa using hmatch : g.1.bytes = response.bytes).symm⟩

/-- A deferred response merges, is dropped or waits. -/
theorem Inv.defer {w : Watched} (h : Inv w) (response : Response) :
    Inv ⟨(w.ring.defer response (UInt32.ofNat w.clock)).1, w.clock,
      w.generated ++ [(response, w.clock)],
      w.arrive response (w.ring.defer response (UInt32.ofNat w.clock)).2,
      w.accepted ++ (transmitted? (w.ring.defer response (UInt32.ofNat w.clock)).2).toList⟩ := by
  rcases defer_cases h.wf response (UInt32.ofNat w.clock) with ⟨hm, heq⟩ | ⟨-, hfull, heq⟩ |
      ⟨-, -, ring, heq, hwf, hentries, -, hstats⟩
  · obtain ⟨into, htwin, hwait, hg⟩ := h.twin hm
    have hsettle := h.settle response (.merged into) w.ring.stats w.ring.retryNotBeforeMs
      (by simp [Ledger.Fate.isDelivered])
      (fun into' hinto => by
        rw [Ledger.Fate.merged.injEq] at hinto
        rw [← hinto]
        exact ⟨hwait, hg⟩)
      (by simp) (by simp) (by simp [Ledger.Fate.isDelivered]) (by simp [Ledger.Fate.isDropped])
    rw [heq]
    simp only [Watched.arrive, htwin]
    exact hsettle
  · have hsettle := h.settle response (.dropped (.full w.ring.count.toNat))
      { w.ring.stats with responsesDropped := w.ring.stats.responsesDropped + 1 }
      w.ring.retryNotBeforeMs (by simp [Ledger.Fate.isDelivered]) (by simp)
      (fun queued hqueued => by
        rw [Ledger.Fate.dropped.injEq, Drop.full.injEq] at hqueued
        rw [← hqueued]
        exact hfull)
      (by simp) (by simp [Ledger.Fate.isDelivered]) (by simp [Ledger.Fate.isDropped])
    rw [heq]
    exact hsettle
  · rw [heq]
    show Inv ⟨ring, _, _, w.ledger.wait, w.accepted ++ []⟩
    rw [List.append_nil]
    exact h.wait response hwf hentries (by rw [hstats]) (by rw [hstats])

/-- **A call of `prv_send_response`.** -/
theorem Inv.send {w : Watched} (h : Inv w) (response : Response) (link : LinkStatus) :
    Inv ⟨(w.ring.send response (UInt32.ofNat w.clock) link).1, w.clock,
      w.generated ++ [(response, w.clock)],
      w.arrive response (w.ring.send response (UInt32.ofNat w.clock) link).2,
      w.accepted ++
        (transmitted? (w.ring.send response (UInt32.ofNat w.clock) link).2).toList⟩ := by
  unfold TxRing.send
  by_cases hc : w.ring.count > 0
  · rw [if_pos hc]
    exact h.defer response
  · rw [if_neg hc]
    cases link with
    | ok =>
      have hnil : w.ledger.waiting = [] := by
        have := h.waiting
        rw [w.ring.entries_eq_nil_iff.mpr hc] at this
        exact List.forall₂_nil_left_iff.mp this
      exact h.settle response .delivered
        { w.ring.stats with responsesQueued := w.ring.stats.responsesQueued + 1 }
        w.ring.retryNotBeforeMs (fun _ => hnil) (by simp) (by simp) (by simp)
        (by simp [Ledger.Fate.isDelivered]) (by simp [Ledger.Fate.isDropped])
    | busy =>
      have hdefer := (h.retune { w.ring.stats with
        responsesBusy := w.ring.stats.responsesBusy + 1 } w.ring.retryNotBeforeMs rfl rfl).defer
        response
      exact hdefer.retune _ _ rfl rfl
    | error =>
      have hdefer := (h.retune { w.ring.stats with
        responsesFailed := w.ring.stats.responsesFailed + 1 } w.ring.retryNotBeforeMs rfl rfl).defer
        response
      exact hdefer.retune _ _ rfl rfl

/-- **Step.** -/
theorem inv_watchedStep (w : Watched) (call : Call) (h : Inv w) : Inv (watchedStep w call).1 := by
  cases call with
  | generate elapsed response link => exact (h.advance elapsed).send response link
  | process elapsed link => exact (h.advance elapsed).processLoop link 0

end TxRing

open TxRing in
/-- **Deferred responses keep their order.** After any sequence of generated
responses and `App_Control_Can_Process` calls, whatever the link answered: the
link accepted the delivered responses, in the order of their generation; every
generated response is settled exactly once or still waits in the ring of at
most four; a merged one has the bytes of an earlier one that was not settled
yet; a dropped one found four others queued or had waited for more than two
seconds; `responses_dropped` counts the dropped ones; and a further
`App_Control_Can_Process` call handles at most the queued entries. -/
theorem responses_in_order (t₀ : ℕ) (calls : List TxRing.Call) :
    let w := (Mealy.run watchedStep (Watched.init t₀) calls).1
    w.ledger.delivered.Pairwise (· < ·) ∧
    w.ledger.delivered.map (fun n => (w.generated[n]?).map Prod.fst) = w.accepted.map some ∧
    (w.ledger.settled.map Prod.fst ++ w.ledger.waiting).Perm (List.range w.generated.length) ∧
    List.Forall₂ (Holds w.generated w.clock) w.ring.entries w.ledger.waiting ∧
    w.ring.entries.length ≤ 4 ∧
    (∀ n into, (n, .merged into) ∈ w.ledger.settled → into < n ∧ ∃ g g',
      w.generated[n]? = some g ∧ w.generated[into]? = some g' ∧ g.1.bytes = g'.1.bytes) ∧
    w.ledger.settled.Pairwise (fun a b => ∀ into, b.2 = .merged into → a.1 ≠ into) ∧
    (∀ n queued, (n, .dropped (.full queued)) ∈ w.ledger.settled → queued = 4) ∧
    (∀ n age, (n, .dropped (.old age)) ∈ w.ledger.settled → 2000 < age) ∧
    w.ring.stats.responsesDropped = UInt32.ofNat w.ledger.dropped ∧
    ∀ nowMs link, (w.ring.process nowMs link).2.length ≤ w.ring.entries.length := by
  intro w
  have h : Inv w := Mealy.run_invariant inv_watchedStep (Inv.init t₀) calls
  refine ⟨h.sound.order, h.accepted, ?_, h.waiting, ?_, ?_, h.sound.merges, h.full, h.old,
    h.responsesDropped, ?_⟩
  · rw [← h.arrivals]
    exact h.sound.perm
  · rw [length_entries]
    exact h.wf.count
  · intro n into hmem
    exact ⟨h.sound.earlier _ hmem into rfl, h.merged n into hmem⟩
  · intro nowMs link
    rw [length_entries]
    exact process_events_le nowMs link 0

end J1939Gen.Control
