import J1939Gen.Control.Runs

/-!
# Retried requests

A request that is retried within the window, before fifteen others have pushed
its response out of the cache, is answered from the cache; another request with
its sequence byte is refused.

* `serve_of_request`: what passes the checks of the protocol.
* `wf_run`: the cache never holds two responses for one sequence byte.
* `held_run`: how long a response stays.
* `at_most_once`: the two answers to a retry.
-/

namespace J1939Gen.Control

open ByteMem ReplayCache

/-! ## Requests -/

/-- The frame passes every check before the cache. -/
structure IsRequest (f : RxFrame) : Prop where
  endpoint : atEndpoint (Header.parseId f.id) = true
  notResponse : f.data 0 &&& responseMask = 0
  length : f.length = frameLength
  sequence : f.data 1 ≠ 0

/-- What the cache stores of the frame. -/
def RxFrame.request (f : RxFrame) : Request := ((Header.parseId f.id).sourceAddress, bytes f.data 0 8)

theorem RxFrame.tag_request (f : RxFrame) :
    f.request.tag = ((Header.parseId f.id).sourceAddress, f.data 1) := rfl

/-- A request goes to the cache. -/
theorem serve_of_request {B : Build} {d : Device} {f : RxFrame} (h : IsRequest f) :
    route B d f = serve B d (Header.parseId f.id).sourceAddress f.data f.env := by
  obtain ⟨h1, h2, h3, h4⟩ := h
  have hpgn : (Header.parseId f.id).pgn = pgnProprietaryAControl := by
    unfold atEndpoint at h1
    exact (of_decide_eq_true h1).1
  unfold route
  dsimp only
  rw [if_pos hpgn]
  unfold handleControlFrame
  rw [if_neg (by simp [h1]), if_neg (by simp [h2]), if_neg (by rw [h3]; decide),
    if_neg (by simp [h3]), if_neg h4]

/-- Any other frame never reaches it. -/
theorem route_of_not_request {B : Build} {d : Device} {f : RxFrame} (h : ¬ IsRequest f) :
    (route B d f).1.cache = d.cache ∧ ∀ r, (route B d f).2 ≠ .executed r := by
  unfold route
  dsimp only
  by_cases hpgn : (Header.parseId f.id).pgn = pgnProprietaryAControl
  swap
  · rw [if_neg hpgn]
    exact ⟨rfl, by simp⟩
  rw [if_pos hpgn]
  unfold handleControlFrame
  by_cases h1 : atEndpoint (Header.parseId f.id) = false
  · rw [if_pos h1]
    exact ⟨rfl, by simp⟩
  rw [if_neg h1]
  by_cases h2 : f.length > 0 ∧ f.data 0 &&& responseMask ≠ 0
  · rw [if_pos h2]
    exact ⟨rfl, by simp⟩
  rw [if_neg h2]
  by_cases h3 : f.length < 2
  · rw [if_pos h3]
    exact ⟨rfl, by simp⟩
  rw [if_neg h3]
  by_cases h4 : f.length ≠ frameLength
  · rw [if_pos h4]
    exact ⟨rfl, by simp⟩
  rw [if_neg h4]
  by_cases h5 : f.data 1 = 0
  · rw [if_pos h5]
    exact ⟨rfl, by simp⟩
  refine absurd ⟨by simpa using h1, ?_, not_not.mp h4, h5⟩ h
  by_contra hr
  exact h2 ⟨by rw [not_not.mp h4]; decide, hr⟩

/-! ## One request -/

section Serve

variable {B : Build} {d : Device} {f : RxFrame}

/-- The lookup of a request. -/
abbrev Device.find (d : Device) (f : RxFrame) : Ring Request Response × Lookup Response :=
  d.cache.lookup Request.tag dedupWindowMs cacheCapacity f.request f.env.arrivalMs

theorem route_replay (h : IsRequest f) {r : Response} (hf : (d.find f).2 = .replay r) :
    (route B d f).1.node = d.node ∧ (route B d f).1.cache = (d.find f).1 ∧
      (route B d f).2 = .replayed r := by
  rw [serve_of_request h]
  unfold Device.find RxFrame.request at hf
  unfold serve
  dsimp only
  rw [hf]
  exact ⟨rfl, rfl, rfl⟩

theorem route_conflict (h : IsRequest f) (hf : (d.find f).2 = .conflict) :
    (route B d f).1.node = d.node ∧ (route B d f).1.cache = (d.find f).1 ∧
      (route B d f).2 =
        .conflict (buildResponse (f.data 0) (f.data 1) .duplicateConflict 0 0) := by
  rw [serve_of_request h]
  unfold Device.find RxFrame.request at hf
  unfold serve
  dsimp only
  rw [hf]
  exact ⟨rfl, rfl, rfl⟩

theorem route_miss (h : IsRequest f) (hf : (d.find f).2 = .miss) :
    (route B d f).1.cache = (d.find f).1.store cacheCapacity f.request
        (execute B d.node f.data f.env).2 f.env.arrivalMs ∧
      (route B d f).2 = .executed (execute B d.node f.data f.env).2 := by
  rw [serve_of_request h]
  unfold Device.find RxFrame.request at hf
  unfold serve
  dsimp only
  rw [hf]
  exact ⟨rfl, rfl⟩

/-- The cache after a frame: as it was, looked up, or with one response more. -/
theorem route_cache (B : Build) (d : Device) (f : RxFrame) :
    ((route B d f).1.cache = d.cache ∨ (route B d f).1.cache = (d.find f).1) ∧
        (∀ r, (route B d f).2 ≠ .executed r) ∨
      ∃ r, IsRequest f ∧ (d.find f).2 = .miss ∧ (route B d f).2 = .executed r ∧
        (route B d f).1.cache =
          (d.find f).1.store cacheCapacity f.request r f.env.arrivalMs := by
  by_cases h : IsRequest f
  swap
  · obtain ⟨h1, h2⟩ := route_of_not_request (B := B) (d := d) h
    exact .inl ⟨.inl h1, h2⟩
  cases hf : (d.find f).2 with
  | replay r =>
    obtain ⟨-, h1, h2⟩ := route_replay (B := B) h hf
    exact .inl ⟨.inr h1, by rw [h2]; simp⟩
  | conflict =>
    obtain ⟨-, h1, h2⟩ := route_conflict (B := B) h hf
    exact .inl ⟨.inr h1, by rw [h2]; simp⟩
  | miss =>
    obtain ⟨h1, h2⟩ := route_miss (B := B) h hf
    exact .inr ⟨_, h, rfl, h2, h1⟩

theorem route_executed {r : Response} (h : (route B d f).2 = .executed r) :
    IsRequest f ∧ (d.find f).2 = .miss ∧ (route B d f).1.cache =
      (d.find f).1.store cacheCapacity f.request r f.env.arrivalMs := by
  rcases route_cache B d f with ⟨-, hne⟩ | ⟨r', hreq, hmiss, ho, hc⟩
  · exact absurd h (hne r)
  · rw [h] at ho
    injection ho with ho
    rw [ho]
    exact ⟨hreq, hmiss, hc⟩

end Serve

/-! ## Runs at instants -/

/-- The frame, received at instant `t`. -/
def RxFrame.arrivingAt (f : RxFrame) (t : ℕ) : RxFrame :=
  { f with env := { f.env with arrivalMs := UInt32.ofNat t } }

/-- A step at an instant, and the outcome of a frame. -/
def timedStep (B : Build) (d : Device) (i : ℕ × Op) : Device × Option Outcome :=
  match i.2 with
  | .frame f => ((route B d (f.arrivingAt i.1)).1, some (route B d (f.arrivingAt i.1)).2)
  | op => (step B d op, none)

/-- The request was executed. -/
def Outcome.isExecuted : Option Outcome → Bool
  | some (.executed _) => true
  | _ => false

/-- The steps come at non-decreasing instants. -/
def Ordered (inputs : List (ℕ × Op)) : Prop := inputs.Pairwise fun i j => i.1 ≤ j.1

instance (inputs : List (ℕ × Op)) : Decidable (Ordered inputs) :=
  inferInstanceAs (Decidable (List.Pairwise _ _))

/-- The cache of the device is well formed. -/
def CacheWf (d : Device) : Prop := Wf Request.tag cacheCapacity d.cache

theorem cacheWf_route {d : Device} (h : CacheWf d) (B : Build) (f : RxFrame) :
    CacheWf (route B d f).1 := by
  unfold CacheWf at *
  rcases route_cache B d f with ⟨hc | hc, -⟩ | ⟨r, -, hmiss, -, hc⟩
  · rw [hc]
    exact h
  · rw [hc]
    exact h.lookup _ _
  · rw [hc]
    exact h.store hmiss r

/-- Only frames use the cache. -/
theorem timedStep_cases (B : Build) (d : Device) (i : ℕ × Op) :
    (∃ f, i.2 = .frame f ∧ timedStep B d i =
        ((route B d (f.arrivingAt i.1)).1, some (route B d (f.arrivingAt i.1)).2)) ∨
      (timedStep B d i).1.cache = d.cache ∧ (timedStep B d i).2 = none := by
  obtain ⟨t, op⟩ := i
  cases op with
  | frame f => exact .inl ⟨f, rfl, rfl⟩
  | call op => exact .inr ⟨rfl, rfl⟩
  | restore suppress defaults clock => exact .inr ⟨rfl, rfl⟩
  | tryAutostart nowMs => exact .inr ⟨rfl, rfl⟩
  | cancelAutostart => exact .inr ⟨rfl, rfl⟩
  | process nowMs link => exact .inr ⟨rfl, rfl⟩

/-- **Invariant of the cache.** -/
theorem wf_run (B : Build) {d : Device} (h : CacheWf d) (inputs : List (ℕ × Op)) :
    CacheWf (Mealy.run (timedStep B) d inputs).1 := by
  have hstep : ∀ d i, CacheWf d → CacheWf (timedStep B d i).1 := by
    intro d i hd
    rcases timedStep_cases B d i with ⟨f, -, heq⟩ | ⟨hc, -⟩
    · rw [heq]
      exact cacheWf_route hd B _
    · unfold CacheWf
      rw [hc]
      exact hd
  exact Mealy.run_invariant hstep h inputs

/-! ## How long a response stays -/

section Held

variable {B : Build} {d : Device} {i : ℕ} {e : Entry Request Response} {k : ℕ}

/-- One step within the window of the entry. -/
theorem held_step (hw : CacheWf d) (h : Held cacheCapacity d.cache i e k) {t : ℕ}
    (he : e.time = UInt32.ofNat t) {input : ℕ × Op} (hle : t ≤ input.1)
    (hin : input.1 ≤ t + dedupWindow)
    (hk : k + (if Outcome.isExecuted (timedStep B d input).2 then 1 else 0) < cacheCapacity) :
    Held cacheCapacity (timedStep B d input).1.cache i e
      (k + if Outcome.isExecuted (timedStep B d input).2 then 1 else 0) := by
  rcases timedStep_cases B d input with ⟨f, -, heq⟩ | ⟨hc, hnone⟩
  swap
  · rw [hc, hnone]
    exact h
  have hfresh : ¬ (f.arrivingAt input.1).env.arrivalMs - e.time > dedupWindowMs := by
    rw [he]
    exact not_expired hle hin (by decide)
  rw [heq] at hk ⊢
  dsimp only at hk ⊢
  rcases route_cache B d (f.arrivingAt input.1) with ⟨hc, hne⟩ | ⟨r, -, -, ho, hc⟩
  · have hno : Outcome.isExecuted (some (route B d (f.arrivingAt input.1)).2) = false := by
      cases hout : (route B d (f.arrivingAt input.1)).2 with
      | executed r => exact absurd hout (hne r)
      | ignored | uncached r | replayed r | conflict r => rfl
    rw [hno]
    rcases hc with hc | hc
    · rw [hc]
      exact h
    · rw [hc]
      exact h.lookup _ hfresh
  · rw [ho] at hk ⊢
    rw [hc]
    exact (h.lookup _ hfresh).store (hw.within i e h.slot) hk _ _ _

/-- **How long a response stays.** -/
theorem held_run (hw : CacheWf d) (h : Held cacheCapacity d.cache i e k) {t : ℕ}
    (he : e.time = UInt32.ofNat t) (inputs : List (ℕ × Op))
    (hin : ∀ input ∈ inputs, t ≤ input.1 ∧ input.1 ≤ t + dedupWindow)
    (hk : k + (Mealy.run (timedStep B) d inputs).2.countP Outcome.isExecuted < cacheCapacity) :
    Held cacheCapacity (Mealy.run (timedStep B) d inputs).1.cache i e
      (k + (Mealy.run (timedStep B) d inputs).2.countP Outcome.isExecuted) := by
  induction inputs generalizing d k with
  | nil => exact h
  | cons input inputs ih =>
    obtain ⟨h1, h2⟩ := hin input (by simp)
    rw [Mealy.run_cons] at hk ⊢
    dsimp only at hk ⊢
    rw [List.countP_cons] at hk ⊢
    have hwf : CacheWf (timedStep B d input).1 := wf_run B hw [input]
    have hstep := held_step (B := B) hw h he h1 h2 (by omega)
    have hrest := ih hwf hstep (fun input' hi => hin input' (by simp [hi])) (by omega)
    rw [show ∀ a b : ℕ, k + (a + b) = k + b + a from fun a b => by omega]
    exact hrest

end Held

/-! ## Retries -/

/-- A retry at `t'` of a request that was executed at `t`. -/
theorem retry {B : Build} {d : Device} {i k t t' : ℕ} {f f' : RxFrame} {r : Response}
    (hw : CacheWf d)
    (h : Held cacheCapacity d.cache i ⟨f.request, r, UInt32.ofNat t⟩ k) (hle : t ≤ t')
    (hin : t' ≤ t + dedupWindow) (hreq : IsRequest f') (htag : f.request.tag = f'.request.tag) :
    let d' := (route B d (f'.arrivingAt t')).1
    let outcome := (route B d (f'.arrivingAt t')).2
    d'.node = d.node ∧ d'.cache.slot i = some ⟨f.request, r, UInt32.ofNat t⟩ ∧
      (f.request = f'.request → outcome = .replayed r) ∧
      (f.request ≠ f'.request → outcome =
        .conflict (buildResponse (f'.data 0) (f'.data 1) .duplicateConflict 0 0)) := by
  intro d' outcome
  have hreq' : IsRequest (f'.arrivingAt t') := ⟨hreq.endpoint, hreq.notResponse, hreq.length,
    hreq.sequence⟩
  have hfresh : ¬ (f'.arrivingAt t').env.arrivalMs - UInt32.ofNat t > dedupWindowMs :=
    not_expired hle hin (by decide)
  have hhit : (d.find (f'.arrivingAt t')).2 =
      if f.request = f'.request then .replay r else .conflict := hw.hit h hfresh htag
  have hkeep : (d.find (f'.arrivingAt t')).1.slot i = some ⟨f.request, r, UInt32.ofNat t⟩ :=
    (h.lookup (f'.arrivingAt t').request hfresh).slot
  by_cases heq : f.request = f'.request
  · rw [if_pos heq] at hhit
    obtain ⟨h1, h2, h3⟩ := route_replay (B := B) hreq' hhit
    refine ⟨h1, ?_, fun _ => h3, fun hne => absurd heq hne⟩
    show (route B d (f'.arrivingAt t')).1.cache.slot i = _
    rw [h2]
    exact hkeep
  · rw [if_neg heq] at hhit
    obtain ⟨h1, h2, h3⟩ := route_conflict (B := B) hreq' hhit
    refine ⟨h1, ?_, fun he => absurd he heq, fun _ => h3⟩
    show (route B d (f'.arrivingAt t')).1.cache.slot i = _
    rw [h2]
    exact hkeep

theorem cacheWf_powerUp (baudKbps : UInt32) (memory : Storage.Memory) :
    CacheWf (powerUp baudKbps memory) := Wf.empty (by decide)

/-- The same identifier, length and bytes. -/
structure SameFrame (f f' : RxFrame) : Prop where
  id : f'.id = f.id
  length : f'.length = f.length
  data : bytes f'.data 0 8 = bytes f.data 0 8

theorem data_of_bytes {f f' : RxFrame} (h : bytes f'.data 0 8 = bytes f.data 0 8) :
    f'.data 0 = f.data 0 ∧ f'.data 1 = f.data 1 := by
  have h0 := congrArg (fun l => l.getD 0 0) h
  have h1 := congrArg (fun l => l.getD 1 0) h
  exact ⟨h0, h1⟩

theorem SameFrame.isRequest {f f' : RxFrame} (h : SameFrame f f') (hf : IsRequest f) :
    IsRequest f' := by
  obtain ⟨h0, h1⟩ := data_of_bytes h.data
  refine ⟨?_, ?_, ?_, ?_⟩
  · rw [h.id]; exact hf.endpoint
  · rw [h0]; exact hf.notResponse
  · rw [h.length]; exact hf.length
  · rw [h1]; exact hf.sequence

/-- Requests come from one source. -/
theorem IsRequest.source {f : RxFrame} (h : IsRequest f) :
    (Header.parseId f.id).sourceAddress = 0xF9 := by
  have hend := h.endpoint
  unfold atEndpoint at hend
  exact (of_decide_eq_true hend).2.2.1

/-- The instants between the first and the last step. -/
theorem Ordered.between {first last : ℕ × Op} {between : List (ℕ × Op)}
    (h : Ordered (first :: between ++ [last])) :
    first.1 ≤ last.1 ∧ ∀ input ∈ between, first.1 ≤ input.1 ∧ input.1 ≤ last.1 := by
  obtain ⟨hfirst, hrest⟩ := List.pairwise_cons.mp h
  obtain ⟨-, -, hlast⟩ := List.pairwise_append.mp hrest
  refine ⟨hfirst last (by simp), fun input hi => ⟨hfirst input (by simp [hi]), ?_⟩⟩
  exact hlast input hi last (by simp)

/-- **At most once.** A request is executed at `t`. Then any steps follow at
    non-decreasing instants, fewer than sixteen executed requests among them. The
    same frame at `t'`, within the window, is not executed and gets the response
    again; another request with its sequence byte is refused, and the response
    stays in its slot. -/
theorem at_most_once (B : Build) (baudKbps : UInt32) (memory : Storage.Memory)
    (before between : List (ℕ × Op)) (t t' : ℕ) (f f' : RxFrame) (r : Response) :
    let d := (Mealy.run (timedStep B) (powerUp baudKbps memory) before).1
    let mid := Mealy.run (timedStep B) (route B d (f.arrivingAt t)).1 between
    let retried := route B mid.1 (f'.arrivingAt t')
    (route B d (f.arrivingAt t)).2 = .executed r →
      Ordered ((t, .frame f) :: between ++ [(t', .frame f')]) → t' ≤ t + dedupWindow →
      mid.2.countP Outcome.isExecuted < cacheCapacity →
        (SameFrame f f' → retried.1.node = mid.1.node ∧ retried.2 = .replayed r) ∧
        (IsRequest f' → f'.data 1 = f.data 1 → bytes f'.data 0 8 ≠ bytes f.data 0 8 →
          retried.1.node = mid.1.node ∧
          retried.2 = .conflict (buildResponse (f'.data 0) (f'.data 1) .duplicateConflict 0 0) ∧
          ∃ i, mid.1.cache.slot i = some ⟨f.request, r, UInt32.ofNat t⟩ ∧
            retried.1.cache.slot i = some ⟨f.request, r, UInt32.ofNat t⟩) := by
  intro d mid retried hexec hordered hwin hfew
  obtain ⟨hle, hbetween⟩ := hordered.between
  dsimp only at hle hbetween
  have hw : CacheWf d := wf_run B (cacheWf_powerUp baudKbps memory) before
  obtain ⟨⟨h1, h2, h3, h4⟩, -, hcache⟩ := route_executed hexec
  have hreq : IsRequest f := ⟨h1, h2, h3, h4⟩
  have hstart : Held cacheCapacity (route B d (f.arrivingAt t)).1.cache
      (d.find (f.arrivingAt t)).1.next ⟨f.request, r, UInt32.ofNat t⟩ 0 := by
    rw [hcache]
    exact Held.stored _ _ _ _
  have hmid := held_run (B := B) (cacheWf_route hw B _) hstart rfl between
    (fun input hi => ⟨(hbetween input hi).1, (hbetween input hi).2.trans hwin⟩)
    (by rw [Nat.zero_add]; exact hfew)
  have hwmid : CacheWf mid.1 := wf_run B (cacheWf_route hw B _) between
  have htag : IsRequest f' → f'.data 1 = f.data 1 → f.request.tag = f'.request.tag := by
    intro hreq' hseq
    rw [f.tag_request, f'.tag_request, hreq.source, hreq'.source, hseq]
  refine ⟨fun hsame => ?_, fun hreq' hseq hne => ?_⟩
  · have hreq' := hsame.isRequest hreq
    obtain ⟨hnode, -, hreplay, -⟩ := retry (B := B) hwmid hmid hle hwin hreq'
      (htag hreq' (data_of_bytes hsame.data).2)
    refine ⟨hnode, hreplay ?_⟩
    unfold RxFrame.request
    rw [hreq.source, hreq'.source, hsame.data]
  · obtain ⟨hnode, hslot, -, hconflict⟩ := retry (B := B) hwmid hmid hle hwin hreq'
      (htag hreq' hseq)
    refine ⟨hnode, hconflict fun heq => hne ?_, _, hmid.slot, hslot⟩
    exact (congrArg Prod.snd heq).symm

/-- START is refused, the board has no configuration; two seconds later it is
    refused from the cache. -/
theorem at_most_once_start :
    let f : RxFrame := ⟨0x18EF80F9, fun i => [0x03, 0x07].getD i 0, 8,
      ⟨0, 0, fun _ => 0, 0, .ok, ⟨0, 0, false, false, false⟩⟩⟩
    let d := (route build179 (powerUp 250 (Persistence.erased fun _ => 0)) (f.arrivingAt 5)).1
    (route build179 d (f.arrivingAt 2005)).1.node = d.node ∧
      (route build179 d (f.arrivingAt 2005)).2 = .replayed ⟨0x83, 7, .invalidState, 0, 0⟩ := by
  intro f d
  exact (at_most_once build179 250 (Persistence.erased fun _ => 0) [] [] 5 2005 f f
    ⟨0x83, 7, .invalidState, 0, 0⟩ (by decide +kernel) (by decide) (by decide) (by decide)).1
    ⟨rfl, rfl, rfl⟩

end J1939Gen.Control
