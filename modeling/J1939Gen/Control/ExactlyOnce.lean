import J1939Gen.Control.Replay

/-!
# A client that retries

A client on a bus that loses frames sends a request again until it has seen the
response, and only then the next one, under another sequence byte. The device
executes each of its requests when it arrives for the first time and never again.

* `Client`, `clientStep`: the device such a client is meant to see, which has no
  cache and no queue.
* `StopAndWait`: what the client keeps to.
* `mirrors_step`: one step.
* `exactly_once`: the run.
-/

namespace J1939Gen.Control

open ByteMem ReplayCache Boot

/-! ## The device the client is meant to see -/

/-- The request that was executed last, its response, and the instant of it. -/
structure Latest where
  request : Request
  response : Response
  instant : ℕ

/-- The application, the last request, and all requests executed, the last first. -/
structure Client where
  node : Node
  latest : Option Latest
  requests : List Request

instance (f : RxFrame) : Decidable (IsRequest f) :=
  decidable_of_iff (atEndpoint (Header.parseId f.id) = true ∧ f.data 0 &&& responseMask = 0 ∧
      f.length = frameLength ∧ f.data 1 ≠ 0)
    ⟨fun h => ⟨h.1, h.2.1, h.2.2.1, h.2.2.2⟩,
      fun h => ⟨h.endpoint, h.notResponse, h.length, h.sequence⟩⟩

/-- Execute a request at an instant. -/
def Client.execute (B : Build) (c : Client) (t : ℕ) (f : RxFrame) : Client × Response :=
  let (node, response) := Control.execute B c.node f.data f.env
  ({ node := node
     latest := some ⟨f.request, response, t⟩
     requests := f.request :: c.requests }, response)

/-- Is the frame the last request once more? -/
def Client.retried (c : Client) (f : RxFrame) : Option Latest :=
  c.latest.filter fun l => l.request = f.request

/-- The device without a cache and a queue. -/
def bare (n : Node) : Device := ⟨n, Ring.empty, ⟨[], 0⟩⟩

/-- The last request gets its response again; any other request is executed. -/
def clientStep (B : Build) (c : Client) (i : ℕ × Op) : Client × Option Outcome :=
  match i.2 with
  | .frame f =>
    if IsRequest f then
      match c.retried f with
      | some l => (c, some (.replayed l.response))
      | none => ((c.execute B i.1 f).1, some (.executed (c.execute B i.1 f).2))
    else (c, some (route B (bare c.node) (f.arrivingAt i.1)).2)
  | op => ({ c with node := (step B (bare c.node) op).node }, none)

/-- A request is sent again for two seconds at most; the next one has a sequence
    byte that the last sixteen had not. -/
def Client.InTurn (c : Client) (t : ℕ) (f : RxFrame) : Prop :=
  match c.retried f with
  | some l => l.instant ≤ t ∧ t ≤ l.instant + dedupWindow
  | none => ∀ r ∈ c.requests.take cacheCapacity, r.tag ≠ f.request.tag

instance (c : Client) (t : ℕ) (f : RxFrame) : Decidable (c.InTurn t f) :=
  match h : c.retried f with
  | some l => decidable_of_iff (l.instant ≤ t ∧ t ≤ l.instant + dedupWindow)
      (by rw [Client.InTurn, h])
  | none => decidable_of_iff (∀ r ∈ c.requests.take cacheCapacity, r.tag ≠ f.request.tag)
      (by rw [Client.InTurn, h])

/-- The client keeps to it; the other frames on the bus need not. -/
def StopAndWait (c : Client) (i : ℕ × Op) : Prop :=
  match i.2 with
  | .frame f => IsRequest f → c.InTurn i.1 f
  | _ => True

instance (c : Client) : ∀ i : ℕ × Op, Decidable (StopAndWait c i)
  | (t, .frame f) => inferInstanceAs (Decidable (IsRequest f → c.InTurn t f))
  | (_, .call _) | (_, .restore ..) | (_, .tryAutostart _) | (_, .cancelAutostart)
  | (_, .process ..) => .isTrue trivial

/-! ## One step -/

/-- What is not a frame does not look at the cache. -/
theorem timedStep_of_not_frame (B : Build) (d : Device) (t : ℕ) {op : Op}
    (h : ∀ f, op ≠ .frame f) :
    (timedStep B d (t, op)).1.node = (step B (bare d.node) op).node ∧
      (timedStep B d (t, op)).1.cache = d.cache ∧ (timedStep B d (t, op)).2 = none := by
  cases op with
  | frame f => exact absurd rfl (h f)
  | _ => exact ⟨rfl, rfl, rfl⟩

theorem clientStep_of_not_frame (B : Build) (c : Client) (t : ℕ) {op : Op}
    (h : ∀ f, op ≠ .frame f) :
    clientStep B c (t, op) = ({ c with node := (step B (bare c.node) op).node }, none) := by
  cases op with
  | frame f => exact absurd rfl (h f)
  | _ => rfl

/-- Neither does a frame that is not a request, and it leaves the application alone. -/
theorem route_of_not_request_bare {B : Build} {d : Device} {f : RxFrame} (h : ¬ IsRequest f) :
    (route B d f).1.node = d.node ∧ (route B d f).1.cache = d.cache ∧
      (route B d f).2 = (route B (bare d.node) f).2 := by
  unfold route
  dsimp only
  by_cases hpgn : (Header.parseId f.id).pgn = pgnProprietaryAControl
  swap
  · rw [if_neg hpgn, if_neg hpgn]
    exact ⟨rfl, rfl, rfl⟩
  rw [if_pos hpgn, if_pos hpgn]
  unfold handleControlFrame
  by_cases h1 : atEndpoint (Header.parseId f.id) = false
  · rw [if_pos h1, if_pos h1]
    exact ⟨rfl, rfl, rfl⟩
  rw [if_neg h1, if_neg h1]
  by_cases h2 : f.length > 0 ∧ f.data 0 &&& responseMask ≠ 0
  · rw [if_pos h2, if_pos h2]
    exact ⟨rfl, rfl, rfl⟩
  rw [if_neg h2, if_neg h2]
  by_cases h3 : f.length < 2
  · rw [if_pos h3, if_pos h3]
    exact ⟨rfl, rfl, rfl⟩
  rw [if_neg h3, if_neg h3]
  by_cases h4 : f.length ≠ frameLength
  · rw [if_pos h4, if_pos h4]
    exact ⟨rfl, rfl, rfl⟩
  rw [if_neg h4, if_neg h4]
  by_cases h5 : f.data 1 = 0
  · rw [if_pos h5, if_pos h5]
    exact ⟨rfl, rfl, rfl⟩
  refine absurd ⟨by simpa using h1, ?_, not_not.mp h4, h5⟩ h
  by_contra hr
  exact h2 ⟨by rw [not_not.mp h4]; decide, hr⟩

theorem route_miss_node {B : Build} {d : Device} {f : RxFrame} (h : IsRequest f)
    (hf : (d.find f).2 = .miss) :
    (route B d f).1.node = (execute B d.node f.data f.env).1 := by
  rw [serve_of_request h]
  unfold Device.find RxFrame.request at hf
  unfold serve
  dsimp only
  rw [hf]
  rfl

/-- The device shows what the client is meant to see. -/
structure Mirrors (d : Device) (c : Client) : Prop where
  node : d.node = c.node
  wf : CacheWf d
  recent : Recent cacheCapacity d.cache c.requests
  latest : ∀ l, c.latest = some l →
    ∃ i, Held cacheCapacity d.cache i ⟨l.request, l.response, UInt32.ofNat l.instant⟩ 0

/-- Only the application and the cache count. -/
theorem Mirrors.of_cache {d d' : Device} {c : Client} (h : Mirrors d c) {n : Node}
    (hnode : d'.node = n) (hcache : d'.cache = d.cache) : Mirrors d' { c with node := n } where
  node := hnode
  wf := by
    unfold CacheWf
    rw [hcache]
    exact h.wf
  recent := by
    rw [hcache]
    exact h.recent
  latest := by
    rw [hcache]
    exact h.latest

section Step

variable {B : Build} {d : Device} {c : Client} {t : ℕ} {f : RxFrame}

theorem isRequest_arrivingAt (h : IsRequest f) (t : ℕ) : IsRequest (f.arrivingAt t) :=
  ⟨h.endpoint, h.notResponse, h.length, h.sequence⟩

/-- The last request once more. -/
theorem Mirrors.retried (h : Mirrors d c) (hreq : IsRequest f) {l : Latest}
    (hl : c.retried f = some l) (hle : l.instant ≤ t) (hin : t ≤ l.instant + dedupWindow) :
    Mirrors (route B d (f.arrivingAt t)).1 c ∧
      (route B d (f.arrivingAt t)).2 = .replayed l.response := by
  obtain ⟨hlast, hsame⟩ := Option.filter_eq_some_iff.mp hl
  have hsame : l.request = f.request := of_decide_eq_true hsame
  obtain ⟨i, hheld⟩ := h.latest l hlast
  have hreq' := isRequest_arrivingAt hreq t
  have hfresh : ¬ (f.arrivingAt t).env.arrivalMs - UInt32.ofNat l.instant > dedupWindowMs :=
    not_expired hle hin (by decide)
  have hhit : (d.find (f.arrivingAt t)).2 = .replay l.response := by
    have hkey : l.request = (f.arrivingAt t).request := hsame
    exact (h.wf.hit hheld hfresh (congrArg Request.tag hkey)).trans (if_pos hkey)
  obtain ⟨hnode, hcache, hout⟩ := route_replay (B := B) hreq' hhit
  refine ⟨⟨hnode.trans h.node, cacheWf_route h.wf B _, ?_, ?_⟩, hout⟩
  · rw [hcache]
    exact h.recent.lookup _ _
  · intro l' hl'
    obtain rfl : l = l' := Option.some.inj (hlast.symm.trans hl')
    rw [hcache]
    exact ⟨i, hheld.lookup _ hfresh⟩

/-- A request under a new sequence byte. -/
theorem Mirrors.executed (h : Mirrors d c) (hreq : IsRequest f)
    (hnew : ∀ r ∈ c.requests.take cacheCapacity, r.tag ≠ f.request.tag) :
    Mirrors (route B d (f.arrivingAt t)).1 (c.execute B t f).1 ∧
      (route B d (f.arrivingAt t)).2 = .executed (c.execute B t f).2 := by
  have hreq' := isRequest_arrivingAt hreq t
  have hmiss : (d.find (f.arrivingAt t)).2 = .miss := h.recent.miss hnew _
  obtain ⟨hcache, hout⟩ := route_miss (B := B) hreq' hmiss
  have hnode := route_miss_node (B := B) hreq' hmiss
  have hexecute : execute B d.node (f.arrivingAt t).data (f.arrivingAt t).env =
      execute B c.node f.data f.env := by
    rw [h.node]
    rfl
  rw [hexecute] at hcache hout hnode
  have hwf : Wf Request.tag cacheCapacity (d.find (f.arrivingAt t)).1 := h.wf.lookup _ _
  have hrecent : Recent cacheCapacity (d.find (f.arrivingAt t)).1 c.requests := h.recent.lookup _ _
  refine ⟨⟨hnode, cacheWf_route h.wf B _, ?_, ?_⟩, hout⟩
  · rw [hcache]
    exact hrecent.store hwf _ _ _
  · intro l hl
    obtain rfl := Option.some.inj hl
    rw [hcache]
    exact ⟨_, .stored _ _ _ _⟩

end Step

/-- **Step lemma.** -/
theorem mirrors_step (B : Build) {d : Device} {c : Client} {i : ℕ × Op} (h : Mirrors d c)
    (hi : StopAndWait c i) :
    Mirrors (timedStep B d i).1 (clientStep B c i).1 ∧
      (timedStep B d i).2 = (clientStep B c i).2 := by
  obtain ⟨t, op⟩ := i
  -- only a request looks at the cache, and only there the client's discipline counts
  by_cases hframe : ∃ f, op = .frame f
  · obtain ⟨f, rfl⟩ := hframe
    by_cases hreq : IsRequest f
    · have hclient : c.InTurn t f := hi hreq
      unfold Client.InTurn at hclient
      unfold timedStep clientStep
      dsimp only
      rw [if_pos hreq]
      cases hl : c.retried f with
      | some l =>
        rw [hl] at hclient
        obtain ⟨hmirrors, hout⟩ := h.retried (B := B) hreq hl hclient.1 hclient.2
        exact ⟨hmirrors, congrArg some hout⟩
      | none =>
        rw [hl] at hclient
        obtain ⟨hmirrors, hout⟩ := h.executed (B := B) (t := t) hreq hclient
        exact ⟨hmirrors, congrArg some hout⟩
    · have hreq' : ¬ IsRequest (f.arrivingAt t) := fun h' =>
        hreq ⟨h'.endpoint, h'.notResponse, h'.length, h'.sequence⟩
      obtain ⟨hnode, hcache, hout⟩ := route_of_not_request_bare (B := B) (d := d) hreq'
      unfold timedStep clientStep
      dsimp only
      rw [if_neg hreq, ← h.node]
      exact ⟨h.of_cache (hnode.trans h.node) hcache, congrArg some hout⟩
  · have hno : ∀ f, op ≠ .frame f := fun f hf => hframe ⟨f, hf⟩
    obtain ⟨hnode, hcache, hout⟩ := timedStep_of_not_frame B d t hno
    rw [clientStep_of_not_frame B c t hno, hout]
    rw [h.node] at hnode
    exact ⟨h.of_cache hnode hcache, rfl⟩

/-! ## Runs -/

/-- The device as the client finds it. -/
def Client.start (n : Node) : Client := ⟨n, none, []⟩

theorem mirrors_powerUp (baudKbps : UInt32) (memory : Storage.Memory) :
    Mirrors (powerUp baudKbps memory) (.start (powerUp baudKbps memory).node) where
  node := rfl
  wf := cacheWf_powerUp baudKbps memory
  recent := .empty
  latest _ hl := by cases hl

/-- **Exactly once.** However often the client has to send its requests, and
    whatever else happens to the device in between, the application ends where it
    would have ended had each request arrived once, and every copy of a request
    got the response of the one execution. -/
theorem exactly_once (B : Build) (baudKbps : UInt32) (memory : Storage.Memory)
    (inputs : List (ℕ × Op)) :
    let start := Client.start (powerUp baudKbps memory).node
    let device := Mealy.run (timedStep B) (powerUp baudKbps memory) inputs
    let client := Mealy.run (clientStep B) start inputs
    Mealy.Always StopAndWait (clientStep B) start inputs →
      device.1.node = client.1.node ∧ device.2 = client.2 := by
  intro start device client hclient
  have hstep : ∀ d c i, Mirrors d c → StopAndWait c i →
      Mirrors (timedStep B d i).1 (clientStep B c i).1 ∧
        (timedStep B d i).2 = (clientStep B c i).2 := fun d c i h hi => mirrors_step B h hi
  obtain ⟨hend, houts⟩ := Mealy.Always.simulation Eq hstep (mirrors_powerUp baudKbps memory) inputs
    hclient
  exact ⟨hend.node, List.forall₂_eq_eq_eq ▸ houts⟩

/-- START and STOP on a board without a configuration, each sent twice; the last
    copy comes with another frame on the bus before it. -/
theorem exactly_once_start_stop :
    let env : Env := ⟨0, 0, fun _ => 0, 0, .ok, ⟨0, 0, false, false, false⟩⟩
    let request (opcode sequence : UInt8) : Op :=
      .frame ⟨0x18EF80F9, fun i => [opcode, sequence].getD i 0, 8, env⟩
    let other : Op := .frame ⟨0x18FEF100, fun _ => 0xFF, 8, env⟩
    let inputs := [(5, request 0x03 7), (2005, request 0x03 7), (2010, request 0x02 8),
      (2020, other), (2100, request 0x02 8)]
    (Mealy.run (timedStep build179) (powerUp 250 (Persistence.erased fun _ => 0)) inputs).2 =
      [some (.executed ⟨0x83, 7, .invalidState, 0, 0⟩),
        some (.replayed ⟨0x83, 7, .invalidState, 0, 0⟩), some (.executed ⟨0x82, 8, .ok, 0, 0⟩),
        some .ignored, some (.replayed ⟨0x82, 8, .ok, 0, 0⟩)] := by
  intro env request other inputs
  exact (exactly_once build179 250 (Persistence.erased fun _ => 0) inputs
    (by decide +kernel)).2.trans (by decide +kernel)

end J1939Gen.Control
