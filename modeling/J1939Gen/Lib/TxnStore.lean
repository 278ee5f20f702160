import J1939Gen.Lib.Mealy

/-!
# Atomic transactional stores

The specification of a store whose contents change only when a transaction
commits. A transaction starts from given contents and collects writes into a
draft; one rejected write poisons it; a commit publishes the draft if the
transaction is clean and its draft complete.

* `committed_step`: the contents change at a successful commit only, and then
  become the fold of the accepted writes over the contents the transaction
  started from.
* `commit_outcome`: exactly when a commit succeeds.
* `run_transaction`: a transaction whose writes are all admitted.
-/

namespace TxnStore

variable {σ δ ω : Type*}

/-- What a kind of store is made of: contents `σ`, drafts `δ`, writes `ω`. -/
structure Kind (σ δ ω : Type*) where
  empty : σ
  start : σ → δ
  admits : δ → ω → Prop
  apply : δ → ω → δ
  complete : δ → Prop
  publish : δ → σ

/-- A transaction: where it started, the writes it accepted in order, and
    whether one was rejected. -/
structure Txn (σ ω : Type*) where
  base : σ
  accepted : List ω
  rejected : Prop

/-- The committed contents, the number of commits, the transaction if any. -/
structure State (σ ω : Type*) where
  committed : σ
  commits : ℕ
  txn : Option (Txn σ ω)

inductive Op (ω : Type*)
  | beginEmpty
  | beginCopy
  | write (w : ω)
  | commit
  | abort

/-- The draft of a transaction: its accepted writes folded over its base. -/
def Txn.draft (K : Kind σ δ ω) (t : Txn σ ω) : δ := t.accepted.foldl K.apply (K.start t.base)

/-- The next state, and whether the operation succeeds. -/
noncomputable def step (K : Kind σ δ ω) (s : State σ ω) (op : Op ω) : State σ ω × Prop :=
  open Classical in
  match op, s.txn with
  | .beginEmpty, none => ({ s with txn := some ⟨K.empty, [], False⟩ }, True)
  | .beginCopy, none => ({ s with txn := some ⟨s.committed, [], False⟩ }, True)
  | .beginEmpty, some _ | .beginCopy, some _ => (s, False)
  | .write _, none => (s, False)
  | .write w, some t =>
    if t.rejected then (s, False)
    else if K.admits (t.draft K) w then
      ({ s with txn := some { t with accepted := t.accepted ++ [w] } }, True)
    else ({ s with txn := some { t with rejected := True } }, False)
  | .commit, none => (s, False)
  | .commit, some t =>
    if ¬ t.rejected ∧ K.complete (t.draft K) then
      ({ committed := K.publish (t.draft K), commits := s.commits + 1, txn := none }, True)
    else ({ s with txn := none }, False)
  | .abort, _ => ({ s with txn := none }, True)

attribute [local simp] step

/-- The empty store. -/
def init (K : Kind σ δ ω) : State σ ω := ⟨K.empty, 0, none⟩

theorem Txn.draft_append (K : Kind σ δ ω) (t : Txn σ ω) (w : ω) :
    ({ t with accepted := t.accepted ++ [w] } : Txn σ ω).draft K = K.apply (t.draft K) w := by
  simp [Txn.draft]

section Transitions

variable (K : Kind σ δ ω) {s : State σ ω} {t : Txn σ ω}

theorem step_write_accepted (h : s.txn = some t) (hr : ¬ t.rejected) {w : ω}
    (ha : K.admits (t.draft K) w) :
    step K s (.write w) =
      ({ s with txn := some { t with accepted := t.accepted ++ [w] } }, True) := by
  simp only [step, h]
  rw [if_neg hr, if_pos ha]

theorem step_write_rejected (h : s.txn = some t) (hr : ¬ t.rejected) {w : ω}
    (ha : ¬ K.admits (t.draft K) w) :
    step K s (.write w) = ({ s with txn := some { t with rejected := True } }, False) := by
  simp only [step, h]
  rw [if_neg hr, if_neg ha]

theorem step_commit_ok (h : s.txn = some t) (hr : ¬ t.rejected) (hc : K.complete (t.draft K)) :
    step K s .commit = (⟨K.publish (t.draft K), s.commits + 1, none⟩, True) := by
  simp only [step, h]
  rw [if_pos ⟨hr, hc⟩]

theorem step_commit_failed (h : ∀ t, s.txn = some t → t.rejected ∨ ¬ K.complete (t.draft K)) :
    step K s .commit = ({ s with txn := none }, False) := by
  rcases hs : s.txn with _ | t
  · obtain ⟨c, n, txn⟩ := s
    obtain rfl : txn = none := hs
    rfl
  · simp only [step, hs]
    rw [if_neg fun h' => (h t hs).elim h'.1 fun hn => hn h'.2]

end Transitions

/-- An operation either leaves contents and commit count alone, or it is a
    successful commit that publishes the fold of the accepted writes. -/
theorem committed_step (K : Kind σ δ ω) (s : State σ ω) (op : Op ω) :
    ((step K s op).1.committed = s.committed ∧ (step K s op).1.commits = s.commits) ∨
      op = .commit ∧ (step K s op).2 ∧ ∃ t, s.txn = some t ∧ ¬ t.rejected ∧
        K.complete (t.draft K) ∧ (step K s op).1.committed = K.publish (t.draft K) ∧
        (step K s op).1.commits = s.commits + 1 := by
  cases op with
  | commit =>
    cases h : s.txn with
    | none => left; simp [step, h]
    | some t =>
      by_cases hc : ¬ t.rejected ∧ K.complete (t.draft K)
      · right; simp [step, h, hc]
      · left; simp [step, h, hc]
  | abort => left; simp [step]
  | write w =>
    left
    cases h : s.txn with
    | none => simp [step, h]
    | some t => simp only [step, h]; split_ifs <;> exact ⟨rfl, rfl⟩
  | beginEmpty => left; cases h : s.txn <;> simp [step, h]
  | beginCopy => left; cases h : s.txn <;> simp [step, h]

/-- A transaction starts from the empty contents or from the committed ones. -/
def Based (K : Kind σ δ ω) (s : State σ ω) : Prop :=
  ∀ t, s.txn = some t → t.base = K.empty ∨ t.base = s.committed

theorem based_init (K : Kind σ δ ω) : Based K (init K) := by
  intro t ht; cases ht

theorem based_step (K : Kind σ δ ω) (s : State σ ω) (op : Op ω) (h : Based K s) :
    Based K (step K s op).1 := by
  intro t ht
  cases op with
  | beginEmpty =>
    cases hs : s.txn with
    | none => simp only [step, hs, Option.some.injEq] at ht; exact .inl (by rw [← ht])
    | some u => simp only [step, hs] at ht ⊢; exact h t (by rw [hs, ht])
  | beginCopy =>
    cases hs : s.txn with
    | none =>
      simp only [step, hs, Option.some.injEq] at ht ⊢
      exact .inr (by rw [← ht])
    | some u => simp only [step, hs] at ht ⊢; exact h t (by rw [hs, ht])
  | write w =>
    cases hs : s.txn with
    | none => simp [step, hs] at ht
    | some u =>
      have hu := h u hs
      by_cases hr : u.rejected
      · simp only [step, hs, hr, if_true, Option.some.injEq] at ht ⊢
        rwa [← ht]
      · by_cases ha : K.admits (u.draft K) w
        · simp only [step, hs, hr, ha, if_false, if_true, Option.some.injEq] at ht ⊢
          rwa [← ht]
        · simp only [step, hs, hr, ha, if_false, Option.some.injEq] at ht ⊢
          rwa [← ht]
  | commit =>
    cases hs : s.txn with
    | none => simp [step, hs] at ht
    | some u =>
      by_cases hc : ¬ u.rejected ∧ K.complete (u.draft K)
      · simp [step, hs, hc] at ht
      · simp [step, hs, hc] at ht
  | abort => simp [step] at ht

/-- A commit of an open transaction succeeds exactly when no write was
    rejected and the draft is complete. -/
theorem commit_outcome (K : Kind σ δ ω) {s : State σ ω} {t : Txn σ ω} (h : s.txn = some t) :
    (step K s .commit).2 ↔ ¬ t.rejected ∧ K.complete (t.draft K) := by
  simp only [step, h]
  split_ifs with hc <;> simp [hc]

/-- An operation other than a successful commit keeps the contents. -/
theorem committed_of_failed (K : Kind σ δ ω) (s : State σ ω) (op : Op ω)
    (h : ¬ (op = .commit ∧ (step K s op).2)) :
    (step K s op).1.committed = s.committed ∧ (step K s op).1.commits = s.commits := by
  rcases committed_step K s op with h' | ⟨h1, h2, -⟩
  · exact h'
  · exact absurd ⟨h1, h2⟩ h

/-! ## A whole transaction -/

/-- Every write is admitted when its turn comes. -/
def Admissible (K : Kind σ δ ω) : δ → List ω → Prop
  | _, [] => True
  | d, w :: ws => K.admits d w ∧ Admissible K (K.apply d w) ws

theorem run_writes (K : Kind σ δ ω) {s : State σ ω} {t : Txn σ ω} (h : s.txn = some t)
    (hr : ¬ t.rejected) {ws : List ω} (ha : Admissible K (t.draft K) ws) :
    Mealy.run (step K) s (ws.map Op.write) =
      ({ s with txn := some { t with accepted := t.accepted ++ ws } },
        List.replicate ws.length True) := by
  induction ws generalizing s t with
  | nil =>
    rw [List.append_nil, List.map_nil, Mealy.run_nil, ← h]
    rfl
  | cons w ws ih =>
    obtain ⟨hw, hws⟩ := ha
    rw [List.map_cons, Mealy.run_cons, step_write_accepted K h hr hw]
    rw [← Txn.draft_append] at hws
    rw [ih (t := { t with accepted := t.accepted ++ [w] }) rfl hr hws, List.append_assoc]
    rfl

/-- A transaction on the empty contents whose writes are all admitted publishes
    their fold, and every call of it succeeds. -/
theorem run_transaction (K : Kind σ δ ω) {s : State σ ω} (h : s.txn = none) {ws : List ω}
    (ha : Admissible K (K.start K.empty) ws)
    (hc : K.complete (ws.foldl K.apply (K.start K.empty))) :
    Mealy.run (step K) s (.beginEmpty :: (ws.map Op.write ++ [.commit])) =
      (⟨K.publish (ws.foldl K.apply (K.start K.empty)), s.commits + 1, none⟩,
        True :: (List.replicate ws.length True ++ [True])) := by
  have hbegin : step K s .beginEmpty = ({ s with txn := some ⟨K.empty, [], False⟩ }, True) := by
    simp only [step, h]
  have hwrites := run_writes K (s := { s with txn := some ⟨K.empty, [], False⟩ }) rfl not_false ha
  rw [List.nil_append] at hwrites
  have hcommit := step_commit_ok K
    (s := { s with txn := some ⟨K.empty, ws, False⟩ }) rfl not_false hc
  rw [Mealy.run_cons, hbegin]
  dsimp only
  rw [Mealy.run_append, hwrites]
  dsimp only
  rw [Mealy.run_cons, hcommit]
  rfl

end TxnStore
