import Mathlib

/-!
# A ledger of numbered arrivals

Arrivals are numbered from zero. Each is settled on arrival, or waits and is
settled when it reaches the front of the waiting line. `Sound` is what a
first-in first-out line keeps, whatever is settled when:

* `perm`: every arrival is settled once or waiting;
* `order`: the delivered ones are delivered in the order of arrival;
* `merges`: what is merged into an earlier arrival is merged while that one
  waits.
-/

namespace Ledger

/-- What became of an arrival; `ρ` is why one is dropped. -/
inductive Fate (ρ : Type)
  | delivered
  | merged (into : ℕ)
  | dropped (why : ρ)
deriving DecidableEq, Repr

end Ledger

open Ledger in
/-- The number of arrivals, those that wait, and the settled ones, oldest
settlement first. -/
structure Ledger (ρ : Type) where
  arrivals : ℕ
  waiting : List ℕ
  settled : List (ℕ × Fate ρ)
deriving DecidableEq, Repr

namespace Ledger

variable {ρ : Type}

def empty : Ledger ρ := ⟨0, [], []⟩

/-- An arrival that is settled at once. -/
def settle (l : Ledger ρ) (fate : Fate ρ) : Ledger ρ :=
  ⟨l.arrivals + 1, l.waiting, l.settled ++ [(l.arrivals, fate)]⟩

/-- An arrival that waits. -/
def wait (l : Ledger ρ) : Ledger ρ := ⟨l.arrivals + 1, l.waiting ++ [l.arrivals], l.settled⟩

/-- Settle the front of the line. -/
def front (l : Ledger ρ) (fate : Fate ρ) : Ledger ρ :=
  match l.waiting with
  | [] => l
  | n :: rest => ⟨l.arrivals, rest, l.settled ++ [(n, fate)]⟩

def Fate.isDelivered : Fate ρ → Bool
  | .delivered => true
  | _ => false

def Fate.isDropped : Fate ρ → Bool
  | .dropped _ => true
  | _ => false

/-- The delivered arrivals, in the order of their delivery. -/
def delivered (l : Ledger ρ) : List ℕ := (l.settled.filter fun s => s.2.isDelivered).map Prod.fst

/-- The number of dropped arrivals. -/
def dropped (l : Ledger ρ) : ℕ := l.settled.countP fun s => s.2.isDropped

/-- A first-in first-out ledger. -/
structure Sound (l : Ledger ρ) : Prop where
  perm : (l.settled.map Prod.fst ++ l.waiting).Perm (List.range l.arrivals)
  sorted : l.waiting.Pairwise (· < ·)
  order : l.delivered.Pairwise (· < ·)
  ahead : ∀ d ∈ l.delivered, ∀ n ∈ l.waiting, d < n
  merges : l.settled.Pairwise fun a b => ∀ into, b.2 = .merged into → a.1 ≠ into
  earlier : ∀ s ∈ l.settled, ∀ into, s.2 = .merged into → into < s.1

theorem Sound.empty : Sound (empty : Ledger ρ) where
  perm := .refl _
  sorted := .nil
  order := .nil
  ahead := by simp [Ledger.empty]
  merges := .nil
  earlier := by simp [Ledger.empty]

theorem Sound.settled_lt {l : Ledger ρ} (h : l.Sound) {s : ℕ × Fate ρ} (hs : s ∈ l.settled) :
    s.1 < l.arrivals := by
  have hmem : s.1 ∈ l.settled.map Prod.fst ++ l.waiting :=
    List.mem_append_left _ (List.mem_map_of_mem hs)
  exact List.mem_range.mp (h.perm.mem_iff.mp hmem)

theorem Sound.waiting_lt {l : Ledger ρ} (h : l.Sound) {n : ℕ} (hn : n ∈ l.waiting) :
    n < l.arrivals :=
  List.mem_range.mp (h.perm.mem_iff.mp (List.mem_append_right _ hn))

/-- What waits is not settled. -/
theorem Sound.not_settled {l : Ledger ρ} (h : l.Sound) {s : ℕ × Fate ρ} (hs : s ∈ l.settled)
    {n : ℕ} (hn : n ∈ l.waiting) : s.1 ≠ n := by
  have hnodup : (l.settled.map Prod.fst ++ l.waiting).Nodup :=
    h.perm.nodup_iff.mpr List.nodup_range
  exact (List.nodup_append.mp hnodup).2.2 _ (List.mem_map_of_mem hs) _ hn

theorem delivered_append (l : Ledger ρ) (n : ℕ) (fate : Fate ρ) :
    ((l.settled ++ [(n, fate)]).filter fun s => s.2.isDelivered).map Prod.fst =
      l.delivered ++ if fate.isDelivered then [n] else [] := by
  rw [List.filter_append, List.map_append, delivered]
  cases fate <;> rfl

theorem mem_delivered {l : Ledger ρ} {n : ℕ} (h : n ∈ l.delivered) :
    ∃ s ∈ l.settled, s.1 = n := by
  rw [delivered, List.mem_map] at h
  obtain ⟨s, hs, rfl⟩ := h
  exact ⟨s, (List.mem_filter.mp hs).1, rfl⟩

/-- An arrival settled at once: it may be delivered only when nobody waits, and
merged only into one that waits. -/
theorem Sound.settle {l : Ledger ρ} (h : l.Sound) {fate : Fate ρ}
    (hd : fate.isDelivered = true → l.waiting = [])
    (hm : ∀ into, fate = .merged into → into ∈ l.waiting) : (l.settle fate).Sound where
  perm := by
    show ((l.settled ++ [(l.arrivals, fate)]).map Prod.fst ++ l.waiting).Perm _
    rw [List.map_append, List.map_singleton, List.append_assoc, Ledger.settle, List.range_succ]
    refine (List.Perm.append_left _ List.perm_append_comm).trans ?_
    rw [← List.append_assoc]
    exact h.perm.append_right _
  sorted := h.sorted
  order := by
    show ((l.settled ++ [(l.arrivals, fate)]).filter _ |>.map Prod.fst).Pairwise _
    rw [delivered_append, List.pairwise_append]
    refine ⟨h.order, ?_, ?_⟩
    · split_ifs <;> simp
    · intro d hdel n hn
      obtain ⟨s, hs, rfl⟩ := mem_delivered hdel
      have hn' : n = l.arrivals := by
        split_ifs at hn
        · simpa using hn
        · simp at hn
      rw [hn']
      exact h.settled_lt hs
  ahead := by
    intro d hdel n hn
    have hdel' : d ∈ l.delivered ++ if fate.isDelivered then [l.arrivals] else [] := by
      rwa [← delivered_append]
    rcases List.mem_append.mp hdel' with hd' | hd'
    · exact h.ahead d hd' n hn
    · by_cases hfate : fate.isDelivered = true
      · have hnil : l.waiting = [] := hd hfate
        have hn' : n ∈ l.waiting := hn
        rw [hnil] at hn'
        cases hn'
      · rw [if_neg hfate] at hd'
        cases hd'
  merges := by
    show (l.settled ++ [(l.arrivals, fate)]).Pairwise _
    rw [List.pairwise_append]
    refine ⟨h.merges, by simp, ?_⟩
    intro a ha b hb into hb'
    rw [List.mem_singleton.mp hb] at hb'
    exact h.not_settled ha (hm into hb')
  earlier := by
    intro s hs into hs'
    rcases List.mem_append.mp hs with hs | hs
    · exact h.earlier s hs into hs'
    · rw [List.mem_singleton.mp hs] at hs' ⊢
      exact h.waiting_lt (hm into hs')

/-- An arrival that waits goes to the end of the line. -/
theorem Sound.wait {l : Ledger ρ} (h : l.Sound) : l.wait.Sound where
  perm := by
    show (l.settled.map Prod.fst ++ (l.waiting ++ [l.arrivals])).Perm _
    rw [← List.append_assoc, Ledger.wait, List.range_succ]
    exact h.perm.append_right _
  sorted := by
    show (l.waiting ++ [l.arrivals]).Pairwise _
    rw [List.pairwise_append]
    refine ⟨h.sorted, by simp, fun n hn m hm => ?_⟩
    rw [List.mem_singleton.mp hm]
    exact h.waiting_lt hn
  order := h.order
  ahead := by
    intro d hd n hn
    rcases List.mem_append.mp hn with hn | hn
    · exact h.ahead d hd n hn
    · rw [List.mem_singleton.mp hn]
      obtain ⟨s, hs, rfl⟩ := mem_delivered hd
      exact h.settled_lt hs
  merges := h.merges
  earlier := h.earlier

/-- The front of the line is delivered or dropped. -/
theorem Sound.front {l : Ledger ρ} (h : l.Sound) {fate : Fate ρ}
    (hm : ∀ into, fate ≠ .merged into) : (l.front fate).Sound := by
  unfold Ledger.front
  cases hw : l.waiting with
  | nil => exact h
  | cons n rest =>
    have hn : n ∈ l.waiting := by simp [hw]
    have hrest : ∀ m ∈ rest, n < m := by
      have := h.sorted
      rw [hw, List.pairwise_cons] at this
      exact this.1
    refine ⟨?_, ?_, ?_, ?_, ?_, ?_⟩
    · have hperm := h.perm
      rw [hw] at hperm
      simpa using hperm
    · have := h.sorted
      rw [hw, List.pairwise_cons] at this
      exact this.2
    · show ((l.settled ++ [(n, fate)]).filter _ |>.map Prod.fst).Pairwise _
      rw [delivered_append, List.pairwise_append]
      refine ⟨h.order, by split_ifs <;> simp, fun d hd m hm' => ?_⟩
      have hm'' : m = n := by
        split_ifs at hm'
        · simpa using hm'
        · simp at hm'
      rw [hm'']
      exact h.ahead d hd n hn
    · intro d hd m hm'
      have hd' : d ∈ l.delivered ++ if fate.isDelivered then [n] else [] := by
        rwa [← delivered_append]
      rcases List.mem_append.mp hd' with hd'' | hd''
      · exact h.ahead d hd'' m (by rw [hw]; exact List.mem_cons_of_mem _ hm')
      · have hdn : d = n := by
          split_ifs at hd''
          · simpa using hd''
          · simp at hd''
        rw [hdn]
        exact hrest m hm'
    · show (l.settled ++ [(n, fate)]).Pairwise _
      rw [List.pairwise_append]
      refine ⟨h.merges, by simp, ?_⟩
      intro a _ b hb into hb'
      rw [List.mem_singleton.mp hb] at hb'
      exact absurd hb' (hm into)
    · intro s hs into hs'
      rcases List.mem_append.mp hs with hs | hs
      · exact h.earlier s hs into hs'
      · rw [List.mem_singleton.mp hs] at hs'
        exact absurd hs' (hm into)

end Ledger
