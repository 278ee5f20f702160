import Mathlib.Data.List.Sort
import Mathlib.Data.List.Perm.Basic
import Mathlib.Data.List.Nodup

/-!
# Segments, groups and dense keys

Lists whose elements occupy segments of a line, are collected by a key into
groups, or carry the keys `1..n`.

* `pairwise_of_neighbours`: a list whose neighbours do not overlap has no two
  overlapping elements.
* `flatMap_filter_perm`: groups collected by a key hold every element once.
* `map_key_of_dense`: sorted by keys `1..n`, the element with key `k` stands at
  place `k - 1`.
-/

namespace Segments

variable {α β : Type*}

/-- No overlap between neighbours means none at all. -/
theorem pairwise_of_neighbours (start stop : α → ℕ) {l : List α}
    (hle : ∀ a ∈ l, start a ≤ stop a)
    (h : ∀ p ∈ l.zip l.tail, stop p.1 ≤ start p.2) :
    l.Pairwise fun a b => stop a ≤ start b := by
  induction l with
  | nil => exact .nil
  | cons a l ih =>
    have htail : ∀ p ∈ l.zip l.tail, stop p.1 ≤ start p.2 := by
      intro p hp
      cases l with
      | nil => simp at hp
      | cons b l => exact h p (List.mem_cons_of_mem _ hp)
    have hl := ih (fun b hb => hle b (List.mem_cons_of_mem _ hb)) htail
    refine List.pairwise_cons.mpr ⟨?_, hl⟩
    cases l with
    | nil => simp
    | cons b l =>
      have hab : stop a ≤ start b := h (a, b) List.mem_cons_self
      intro c hc
      rcases List.mem_cons.mp hc with rfl | hc
      · exact hab
      · have hb := hle b (List.mem_cons_of_mem _ List.mem_cons_self)
        have hbc := List.rel_of_pairwise_cons hl hc
        exact hab.trans (hb.trans hbc)

/-- Groups over distinct keys hold every element whose key is listed, once. -/
theorem flatMap_filter_perm [DecidableEq β] (f : α → β) {keys : List β} (hnd : keys.Nodup) :
    ∀ {xs : List α}, (∀ x ∈ xs, f x ∈ keys) →
      (keys.flatMap fun k => xs.filter fun x => f x = k).Perm xs := by
  induction keys with
  | nil =>
    intro xs hxs
    cases xs with
    | nil => exact .nil
    | cons x xs => cases hxs x List.mem_cons_self
  | cons k keys ih =>
    intro xs hxs
    obtain ⟨hk, hnd⟩ := List.nodup_cons.mp hnd
    have hrest : (keys.flatMap fun k' => xs.filter fun x => f x = k') =
        keys.flatMap fun k' => (xs.filter fun x => !decide (f x = k)).filter fun x => f x = k' := by
      refine List.flatMap_congr fun k' hk' => ?_
      rw [List.filter_filter]
      refine List.filter_congr fun x _ => ?_
      by_cases hx : f x = k'
      · have hne : f x ≠ k := by
          rintro rfl
          exact hk (hx ▸ hk')
        simp [hx, hx ▸ hne]
      · simp [hx]
    rw [List.flatMap_cons, hrest]
    have hothers : ∀ x ∈ xs.filter fun x => !decide (f x = k), f x ∈ keys := by
      intro x hx
      obtain ⟨hmem, hne⟩ := List.mem_filter.mp hx
      have hne' : f x ≠ k := by simpa using hne
      exact (List.mem_cons.mp (hxs x hmem)).resolve_left hne'
    have hperm := ih hnd hothers
    exact (hperm.append_left _).trans (List.filter_append_perm _ _)

/-- A list sorted by keys that are `1..n` in some order holds key `k` at place `k - 1`. -/
theorem map_key_of_dense (key : α → ℕ) {l : List α} {n : ℕ}
    (hsorted : l.Pairwise fun a b => key a ≤ key b)
    (hkeys : (l.map key).Perm (List.range' 1 n)) : l.map key = List.range' 1 n := by
  have hmap : (l.map key).Pairwise (· ≤ ·) := List.pairwise_map.mpr hsorted
  have hlt : (List.range' 1 n).Pairwise (· < ·) := List.pairwise_lt_range'
  exact hkeys.eq_of_pairwise' hmap (hlt.imp Nat.le_of_lt)

end Segments
