import Mathlib

/-!
# Queues sorted by a key

A queue kept sorted by inserting each entry from the back, past the entries it
goes before.

* `insert_perm`: an insertion adds the entry and keeps the others.
* `insert_sorted`: an insertion keeps the queue sorted.
-/

namespace SortedQueue

variable {α κ : Type*}

/-- The queue with `a` inserted in front of its last entries that satisfy `before`. -/
def insert (before : α → Bool) (a : α) (queue : List α) : List α :=
  queue.rdropWhile before ++ a :: queue.rtakeWhile before

theorem insert_perm (before : α → Bool) (a : α) (queue : List α) :
    (insert before a queue).Perm (queue ++ [a]) := by
  refine List.perm_middle.trans ?_
  rw [List.rdropWhile_append_rtakeWhile]
  exact (List.perm_append_singleton a queue).symm

theorem length_insert (before : α → Bool) (a : α) (queue : List α) :
    (insert before a queue).length = queue.length + 1 := by
  rw [(insert_perm before a queue).length_eq, List.length_append, List.length_singleton]

/-- The queue is sorted by `key`. -/
def Sorted [LinearOrder κ] (key : α → κ) (queue : List α) : Prop :=
  queue.Pairwise fun x y => key x ≤ key y

section Sorted

variable [LinearOrder κ] {key : α → κ}

theorem Sorted.nil : Sorted key [] := List.Pairwise.nil

theorem Sorted.sublist {queue queue' : List α} (h : Sorted key queue) (hsub : queue'.Sublist queue) :
    Sorted key queue' :=
  List.Pairwise.sublist hsub h

/-- Where `before` compares the new key with the queued ones, the scan stops at the
place of the new entry. -/
theorem insert_sorted {before : α → Bool} {a : α} {queue : List α} (h : Sorted key queue)
    (hbefore : ∀ x ∈ queue, before x = true ↔ key a < key x) :
    Sorted key (insert before a queue) := by
  have hfront : (queue.rdropWhile before).Sublist queue := (List.rdropWhile_prefix _ _).sublist
  have hback : (queue.rtakeWhile before).Sublist queue := (List.rtakeWhile_suffix _ _).sublist
  have hafter : ∀ x ∈ queue.rtakeWhile before, key a ≤ key x := fun x hx =>
    ((hbefore x (hback.subset hx)).mp (List.mem_rtakeWhile_imp hx)).le
  -- the last entry in front is not passed, and the others precede it
  have hahead : ∀ x ∈ queue.rdropWhile before, key x ≤ key a := by
    intro x hx
    have hne : queue.rdropWhile before ≠ [] := List.ne_nil_of_mem hx
    have hlast := List.rdropWhile_last_not before queue hne
    have hmem := List.getLast_mem hne
    rw [hbefore _ (hfront.subset hmem), not_lt] at hlast
    have hx' : key x ≤ key ((queue.rdropWhile before).getLast hne) :=
      List.Pairwise.rel_getLast (h.sublist hfront) hx
    exact hx'.trans hlast
  refine List.pairwise_append.mpr ⟨h.sublist hfront, ?_, ?_⟩
  · exact List.pairwise_cons.mpr ⟨hafter, h.sublist hback⟩
  · intro x hx y hy
    rcases List.mem_cons.mp hy with rfl | hy
    · exact hahead x hx
    · exact (hahead x hx).trans (hafter y hy)

end Sorted

end SortedQueue
