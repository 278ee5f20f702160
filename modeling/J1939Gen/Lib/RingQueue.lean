import Mathlib

/-!
# Queues in a ring of slots

A queue kept in `cap` slots as the index of its front and the number of its
entries. `contents` lists the entries front first.

* `contents_push`: writing the slot after the last one appends an entry.
* `contents_pop`: advancing the front removes the first entry.
-/

namespace RingQueue

variable {α : Type*}

/-- The entries of the queue, front first. -/
def contents (slots : ℕ → α) (cap head count : ℕ) : List α :=
  (List.range count).map fun i => slots ((head + i) % cap)

@[simp] theorem length_contents (slots : ℕ → α) (cap head count : ℕ) :
    (contents slots cap head count).length = count := by
  simp [contents]

@[simp] theorem contents_zero (slots : ℕ → α) (cap head : ℕ) : contents slots cap head 0 = [] := rfl

theorem contents_push (slots : ℕ → α) {cap head count : ℕ} (h : count < cap) (a : α) :
    contents (Function.update slots ((head + count) % cap) a) cap head (count + 1) =
      contents slots cap head count ++ [a] := by
  unfold contents
  rw [List.range_succ, List.map_append, List.map_singleton, Function.update_self]
  congr 1
  apply List.map_congr_left
  intro i hi
  rw [List.mem_range] at hi
  apply Function.update_of_ne
  -- Fewer than `cap` slots apart, so not the same slot.
  intro heq
  have hmod : head + i ≡ head + count [MOD cap] := heq
  have := Nat.ModEq.eq_of_lt_of_lt (Nat.ModEq.add_left_cancel' head hmod) (by omega) h
  omega

theorem contents_pop (slots : ℕ → α) (cap head count : ℕ) :
    contents slots cap head (count + 1) =
      slots (head % cap) :: contents slots cap ((head + 1) % cap) count := by
  unfold contents
  rw [List.range_succ_eq_map, List.map_cons, List.map_map, Nat.add_zero]
  congr 1
  apply List.map_congr_left
  intro i _
  show slots ((head + (i + 1)) % cap) = slots (((head + 1) % cap + i) % cap)
  rw [Nat.mod_add_mod]
  congr 2
  omega

end RingQueue
