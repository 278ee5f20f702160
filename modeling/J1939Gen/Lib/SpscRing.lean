import J1939Gen.Lib.RingQueue

/-!
# Rings with one producer and one consumer

A producer writes slot `head` and then advances `head`; a consumer reads slot
`tail` and then advances `tail`. Both indices stay below the number of slots,
and one slot stays free, so that equal indices mean an empty ring.

* `entries_write`: the slot the producer writes is not an entry yet.
* `entries_publish`: advancing `head` appends what that slot holds.
* `entries_take`: advancing `tail` removes the first entry.
* `next_eq_tail_iff`: the ring is full when all slots but one are entries.
-/

namespace SpscRing

open RingQueue

variable {α : Type*}

/-- The index after `i`. -/
def next (cap i : ℕ) : ℕ := (i + 1) % cap

/-- The number of entries. -/
def used (cap head tail : ℕ) : ℕ := (head + cap - tail) % cap

/-- The entries, oldest first. -/
def entries (slots : ℕ → α) (cap head tail : ℕ) : List α :=
  contents slots cap tail (used cap head tail)

variable {cap head tail : ℕ}

theorem next_lt (hcap : 0 < cap) (i : ℕ) : next cap i < cap := Nat.mod_lt _ hcap

theorem used_lt (hcap : 0 < cap) (head tail : ℕ) : used cap head tail < cap := Nat.mod_lt _ hcap

/-- The two indices are in one of two orders. -/
theorem used_cases (hh : head < cap) (ht : tail < cap) :
    (tail ≤ head ∧ used cap head tail = head - tail) ∨
      (head < tail ∧ used cap head tail = head + cap - tail) := by
  unfold used
  rcases Nat.lt_or_ge head tail with h | h
  · exact .inr ⟨h, Nat.mod_eq_of_lt (by omega)⟩
  · refine .inl ⟨h, ?_⟩
    have hsplit : head + cap - tail = (head - tail) + cap := by omega
    rw [hsplit, Nat.add_mod_right, Nat.mod_eq_of_lt (by omega)]

theorem next_cases (hh : head < cap) :
    (head + 1 < cap ∧ next cap head = head + 1) ∨ (head + 1 = cap ∧ next cap head = 0) := by
  unfold next
  rcases Nat.lt_or_ge (head + 1) cap with h | h
  · exact .inl ⟨h, Nat.mod_eq_of_lt h⟩
  · have heq : head + 1 = cap := by omega
    exact .inr ⟨heq, by rw [heq, Nat.mod_self]⟩

theorem next_inj {i j : ℕ} (hi : i < cap) (hj : j < cap) (h : next cap i = next cap j) : i = j := by
  rcases next_cases hi with ⟨h1, hnext⟩ | ⟨h1, hnext⟩ <;>
    rcases next_cases hj with ⟨h2, hnext'⟩ | ⟨h2, hnext'⟩ <;> omega

theorem used_eq_zero_iff (hh : head < cap) (ht : tail < cap) :
    used cap head tail = 0 ↔ tail = head := by
  rcases used_cases hh ht with ⟨h, hused⟩ | ⟨h, hused⟩ <;> omega

/-- The ring is full. -/
theorem next_eq_tail_iff (hh : head < cap) (ht : tail < cap) :
    next cap head = tail ↔ used cap head tail = cap - 1 := by
  rcases used_cases hh ht with ⟨h, hused⟩ | ⟨h, hused⟩ <;>
    rcases next_cases hh with ⟨h', hnext⟩ | ⟨h', hnext⟩ <;> omega

theorem used_publish (hh : head < cap) (ht : tail < cap) (hroom : next cap head ≠ tail) :
    used cap (next cap head) tail = used cap head tail + 1 := by
  have hn : next cap head < cap := next_lt (by omega) head
  rcases used_cases hh ht with ⟨h, hused⟩ | ⟨h, hused⟩ <;>
    rcases next_cases hh with ⟨h', hnext⟩ | ⟨h', hnext⟩ <;>
    rcases used_cases hn ht with ⟨h'', hused'⟩ | ⟨h'', hused'⟩ <;> omega

theorem used_take (hh : head < cap) (ht : tail < cap) (hne : tail ≠ head) :
    used cap head (next cap tail) + 1 = used cap head tail := by
  have hn : next cap tail < cap := next_lt (by omega) tail
  rcases used_cases hh ht with ⟨h, hused⟩ | ⟨h, hused⟩ <;>
    rcases next_cases ht with ⟨h', hnext⟩ | ⟨h', hnext⟩ <;>
    rcases used_cases hh hn with ⟨h'', hused'⟩ | ⟨h'', hused'⟩ <;> omega

/-- The slot after the last entry is slot `head`. -/
theorem tail_add_used (hh : head < cap) (ht : tail < cap) :
    (tail + used cap head tail) % cap = head := by
  rcases used_cases hh ht with ⟨h, hused⟩ | ⟨h, hused⟩
  · rw [hused, Nat.add_sub_cancel' h, Nat.mod_eq_of_lt hh]
  · have hsum : tail + (head + cap - tail) = head + cap := by omega
    rw [hused, hsum, Nat.add_mod_right, Nat.mod_eq_of_lt hh]

@[simp] theorem length_entries (slots : ℕ → α) (cap head tail : ℕ) :
    (entries slots cap head tail).length = used cap head tail := length_contents _ _ _ _

theorem entries_eq_nil_iff (slots : ℕ → α) (hh : head < cap) (ht : tail < cap) :
    entries slots cap head tail = [] ↔ tail = head := by
  rw [← List.length_eq_zero_iff, length_entries, used_eq_zero_iff hh ht]

/-- Writing the free slot changes no entry. -/
theorem entries_write (slots : ℕ → α) (hh : head < cap) (ht : tail < cap) (a : α) :
    entries (Function.update slots head a) cap head tail = entries slots cap head tail := by
  have hlt : used cap head tail < cap := used_lt (by omega) _ _
  have hpush := @contents_push _ slots _ tail _ hlt a
  rw [tail_add_used hh ht] at hpush
  -- The entries are the pushed ring without its last entry.
  unfold entries
  have htake := congrArg (List.take (used cap head tail)) hpush
  rw [List.take_left' (length_contents _ _ _ _)] at htake
  rw [← htake]
  unfold contents
  rw [← List.map_take, List.take_range, min_eq_left (Nat.le_succ _)]

/-- Advancing `head` appends the slot it pointed to. -/
theorem entries_publish (slots : ℕ → α) (hh : head < cap) (ht : tail < cap)
    (hroom : next cap head ≠ tail) :
    entries slots cap (next cap head) tail = entries slots cap head tail ++ [slots head] := by
  have hlt : used cap head tail < cap := used_lt (by omega) _ _
  have hpush := @contents_push _ slots _ tail _ hlt (slots head)
  rw [tail_add_used hh ht, Function.update_eq_self] at hpush
  unfold entries
  rw [used_publish hh ht hroom, hpush]

/-- Advancing `tail` removes the entry it pointed to. -/
theorem entries_take (slots : ℕ → α) (hh : head < cap) (ht : tail < cap) (hne : tail ≠ head) :
    entries slots cap head tail = slots tail :: entries slots cap head (next cap tail) := by
  unfold entries
  rw [← used_take hh ht hne, contents_pop, Nat.mod_eq_of_lt ht]
  rfl

end SpscRing
