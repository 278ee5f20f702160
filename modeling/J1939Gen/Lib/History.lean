import Mathlib

/-!
# Logs in which every entry is justified by its past

A log grows at its end. An entry may need a justification, which only speaks
of the entries before it, so it stays valid however the log grows.

* `every_concat`: a log grows by a justified entry.
* `every_append`: and by any number of entries that need no justification.
-/

namespace History

variable {α : Type*}

/-- Every entry of the log satisfies `P` of the entries before it. -/
def Every (P : List α → α → Prop) (log : List α) : Prop :=
  ∀ before a after, log = before ++ a :: after → P before a

variable {P : List α → α → Prop}

theorem every_nil : Every P [] := by
  intro before a after h
  simp at h

theorem every_concat {log : List α} {a : α} (h : Every P log) (ha : P log a) :
    Every P (log ++ [a]) := by
  intro before b after heq
  rcases List.eq_nil_or_concat after with rfl | ⟨after, c, rfl⟩
  · obtain ⟨hlog, hab⟩ := List.append_inj' heq rfl
    obtain ⟨rfl⟩ := List.singleton_inj.mp hab
    rw [← hlog]
    exact ha
  · rw [List.concat_eq_append, ← List.cons_append, ← List.append_assoc] at heq
    exact h before b after (List.append_inj' heq rfl).1

/-- Entries that are justified by any past may be added together. -/
theorem every_append {log entries : List α} (h : Every P log)
    (hfree : ∀ a ∈ entries, ∀ before, P before a) : Every P (log ++ entries) := by
  induction entries generalizing log with
  | nil =>
    rw [List.append_nil]
    exact h
  | cons a entries ih =>
    rw [List.append_cons]
    apply ih
    · exact every_concat h (hfree a (by simp) log)
    · intro b hb
      exact hfree b (List.mem_cons_of_mem a hb)

end History
