import Mathlib.InformationTheory.Coding.UniquelyDecodable

/-!
# Self-delimiting encodings

An encoding none of whose words is a prefix of the word of another value. The
words of a list, written one after the other, then determine the list.

* `SelfDelimiting.uniquelyDecodable`: the words form a uniquely decodable code.
* `SelfDelimiting.flatMap_inj`: encoding a list is injective.
-/

namespace PrefixCode

open InformationTheory

variable {α β : Type*}

/-- On the values that satisfy `p`, no word of `f` is empty and none is a prefix
    of the word of another value. -/
structure SelfDelimiting (p : β → Prop) (f : β → List α) : Prop where
  nonempty : ∀ a, p a → f a ≠ []
  ofPrefix : ∀ a b, p a → p b → f a <+: f b → a = b

variable {p : β → Prop} {f : β → List α}

/-- Of two words that begin one list, one is a prefix of the other. -/
theorem SelfDelimiting.head_eq (h : SelfDelimiting p f) {a b : β} (ha : p a) (hb : p b)
    {t t' : List α} (heq : f a ++ t = f b ++ t') : a = b := by
  have hfa : f a <+: f a ++ t := List.prefix_append (f a) t
  have hfb : f b <+: f a ++ t := heq ▸ List.prefix_append (f b) t'
  rcases List.prefix_or_prefix_of_prefix hfa hfb with hp | hp
  · exact h.ofPrefix a b ha hb hp
  · exact (h.ofPrefix b a hb ha hp).symm

/-- The words of a self-delimiting encoding are a uniquely decodable code. -/
theorem SelfDelimiting.uniquelyDecodable (h : SelfDelimiting p f) :
    UniquelyDecodable (f '' {a | p a}) := by
  intro L
  induction L with
  | nil =>
    intro L' _ hL' heq
    cases L' with
    | nil => rfl
    | cons w L' =>
      obtain ⟨a, ha, rfl⟩ := hL' w (by simp)
      rw [List.flatten_nil, List.flatten_cons, List.nil_eq_append_iff] at heq
      exact absurd heq.1 (h.nonempty a ha)
  | cons w L ih =>
    intro L' hL hL' heq
    obtain ⟨a, ha, rfl⟩ := hL w (by simp)
    cases L' with
    | nil =>
      rw [List.flatten_nil, List.flatten_cons, List.append_eq_nil_iff] at heq
      exact absurd heq.1 (h.nonempty a ha)
    | cons w' L' =>
      obtain ⟨b, hb, rfl⟩ := hL' w' (by simp)
      rw [List.flatten_cons, List.flatten_cons] at heq
      obtain rfl := h.head_eq ha hb heq
      rw [ih L' (fun v hv => hL v (by simp [hv])) (fun v hv => hL' v (by simp [hv]))
        (List.append_cancel_left heq)]

/-- Encoding a list letter by letter is injective. -/
theorem SelfDelimiting.flatMap_inj (h : SelfDelimiting p f) {l l' : List β} (hl : ∀ a ∈ l, p a)
    (hl' : ∀ a ∈ l', p a) (heq : l.flatMap f = l'.flatMap f) : l = l' := by
  have hwords : l.map f = l'.map f := by
    apply h.uniquelyDecodable
    · simp only [List.mem_map, forall_exists_index, and_imp]
      rintro _ a ha rfl
      exact ⟨a, hl a ha, rfl⟩
    · simp only [List.mem_map, forall_exists_index, and_imp]
      rintro _ a ha rfl
      exact ⟨a, hl' a ha, rfl⟩
    · rw [← List.flatMap_def, ← List.flatMap_def, heq]
  have hlen : l.length = l'.length := by
    rw [← List.length_map f, hwords, List.length_map]
  refine List.ext_getElem hlen fun i hi hi' => ?_
  have hi_eq : f l[i] = f l'[i] := by
    rw [← List.getElem_map f (h := by simpa using hi), ← List.getElem_map f (h := by simpa using hi')]
    exact List.getElem_of_eq hwords _
  exact h.ofPrefix _ _ (hl _ (List.getElem_mem hi)) (hl' _ (List.getElem_mem hi'))
    (hi_eq ▸ List.prefix_refl _)

end PrefixCode
