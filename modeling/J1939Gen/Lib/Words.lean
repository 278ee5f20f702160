import J1939Gen.Lib.Mealy
import Mathlib.Data.List.TakeWhile

/-!
# Words and frames

A text cut into words at separators, and a stream cut into frames at delimiters.

* `words`: the pieces between separators, without the empty ones.
* `nextWord`: the first word and what follows it; `words_eq_of_nextWord`, `nextWord_eq_none_iff`.
* `collect`: a buffer of `cap` bytes that gives out its content at a delimiter; `collect_run`
  says what it gives out over a whole stream.
-/

namespace Words

variable {α : Type*}

/-! ## Words -/

/-- The pieces of `l` between separators, without the empty ones. -/
def words (sep : α → Bool) (l : List α) : List (List α) :=
  (l.splitOnP sep).filter fun w => !w.isEmpty

/-- The next word and what follows its separator, `none` when only separators are left. -/
def nextWord (sep : α → Bool) (l : List α) : Option (List α × List α) :=
  let l := l.dropWhile sep
  if l.isEmpty then none
  else some (l.takeWhile fun a => !sep a, (l.dropWhile fun a => !sep a).drop 1)

theorem words_cons_sep {sep : α → Bool} {a : α} (ha : sep a) (l : List α) :
    words sep (a :: l) = words sep l := by
  rw [words, List.splitOnP_cons_eq_if_modifyHead, if_pos ha, List.filter_cons_of_neg (by simp),
    words]

theorem words_append_seps {sep : α → Bool} {gap : List α} (hgap : ∀ a ∈ gap, sep a) (l : List α) :
    words sep (gap ++ l) = words sep l := by
  induction gap with
  | nil => rfl
  | cons a gap ih =>
    rw [List.cons_append, words_cons_sep (hgap a List.mem_cons_self),
      ih fun b hb => hgap b (List.mem_cons_of_mem a hb)]

theorem words_dropWhile (sep : α → Bool) (l : List α) :
    words sep (l.dropWhile sep) = words sep l := by
  conv_rhs => rw [← List.takeWhile_append_dropWhile (p := sep) (l := l)]
  rw [words_append_seps fun a ha => List.mem_takeWhile_imp ha]

/-- A word up to the end of the text. -/
theorem words_word {sep : α → Bool} {w : List α} (hne : w ≠ []) (hw : ∀ a ∈ w, sep a = false) :
    words sep w = [w] := by
  rw [words, List.splitOnP_eq_singleton hw, List.filter_cons_of_pos (by simpa using hne)]
  rfl

/-- A word up to its separator. -/
theorem words_word_cons {sep : α → Bool} {w : List α} {a : α} (hne : w ≠ [])
    (hw : ∀ a ∈ w, sep a = false) (ha : sep a) (l : List α) :
    words sep (w ++ a :: l) = w :: words sep l := by
  rw [words, List.splitOnP_append_cons_of_forall_mem hw a ha,
    List.filter_cons_of_pos (by simpa using hne), words]

theorem nextWord_eq_none_iff {sep : α → Bool} {l : List α} :
    nextWord sep l = none ↔ words sep l = [] := by
  rw [← words_dropWhile sep l, nextWord]
  rcases hl : l.dropWhile sep with _ | ⟨a, rest⟩
  · simp [words]
  · have ha : sep a = false := by
      have hhead := List.head_dropWhile_not sep (l := l) (by rw [hl]; exact List.cons_ne_nil a rest)
      simpa [hl] using hhead
    simp only [List.isEmpty_cons, Bool.false_eq_true, if_false, reduceCtorEq, false_iff]
    rw [words, List.splitOnP_cons_eq_if_modifyHead, if_neg (by simp [ha])]
    rcases hsplit : rest.splitOnP sep with _ | ⟨w, ws⟩
    · exact absurd hsplit (List.splitOnP_ne_nil sep rest)
    · simp

/-- `nextWord` gives the words one by one. -/
theorem words_eq_of_nextWord {sep : α → Bool} {l w rest : List α}
    (h : nextWord sep l = some (w, rest)) : words sep l = w :: words sep rest := by
  rw [← words_dropWhile sep l]
  rw [nextWord] at h
  rcases hl : l.dropWhile sep with _ | ⟨a, tail⟩
  · simp [hl] at h
  · have ha : sep a = false := by
      have hhead := List.head_dropWhile_not sep (l := l) (by rw [hl]; exact List.cons_ne_nil a tail)
      simpa [hl] using hhead
    simp only [hl, List.isEmpty_cons, Bool.false_eq_true, if_false, Option.some.injEq,
      Prod.mk.injEq] at h
    obtain ⟨rfl, rfl⟩ := h
    set w := (a :: tail).takeWhile fun a => !sep a with hw
    have hne : w ≠ [] := by
      rw [hw, List.takeWhile_cons_of_pos (by simp [ha])]
      exact List.cons_ne_nil _ _
    have hword : ∀ b ∈ w, sep b = false := fun b hb => by
      simpa using List.mem_takeWhile_imp hb
    have happend := List.takeWhile_append_dropWhile (p := fun a => !sep a) (l := a :: tail)
    rcases hrest : (a :: tail).dropWhile (fun a => !sep a) with _ | ⟨b, rest⟩
    · rw [hrest, List.append_nil] at happend
      rw [← happend, ← hw, words_word hne hword]
      simp [words]
    · have hb : sep b := by
        have hhead := List.head_dropWhile_not (fun a => !sep a) (l := a :: tail)
          (by rw [hrest]; exact List.cons_ne_nil b rest)
        simpa [hrest] using hhead
      rw [hrest] at happend
      rw [← happend, ← hw, words_word_cons hne hword hb, List.drop_one, List.tail_cons]

/-- The first word, where there is one. -/
theorem nextWord_of_words {sep : α → Bool} {l w : List α} {ws : List (List α)}
    (h : words sep l = w :: ws) : ∃ rest, nextWord sep l = some (w, rest) ∧ words sep rest = ws := by
  rcases hnext : nextWord sep l with _ | ⟨w', rest⟩
  · rw [nextWord_eq_none_iff.mp hnext] at h
    exact absurd h.symm (List.cons_ne_nil w ws)
  · rw [words_eq_of_nextWord hnext] at h
    obtain ⟨rfl, rfl⟩ := List.cons.inj h
    exact ⟨rest, rfl, rfl⟩

theorem dropWhile_of_words_nil {sep : α → Bool} {l : List α} (h : words sep l = []) :
    l.dropWhile sep = [] := by
  have hnone := nextWord_eq_none_iff.mpr h
  rw [nextWord] at hnone
  split at hnone
  · next hempty => exact List.isEmpty_iff.mp hempty
  · exact absurd hnone (by simp)

/-- A text that has words is its first word after the separators in front, and goes on with a
separator or not at all. -/
theorem dropWhile_of_words {sep : α → Bool} {l w : List α} {ws : List (List α)}
    (h : words sep l = w :: ws) :
    ∃ tail, l.dropWhile sep = w ++ tail ∧ ∀ a ∈ tail.head?, sep a := by
  obtain ⟨rest, hnext, -⟩ := nextWord_of_words h
  rw [nextWord] at hnext
  split at hnext
  · exact absurd hnext (by simp)
  · refine ⟨(l.dropWhile sep).dropWhile fun a => !sep a, ?_, ?_⟩
    · rw [← (Prod.mk.inj (Option.some.inj hnext)).1]
      exact List.takeWhile_append_dropWhile.symm
    · intro a ha
      have hne : (l.dropWhile sep).dropWhile (fun a => !sep a) ≠ [] := by
        rintro hnil
        rw [hnil] at ha
        exact absurd ha (by simp)
      have hhead := List.head_dropWhile_not (fun a => !sep a) hne
      rw [List.head?_eq_some_head hne, Option.mem_some] at ha
      rw [ha] at hhead
      simpa using hhead

/-! ## Frames -/

/-- One byte of a stream: a delimiter gives out the buffer unless it is empty, another byte is
kept while the buffer is shorter than `cap`. -/
def collect (delim : α → Bool) (cap : ℕ) (buffer : List α) (a : α) :
    List α × Option (List α) :=
  if delim a then ([], if buffer.isEmpty then none else some buffer)
  else (if buffer.length < cap then buffer ++ [a] else buffer, none)

/-- The frames of a stream: what stands before a delimiter and is not empty, cut to `cap`. -/
def frames (delim : α → Bool) (cap : ℕ) (l : List α) : List (List α) :=
  ((l.splitOnP delim).dropLast.map (List.take cap)).filter fun w => !w.isEmpty

/-- What stands behind the last delimiter, cut to `cap`. -/
def rest (delim : α → Bool) (cap : ℕ) (l : List α) : List α :=
  ((l.splitOnP delim).getLast (List.splitOnP_ne_nil delim l)).take cap

theorem frames_cons {delim : α → Bool} {raw : List α} (hraw : ∀ a ∈ raw, delim a = false) {a : α}
    (ha : delim a) (cap : ℕ) (l : List α) :
    frames delim cap (raw ++ a :: l) =
      (if (raw.take cap).isEmpty then [] else [raw.take cap]) ++ frames delim cap l := by
  rw [frames, frames, List.splitOnP_append_cons_of_forall_mem hraw a ha,
    List.dropLast_cons_of_ne_nil (List.splitOnP_ne_nil delim l), List.map_cons]
  rcases (raw.take cap).isEmpty.eq_false_or_eq_true with hempty | hempty
  · rw [List.filter_cons_of_neg (by simp [hempty]), if_pos hempty, List.nil_append]
  · rw [List.filter_cons_of_pos (by simp [hempty]), if_neg (by simp [hempty]),
      List.singleton_append]

theorem rest_cons {delim : α → Bool} {raw : List α} (hraw : ∀ a ∈ raw, delim a = false) {a : α}
    (ha : delim a) (cap : ℕ) (l : List α) :
    rest delim cap (raw ++ a :: l) = rest delim cap l := by
  simp only [rest, List.splitOnP_append_cons_of_forall_mem hraw a ha]
  rw [List.getLast_cons (List.splitOnP_ne_nil delim l)]

theorem take_concat_of_room (cap : ℕ) (raw : List α) (a : α) :
    (if (raw.take cap).length < cap then raw.take cap ++ [a] else raw.take cap) =
      (raw ++ [a]).take cap := by
  rw [List.length_take]
  rcases Nat.lt_or_ge raw.length cap with hlt | hge
  · rw [if_pos (by omega), List.take_of_length_le (by omega),
      List.take_of_length_le (by rw [List.length_append, List.length_singleton]; omega)]
  · rw [if_neg (by omega), List.take_append_of_le_length hge]

/-- The buffer holds what came since the last delimiter; all before it was given out. -/
theorem collect_run_from {delim : α → Bool} (cap : ℕ) {raw : List α}
    (hraw : ∀ a ∈ raw, delim a = false) (l : List α) :
    (Mealy.run (collect delim cap) (raw.take cap) l).1 = rest delim cap (raw ++ l) ∧
      (Mealy.run (collect delim cap) (raw.take cap) l).2.reduceOption =
        frames delim cap (raw ++ l) := by
  induction l generalizing raw with
  | nil =>
    simp only [Mealy.run_nil, List.append_nil, rest, frames, List.splitOnP_eq_singleton hraw]
    exact ⟨rfl, rfl⟩
  | cons a l ih =>
    rcases (delim a).eq_false_or_eq_true with ha | ha
    · have hstep : collect delim cap (raw.take cap) a =
          ([], if (raw.take cap).isEmpty then none else some (raw.take cap)) := by
        rw [collect, if_pos ha]
      have hrest := ih (fun b (hb : b ∈ []) => absurd hb List.not_mem_nil)
      rw [List.take_nil, List.nil_append] at hrest
      rw [Mealy.run_cons, hstep, rest_cons hraw ha, frames_cons hraw ha]
      refine ⟨hrest.1, ?_⟩
      split
      · rw [List.reduceOption_cons_of_none, hrest.2, List.nil_append]
      · rw [List.reduceOption_cons_of_some, hrest.2, List.singleton_append]
    · have hstep : collect delim cap (raw.take cap) a = ((raw ++ [a]).take cap, none) := by
        rw [collect, if_neg (by simp [ha]), take_concat_of_room]
      have hrest := ih fun b (hb : b ∈ raw ++ [a]) => by
        obtain hb | hb := List.mem_append.mp hb
        · exact hraw b hb
        · rwa [List.mem_singleton.mp hb]
      rw [List.append_assoc, List.singleton_append] at hrest
      rw [Mealy.run_cons, hstep]
      exact ⟨hrest.1, by rw [List.reduceOption_cons_of_none, hrest.2]⟩

/-- A delimiter in front gives out nothing. -/
theorem frames_delims {delim : α → Bool} {gap : List α} (hgap : ∀ a ∈ gap, delim a) (cap : ℕ)
    (l : List α) : frames delim cap (gap ++ l) = frames delim cap l := by
  induction gap with
  | nil => rfl
  | cons a gap ih =>
    have hcons := frames_cons (fun b (hb : b ∈ []) => absurd hb List.not_mem_nil)
      (hgap a List.mem_cons_self) cap (gap ++ l)
    rw [List.nil_append, List.take_nil, if_pos List.isEmpty_nil, List.nil_append] at hcons
    rw [List.cons_append, hcons, ih fun b hb => hgap b (List.mem_cons_of_mem a hb)]

/-- **Frames of a stream.** However the stream is fed, the buffer gives out its frames. -/
theorem collect_run (delim : α → Bool) (cap : ℕ) (l : List α) :
    (Mealy.run (collect delim cap) [] l).1 = rest delim cap l ∧
      (Mealy.run (collect delim cap) [] l).2.reduceOption = frames delim cap l := by
  have h := @collect_run_from _ delim cap [] (fun a ha => absurd ha List.not_mem_nil) l
  rwa [List.take_nil, List.nil_append] at h

end Words
