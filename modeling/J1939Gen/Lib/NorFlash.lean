import J1939Gen.Lib.ByteMem

/-!
# A NOR flash that can lose power

Cells hold bytes. A page is erased to `0xFF` at once, and a half-word is
programmed by clearing bits. A device takes a number of mutations; the next one
fails, leaves its target as it was, and so does every later one.

* `untilFail_program`: a programming loop leaves a prefix of its half-words
  programmed, all of them when it succeeds.
* `untilFail_program_blank`: on blank cells of a device that never fails it
  succeeds.
* `burn_of_mem`, `burn_of_not_mem`: what programming a list of half-words leaves
  in a cell.
-/

namespace NorFlash

open ByteMem

/-- The cells, and the number of mutations that still take effect (`none`: all). -/
structure Device where
  cell : Mem
  left : Option ℕ

/-- One mutation: it takes effect unless none is left. -/
def Device.mutate (d : Device) (cell : Mem) : Device × Bool :=
  match d.left with
  | none => ({ d with cell := cell }, true)
  | some 0 => (d, false)
  | some (n + 1) => (⟨cell, some n⟩, true)

/-- Erase the `size` cells from `p` on. -/
def Device.erase (d : Device) (p size : ℕ) : Device × Bool := d.mutate (fill d.cell p size 0xFF)

/-- Program the half-word at `p`: nothing to do when it holds the value, and an
    error when a bit would have to be set. -/
def Device.program (d : Device) (p : ℕ) (v : UInt16) : Device × Bool :=
  if readU16 d.cell p = v then (d, true)
  else if readU16 d.cell p &&& v ≠ v then (d, false)
  else d.mutate (writeU16 d.cell p v)

theorem Device.mutate_cell (d : Device) (cell : Mem) :
    (d.mutate cell).1.cell = if (d.mutate cell).2 = true then cell else d.cell := by
  unfold Device.mutate
  rcases d.left with _ | _ | n <;> rfl

theorem Device.mutate_of_none {d : Device} (h : d.left = none) (cell : Mem) :
    d.mutate cell = (⟨cell, none⟩, true) := by
  simp [Device.mutate, h]

/-! ## Loops that stop at the first failure -/

section Loop

variable {σ α : Type*} (step : σ → α → σ × Bool)

/-- Run `step` over a list until it fails. -/
def untilFail : σ → List α → σ × Bool
  | s, [] => (s, true)
  | s, a :: l => if (step s a).2 = true then untilFail (step s a).1 l else ((step s a).1, false)

/-- Turns that do nothing can be left out. -/
theorem untilFail_filter {step' : σ → α → σ × Bool} {p : α → Bool} {l : List α}
    (hskip : ∀ a ∈ l, p a = false → ∀ s, step s a = (s, true))
    (hstep : ∀ a ∈ l, p a = true → ∀ s, step s a = step' s a) (s : σ) :
    untilFail step s l = untilFail step' s (l.filter p) := by
  induction l generalizing s with
  | nil => rfl
  | cons a l ih =>
    have ih := ih (fun b hb => hskip b (by simp [hb])) fun b hb => hstep b (by simp [hb])
    cases hp : p a with
    | false => rw [List.filter_cons_of_neg (by simp [hp]), untilFail, hskip a (by simp) hp,
        if_pos rfl, ih]
    | true =>
      rw [List.filter_cons_of_pos hp, untilFail, untilFail, hstep a (by simp) hp]
      split_ifs
      · exact ih _
      · rfl

end Loop

/-! ## Programming a list of half-words -/

/-- Cells from `a` on after the half-words of `m` at `offsets` were programmed. -/
def burn (cell m : Mem) (a : ℕ) (offsets : List ℕ) : Mem :=
  offsets.foldl (fun c k => writeU16 c (a + k) (readU16 m k)) cell

theorem writeU16_readU16 (c m : Mem) {p k i : ℕ} (hi : i = p ∨ i = p + 1) :
    writeU16 c p (readU16 m k) i = m (k + (i - p)) := by
  have hsplit := bytes_readU16 m k
  simp only [bytes, List.range_succ, List.range_zero, List.nil_append, List.cons_append,
    List.map_cons, List.map_nil, le16, Nat.add_zero, List.cons.injEq, and_true] at hsplit
  rcases hi with rfl | rfl
  · rw [writeU16, Function.update_of_ne (by omega), Function.update_self, ← hsplit.1, Nat.sub_self,
      Nat.add_zero]
  · rw [writeU16, Function.update_self, ← hsplit.2, Nat.add_sub_cancel_left]

/-- Writing the half-word that is there changes nothing. -/
theorem writeU16_self {c : Mem} {p : ℕ} {v : UInt16} (h : readU16 c p = v) :
    writeU16 c p v = c := by
  subst h
  funext i
  by_cases hi : i = p ∨ i = p + 1
  · rw [writeU16_readU16 c c hi]
    congr 1; omega
  · rw [writeU16_of_ne _ _ (by omega)]

theorem burn_of_not_mem (cell m : Mem) (a : ℕ) {offsets : List ℕ} {i : ℕ}
    (h : ∀ k ∈ offsets, i ≠ a + k ∧ i ≠ a + k + 1) : burn cell m a offsets i = cell i := by
  induction offsets generalizing cell with
  | nil => rfl
  | cons k l ih =>
    have hk := h k (by simp)
    rw [burn, List.foldl_cons]
    refine (ih _ fun j hj => h j (by simp [hj])).trans ?_
    exact writeU16_of_ne _ _ (by omega)

theorem burn_of_mem (cell m : Mem) (a : ℕ) {offsets : List ℕ} {k i : ℕ} (hk : k ∈ offsets)
    (hi : i = k ∨ i = k + 1) : burn cell m a offsets (a + i) = m i := by
  induction offsets generalizing cell k with
  | nil => cases hk
  | cons j l ih =>
    rw [burn, List.foldl_cons]
    by_cases hl : ∃ q ∈ l, i = q ∨ i = q + 1
    · -- a later half-word writes the cell again, with the same byte
      obtain ⟨q, hq, hqi⟩ := hl
      exact ih _ hq hqi
    · push Not at hl
      obtain rfl : k = j := by
        rcases List.mem_cons.mp hk with h | h
        · exact h
        · have := hl k h; omega
      refine (burn_of_not_mem _ m a fun q hq => by have := hl q hq; omega).trans ?_
      rw [writeU16_readU16 _ m (by omega)]
      congr 1; omega

/-- The loop body: program the half-word of `m` at offset `k`. -/
def programAt (m : Mem) (a : ℕ) (d : Device) (k : ℕ) : Device × Bool :=
  d.program (a + k) (readU16 m k)

theorem programAt_cell (m : Mem) (a : ℕ) (d : Device) (k : ℕ) :
    (programAt m a d k).1.cell =
      if (programAt m a d k).2 = true then writeU16 d.cell (a + k) (readU16 m k) else d.cell := by
  unfold programAt Device.program
  by_cases h1 : readU16 d.cell (a + k) = readU16 m k
  · rw [if_pos h1, if_pos rfl, writeU16_self h1]
  · rw [if_neg h1]
    by_cases h2 : readU16 d.cell (a + k) &&& readU16 m k ≠ readU16 m k
    · rw [if_pos h2]; rfl
    · rw [if_neg h2]; exact d.mutate_cell _

/-- However a programming loop ends, it has programmed a prefix of its list. -/
theorem untilFail_program (m : Mem) (a : ℕ) (d : Device) (offsets : List ℕ) :
    ∃ done rest, offsets = done ++ rest ∧
      (untilFail (programAt m a) d offsets).1.cell = burn d.cell m a done ∧
      ((untilFail (programAt m a) d offsets).2 = true → rest = []) := by
  induction offsets generalizing d with
  | nil => exact ⟨[], [], rfl, rfl, fun _ => rfl⟩
  | cons k l ih =>
    have hcell := programAt_cell m a d k
    unfold untilFail
    by_cases hok : (programAt m a d k).2 = true
    · rw [if_pos hok] at hcell ⊢
      obtain ⟨done, rest, h1, h2, h3⟩ := ih (programAt m a d k).1
      exact ⟨k :: done, rest, by rw [h1]; rfl, by rw [h2, hcell]; rfl, h3⟩
    · rw [if_neg hok] at hcell ⊢
      exact ⟨[], k :: l, rfl, hcell, by simp⟩

theorem program_blank {d : Device} (h : d.left = none) {p : ℕ} (hb : readU16 d.cell p = 0xFFFF)
    (v : UInt16) : d.program p v = (⟨writeU16 d.cell p v, none⟩, true) := by
  unfold Device.program
  by_cases h1 : readU16 d.cell p = v
  · rw [if_pos h1, writeU16_self h1, ← h]
  · rw [if_neg h1, if_neg (by rw [hb, show (0xFFFF : UInt16) = -1 from rfl]; simp), Device.mutate_of_none h]

/-- On a device that never fails, a loop over blank, distinct half-words
    succeeds. -/
theorem untilFail_program_blank (m : Mem) (a : ℕ) {d : Device} (h : d.left = none)
    {offsets : List ℕ} (hb : ∀ k ∈ offsets, readU16 d.cell (a + k) = 0xFFFF)
    (hd : offsets.Pairwise fun j k => j + 2 ≤ k) :
    untilFail (programAt m a) d offsets = (⟨burn d.cell m a offsets, none⟩, true) := by
  induction offsets generalizing d with
  | nil => obtain ⟨cell, left⟩ := d; subst h; rfl
  | cons k l ih =>
    have hk : programAt m a d k = (⟨writeU16 d.cell (a + k) (readU16 m k), none⟩, true) :=
      program_blank h (hb k (by simp)) _
    obtain ⟨hkl, hl⟩ := List.pairwise_cons.mp hd
    unfold untilFail
    rw [hk, if_pos rfl]
    refine ih rfl (fun j hj => ?_) hl
    rw [← hb j (by simp [hj])]
    have := hkl j hj
    exact readU16_congr (writeU16_of_ne _ _ (by omega)) (writeU16_of_ne _ _ (by omega))

end NorFlash
