import Mathlib

/-!
# Runs of a state machine with outputs

A machine reads an input, moves to a new state and emits an output. A run
feeds it a list of inputs; the lemmas package the inductions over runs:

* `run_invariant`: what every step preserves holds at the end of a run.
* `run_trace_invariant`: the same for a property of the state and the outputs.
* `Always.of_invariant`: what holds at every step of a run whose steps meet a
  condition.
* `always_output_iff`, `Always.congr`: a property of the emitted outputs step by
  step, and its exchange for an equivalent one.
* `run_flatMap`: inputs taken in batches.
* `Always.simulation`, `run_simulation`: a relation every pair of steps preserves
  relates the ends of two runs, and the outputs they emit.
-/

namespace Mealy

variable {σ τ α β γ : Type*}

/-- Feed `inputs` to `step` from state `s`; the final state and the outputs. -/
def run (step : σ → α → σ × β) (s : σ) : List α → σ × List β
  | [] => (s, [])
  | a :: inputs =>
    let next := step s a
    let rest := run step next.1 inputs
    (rest.1, next.2 :: rest.2)

@[simp] theorem run_nil (step : σ → α → σ × β) (s : σ) : run step s [] = (s, []) := rfl

theorem run_cons (step : σ → α → σ × β) (s : σ) (a : α) (inputs : List α) :
    run step s (a :: inputs) =
      ((run step (step s a).1 inputs).1, (step s a).2 :: (run step (step s a).1 inputs).2) := rfl

theorem run_append (step : σ → α → σ × β) (s : σ) (as bs : List α) :
    run step s (as ++ bs) =
      ((run step (run step s as).1 bs).1,
        (run step s as).2 ++ (run step (run step s as).1 bs).2) := by
  induction as generalizing s with
  | nil => rfl
  | cons a as ih => simp [run_cons, ih]

theorem run_concat (step : σ → α → σ × β) (s : σ) (as : List α) (a : α) :
    run step s (as ++ [a]) =
      ((step (run step s as).1 a).1, (run step s as).2 ++ [(step (run step s as).1 a).2]) := by
  rw [run_append]; rfl

theorem length_run (step : σ → α → σ × β) (s : σ) (inputs : List α) :
    (run step s inputs).2.length = inputs.length := by
  induction inputs generalizing s with
  | nil => rfl
  | cons a as ih => simp [run_cons, ih]

/-- A machine that takes its inputs in batches does what the machine does on them all. -/
theorem run_flatMap (step : σ → α → σ × β) (batch : γ → List α) (s : σ) (cs : List γ) :
    (run (fun s c => run step s (batch c)) s cs).1 = (run step s (cs.flatMap batch)).1 ∧
      (run (fun s c => run step s (batch c)) s cs).2.flatten =
        (run step s (cs.flatMap batch)).2 := by
  induction cs generalizing s with
  | nil => exact ⟨rfl, rfl⟩
  | cons c cs ih =>
    obtain ⟨hstate, houts⟩ := ih (run step s (batch c)).1
    rw [run_cons, List.flatMap_cons, run_append]
    exact ⟨hstate, by rw [List.flatten_cons, houts]⟩

/-- What is emitted at one place of a run was emitted by the step there. -/
theorem run_split {step : σ → α → σ × β} {s : σ} {inputs : List α} {before after : List β} {b : β}
    (h : (run step s inputs).2 = before ++ b :: after) :
    ∃ as a, (run step s as).2 = before ∧ (step (run step s as).1 a).2 = b := by
  induction inputs generalizing s before with
  | nil => exact absurd h (by simp)
  | cons a inputs ih =>
    rw [run_cons] at h
    cases before with
    | nil => exact ⟨[], a, rfl, (List.cons.inj h).1⟩
    | cons b' before =>
      obtain ⟨hb, hrest⟩ := List.cons.inj h
      obtain ⟨as, a', hbefore, hb'⟩ := ih hrest
      refine ⟨a :: as, a', ?_, hb'⟩
      rw [run_cons, hb, hbefore]

/-- `t` is the state at the end of some run from `s`. -/
def Reachable (step : σ → α → σ × β) (s t : σ) : Prop := ∃ inputs, (run step s inputs).1 = t

theorem Reachable.refl (step : σ → α → σ × β) (s : σ) : Reachable step s s := ⟨[], rfl⟩

theorem Reachable.step {step : σ → α → σ × β} {s t : σ} (h : Reachable step s t) (a : α) :
    Reachable step s (step t a).1 := by
  obtain ⟨as, rfl⟩ := h
  exact ⟨as ++ [a], by rw [run_concat]⟩

/-- **Invariant rule.** -/
theorem run_invariant {step : σ → α → σ × β} {Inv : σ → Prop}
    (hstep : ∀ s a, Inv s → Inv (step s a).1) {s : σ} (hs : Inv s) (inputs : List α) :
    Inv (run step s inputs).1 := by
  induction inputs generalizing s with
  | nil => exact hs
  | cons a as ih => exact ih (hstep s a hs)

theorem Reachable.invariant {step : σ → α → σ × β} {Inv : σ → Prop} {s t : σ}
    (h : Reachable step s t) (hs : Inv s) (hstep : ∀ s a, Inv s → Inv (step s a).1) : Inv t := by
  obtain ⟨as, rfl⟩ := h
  exact run_invariant hstep hs as

/-- **Trace rule.** What holds of the start and the empty trace, and is kept
    when a step extends the trace, holds at the end of every run. -/
theorem run_trace_invariant {step : σ → α → σ × β} {Inv : σ → List β → Prop}
    (hstep : ∀ s tr a, Inv s tr → Inv (step s a).1 (tr ++ [(step s a).2])) {s : σ}
    (hs : Inv s []) (inputs : List α) : Inv (run step s inputs).1 (run step s inputs).2 := by
  induction inputs using List.reverseRecOn with
  | nil => exact hs
  | append_singleton as a ih =>
    rw [run_concat]
    exact hstep _ _ a ih

/-- Every step of the run satisfies `P`: the state before it and its input. -/
def Always (P : σ → α → Prop) (step : σ → α → σ × β) (s : σ) : List α → Prop
  | [] => True
  | a :: inputs => P s a ∧ Always P step (step s a).1 inputs

instance instDecidableAlways (P : σ → α → Prop) [∀ s a, Decidable (P s a)] (step : σ → α → σ × β) :
    ∀ (inputs : List α) (s : σ), Decidable (Always P step s inputs)
  | [], _ => inferInstanceAs (Decidable True)
  | a :: inputs, s =>
    letI := instDecidableAlways P step inputs (step s a).1
    inferInstanceAs (Decidable (P s a ∧ Always P step (step s a).1 inputs))

theorem Always.last {P : σ → α → Prop} {step : σ → α → σ × β} {s : σ} (as : List α) {a : α}
    (h : Always P step s (as ++ [a])) : P (run step s as).1 a := by
  induction as generalizing s with
  | nil => exact h.1
  | cons b as ih => exact ih h.2

/-- **Conditional invariant rule.** In a run whose steps all meet `C`, an
    invariant that steps meeting `C` preserve gives `Q` at every step. -/
theorem Always.of_invariant {step : σ → α → σ × β} (Inv : σ → Prop) {C Q : σ → α → Prop}
    (hstep : ∀ s a, Inv s → C s a → Inv (step s a).1 ∧ Q s a) {s : σ} (hs : Inv s)
    (inputs : List α) (h : Always C step s inputs) : Always Q step s inputs := by
  induction inputs generalizing s with
  | nil => trivial
  | cons a inputs ih =>
    obtain ⟨hInv, hQ⟩ := hstep s a hs h.1
    exact ⟨hQ, ih hInv h.2⟩

/-- A property of the outputs, step by step, is a property of the emitted list. -/
theorem always_output_iff {step : σ → α → σ × β} (P : β → Prop) (s : σ) (inputs : List α) :
    Always (fun s a => P (step s a).2) step s inputs ↔ ∀ b ∈ (run step s inputs).2, P b := by
  induction inputs generalizing s with
  | nil => simp [Always]
  | cons a inputs ih => simp [Always, run_cons, ih]

/-- Two properties that agree at every step of a run hold along it together. -/
theorem Always.congr {step : σ → α → σ × β} {P Q : σ → α → Prop} {s : σ} {inputs : List α}
    (h : Always (fun s a => P s a ↔ Q s a) step s inputs) :
    Always P step s inputs ↔ Always Q step s inputs := by
  induction inputs generalizing s with
  | nil => exact Iff.rfl
  | cons a inputs ih => exact and_congr h.1 (ih h.2)

theorem Always.and {step : σ → α → σ × β} {P Q : σ → α → Prop} {s : σ} {inputs : List α}
    (hp : Always P step s inputs) (hq : Always Q step s inputs) :
    Always (fun s a => P s a ∧ Q s a) step s inputs := by
  induction inputs generalizing s with
  | nil => trivial
  | cons a inputs ih => exact ⟨⟨hp.1, hq.1⟩, ih hp.2 hq.2⟩

/-- **Conditional simulation rule.** As long as the steps of the second machine meet
    `C`, a relation that one step keeps, and under which the outputs are related,
    holds at the end of every run, and the outputs are related one by one. -/
theorem Always.simulation {step : σ → α → σ × β} {astep : τ → α → τ × γ} {R : σ → τ → Prop}
    (Out : β → γ → Prop) {C : τ → α → Prop}
    (hstep : ∀ s t a, R s t → C t a →
      R (step s a).1 (astep t a).1 ∧ Out (step s a).2 (astep t a).2)
    {s : σ} {t : τ} (hR : R s t) (inputs : List α) (hC : Always C astep t inputs) :
    R (run step s inputs).1 (run astep t inputs).1 ∧
      List.Forall₂ Out (run step s inputs).2 (run astep t inputs).2 := by
  induction inputs generalizing s t with
  | nil => exact ⟨hR, .nil⟩
  | cons a as ih =>
    obtain ⟨h1, h2⟩ := hstep s t a hR hC.1
    obtain ⟨h3, h4⟩ := ih h1 hC.2
    exact ⟨h3, .cons h2 h4⟩

theorem always_true (step : σ → α → σ × β) (s : σ) (inputs : List α) :
    Always (fun _ _ => True) step s inputs := by
  induction inputs generalizing s with
  | nil => trivial
  | cons a inputs ih => exact ⟨trivial, ih _⟩

/-- **Simulation rule.** Two machines on the same inputs: a relation that one
    step keeps, and under which the outputs are related, holds at the end of
    every run, and the outputs are related one by one. -/
theorem run_simulation {step : σ → α → σ × β} {astep : τ → α → τ × γ} {R : σ → τ → Prop}
    (Out : β → γ → Prop)
    (hstep : ∀ s t a, R s t → R (step s a).1 (astep t a).1 ∧ Out (step s a).2 (astep t a).2)
    {s : σ} {t : τ} (hR : R s t) (inputs : List α) :
    R (run step s inputs).1 (run astep t inputs).1 ∧
      List.Forall₂ Out (run step s inputs).2 (run astep t inputs).2 :=
  Always.simulation Out (C := fun _ _ => True) (fun s t a h _ => hstep s t a h) hR inputs
    (always_true astep t inputs)

end Mealy
