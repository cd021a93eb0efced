import Pausepoint.Event

/-!
# Pausepoint.Proofs.Execution

Executions of a system that makes labelled steps.

What parties do in turns is a step relation with a label for who did what. An execution
keeps the labels of its steps in order, so that a property may speak of the past: of what
was submitted, delivered or answered before.
-/

namespace Pausepoint

variable {σ ℓ : Type} {step : σ → ℓ → σ → Prop} {init : σ}

/-- The states that steps lead to from an initial one, with the labels of the steps. -/
inductive Execution (step : σ → ℓ → σ → Prop) (init : σ) : List ℓ → σ → Prop
  /-- Nothing has happened. -/
  | start : Execution step init [] init
  /-- One step more. -/
  | next {trace : List ℓ} {s s' : σ} {label : ℓ} (before : Execution step init trace s)
      (last : step s label s') : Execution step init (trace ++ [label]) s'

namespace Execution

theorem single {s : σ} {label : ℓ} (h : step init label s) : Execution step init [label] s :=
  start.next h

/-- **An invariant** that holds at first and survives every step holds throughout; it may
speak of the labels so far. -/
theorem invariant {P : List ℓ → σ → Prop} (hinit : P [] init)
    (hstep : ∀ {trace s label s'}, Execution step init trace s → P trace s →
      step s label s' → P (trace ++ [label]) s')
    {trace : List ℓ} {s : σ} (h : Execution step init trace s) : P trace s := by
  induction h with
  | start => exact hinit
  | next before last ih => exact hstep before ih last

/-- An invariant of the states alone. -/
theorem state_invariant {P : σ → Prop} (hinit : P init)
    (hstep : ∀ {s label s'}, P s → step s label s' → P s')
    {trace : List ℓ} {s : σ} (h : Execution step init trace s) : P s :=
  h.invariant (P := fun _ s => P s) hinit fun _ ih last => hstep ih last

/-- An execution is one of any system that allows its steps. -/
theorem mono {step' : σ → ℓ → σ → Prop} (hsub : ∀ {s label s'}, step s label s' → step' s label s')
    {trace : List ℓ} {s : σ} (h : Execution step init trace s) : Execution step' init trace s := by
  induction h with
  | start => exact .start
  | next before last ih => exact ih.next (hsub last)

/-- The same of the steps that it consists of. -/
theorem restrict {step' : σ → ℓ → σ → Prop} {trace : List ℓ} {s : σ} (h : Execution step init trace s)
    (hsub : ∀ {s label s'}, label ∈ trace → step s label s' → step' s label s') :
    Execution step' init trace s := by
  induction h with
  | start => exact .start
  | next before last ih =>
      exact (ih fun hmem => hsub (List.mem_append_left _ hmem)).next (hsub (by simp) last)

/-- One execution after another. -/
theorem append {trace later : List ℓ} {s s' : σ} (h : Execution step init trace s)
    (hlater : Execution step s later s') : Execution step init (trace ++ later) s' := by
  induction hlater with
  | start => rwa [List.append_nil]
  | next before last ih =>
      rw [← List.append_assoc]
      exact ih.next last

/-- Without a step nothing has changed. -/
theorem eq_of_nil {s : σ} (h : Execution step init [] s) : s = init := by
  generalize htrace : ([] : List ℓ) = trace at h
  cases h with
  | start => rfl
  | next before last => simp at htrace

/-- The last step of an execution, and the execution before it. -/
theorem exists_of_concat {trace : List ℓ} {label : ℓ} {s' : σ}
    (h : Execution step init (trace ++ [label]) s') :
    ∃ s, Execution step init trace s ∧ step s label s' := by
  generalize hwhole : trace ++ [label] = whole at h
  cases h with
  | start => simp at hwhole
  | next before last =>
      obtain ⟨rfl, hlabel⟩ := List.append_inj' hwhole rfl
      obtain rfl := (List.cons.inj hlabel).1
      exact ⟨_, before, last⟩

end Execution

end Pausepoint
