import Mathlib.Data.List.Induction

/-! Labelled transition systems and their finite runs. A condition on steps
restricts which runs are looked at, so "in every run whose steps all meet the
condition" is a reachability statement of its own. -/
namespace OpenctiLookup.Theory

universe u v

/-- One step is a relation: an environment may act in it. -/
structure System (σ : Type u) (α : Type v) where
  init : σ → Prop
  step : σ → α → σ → Prop

/-- Runs from an initial state in which every step meets `ok` in the state it
is taken from. The trace lists the steps, oldest first. -/
inductive Reaches {σ : Type u} {α : Type v} (S : System σ α) (ok : σ → α → Prop) :
    List α → σ → Prop
  | init {s : σ} : S.init s → Reaches S ok [] s
  | step {trace : List α} {s s' : σ} {a : α} :
      Reaches S ok trace s → ok s a → S.step s a s' → Reaches S ok (trace ++ [a]) s'

def anyStep {σ : Type u} {α : Type v} : σ → α → Prop := fun _ _ => True

namespace Reaches

variable {σ : Type u} {α : Type v} {S : System σ α} {ok ok' : σ → α → Prop}
  {trace : List α} {s : σ} {a : α}

/-- What holds initially and survives every step that meets the condition holds
in every state such a run reaches. -/
theorem invariant {I : σ → Prop} (hinit : ∀ s, S.init s → I s)
    (hstep : ∀ s a s', I s → ok s a → S.step s a s' → I s')
    (h : Reaches S ok trace s) : I s := by
  induction h with
  | init hs => exact hinit _ hs
  | step _ hok hs ih => exact hstep _ _ _ ih hok hs

/-- A condition that follows from another on the states satisfying an invariant
of the stronger runs admits at least their runs. -/
theorem weaken {I : σ → Prop} (hinit : ∀ s, S.init s → I s)
    (hstep : ∀ s a s', I s → ok s a → S.step s a s' → I s')
    (himp : ∀ s a s', I s → S.step s a s' → ok s a → ok' s a)
    (h : Reaches S ok trace s) : Reaches S ok' trace s := by
  induction h with
  | init hs => exact .init hs
  | step hrun hok hs ih =>
      exact .step ih (himp _ _ _ (hrun.invariant hinit hstep) hs hok) hs

theorem anyOf (h : Reaches S ok trace s) : Reaches S anyStep trace s := by
  induction h with
  | init hs => exact .init hs
  | step _ _ hs ih => exact .step ih trivial hs

/-- A run up to one of its steps is a run. -/
theorem split {before after : List α} (h : Reaches S ok (before ++ a :: after) s) :
    ∃ s₁ s₂, Reaches S ok before s₁ ∧ ok s₁ a ∧ S.step s₁ a s₂ := by
  generalize htrace : before ++ a :: after = trace at h
  induction h generalizing after with
  | init _ => exact absurd htrace (by simp)
  | @step trace s s' last hrun hok hs ih =>
      cases after using List.reverseRecOn with
      | nil =>
          obtain ⟨rfl, hlast⟩ := List.append_inj' htrace rfl
          cases hlast
          exact ⟨s, s', hrun, hok, hs⟩
      | append_singleton after last' =>
          rw [← List.cons_append, ← List.append_assoc] at htrace
          exact ih (List.append_inj' htrace rfl).1

end Reaches

end OpenctiLookup.Theory
