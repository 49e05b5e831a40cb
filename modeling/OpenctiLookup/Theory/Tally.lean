import Mathlib.Algebra.BigOperators.Group.Finset.Piecewise

/-! Counters by label. What they add up to, over the labels they can have, is how often they
were incremented. -/
namespace OpenctiLookup.Theory

universe u v

variable {α : Type u} {β : Type v} [DecidableEq β]

def bump (tally : β → ℕ) (label : β) : β → ℕ := Function.update tally label (tally label + 1)

/-- Counters that were incremented for each element of a list. -/
theorem foldl_bump (label : α → β) (xs : List α) (tally : β → ℕ) (b : β) :
    xs.foldl (fun tally x => bump tally (label x)) tally b =
      tally b + xs.countP fun x => decide (label x = b) := by
  induction xs generalizing tally with
  | nil => rfl
  | cons x xs ih =>
      rw [List.foldl_cons, ih, List.countP_cons, bump]
      by_cases hlabel : label x = b
      · rw [hlabel, Function.update_self, if_pos (decide_eq_true rfl)]
        omega
      · rw [Function.update_of_ne (Ne.symm hlabel), if_neg (by simp [hlabel]), Nat.add_zero]

variable {labels : Finset β} {label : α → β} {xs : List α}

/-- The counters of the labels with a property add up to the increments with it. -/
theorem sum_countP_filter (hall : ∀ x ∈ xs, label x ∈ labels) (p : β → Prop) [DecidablePred p] :
    ∑ b ∈ labels with p b, xs.countP (fun x => decide (label x = b)) =
      xs.countP fun x => decide (p (label x)) := by
  induction xs with
  | nil => simp
  | cons x xs ih =>
      obtain ⟨hx, hxs⟩ := List.forall_mem_cons.mp hall
      simp only [List.countP_cons, Finset.sum_add_distrib, ih hxs, decide_eq_true_eq,
        Finset.sum_ite_eq, Finset.mem_filter, hx, true_and]

theorem sum_countP (hall : ∀ x ∈ xs, label x ∈ labels) :
    ∑ b ∈ labels, xs.countP (fun x => decide (label x = b)) = xs.length := by
  have hsum := sum_countP_filter hall fun _ => True
  rw [Finset.filter_true] at hsum
  simpa using hsum

end OpenctiLookup.Theory
