import Mathlib.Algebra.BigOperators.Group.Finset.Piecewise

/-! What is shared out among finitely many: the permits of a semaphore, and an allowance each
member spends from. -/
namespace OpenctiLookup.Theory

universe u

variable {ι : Type u}

/-- Those with a permit, and the free ones, are all there are. -/
def Balanced (holds : ι → Prop) (free total : ℕ) : Prop :=
  ∃ holders : Finset ι, (∀ i, i ∈ holders ↔ holds i) ∧ holders.card + free = total

namespace Balanced

variable {holds holds' : ι → Prop} {free total : ℕ} {i : ι}

theorem of_none (hnone : ∀ i, ¬ holds i) : Balanced holds free free :=
  ⟨∅, fun i => iff_of_false (Finset.notMem_empty i) (hnone i), by simp⟩

theorem congr (h : Balanced holds free total) (hsame : ∀ j, holds' j ↔ holds j) :
    Balanced holds' free total := by
  obtain ⟨holders, hholders, hcard⟩ := h
  exact ⟨holders, fun j => (hholders j).trans (hsame j).symm, hcard⟩

/-- A permit is taken by one who has none. -/
theorem acquire [DecidableEq ι] (h : Balanced holds free total) (hfree : 0 < free)
    (hi : ¬ holds i) (hholds : ∀ j, holds' j ↔ j = i ∨ holds j) :
    Balanced holds' (free - 1) total := by
  obtain ⟨holders, hholders, hcard⟩ := h
  have hfresh : i ∉ holders := fun hmem => hi ((hholders i).mp hmem)
  refine ⟨insert i holders, fun j => ?_, ?_⟩
  · rw [Finset.mem_insert, hholders, hholds]
  · rw [Finset.card_insert_of_notMem hfresh]
    omega

/-- A permit is given back. -/
theorem release [DecidableEq ι] (h : Balanced holds free total) (hi : holds i)
    (hholds : ∀ j, holds' j ↔ j ≠ i ∧ holds j) : Balanced holds' (free + 1) total := by
  obtain ⟨holders, hholders, hcard⟩ := h
  have hmem : i ∈ holders := (hholders i).mpr hi
  refine ⟨holders.erase i, fun j => ?_, ?_⟩
  · rw [Finset.mem_erase, hholders, hholds]
  · have hpos : 0 < holders.card := Finset.card_pos.mpr ⟨i, hmem⟩
    rw [Finset.card_erase_of_mem hmem]
    omega

/-- However they are listed, there are never more of them than permits. -/
theorem length_le (h : Balanced holds free total) {xs : List ι} (hnodup : xs.Nodup)
    (hxs : ∀ i ∈ xs, holds i) : xs.length + free ≤ total := by
  classical
  obtain ⟨holders, hholders, hcard⟩ := h
  have hsub : xs.toFinset ⊆ holders := by
    intro i hi
    exact (hholders i).mpr (hxs i (List.mem_toFinset.mp hi))
  have hle := Finset.card_le_card hsub
  rw [List.toFinset_card_of_nodup hnodup] at hle
  omega

theorem free_of_none (h : Balanced holds free total) (hnone : ∀ i, ¬ holds i) : free = total := by
  obtain ⟨holders, hholders, hcard⟩ := h
  have hempty : holders = ∅ := by
    ext i
    exact iff_of_false (fun hi => hnone i ((hholders i).mp hi)) (Finset.notMem_empty i)
  rw [hempty, Finset.card_empty] at hcard
  omega

end Balanced

section Allowance

universe v

variable [DecidableEq ι] {α : Type v} {f : ι → α} {i : ι} {s : Finset ι}

/-- What one member is left with is all that changes in the sum. -/
theorem sum_update_add (budget : α → ℕ) (a : α) (hi : i ∈ s) :
    ∑ j ∈ s, budget (Function.update f i a j) + budget (f i) =
      ∑ j ∈ s, budget (f j) + budget a := by
  have hsame : ∑ j ∈ s.erase i, budget (Function.update f i a j) =
      ∑ j ∈ s.erase i, budget (f j) :=
    Finset.sum_congr rfl fun j hj => by rw [Function.update_of_ne (Finset.ne_of_mem_erase hj)]
  rw [← Finset.sum_erase_add s _ hi, ← Finset.sum_erase_add s (fun j => budget (f j)) hi, hsame,
    Function.update_self]
  omega

theorem sum_update_insert (budget : α → ℕ) (a : α) (hi : i ∉ s) :
    ∑ j ∈ insert i s, budget (Function.update f i a j) = ∑ j ∈ s, budget (f j) + budget a := by
  have hsame : ∑ j ∈ s, budget (Function.update f i a j) = ∑ j ∈ s, budget (f j) :=
    Finset.sum_congr rfl fun j hj => by
      rw [Function.update_of_ne (ne_of_mem_of_not_mem hj hi)]
  rw [Finset.sum_insert hi, hsame, Function.update_self, Nat.add_comm]

end Allowance

end OpenctiLookup.Theory
