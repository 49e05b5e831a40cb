import Mathlib.Data.Finset.Card

/-! How many elements a base set has once some are added and some removed, counted from the
three sizes. The count is off by what was added although the base has it, less what was
removed although nothing has it. -/
namespace OpenctiLookup.Theory.CorrectedCount

universe u

variable {α : Type u} [DecidableEq α] (base added removed : Finset α)

def present : Finset α := (base ∪ added) \ removed

def sizeCount : ℤ := (base.card : ℤ) + added.card - removed.card

def surplus : ℤ := ((base ∩ added).card : ℤ) - (removed \ (base ∪ added)).card

theorem sizeCount_eq : sizeCount base added removed =
    (present base added removed).card + surplus base added removed := by
  have hunion := Finset.card_union_add_card_inter base added
  have hleft := Finset.card_sdiff_add_card_inter (base ∪ added) removed
  have hright := Finset.card_sdiff_add_card_inter removed (base ∪ added)
  rw [Finset.inter_comm] at hright
  unfold sizeCount surplus present
  omega

theorem sizeCount_eq_card_iff : sizeCount base added removed = (present base added removed).card ↔
    surplus base added removed = 0 := by
  rw [sizeCount_eq]
  omega

theorem surplus_fresh : surplus base ∅ ∅ = 0 := by simp [surplus]

variable {base added removed} (x : α)

/-- Adding an element of the base, or one that was removed in vain, is counted once too
often. -/
theorem surplus_add : surplus base (insert x added) (removed.erase x) =
    surplus base added removed +
      if x ∈ added ∨ (x ∉ base ∧ x ∉ removed) then 0 else 1 := by
  have hremoved : removed.erase x \ (base ∪ insert x added) =
      (removed \ (base ∪ added)).erase x := by
    ext y
    simp only [Finset.mem_sdiff, Finset.mem_erase, Finset.mem_union, Finset.mem_insert]
    tauto
  have hmem : x ∈ removed \ (base ∪ added) ↔ x ∈ removed ∧ x ∉ base ∧ x ∉ added := by
    simp
  unfold surplus
  rw [hremoved]
  by_cases hadded : x ∈ added
  · have hvain : x ∉ removed \ (base ∪ added) := fun h => (hmem.mp h).2.2 hadded
    rw [Finset.insert_eq_of_mem hadded, Finset.erase_eq_of_notMem hvain, if_pos (.inl hadded)]
    omega
  · by_cases hbase : x ∈ base
    · have hvain : x ∉ removed \ (base ∪ added) := fun h => (hmem.mp h).2.1 hbase
      rw [Finset.inter_insert_of_mem hbase, Finset.erase_eq_of_notMem hvain,
        Finset.card_insert_of_notMem (by simp [hadded]), if_neg (by tauto)]
      omega
    · rw [Finset.inter_insert_of_notMem hbase]
      by_cases hgone : x ∈ removed
      · have hcard := Finset.card_erase_add_one (hmem.mpr ⟨hgone, hbase, hadded⟩)
        rw [if_neg (by tauto)]
        omega
      · have hvain : x ∉ removed \ (base ∪ added) := fun h => hgone (hmem.mp h).1
        rw [Finset.erase_eq_of_notMem hvain, if_pos (.inr ⟨hbase, hgone⟩)]
        omega

/-- Removing an element that was added, or one that was never there, is counted once too
often. -/
theorem surplus_remove : surplus base (added.erase x) (insert x removed) =
    surplus base added removed -
      if x ∉ added ∧ (x ∈ base ∨ x ∈ removed) then 0 else 1 := by
  have hremoved : insert x removed \ (base ∪ added.erase x) =
      if x ∈ base then removed \ (base ∪ added) else insert x (removed \ (base ∪ added)) := by
    split <;> ext y <;>
      simp only [Finset.mem_sdiff, Finset.mem_erase, Finset.mem_union, Finset.mem_insert]
    · by_cases hy : y = x <;> simp_all
    · by_cases hy : y = x <;> simp_all
  unfold surplus
  rw [hremoved, Finset.inter_erase]
  by_cases hbase : x ∈ base
  · rw [if_pos hbase]
    by_cases hadded : x ∈ added
    · have hcard := Finset.card_erase_add_one (Finset.mem_inter.mpr ⟨hbase, hadded⟩)
      rw [if_neg (by tauto)]
      omega
    · rw [Finset.erase_eq_of_notMem (by simp [hadded]), if_pos ⟨hadded, .inl hbase⟩]
      omega
  · rw [if_neg hbase, Finset.erase_eq_of_notMem (by simp [hbase])]
    by_cases hvain : x ∈ removed \ (base ∪ added)
    · have hmem : x ∈ removed ∧ x ∉ base ∧ x ∉ added := by simpa using hvain
      rw [Finset.insert_eq_of_mem hvain, if_pos ⟨hmem.2.2, .inr hmem.1⟩]
      omega
    · have hother : ¬ (x ∉ added ∧ (x ∈ base ∨ x ∈ removed)) := by
        rintro ⟨hadded, hor⟩
        exact hvain (by simpa [hbase, hadded] using hor)
      rw [Finset.card_insert_of_notMem hvain, if_neg hother]
      omega

end OpenctiLookup.Theory.CorrectedCount
