import Mathlib.Data.Finset.Card

/-! A set under last-write-wins updates: a fixed base, and over it the elements
last written as present and last written as absent. The overlay answers for
what it has seen and the base for the rest. -/
namespace OpenctiLookup.Theory

universe u

/-- A write of one element, as present or as absent. -/
structure Write (α : Type u) where
  element : α
  present : Bool
deriving DecidableEq

/-- What the last write of an element says of it, if any write mentions it. -/
def lastWrite {α : Type u} [DecidableEq α] : List (Write α) → α → Option Bool
  | [], _ => none
  | w :: writes, x => (lastWrite writes x).or (if x = w.element then some w.present else none)

theorem lastWrite_append {α : Type u} [DecidableEq α] (first second : List (Write α)) (x : α) :
    lastWrite (first ++ second) x = (lastWrite second x).or (lastWrite first x) := by
  induction first with
  | nil => simp [lastWrite]
  | cons w first ih => rw [List.cons_append, lastWrite, ih, lastWrite, Option.or_assoc]

/-- An element is never recorded both ways. -/
structure Overlay (α : Type u) [DecidableEq α] where
  added : Finset α
  removed : Finset α
  disjoint : Disjoint added removed

namespace Overlay

variable {α : Type u} [DecidableEq α]

def empty : Overlay α := ⟨∅, ∅, by simp⟩

def verdict (o : Overlay α) (x : α) : Option Bool :=
  if x ∈ o.removed then some false else if x ∈ o.added then some true else none

def touched (o : Overlay α) : Finset α := o.added ∪ o.removed

def Holds (base : α → Prop) (o : Overlay α) (x : α) : Prop :=
  match o.verdict x with
  | some present => present = true
  | none => base x

def write (o : Overlay α) (w : Write α) : Overlay α :=
  if w.present then
    ⟨insert w.element o.added, o.removed.erase w.element, by
      rw [Finset.disjoint_insert_left]
      exact ⟨by simp, o.disjoint.mono_right (Finset.erase_subset _ _)⟩⟩
  else
    ⟨o.added.erase w.element, insert w.element o.removed, by
      rw [Finset.disjoint_insert_right]
      exact ⟨by simp, o.disjoint.mono_left (Finset.erase_subset _ _)⟩⟩

def replay (o : Overlay α) (writes : List (Write α)) : Overlay α := writes.foldl write o

@[simp] theorem verdict_empty (x : α) : (empty : Overlay α).verdict x = none := by
  simp [verdict, empty]

@[simp] theorem replay_nil (o : Overlay α) : o.replay [] = o := rfl

@[simp] theorem replay_cons (o : Overlay α) (w : Write α) (writes : List (Write α)) :
    o.replay (w :: writes) = (o.write w).replay writes := rfl

theorem replay_append (o : Overlay α) (first second : List (Write α)) :
    o.replay (first ++ second) = (o.replay first).replay second := List.foldl_append

theorem verdict_eq_some_true {o : Overlay α} {x : α} : o.verdict x = some true ↔ x ∈ o.added := by
  unfold verdict
  have hdisjoint : x ∈ o.added → x ∉ o.removed := fun h => Finset.disjoint_left.mp o.disjoint h
  split
  · rename_i h
    simpa using fun hadded => hdisjoint hadded h
  · split <;> simpa

theorem verdict_eq_some_false {o : Overlay α} {x : α} :
    o.verdict x = some false ↔ x ∈ o.removed := by
  unfold verdict
  split
  · simpa
  · split <;> simpa

theorem mem_touched_write (o : Overlay α) (w : Write α) :
    (o.write w).touched = insert w.element o.touched := by
  ext x
  unfold write touched
  by_cases hx : x = w.element
  · cases w.present <;> simp [hx]
  · cases w.present <;> simp [hx]

theorem verdict_write (o : Overlay α) (w : Write α) (x : α) :
    (o.write w).verdict x = if x = w.element then some w.present else o.verdict x := by
  by_cases hx : x = w.element
  · subst hx
    cases hp : w.present <;> simp [write, verdict, hp]
  · cases hp : w.present <;> simp [write, verdict, hp, hx]

/-- A replay leaves each element as last written. -/
theorem verdict_replay (o : Overlay α) (writes : List (Write α)) (x : α) :
    (o.replay writes).verdict x = (lastWrite writes x).or (o.verdict x) := by
  induction writes generalizing o with
  | nil => simp [lastWrite]
  | cons w writes ih =>
      rw [replay_cons, ih, verdict_write, lastWrite, Option.or_assoc]
      congr 1
      split <;> simp

theorem touched_replay (o : Overlay α) (writes : List (Write α)) :
    (o.replay writes).touched = o.touched ∪ (writes.map Write.element).toFinset := by
  induction writes generalizing o with
  | nil => simp
  | cons w writes ih =>
      rw [replay_cons, ih, mem_touched_write]
      ext x
      simp only [Finset.mem_union, Finset.mem_insert, List.map_cons, List.toFinset_cons]
      tauto

theorem verdict_replay_of_not_mem (o : Overlay α) (writes : List (Write α)) (x : α)
    (hx : ∀ w ∈ writes, w.element ≠ x) : (o.replay writes).verdict x = o.verdict x := by
  induction writes generalizing o with
  | nil => rfl
  | cons w writes ih =>
      rw [replay_cons, ih _ fun w hw => hx w (List.mem_cons_of_mem _ hw), verdict_write,
        if_neg (hx w List.mem_cons_self).symm]

theorem verdict_replay_of_mem (o : Overlay α) (writes : List (Write α)) (x : α) (present : Bool)
    (hall : ∀ w ∈ writes, w.element = x → w.present = present)
    (hex : ∃ w ∈ writes, w.element = x) : (o.replay writes).verdict x = some present := by
  induction writes generalizing o with
  | nil => simp at hex
  | cons w writes ih =>
      rw [replay_cons]
      by_cases hlater : ∃ w ∈ writes, w.element = x
      · exact ih _ (fun w hw => hall w (List.mem_cons_of_mem _ hw)) hlater
      · have hhead : w.element = x := by
          obtain ⟨w', hw', he⟩ := hex
          rcases List.mem_cons.mp hw' with rfl | hmem
          · exact he
          · exact absurd ⟨w', hmem, he⟩ hlater
        rw [verdict_replay_of_not_mem _ _ _ fun w' hw' he => hlater ⟨w', hw', he⟩, verdict_write,
          if_pos hhead.symm, hall w List.mem_cons_self hhead]

theorem holds_congr {base base' : α → Prop} {o o' : Overlay α} {x : α}
    (hverdict : o.verdict x = o'.verdict x) (hbase : o.verdict x = none → (base x ↔ base' x)) :
    Holds base o x ↔ Holds base' o' x := by
  unfold Holds
  rw [← hverdict]
  cases hv : o.verdict x with
  | none => exact hbase hv
  | some present => rfl

theorem holds_of_verdict {base : α → Prop} {o : Overlay α} {x : α} {present : Bool}
    (h : o.verdict x = some present) : Holds base o x ↔ present = true := by
  rw [Holds, h]

theorem holds_of_untouched {base : α → Prop} {o : Overlay α} {x : α} (h : o.verdict x = none) :
    Holds base o x ↔ base x := by
  rw [Holds, h]

theorem holds_iff {base : α → Prop} {o : Overlay α} {x : α} :
    Holds base o x ↔ x ∈ o.added ∨ x ∉ o.removed ∧ base x := by
  rw [← verdict_eq_some_true, ← verdict_eq_some_false]
  cases h : o.verdict x with
  | none => simp [holds_of_untouched h]
  | some present => cases present <;> simp [holds_of_verdict h]

end Overlay

end OpenctiLookup.Theory
