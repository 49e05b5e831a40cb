import Mathlib.Data.List.Basic
import Mathlib.Data.List.Infix

/-! The distinct elements of a list in the order they first occur in, as a walk collects
them that stops when it has enough. -/
namespace OpenctiLookup.Theory.FirstSeen

universe u

variable {α : Type u}

/-- Elements a test lets through are the first of those it lets through. -/
theorem take_filter_of_take {p : α → Bool} {n : ℕ} {xs : List α} (h : ∀ x ∈ xs.take n, p x = true) :
    (xs.filter p).take n = xs.take n := by
  induction xs generalizing n with
  | nil => rfl
  | cons x xs ih =>
      cases n with
      | zero => rfl
      | succ n =>
          rw [List.take_succ_cons, List.forall_mem_cons] at h
          rw [List.filter_cons_of_pos h.1, List.take_succ_cons, List.take_succ_cons, ih h.2]

variable [BEq α]

def enlist (seen : List α) (x : α) : List α := if seen.contains x then seen else seen ++ [x]

theorem length_enlist_le (seen : List α) (x : α) : (enlist seen x).length ≤ seen.length + 1 := by
  unfold enlist
  split <;> simp

variable [LawfulBEq α]

theorem enlist_eraseDups (xs : List α) (x : α) :
    enlist xs.eraseDups x = (xs ++ [x]).eraseDups := by
  rw [enlist, List.eraseDups_append]
  by_cases h : x ∈ xs
  · simp [List.removeAll, h]
  · simp [List.removeAll, h, List.eraseDups_cons]

theorem foldl_enlist_eraseDups (xs ys : List α) :
    ys.foldl enlist xs.eraseDups = (xs ++ ys).eraseDups := by
  induction ys generalizing xs with
  | nil => rw [List.append_nil, List.foldl_nil]
  | cons y ys ih => rw [List.foldl_cons, enlist_eraseDups, ih, List.append_assoc,
      List.singleton_append]

theorem foldl_enlist (ys : List α) : ys.foldl enlist [] = ys.eraseDups :=
  foldl_enlist_eraseDups [] ys

theorem nodup_eraseDups (xs : List α) : xs.eraseDups.Nodup := by
  induction xs using List.reverseRecOn with
  | nil => simp
  | append_singleton xs x ih =>
      rw [← enlist_eraseDups, enlist]
      split
      · exact ih
      · next h =>
          rw [List.contains_iff_mem] at h
          simpa [List.nodup_append, ih] using fun y hy => ne_of_mem_of_not_mem hy h

theorem take_eraseDups_append {n : ℕ} {xs : List α} (h : n ≤ xs.eraseDups.length) (ys : List α) :
    (xs ++ ys).eraseDups.take n = xs.eraseDups.take n := by
  rw [List.eraseDups_append, List.take_append_of_le_length h]

theorem eraseDups_filter (p : α → Bool) (xs : List α) :
    (xs.filter p).eraseDups = xs.eraseDups.filter p := by
  induction xs using List.reverseRecOn with
  | nil => rfl
  | append_singleton xs x ih =>
      rw [← enlist_eraseDups, List.filter_append, enlist]
      cases hp : p x with
      | false => split <;> simp [hp, ih]
      | true =>
          rw [List.filter_cons_of_pos hp, List.filter_nil, ← enlist_eraseDups, enlist, ih]
          simp only [List.contains_iff_mem, List.mem_filter, hp, and_true]
          split
          · rfl
          · rw [List.filter_append, List.filter_cons_of_pos hp, List.filter_nil]

end OpenctiLookup.Theory.FirstSeen
