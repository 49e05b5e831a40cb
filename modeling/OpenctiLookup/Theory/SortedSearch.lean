import Mathlib.Data.List.Dedup
import Mathlib.Data.List.Sort
import Mathlib.Order.Basic

/-! Sorted arrays without repetition: building one from any list, and finding
an element by bisection. -/
namespace OpenctiLookup.Theory

universe u

variable {α : Type u} [LinearOrder α]

/-- `numpy.unique`: sorted, each element once. -/
def unique (xs : List α) : List α := (xs.insertionSort (· ≤ ·)).dedup

/-- `bisect.bisect_left` on the half-open interval from `lo` to `hi`. The fuel
is spent one unit for each halving, so the length of the interval is enough. -/
def bisectLeftFrom (xs : List α) (x : α) : Nat → Nat → Nat → Nat
  | 0, lo, _ => lo
  | fuel + 1, lo, hi =>
      if lo < hi then
        match xs[(lo + hi) / 2]? with
        | none => lo
        | some y =>
            if y < x then bisectLeftFrom xs x fuel ((lo + hi) / 2 + 1) hi
            else bisectLeftFrom xs x fuel lo ((lo + hi) / 2)
      else lo

def bisectLeft (xs : List α) (x : α) : Nat := bisectLeftFrom xs x xs.length 0 xs.length

@[simp] theorem mem_unique {xs : List α} {x : α} : x ∈ unique xs ↔ x ∈ xs := by
  simp [unique]

theorem length_unique_le (xs : List α) : (unique xs).length ≤ xs.length :=
  (List.dedup_sublist _).length_le.trans_eq (List.length_insertionSort _ xs)

theorem pairwise_unique (xs : List α) : (unique xs).Pairwise (· < ·) := by
  have hsorted : (unique xs).Pairwise (· ≤ ·) :=
    List.Pairwise.sublist (List.dedup_sublist _) (List.pairwise_insertionSort _ _)
  have hdistinct : (unique xs).Pairwise (· ≠ ·) := List.nodup_dedup _
  exact (hsorted.and hdistinct).imp fun h => lt_of_le_of_ne h.1 h.2

theorem unique_eq_nil_iff {xs : List α} : unique xs = [] ↔ xs = [] := by
  simp only [List.eq_nil_iff_forall_not_mem, mem_unique]

/-- What bisection keeps: everything left of the interval is smaller than the
element sought and everything right of it is not. -/
structure Bracketed (xs : List α) (x : α) (lo hi : Nat) : Prop where
  ordered : lo ≤ hi
  inside : hi ≤ xs.length
  below : ∀ i (h : i < xs.length), i < lo → xs[i] < x
  above : ∀ i (h : i < xs.length), hi ≤ i → x ≤ xs[i]

theorem getElem_le_of_pairwise {xs : List α} (hs : xs.Pairwise (· < ·)) {i j : Nat} (hij : i ≤ j)
    (hj : j < xs.length) : xs[i] ≤ xs[j] := by
  rcases Nat.lt_or_eq_of_le hij with h | rfl
  · exact (List.pairwise_iff_getElem.mp hs i j (by omega) hj h).le
  · exact le_rfl

theorem bisectLeftFrom_bracketed {xs : List α} {x : α} (hs : xs.Pairwise (· < ·)) (fuel : Nat) :
    ∀ lo hi, Bracketed xs x lo hi → hi - lo ≤ fuel →
      Bracketed xs x (bisectLeftFrom xs x fuel lo hi) (bisectLeftFrom xs x fuel lo hi) := by
  induction fuel with
  | zero =>
      intro lo hi h hfuel
      have hends : hi = lo := by have := h.ordered; omega
      rw [bisectLeftFrom]
      exact hends ▸ h
  | succ fuel ih =>
      intro lo hi h hfuel
      rw [bisectLeftFrom]
      by_cases hlt : lo < hi
      · have hmid : (lo + hi) / 2 < xs.length := by have := h.inside; omega
        rw [if_pos hlt, List.getElem?_eq_getElem hmid]
        dsimp only
        by_cases hy : xs[(lo + hi) / 2] < x
        · rw [if_pos hy]
          refine ih _ _ ⟨by omega, h.inside, fun i hi hlo => ?_, h.above⟩ (by omega)
          exact (getElem_le_of_pairwise hs (by omega) hmid).trans_lt hy
        · rw [if_neg hy]
          refine ih _ _ ⟨by omega, by omega, h.below, fun i hi hle => ?_⟩ (by omega)
          exact (not_lt.mp hy).trans (getElem_le_of_pairwise hs hle hi)
      · have hends : hi = lo := by have := h.ordered; omega
        rw [if_neg hlt]
        exact hends ▸ h

/-- Bisection finds an element of a sorted array exactly when it is there. -/
theorem bisectLeft_finds_iff {xs : List α} (hs : xs.Pairwise (· < ·)) (x : α) :
    xs[bisectLeft xs x]? = some x ↔ x ∈ xs := by
  have hb : Bracketed xs x (bisectLeft xs x) (bisectLeft xs x) :=
    bisectLeftFrom_bracketed hs _ _ _ ⟨by omega, le_rfl, by omega, by omega⟩ (by omega)
  constructor
  · exact List.mem_of_getElem?
  · intro hx
    obtain ⟨i, hi, hget⟩ := List.getElem_of_mem hx
    -- The index of `x` is neither left nor right of the split point.
    have hle : bisectLeft xs x ≤ i := by
      by_contra hlt
      exact absurd hget (hb.below i hi (by omega)).ne
    have hlt : bisectLeft xs x < xs.length := by omega
    have hfound : xs[bisectLeft xs x] = x :=
      le_antisymm (hget ▸ getElem_le_of_pairwise hs hle hi) (hb.above _ hlt le_rfl)
    rw [List.getElem?_eq_getElem hlt, hfound]

end OpenctiLookup.Theory
