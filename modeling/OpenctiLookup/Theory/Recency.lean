import Mathlib.Data.Finset.Card
import Mathlib.Data.List.Nodup

/-! An association list in the order of last use, the oldest entry first, cut to a
length from the old end. An entry stays for as long as fewer keys than fit have been used
after it. -/
namespace OpenctiLookup.Theory.Recency

universe u v

variable {κ : Type u} {β : Type v} {l l' : List (κ × β)} {k other : κ} {v w : β}
variable {newer wider : Finset κ} {n : ℕ}

/-- The newest `n` entries. -/
def bound (n : ℕ) (l : List (κ × β)) : List (κ × β) := l.drop (l.length - n)

def Keyed (l : List (κ × β)) : Prop := (l.map Prod.fst).Nodup

def Placed (l : List (κ × β)) (k : κ) (v : β) (newer : Finset κ) : Prop :=
  ∃ before after, l = before ++ (k, v) :: after ∧ ∀ e ∈ after, e.1 ∈ newer

theorem mem_of_mem_bound {e : κ × β} (h : e ∈ bound n l) : e ∈ l := List.mem_of_mem_drop h

theorem length_bound_le : (bound n l).length ≤ n := by
  simp only [bound, List.length_drop]
  omega

theorem Keyed.sublist (h : Keyed l) (hsub : l'.Sublist l) : Keyed l' :=
  List.Nodup.sublist (hsub.map Prod.fst) h

theorem Keyed.bound (h : Keyed l) : Keyed (bound n l) := h.sublist (List.drop_sublist _ _)

theorem Placed.mem (h : Placed l k v newer) : (k, v) ∈ l := by
  obtain ⟨before, after, rfl, -⟩ := h
  simp

theorem Placed.mono (h : Placed l k v newer) (hsub : newer ⊆ wider) : Placed l k v wider := by
  obtain ⟨before, after, rfl, hafter⟩ := h
  exact ⟨before, after, rfl, fun e he => hsub (hafter e he)⟩

/-- With one entry a key, looking a key up finds its entry. -/
theorem lookup_of_mem [BEq κ] [LawfulBEq κ] (hkeys : Keyed l) (h : (k, v) ∈ l) :
    l.lookup k = some v := by
  obtain ⟨before, after, rfl⟩ := List.append_of_mem h
  rw [List.lookup_eq_some_iff]
  refine ⟨before, after, rfl, ?_⟩
  intro e he
  rw [bne_iff_ne]
  unfold Keyed at hkeys
  rw [List.map_append, List.nodup_append] at hkeys
  exact (hkeys.2.2 e.1 (List.mem_map_of_mem he) k (by simp)).symm

variable [DecidableEq κ]

/-- Cut to a length, an entry stays unless as many keys have been used after it. -/
theorem Placed.bound (hkeys : Keyed l) (h : Placed l k v newer) :
    Placed (bound n l) k v newer ∨ n ≤ newer.card := by
  obtain ⟨before, after, rfl, hafter⟩ := h
  by_cases hfits : after.length < n
  · left
    refine ⟨before.drop ((before ++ (k, v) :: after).length - n), after, ?_, hafter⟩
    rw [Recency.bound, List.drop_append_of_le_length]
    simp only [List.length_append, List.length_cons]
    omega
  · right
    have hnodup : (after.map Prod.fst).Nodup := by
      apply List.Nodup.sublist _ hkeys
      apply List.Sublist.map
      exact (List.sublist_cons_self _ _).trans (List.sublist_append_right _ _)
    have hcard : (after.map Prod.fst).toFinset.card = after.length := by
      rw [List.toFinset_card_of_nodup hnodup, List.length_map]
    have hsub : (after.map Prod.fst).toFinset ⊆ newer := by
      intro key hkey
      obtain ⟨e, he, rfl⟩ := List.mem_map.mp (List.mem_toFinset.mp hkey)
      exact hafter e he
    have hle := Finset.card_le_card hsub
    omega

def remove (k : κ) (l : List (κ × β)) : List (κ × β) := l.filter fun e => e.1 ≠ k

def touch (k : κ) (v : β) (l : List (κ × β)) : List (κ × β) := remove k l ++ [(k, v)]

@[simp] theorem mem_remove {e : κ × β} : e ∈ remove k l ↔ e ∈ l ∧ e.1 ≠ k := by
  simp [remove]

theorem mem_touch {e : κ × β} : e ∈ touch k v l ↔ e ∈ l ∧ e.1 ≠ k ∨ e = (k, v) := by
  simp [touch]

theorem Keyed.remove (h : Keyed l) : Keyed (remove k l) := h.sublist List.filter_sublist

theorem Keyed.touch (h : Keyed l) : Keyed (touch k v l) := by
  unfold Keyed Recency.touch
  rw [List.map_append, List.nodup_append]
  refine ⟨h.remove, by simp, ?_⟩
  intro a ha b hb
  obtain ⟨e, he, rfl⟩ := List.mem_map.mp ha
  simp only [List.map_cons, List.map_nil, List.mem_singleton] at hb
  rw [hb]
  exact (mem_remove.mp he).2

theorem placed_touch : Placed (touch k v l) k v ∅ :=
  ⟨remove k l, [], rfl, fun _ he => absurd he List.not_mem_nil⟩

theorem Placed.remove (h : Placed l k v newer) (hne : k ≠ other) :
    Placed (remove other l) k v newer := by
  obtain ⟨before, after, rfl, hafter⟩ := h
  refine ⟨Recency.remove other before, Recency.remove other after, ?_, ?_⟩
  · simp [Recency.remove, hne]
  · intro e he
    exact hafter e (mem_remove.mp he).1

theorem Placed.touch (h : Placed l k v newer) (hne : k ≠ other) :
    Placed (touch other w l) k v (insert other newer) := by
  obtain ⟨before, after, heq, hafter⟩ := h.remove hne
  refine ⟨before, after ++ [(other, w)], ?_, ?_⟩
  · simp [Recency.touch, heq]
  · intro e he
    rcases List.mem_append.mp he with he | he
    · exact Finset.mem_insert_of_mem (hafter e he)
    · rw [List.mem_singleton.mp he]
      exact Finset.mem_insert_self _ _

end OpenctiLookup.Theory.Recency
