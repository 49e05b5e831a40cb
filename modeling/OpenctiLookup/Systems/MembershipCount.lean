import OpenctiLookup.Opencti.Events
import OpenctiLookup.Theory.CorrectedCount

/-! The size a membership set reports beside the number of fingerprints it reports as
present. The size is computed from three sizes, whatever the three have in common. -/
namespace OpenctiLookup
open Python Theory

/-- What changes a set after it is built. A carry-over brings in another set's overlay. -/
inductive OverlayOp where
  | add (value : Str)
  | remove (value : Str)
  | adopt (other : MembershipSet)

namespace MembershipSet

variable (rt : Runtime)

def update (set : MembershipSet) : OverlayOp → MembershipSet
  | .add value => set.add rt value
  | .remove value => set.remove rt value
  | .adopt other => set.adoptOverlay other

def updates (set : MembershipSet) (ops : List OverlayOp) : MembershipSet :=
  ops.foldl (update rt) set

def reported (set : MembershipSet) : Finset Word :=
  CorrectedCount.present set.packed.toFinset set.added set.tombstones

/-- `len(set)` and `stats().effective` are their number. -/
structure CountsReported (set : MembershipSet) : Prop where
  len : set.len = set.reported.card
  effective : set.stats.effective = set.reported.card

/-- An addition is there already or is new to the segment and not tombstoned, a removal is
not added and is in the segment or tombstoned, and a carry-over adds as many fingerprints of
the segment as it leaves tombstones of fingerprints that nothing has. -/
def Balanced (set : MembershipSet) : OverlayOp → Prop
  | .add value =>
      fingerprint rt value ∈ set.added ∨
        (fingerprint rt value ∉ set.packed ∧ fingerprint rt value ∉ set.tombstones)
  | .remove value =>
      fingerprint rt value ∉ set.added ∧
        (fingerprint rt value ∈ set.packed ∨ fingerprint rt value ∈ set.tombstones)
  | .adopt other =>
      (set.packed.toFinset ∩ ((set.added ∪ other.added) \ other.tombstones)).card =
        ((set.tombstones ∪ other.tombstones) \
          (set.packed.toFinset ∪ ((set.added ∪ other.added) \ other.tombstones))).card

/-- What is mapped is sorted and as long as the count says. -/
structure Mapped (set : MembershipSet) : Prop where
  sorted : set.packed.Pairwise (· < ·)
  count_eq : set.count = set.packed.length

variable {rt} {set : MembershipSet}

@[simp] theorem packed_update (op : OverlayOp) : (set.update rt op).packed = set.packed := by
  cases op <;> rfl

@[simp] theorem updates_nil : set.updates rt [] = set := rfl

@[simp] theorem updates_concat (ops : List OverlayOp) (op : OverlayOp) :
    set.updates rt (ops ++ [op]) = (set.updates rt ops).update rt op := by
  simp [updates]

theorem Mapped.update (h : set.Mapped) (op : OverlayOp) : (set.update rt op).Mapped := by
  cases op <;> exact ⟨h.sorted, h.count_eq⟩

theorem Mapped.updates (h : set.Mapped) (ops : List OverlayOp) : (set.updates rt ops).Mapped := by
  induction ops using List.reverseRecOn with
  | nil => exact h
  | append_singleton ops op ih =>
      rw [updates_concat]
      exact ih.update op

theorem contains_iff_reported (h : set.Mapped) (value : Str) :
    set.contains rt value = true ↔ fingerprint rt value ∈ set.reported := by
  have hmem : fingerprint rt value ∈ set.reported ↔
      (fingerprint rt value ∈ set.packed ∨ fingerprint rt value ∈ set.added) ∧
        fingerprint rt value ∉ set.tombstones := by
    simp [reported, CorrectedCount.present]
  rw [hmem, contains]
  by_cases hremoved : fingerprint rt value ∈ set.tombstones
  · simp [hremoved]
  · by_cases hadded : fingerprint rt value ∈ set.added
    · simp [hremoved, hadded]
    · have hfinds := bisectLeft_finds_iff h.sorted (fingerprint rt value)
      have hcount := h.count_eq
      unfold packed at hfinds hcount ⊢
      cases hview : set.view with
      | none => simp [hremoved, hadded]
      | some view =>
          simp only [hview, Option.getD_some] at hfinds hcount ⊢
          simp only [hremoved, hadded, if_false, or_false, not_false_eq_true, and_true,
            Bool.and_eq_true, decide_eq_true_iff, hfinds, hcount]
          exact ⟨fun hand => hand.2, fun hmem =>
            ⟨(List.getElem?_eq_some_iff.mp (hfinds.mpr hmem)).1, hmem⟩⟩

def surplus (set : MembershipSet) : ℤ :=
  CorrectedCount.surplus set.packed.toFinset set.added set.tombstones

theorem countsReported_iff (h : set.Mapped) : set.CountsReported ↔ set.surplus = 0 := by
  have hsize : set.len =
      CorrectedCount.sizeCount set.packed.toFinset set.added set.tombstones := by
    have hnodup : set.packed.Nodup := h.sorted.imp fun hlt => ne_of_lt hlt
    rw [len, CorrectedCount.sizeCount, List.toFinset_card_of_nodup hnodup, h.count_eq]
  rw [surplus, ← CorrectedCount.sizeCount_eq_card_iff, ← hsize]
  exact ⟨fun h => h.len, fun h => ⟨h, h⟩⟩

theorem surplus_update_iff (h : set.surplus = 0) (op : OverlayOp) :
    (set.update rt op).surplus = 0 ↔ set.Balanced rt op := by
  cases op with
  | add value =>
      have hstep := @CorrectedCount.surplus_add _ _ set.packed.toFinset set.added
        set.tombstones (fingerprint rt value)
      unfold surplus at h ⊢
      simp only [update, add, Balanced, packed] at hstep h ⊢
      rw [hstep, h]
      simp only [List.mem_toFinset]
      split <;> simp_all
  | remove value =>
      have hstep := @CorrectedCount.surplus_remove _ _ set.packed.toFinset set.added
        set.tombstones (fingerprint rt value)
      unfold surplus at h ⊢
      simp only [update, remove, Balanced, packed] at hstep h ⊢
      rw [hstep, h]
      simp only [List.mem_toFinset]
      split <;> simp_all
  | adopt other =>
      unfold surplus CorrectedCount.surplus
      simp only [update, adoptOverlay, Balanced, packed]
      omega

/-- In the runs from a fresh build, the set counts right in every state exactly when every
update is balanced. -/
theorem counts_reported_iff {values : List Str} {name : Option Str} {overlayMax : ℤ}
    {maxEntries : Option ℕ} {segments segments' : Segments}
    (h : build rt values name overlayMax maxEntries segments = .ok (set, segments'))
    (ops : List OverlayOp) :
    (∀ done rest, ops = done ++ rest → (set.updates rt done).CountsReported) ↔
      ∀ done op rest, ops = done ++ op :: rest → (set.updates rt done).Balanced rt op := by
  obtain ⟨hok, ⟨hadded, htombstones⟩, -, -⟩ := build_spec h
  have hmapped : set.Mapped := ⟨hok.sorted, hok.count_eq⟩
  have hfresh : set.surplus = 0 := by
    rw [surplus, hadded, htombstones]
    exact CorrectedCount.surplus_fresh _
  simp only [countsReported_iff (hmapped.updates _)]
  constructor
  · intro hcounts done op rest heq
    have hnext := hcounts (done ++ [op]) rest (by simp [heq])
    rw [updates_concat] at hnext
    exact (surplus_update_iff (hcounts done (op :: rest) heq) op).mp hnext
  · intro hbalanced done
    induction done using List.reverseRecOn with
    | nil => exact fun rest _ => hfresh
    | append_singleton done op ih =>
        intro rest heq
        have hsplit : ops = done ++ op :: rest := by simp [heq]
        rw [updates_concat]
        exact (surplus_update_iff (ih (op :: rest) hsplit) op).mpr (hbalanced done op rest hsplit)

/-- A name the segment lacks is added and one it has is removed. -/
theorem counts_reported_evil :
    ∃ set segments', build sampleRuntime ["evil.com"] none 50000 none [] = .ok (set, segments') ∧
      ∀ done rest, [.add "good.com", .remove "evil.com"] = done ++ rest →
        (set.updates sampleRuntime done).CountsReported := by
  have hbuild : build sampleRuntime ["evil.com"] none 50000 none [] = .ok (_, _) := rfl
  refine ⟨_, _, hbuild, (counts_reported_iff hbuild _).mpr ?_⟩
  intro done op rest heq
  rcases done with _ | ⟨first, _ | ⟨second, done⟩⟩
  · obtain ⟨rfl, -⟩ := List.cons.inj heq
    exact .inr (by decide)
  · obtain ⟨hfirst, hrest⟩ := List.cons.inj heq
    obtain ⟨rfl, -⟩ := List.cons.inj hrest
    rw [← hfirst]
    exact ⟨by decide, .inl (by decide)⟩
  · simp at heq

/-- Of an empty set a value is removed: the set counts minus one. -/
theorem removal_counts_negative :
    ¬ ∀ (rt : Runtime) (values : List Str) (name : Option Str) (overlayMax : ℤ)
      (maxEntries : Option ℕ) (segments segments' : Segments) (set : MembershipSet)
      (ops : List OverlayOp),
      build rt values name overlayMax maxEntries segments = .ok (set, segments') →
        (set.updates rt ops).CountsReported ∧ 0 ≤ (set.updates rt ops).len := by
  intro hall
  have hbuild : build sampleRuntime [] none 50000 none [] = .ok (_, _) := rfl
  have hlen := (hall _ _ _ _ _ _ _ _ [.remove "evil.com"] hbuild).2
  exact absurd hlen (by decide)

end MembershipSet

end OpenctiLookup
