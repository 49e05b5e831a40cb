import OpenctiLookup.Opencti.Events
import OpenctiLookup.Theory.Runs

/-! One served set over a whole run. The stream writes its overlay, and a swap
puts other packed words under the same overlay, so an answer depends on the last
write of a fingerprint and, where there is none, on the snapshot served last. -/
namespace OpenctiLookup
open Python Theory

/-- What packed words are built from: some values and a ceiling on their number. -/
structure Snapshot where
  values : List Str
  maxEntries : Option ℕ

namespace Snapshot

variable (rt : Runtime) (snapshot : Snapshot)

def packed : List Word := MembershipSet.packedArray rt snapshot.values snapshot.maxEntries

/-- A fingerprint is that of one of the values, the first `maxEntries` of them. -/
def Has (fp : Word) : Prop :=
  ∃ value ∈ MembershipSet.seenValues snapshot.maxEntries snapshot.values 0,
    fingerprint rt value = fp

/-- A set as `build` returns it, or as `attach` maps the segment of such a build,
whatever else has happened on the host in between. -/
inductive Made : MembershipSet → Prop
  | built {name : Option Str} {overlayMax : ℤ} {segments segments' : Segments}
      {set : MembershipSet} :
      MembershipSet.build rt snapshot.values name overlayMax snapshot.maxEntries segments =
        .ok (set, segments') → Made set
  | attached {name : Str} {overlayMax overlayMax' : ℤ} {segments segments' later : Segments}
      {original set : MembershipSet} :
      MembershipSet.build rt snapshot.values (some name) overlayMax snapshot.maxEntries segments =
        .ok (original, segments') →
      later.find name = segments'.find name →
      MembershipSet.attach name original.count overlayMax' later = .ok set → Made set

end Snapshot

/-- A backend and what the packed words it serves were built from. -/
structure Served where
  split : SplitBackend
  snapshot : Snapshot

inductive ServedStep where
  | add (value : Str)
  | remove (value : Str)
  | swap (set : MembershipSet) (snapshot : Snapshot) (ready : Bool)

variable (rt : Runtime)

def Served.setMembership (s : Served) (set : MembershipSet) : Served :=
  { s with split := { s.split with membership := set } }

def servedSystem : System Served ServedStep where
  init s := s.snapshot.Made rt s.split.membership
  step s a s' :=
    match a with
    | .add value => s' = s.setMembership (s.split.membership.add rt value)
    | .remove value => s' = s.setMembership (s.split.membership.remove rt value)
    | .swap set snapshot ready =>
        snapshot.Made rt set ∧ s' = ⟨s.split.swapMembership set ready, snapshot⟩

def ServedStep.writes : ServedStep → List (Write Word)
  | .add value => [⟨fingerprint rt value, true⟩]
  | .remove value => [⟨fingerprint rt value, false⟩]
  | .swap _ _ _ => []

section Step

variable {rt} {snapshot : Snapshot} {set : MembershipSet} {s s' : Served}

theorem find_append_self {segments : Segments} {name : Str} (words : List Word)
    (hfree : ∀ segment ∈ segments, segment.name ≠ name) :
    Segments.find (segments ++ [⟨name, words⟩]) name = some ⟨name, words⟩ := by
  have hnone : List.find? (fun segment : Segment => decide (segment.name = name)) segments = none :=
    List.find?_eq_none.mpr fun segment hmem => by simpa using hfree segment hmem
  rw [Segments.find, List.find?_append, hnone]
  simp

/-- Built or attached, a set is fresh and has the packed words of its snapshot. -/
theorem made_spec (h : snapshot.Made rt set) :
    set.Ok ∧ set.Fresh ∧ set.packed = snapshot.packed rt := by
  cases h with
  | built hbuild =>
      obtain ⟨hok, hfresh, hpacked, -⟩ := MembershipSet.build_spec hbuild
      exact ⟨hok, hfresh, hpacked⟩
  | @attached name overlayMax overlayMax' segments segments' later original set
      hbuild hsame hattach =>
      unfold MembershipSet.attach at hattach
      rw [hsame] at hattach
      by_cases hempty : snapshot.packed rt = []
      · -- No segment was made, so what the name stands for has none of the words read.
        rw [MembershipSet.build_empty hempty] at hbuild
        cases hbuild
        cases hfind : segments.find name with
        | none =>
            rw [hfind] at hattach
            cases hattach
        | some segment =>
            rw [hfind] at hattach
            cases hattach
            refine ⟨⟨?_, ?_, by simp [MembershipSet.init]⟩, ⟨rfl, rfl⟩, ?_⟩
            · rw [MembershipSet.packed_init_some]
              exact List.Pairwise.nil
            · rw [MembershipSet.packed_init_some]
              rfl
            · rw [MembershipSet.packed_init_some, hempty]
              rfl
      · obtain ⟨hfree, rfl, rfl⟩ := (MembershipSet.build_named_iff hempty).mp hbuild
        rw [find_append_self _ hfree] at hattach
        cases hattach
        refine ⟨MembershipSet.ok_init _ _ (MembershipSet.pairwise_packedArray rt _ _) le_rfl,
          ⟨rfl, rfl⟩, ?_⟩
        rw [MembershipSet.packed_init_some]
        exact List.take_length

def Served.Sound (rt : Runtime) (s : Served) (writes : List (Write Word)) : Prop :=
  s.split.membership.Follows writes ∧ s.split.membership.packed = s.snapshot.packed rt

theorem sound_made (h : (servedSystem rt).init s) : s.Sound rt [] := by
  obtain ⟨hok, hfresh, hpacked⟩ := made_spec h
  exact ⟨MembershipSet.follows_fresh hok hfresh, hpacked⟩

theorem sound_servedStep {writes : List (Write Word)} {a : ServedStep} (h : s.Sound rt writes)
    (hstep : (servedSystem rt).step s a s') : s'.Sound rt (writes ++ a.writes rt) := by
  obtain ⟨hfollows, hpacked⟩ := h
  cases a with
  | add value =>
      cases hstep
      exact ⟨MembershipSet.follows_writeAll hfollows true [value], hpacked⟩
  | remove value =>
      cases hstep
      exact ⟨MembershipSet.follows_writeAll hfollows false [value], hpacked⟩
  | swap set snapshot ready =>
      obtain ⟨hmade, rfl⟩ := hstep
      obtain ⟨hok, hfresh, hnew⟩ := made_spec hmade
      rw [ServedStep.writes, List.append_nil]
      exact ⟨MembershipSet.follows_adoptOverlay hok hfresh hfollows, hnew⟩

theorem sound_served {trace : List ServedStep} (hrun : Reaches (servedSystem rt) anyStep trace s) :
    s.Sound rt (trace.flatMap (ServedStep.writes rt)) := by
  induction hrun with
  | init h => exact sound_made h
  | step _ _ hstep ih =>
      rw [List.flatMap_append, List.flatMap_singleton]
      exact sound_servedStep ih hstep

end Step

/-- The last write of a fingerprint decides, across every swap, and the snapshot
decides where there is none. -/
theorem contains_served_iff {trace : List ServedStep} {s : Served}
    (hrun : Reaches (servedSystem rt) anyStep trace s) :
    (∀ value, s.split.membership.contains rt value = true ↔
      lastWrite (trace.flatMap (ServedStep.writes rt)) (fingerprint rt value) = some true ∨
        lastWrite (trace.flatMap (ServedStep.writes rt)) (fingerprint rt value) = none ∧
          s.snapshot.Has rt (fingerprint rt value)) ∧
      s.split.membership.packed.Pairwise (· < ·) ∧
      Disjoint s.split.membership.added s.split.membership.tombstones := by
  obtain ⟨hfollows, hpacked⟩ := sound_served hrun
  have hok := hfollows.choose
  refine ⟨fun value => ?_, hok.sorted, hok.disjoint⟩
  rw [MembershipSet.contains_of_follows hfollows, hpacked, Snapshot.packed]
  cases lastWrite (trace.flatMap (ServedStep.writes rt)) (fingerprint rt value) with
  | none => simp [MembershipSet.mem_packedArray, Snapshot.Has]
  | some present => simp

theorem made_unnamed (values : List Str) : ∃ set, (Snapshot.mk values none).Made rt set := by
  obtain ⟨set, hbuild⟩ :
      ∃ set, MembershipSet.build rt values none 50000 none [] = .ok (set, []) := by
    unfold MembershipSet.build
    dsimp only
    split
    · exact ⟨_, rfl⟩
    · exact ⟨_, rfl⟩
  exact ⟨set, .built hbuild⟩

/-- A tombstone outlives the swap to a snapshot that has its value. -/
theorem contains_served_after_swap :
    ∃ trace s, Reaches (servedSystem sampleRuntime) anyStep trace s ∧
      s.split.membership.contains sampleRuntime "good.com" = true ∧
      s.split.membership.contains sampleRuntime "evil.com" = false := by
  obtain ⟨old, hold⟩ := made_unnamed sampleRuntime ["evil.com"]
  obtain ⟨new, hnew⟩ := made_unnamed sampleRuntime ["evil.com", "good.com"]
  have hinit : (servedSystem sampleRuntime).init ⟨{ membership := old, live := ⟨.init 8 8 1 1⟩ },
      ⟨["evil.com"], none⟩⟩ := hold
  have hstart : Reaches (servedSystem sampleRuntime) anyStep [] _ := .init hinit
  have hremoved := hstart.step trivial
    (show (servedSystem sampleRuntime).step _ (.remove "evil.com") _ from rfl)
  have hswapped := hremoved.step trivial
    (show (servedSystem sampleRuntime).step _ (.swap new ⟨["evil.com", "good.com"], none⟩ true) _
      from ⟨hnew, rfl⟩)
  have hgood : lastWrite [Write.mk (fingerprint sampleRuntime "evil.com") false]
      (fingerprint sampleRuntime "good.com") = none := by decide
  have hevil : lastWrite [Write.mk (fingerprint sampleRuntime "evil.com") false]
      (fingerprint sampleRuntime "evil.com") = some false := by decide
  obtain ⟨hcontains, -⟩ := contains_served_iff sampleRuntime hswapped
  refine ⟨_, _, hswapped, (hcontains "good.com").mpr (.inr ⟨hgood, "good.com", ?_, rfl⟩), ?_⟩
  · exact List.mem_cons_of_mem _ List.mem_cons_self
  · rw [← Bool.not_eq_true, hcontains]
    rintro (hadded | ⟨huntouched, -⟩)
    · exact absurd (hevil.symm.trans hadded) (by simp)
    · exact absurd (hevil.symm.trans huntouched) (by simp)

end OpenctiLookup
