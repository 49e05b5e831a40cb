import OpenctiLookup.Systems.Failover
import OpenctiLookup.Systems.Published

/-! The sets the workers of a host begin to serve. A reader reads the state file and attaches in
two steps: between them a builder may publish, sweep or die, and another take over. -/
namespace OpenctiLookup
open Python Theory

def Segments.Named (segments : Segments) : Prop :=
  ∀ a ∈ segments, ∀ b ∈ segments, a.name = b.name → a = b

/-- A worker begins to serve a set, as that of a generation. -/
structure Adoption where
  worker : ℕ
  generation : ℕ
  set : MembershipSet

structure Adoptions where
  failover : Failover
  /-- What a worker has read from the state file and has not attached to yet. -/
  observed : ℕ → Option SharedMembershipState
  adopted : List Adoption
  /-- The published states, with the words each was published for. -/
  record : List (SharedMembershipState × List Word)

namespace Activity

/-- The build it has ended and not published. -/
def built : Activity → Option BuiltGeneration
  | working _ _ (.built _ made) => some made
  | _ => none

/-- The build it has published and does not serve yet. -/
def published : Activity → Option BuiltGeneration
  | working _ _ (.published _ made) => some made
  | _ => none

end Activity

namespace Failover

variable (s : Failover)

end Failover

namespace Adoptions

variable (s : Adoptions)

def adoptBuilt (id : ℕ) : List Adoption :=
  match (s.failover.workers id).published with
  | some made => s.adopted ++ [⟨id, made.state.generation, made.membership⟩]
  | none => s.adopted

def after (step : FailoverStep) (failover : Failover) : Adoptions where
  failover := failover
  observed :=
    match step with
    | .exit id => Function.update s.observed id none
    | _ => s.observed
  adopted :=
    match step with
    | .serve id | .swap id => s.adoptBuilt id
    | _ => s.adopted
  record :=
    match step with
    | .publish id =>
        match (s.failover.workers id).built with
        | some made => s.record ++ [(made.state, made.membership.packed)]
        | none => s.record
    | _ => s.record

/-- `_attach` to what was observed, with what has become of the segments since. -/
def attach (settings : Settings) (id : ℕ) (state : SharedMembershipState) : Adoptions :=
  match attachTo settings state s.failover.host.segments with
  | some set =>
      { s with
        failover := s.failover.act id (.follower state.generation)
        observed := Function.update s.observed id none
        adopted := s.adopted ++ [⟨id, state.generation, set⟩] }
  | none => { s with observed := Function.update s.observed id none }

end Adoptions

variable (rt : Runtime) (settings : Settings) (budgetBytes : ℕ)

/-- The set has the words of a state, and nothing over them. -/
structure MembershipSet.Mirrors (set : MembershipSet) (state : SharedMembershipState)
    (words : List Word) : Prop where
  fresh : set.Fresh
  count : set.count = state.count
  view : set.view = if state.count = 0 then none else some words

section Sets

variable {rt settings} {set set' : MembershipSet} {state : SharedMembershipState}
  {words : List Word}

theorem mem_of_find {segments : Segments} {name : Str} {segment : Segment}
    (h : segments.find name = some segment) : segment ∈ segments ∧ segment.name = name :=
  ⟨List.mem_of_find?_eq_some h, by simpa using List.find?_some h⟩

theorem Segments.Named.find {segments : Segments} (h : segments.Named) {segment : Segment}
    (hsegment : segment ∈ segments) : segments.find segment.name = some segment := by
  cases hfind : segments.find segment.name with
  | none =>
      have hnot := List.find?_eq_none.mp hfind segment hsegment
      simp at hnot
  | some found =>
      obtain ⟨hfound, hname⟩ := mem_of_find hfind
      rw [h found hfound segment hsegment hname]

end Sets

section Invariant

variable {rt settings budgetBytes} {s s' : Adoptions}

/-- What is recorded of a published state is what any segment of its name has, and what was
adopted as its generation. -/
structure Adoptions.Sound (s : Adoptions) : Prop where
  failover : s.failover.Sound
  named : s.failover.host.segments.Named
  record : s.record.map Prod.fst = s.failover.published
  names : ∀ state ∈ s.failover.published, state.shmName = segmentName state.generation
  holds : ∀ e ∈ s.record, ∀ segment ∈ s.failover.host.segments, segment.name = e.1.shmName →
    segment.words.take e.1.count = e.2
  built : ∀ id made, (s.failover.workers id).built = some made →
    made.membership.Mirrors made.state made.membership.packed ∧
      ∀ segment ∈ s.failover.host.segments, segment.name = made.state.shmName →
        segment.words.take made.state.count = made.membership.packed
  published : ∀ id made, (s.failover.workers id).published = some made →
    (made.state, made.membership.packed) ∈ s.record ∧
      made.membership.Mirrors made.state made.membership.packed
  observed : ∀ id state, s.observed id = some state → state ∈ s.failover.published
  adopted : ∀ a ∈ s.adopted, ∃ e ∈ s.record, e.1.generation = a.generation ∧ a.set.Mirrors e.1 e.2

end Invariant

section AdoptionSample

end AdoptionSample

end OpenctiLookup
