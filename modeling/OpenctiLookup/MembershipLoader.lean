import OpenctiLookup.Backends.SharedState
import OpenctiLookup.Bootstrap

/-! `membership_loader.py`: one worker of a host builds and publishes, the
others attach. -/
namespace OpenctiLookup
open Python

inductive Role where
  | builder
  | reader
  | solo
  | none
deriving DecidableEq, Repr

structure LoadedMembership where
  membership : Option MembershipSet
  role : Role
  /-- The generation built, or attached to. -/
  generation : ℕ := 0
deriving DecidableEq

/-- A set built into its segment and not yet published. -/
structure BuiltGeneration where
  membership : MembershipSet
  state : SharedMembershipState
  host : Host
deriving DecidableEq

variable (rt : Runtime) (settings : Settings) (client : BootstrapClient) (now : ℚ)

/-- Build generation `generation` into its own segment. -/
def buildGeneration (maxEntries : Option ℕ) (generation : ℕ) (host : Host) :
    Py BuiltGeneration := do
  let name := segmentName generation
  let (membership, report, segments) ←
    buildMembership rt settings client maxEntries (some name) host.segments
  let state : SharedMembershipState :=
    { shmName := membership.shmName.getD name
      count := membership.count
      generation := generation
      builtAt := now
      corpus := report.observables }
  pure ⟨membership, state, { host with segments := segments }⟩

variable {rt settings client now} in
theorem buildGeneration_eq_ok {maxEntries : Option ℕ} {generation : ℕ} {host : Host}
    {built : BuiltGeneration}
    (h : buildGeneration rt settings client now maxEntries generation host = .ok built) :
    ∃ report segments, buildMembership rt settings client maxEntries (some (segmentName generation))
        host.segments = .ok (built.membership, report, segments) ∧
      built.host = { host with segments := segments } ∧ built.state.generation = generation ∧
      built.state.shmName = built.membership.shmName.getD (segmentName generation) ∧
      built.state.count = built.membership.count := by
  unfold buildGeneration at h
  obtain ⟨⟨membership, report, segments⟩, hbuild, h⟩ := bind_eq_ok_iff.mp h
  cases h
  exact ⟨report, segments, hbuild, rfl, rfl, rfl, rfl⟩

def keepBeforeBuild (host : Host) : List Str :=
  segmentName host.nextGeneration :: (host.read.map SharedMembershipState.shmName).toList

/-- `_build_and_publish` up to the call of `publish`. -/
def prepareGeneration (maxEntries : Option ℕ) (host : Host) : Py BuiltGeneration :=
  buildGeneration rt settings client now maxEntries host.nextGeneration
    (host.sweepStaleSegments (keepBeforeBuild host))

def buildAndPublish (maxEntries : Option ℕ) (host : Host) : Py (LoadedMembership × Host) := do
  let built ← prepareGeneration rt settings client now maxEntries host
  pure (⟨some built.membership, .builder, built.state.generation⟩, built.host.publish built.state)

/-- `_attach`: a segment that is gone is no set, not an error. -/
def attachTo (state : SharedMembershipState) (segments : Segments) : Option MembershipSet :=
  (MembershipSet.attach state.shmName state.count settings.membershipOverlayMax segments).toOption

/-- Whether `load` goes ahead with a corpus of this size. -/
def affordable (corpus : ℤ) (budgetBytes : ℕ) : Bool :=
  decide (corpus * itemSize ≤ budgetBytes) || decide (settings.membershipMode = .always)

/-- `load`. `lockFree` says whether `try_become_builder` succeeds, and `waited` is
the host as `wait_for` leaves it to a worker that lost. -/
def load (budgetBytes : ℕ) (lockFree : Bool) (waited host : Host) :
    Py (LoadedMembership × Host) := do
  let corpus ← countObservables rt client
  if !affordable settings corpus budgetBytes then pure (⟨none, .none, 0⟩, host)
  else if !settings.membershipShared then
    let (membership, _, _) ←
      buildMembership rt settings client (maxEntriesOf budgetBytes) none host.segments
    pure (⟨some membership, .solo, 0⟩, host)
  else if lockFree then buildAndPublish rt settings client now (maxEntriesOf budgetBytes) host
  else
    match waited.read with
    | some state =>
        match attachTo settings state waited.segments with
        | some membership => pure (⟨some membership, .reader, state.generation⟩, waited)
        | none => pure (⟨none, .none, 0⟩, waited)
    | none => pure (⟨none, .none, 0⟩, waited)

variable {rt settings client now} in
/-- A load builds and publishes, builds for itself, attaches or comes to nothing. -/
theorem load_eq_ok {budgetBytes : ℕ} {lockFree : Bool} {waited host host' : Host}
    {loaded : LoadedMembership}
    (h : load rt settings client now budgetBytes lockFree waited host = .ok (loaded, host')) :
    (∃ built, prepareGeneration rt settings client now (maxEntriesOf budgetBytes) host = .ok built ∧
        loaded = ⟨some built.membership, .builder, built.state.generation⟩ ∧
        host' = built.host.publish built.state) ∨
      (∃ set report segments, buildMembership rt settings client (maxEntriesOf budgetBytes) none
          host.segments = .ok (set, report, segments) ∧
        loaded = ⟨some set, .solo, 0⟩ ∧ host' = host) ∨
      (∃ state set, waited.read = some state ∧ attachTo settings state waited.segments = some set ∧
        loaded = ⟨some set, .reader, state.generation⟩ ∧ host' = waited) ∨
      loaded = ⟨none, .none, 0⟩ := by
  unfold load at h
  obtain ⟨corpus, -, h⟩ := bind_eq_ok_iff.mp h
  split at h
  · cases h
    exact .inr (.inr (.inr rfl))
  · split at h
    · obtain ⟨⟨set, report, segments⟩, hbuild, h⟩ := bind_eq_ok_iff.mp h
      cases h
      exact .inr (.inl ⟨set, report, segments, hbuild, rfl, rfl⟩)
    · split at h
      · obtain ⟨built, hbuilt, h⟩ := bind_eq_ok_iff.mp h
        cases h
        exact .inl ⟨built, hbuilt, rfl, rfl⟩
      · split at h
        · rename_i state hread
          split at h
          · rename_i set hattach
            cases h
            exact .inr (.inr (.inl ⟨state, set, hread, hattach, rfl, rfl⟩))
          · cases h
            exact .inr (.inr (.inr rfl))
        · cases h
          exact .inr (.inr (.inr rfl))

variable {rt settings client now} in
theorem buildMembership_of_load {budgetBytes : ℕ} {lockFree : Bool} {waited host host' : Host}
    {loaded : LoadedMembership} {set : MembershipSet}
    (h : load rt settings client now budgetBytes lockFree waited host = .ok (loaded, host'))
    (hrole : loaded.role ≠ .reader) (hset : loaded.membership = some set) :
    ∃ name segments report segments',
      buildMembership rt settings client (maxEntriesOf budgetBytes) name segments =
        .ok (set, report, segments') := by
  rcases load_eq_ok h with ⟨built, hbuilt, rfl, -⟩ | ⟨built, report, segments, hbuild, rfl, -⟩ |
    ⟨state, built, -, -, rfl, -⟩ | rfl
  · cases hset
    obtain ⟨report, segments, hbuild, -⟩ := buildGeneration_eq_ok hbuilt
    exact ⟨_, _, _, _, hbuild⟩
  · cases hset
    exact ⟨_, _, _, _, hbuild⟩
  · exact absurd rfl hrole
  · cases hset

/-- One poll of `watch_for_new_generation`: the set to adopt, if a newer
generation can be attached. -/
def pollGeneration (host : Host) (generation : ℕ) : Option (MembershipSet × ℕ) :=
  match host.read with
  | none => none
  | some state =>
      if state.generation ≤ generation then none
      else (attachTo settings state host.segments).map fun set => (set, state.generation)

end OpenctiLookup
