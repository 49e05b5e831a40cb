import OpenctiLookup.Opencti.Events
import OpenctiLookup.Theory.Runs

/-! A membership set driven by the live stream, beside the entities that exist
in OpenCTI. Deleting an entity tombstones its values for every other entity
that carries them, so the set follows the entities exactly as long as no delete
shares a key with an entity that stays. -/
namespace OpenctiLookup
open Python Theory

/-- The entities created and not deleted, and the worker that follows them. -/
structure EntityState where
  live : Str → Option StixObject
  consumer : StreamConsumer
  worker : Worker

variable (rt : Runtime) (settings : Settings)

namespace Change

def liveAfter (change : Change) (live : Str → Option StixObject) : Str → Option StixObject :=
  fun id => if id = change.id then
    if change.kind = .delete then none else some change.object
  else live id

def next (change : Change) (s : EntityState) : EntityState where
  live := change.liveAfter s.live
  consumer := (change.handled rt settings s.consumer s.worker).consumer
  worker := (change.handled rt settings s.consumer s.worker).target

end Change

/-- Runs start from a set built from a corpus that holds the values of the
entities there are. -/
def entitySystem : System EntityState Change where
  init s :=
    ∃ values name overlayMax maxEntries segments segments',
      MembershipSet.build rt values name overlayMax maxEntries segments =
        .ok (s.worker.membership, segments') ∧
      ∀ id object, s.live id = some object → ∀ key ∈ object.keys rt settings,
        key ∈ MembershipSet.seenValues maxEntries values 0
  step s change s' :=
    (change.handled rt settings s.consumer s.worker).fault = none ∧ s' = change.next rt settings s

/-- Every key a live entity carries is reported present. -/
def CoversLive (s : EntityState) : Prop :=
  ∀ id object, s.live id = some object → ∀ key ∈ object.keys rt settings,
    s.worker.membership.contains rt key = true

/-- A delete whose values have no fingerprint in common with those of the
entities that stay. -/
def SparesLive (s : EntityState) (change : Change) : Prop :=
  change.kind = .delete → ∀ id object, id ≠ change.id → s.live id = some object →
    ∀ key ∈ object.keys rt settings, ∀ removed ∈ change.keys rt settings,
      fingerprint rt removed ≠ fingerprint rt key

section Invariant

variable {rt settings} {s : EntityState} {change : Change}

theorem membership_next (hfault : (change.handled rt settings s.consumer s.worker).fault = none) :
    (change.next rt settings s).worker.membership =
      MembershipSet.writeAll rt change.kind.adds (change.keys rt settings)
        s.worker.membership := by
  unfold Change.next
  dsimp only
  rw [target_handled _ _ _ hfault, Worker.membership_changed]

theorem coversLive_init (hinit : (entitySystem rt settings).init s) :
    s.worker.membership.Ok ∧ CoversLive rt settings s := by
  obtain ⟨values, name, overlayMax, maxEntries, segments, segments', hbuild, hcorpus⟩ := hinit
  obtain ⟨hok, hfresh, hpacked, -⟩ := MembershipSet.build_spec hbuild
  refine ⟨hok, fun id object hlive key hkey => ?_⟩
  rw [MembershipSet.contains_fresh hok hfresh, hpacked, MembershipSet.mem_packedArray]
  exact ⟨key, hcorpus id object hlive key hkey, rfl⟩

theorem coversLive_add (hok : s.worker.membership.Ok) (hcovers : CoversLive rt settings s)
    (hfault : (change.handled rt settings s.consumer s.worker).fault = none)
    (hkind : change.kind ≠ .delete) :
    CoversLive rt settings (change.next rt settings s) := by
  intro id object hlive key hkey
  have hadds : change.kind.adds = true := by simp [ChangeKind.adds, hkind]
  rw [membership_next hfault, hadds]
  by_cases hwritten : ∃ added ∈ change.keys rt settings,
      fingerprint rt added = fingerprint rt key
  · exact MembershipSet.contains_writeAll_of_mem hok true _ hwritten
  · push Not at hwritten
    rw [MembershipSet.contains_writeAll_of_not_mem hok true _ hwritten]
    refine hcovers id object ?_ key hkey
    simp only [Change.next, Change.liveAfter, hkind, if_false] at hlive
    split at hlive
    · obtain rfl := Option.some.inj hlive
      exact absurd rfl (hwritten key hkey)
    · exact hlive

theorem coversLive_delete (hok : s.worker.membership.Ok) (hcovers : CoversLive rt settings s)
    (hfault : (change.handled rt settings s.consumer s.worker).fault = none)
    (hkind : change.kind = .delete)
    (hspares : SparesLive rt settings s change) :
    CoversLive rt settings (change.next rt settings s) := by
  intro id object hlive key hkey
  simp only [Change.next, Change.liveAfter, hkind, if_true] at hlive
  split at hlive
  · cases hlive
  · rename_i hother
    rw [membership_next hfault, MembershipSet.contains_writeAll_of_not_mem hok]
    · exact hcovers id object hlive key hkey
    · exact hspares hkind id object hother hlive key hkey

theorem coversLive_step (hinv : s.worker.membership.Ok ∧ CoversLive rt settings s)
    (hspares : SparesLive rt settings s change) {s' : EntityState}
    (hstep : (entitySystem rt settings).step s change s') :
    s'.worker.membership.Ok ∧ CoversLive rt settings s' := by
  obtain ⟨hfault, rfl⟩ := hstep
  refine ⟨?_, ?_⟩
  · rw [membership_next hfault]
    exact MembershipSet.ok_writeAll hinv.1 _ _
  · by_cases hkind : change.kind = .delete
    · exact coversLive_delete hinv.1 hinv.2 hfault hkind hspares
    · exact coversLive_add hinv.1 hinv.2 hfault hkind

theorem membership_ok {ok : EntityState → Change → Prop} {trace : List Change}
    (hrun : Reaches (entitySystem rt settings) ok trace s) : s.worker.membership.Ok := by
  refine hrun.invariant (I := fun s => s.worker.membership.Ok) (fun s hinit => ?_) ?_
  · exact (coversLive_init hinit).1
  · rintro s change s' hok - ⟨hfault, rfl⟩
    rw [membership_next hfault]
    exact MembershipSet.ok_writeAll hok _ _

theorem not_coversLive_of_not_spares (hok : s.worker.membership.Ok)
    (hfault : (change.handled rt settings s.consumer s.worker).fault = none)
    (hspares : ¬ SparesLive rt settings s change) :
    ¬ CoversLive rt settings (change.next rt settings s) := by
  unfold SparesLive at hspares
  push Not at hspares
  obtain ⟨hkind, id, object, hother, hlive, key, hkey, removed, hremoved, hfp⟩ := hspares
  intro hcovers
  have hpresent := hcovers id object (by simp [Change.next, Change.liveAfter, hother,
    hlive]) key hkey
  have hadds : change.kind.adds = false := by simp [ChangeKind.adds, hkind]
  rw [membership_next hfault, hadds,
    MembershipSet.contains_writeAll_of_mem hok false _ ⟨removed, hremoved, hfp⟩] at hpresent
  cases hpresent

end Invariant

/-- In every run whose deletes spare the entities that stay, every value a live
entity carries is reported present. -/
theorem live_values_present {trace : List Change} {s : EntityState}
    (hrun : Reaches (entitySystem rt settings) (SparesLive rt settings) trace s) :
    CoversLive rt settings s :=
  (hrun.invariant (fun _ => coversLive_init) fun _ _ _ hinv hspares hstep =>
    coversLive_step hinv hspares hstep).2

section Sample

def sampleStart : EntityState := ⟨fun _ => none, {}, sampleWorker 50000⟩

def sampleNext (kind : ChangeKind) (id : Str) (s : EntityState) : EntityState :=
  (sampleChange kind id ["evil.com"]).next sampleRuntime (sampleSettings 50000) s

theorem init_sampleStart : (entitySystem sampleRuntime (sampleSettings 50000)).init sampleStart :=
  ⟨[], none, 50000, none, [], [], rfl, fun _ _ h => by cases h⟩

theorem step_sample (kind : ChangeKind) (id : Str) (s : EntityState) :
    (entitySystem sampleRuntime (sampleSettings 50000)).step s (sampleChange kind id ["evil.com"])
      (sampleNext kind id s) :=
  ⟨fault_sample 50000 kind id (by simp) _ _, rfl⟩

/-- The domain is deleted with its first entity and created with a second. -/
theorem live_values_present_recreated :
    CoversLive sampleRuntime (sampleSettings 50000)
      (sampleNext .create "b" (sampleNext .delete "a" (sampleNext .create "a" sampleStart))) := by
  refine live_values_present _ _
    (.step (.step (.step (.init init_sampleStart) ?_ (step_sample .create "a" _)) ?_
      (step_sample .delete "a" _)) ?_ (step_sample .create "b" _))
  · intro hkind
    cases hkind
  · rintro - id object hother hlive
    simp [sampleNext, sampleChange, Change.next, Change.liveAfter, sampleStart] at hother hlive
    exact absurd hlive.1 hother
  · intro hkind
    cases hkind

/-- Two entities carry the domain and the first is deleted: the second still
carries it, and it is reported absent. -/
theorem live_values_hidden_by_delete :
    ¬ ∀ (rt : Runtime) (settings : Settings) (trace : List Change) (s : EntityState),
      Reaches (entitySystem rt settings) anyStep trace s → CoversLive rt settings s := by
  intro hall
  have hrun : Reaches (entitySystem sampleRuntime (sampleSettings 50000)) anyStep _
      (sampleNext .create "b" (sampleNext .create "a" sampleStart)) :=
    .step (.step (.init init_sampleStart) trivial (step_sample .create "a" _)) trivial
      (step_sample .create "b" _)
  have hstep := step_sample .delete "a" (sampleNext .create "b"
    (sampleNext .create "a" sampleStart))
  have hdeleted := hall _ _ _ _ (hrun.step trivial hstep)
  have hkey : "evil.com".toList ∈
      (sampleObject ["evil.com"]).keys sampleRuntime (sampleSettings 50000) := by
    rw [keys_sampleObject, keysOf_evil]
    exact List.mem_singleton_self _
  refine not_coversLive_of_not_spares (membership_ok hrun) hstep.1 ?_ hdeleted
  intro hspares
  refine hspares rfl "b" (sampleObject ["evil.com"])
    (by decide) ?_ "evil.com" hkey "evil.com" hkey rfl
  simp [sampleNext, sampleChange, Change.next, Change.liveAfter]

end Sample

end OpenctiLookup
