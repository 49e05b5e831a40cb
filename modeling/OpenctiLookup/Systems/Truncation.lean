import OpenctiLookup.Opencti.Legible
import OpenctiLookup.Systems.Rebuild
import OpenctiLookup.Systems.Recovery
import OpenctiLookup.Systems.ServedSet

/-! The entry ceiling of a set that is trusted for misses. The first load compares
a count of observables with the budget, the ceiling counts keys, and a rebuild has
no check of its own. -/
namespace OpenctiLookup
open Python Theory

/-- A worker and the corpus the set it serves was built from, once there is one
and until a delete event. -/
structure Trusting where
  worker : Worker
  consumer : StreamConsumer
  corpus : Option (List Str)

def Trusting.swapped (corpus : List Str) (set : MembershipSet) (s : Trusting) : Trusting :=
  { s with
    worker := { s.worker with split := s.worker.split.swapMembership set true }
    corpus := some corpus }

inductive TrustStep where
  | swap (corpus : List Str) (set : MembershipSet)
  | event (event : StreamEvent) (now : ℚ)
  | health (connected : Bool) (activityLagS : ℚ)

variable (rt : Runtime) (settings : Settings) (budgetBytes : ℕ)

/-- A builder has published a set built from the corpus, and its segment is still
among these. -/
def Published (corpus : List Str) (state : SharedMembershipState) (segments : Segments) : Prop :=
  ∃ (client : BootstrapClient) (now : ℚ) (generation : ℕ) (host : Host) (built : BuiltGeneration),
    Serves settings client .null corpus ∧
      buildGeneration rt settings client now (maxEntriesOf budgetBytes) generation host =
        .ok built ∧
      built.state = state ∧ segments.find state.shmName = built.host.segments.find state.shmName

/-- The ways a worker comes by a set built from a corpus: its first load, which
goes ahead when it can afford the corpus, a rebuild, and the segment another
worker has published. -/
inductive Arrives (ready : Bool) (corpus : List Str) : MembershipSet → Prop
  | loaded {client : BootstrapClient} {now : ℚ} {lockFree : Bool} {waited host host' : Host}
      {set : MembershipSet} {role : Role} {generation : ℕ} :
      ready = false → Serves settings client .null corpus → role ≠ .reader →
      load rt settings client now budgetBytes lockFree waited host =
        .ok (⟨some set, role, generation⟩, host') → Arrives ready corpus set
  | rebuilt {client : BootstrapClient} {now : ℚ} {generation : ℕ} {host : Host}
      {built : BuiltGeneration} :
      ready = true → Serves settings client .null corpus →
      buildGeneration rt settings client now (maxEntriesOf budgetBytes) generation host =
        .ok built → Arrives ready corpus built.membership
  | attached {state : SharedMembershipState} {segments : Segments} {set : MembershipSet} :
      Published rt settings budgetBytes corpus state segments →
      attachTo settings state segments = some set → Arrives ready corpus set

def trustSystem : System Trusting TrustStep where
  init s := (∃ live, s.worker.split = { membership := .empty, live := live }) ∧ s.corpus = none
  step s a s' :=
    match a with
    | .swap corpus set =>
        Arrives rt settings budgetBytes s.worker.split.ready corpus set ∧ s' = s.swapped corpus set
    | .event event now =>
        let handled := StreamConsumer.handle rt (Worker.callbacks rt settings) now event
          s.consumer s.worker
        s' = ⟨handled.target, handled.consumer,
          if event.kind ∈ removeEvents then none else s.corpus⟩
    | .health connected activityLagS =>
        s' = { s with worker := { s.worker with
          split := s.worker.split.streamHealth connected activityLagS settings.streamStaleAfterS } }

/-- No lookupable value of the corpus is answered as a membership miss, even while
the stream is healthy. -/
def Trusting.NoMiss (s : Trusting) : Prop :=
  ∀ corpus, s.corpus = some corpus → ∀ raw ∈ corpus, ∀ value,
    settings.normalize rt raw = .ok value → value.lookupable = true →
    (s.worker.split.markStale false).route rt settings value = .live

/-- A value is added in the overlay, or is not removed there and is loaded before
the ceiling. -/
def Kept (corpus : List Str) (old : MembershipSet) (value : Str) : Prop :=
  fingerprint rt value ∈ old.added ∨
    fingerprint rt value ∉ old.tombstones ∧
      Loaded rt settings budgetBytes corpus (fingerprint rt value)

def Covered (corpus : List Str) (old : MembershipSet) : Prop :=
  ∀ raw ∈ corpus, ∀ value, settings.normalize rt raw = .ok value → value.lookupable = true →
    Kept rt settings budgetBytes corpus old value.value ∨
      ∃ host, LiveBackend.fallbackHost rt settings value = some host ∧
        Kept rt settings budgetBytes corpus old host

/-- A swap covers the corpus of the new set. -/
def CoversSwap (s : Trusting) (a : TrustStep) : Prop :=
  ∀ corpus set, a = .swap corpus set → Covered rt settings budgetBytes corpus s.worker.membership

section Arrive

variable {rt settings budgetBytes} {corpus : List Str} {set : MembershipSet}

theorem spec_of_build {client : BootstrapClient} {name : Option Str}
    {segments segments' : Segments} {report : BootstrapReport}
    (hserves : Serves settings client .null corpus)
    (h : buildMembership rt settings client (maxEntriesOf budgetBytes) name segments =
      .ok (set, report, segments')) :
    set.Ok ∧ set.Fresh ∧ ∀ fp, fp ∈ set.packed ↔ Loaded rt settings budgetBytes corpus fp := by
  obtain ⟨hok, hfresh, -⟩ := buildMembership_fresh h
  exact ⟨hok, hfresh, packed_buildMembership hserves (fun _ => maxEntriesOf_pos) h⟩

theorem shmName_build {values : List Str} {name : Str} {overlayMax : ℤ} {maxEntries : Option ℕ}
    {segments segments' : Segments}
    (h : MembershipSet.build rt values (some name) overlayMax maxEntries segments =
      .ok (set, segments')) : set.shmName.getD name = name := by
  by_cases hempty : MembershipSet.packedArray rt values maxEntries = []
  · rw [MembershipSet.build_empty hempty] at h
    cases h
    rfl
  · obtain ⟨-, -, rfl⟩ := (MembershipSet.build_named_iff hempty).mp h
    rfl

theorem attach_of_attachTo {state : SharedMembershipState} {segments : Segments}
    (h : attachTo settings state segments = some set) :
    MembershipSet.attach state.shmName state.count settings.membershipOverlayMax segments =
      .ok set := by
  unfold attachTo at h
  cases hattach : MembershipSet.attach state.shmName state.count settings.membershipOverlayMax
      segments with
  | error fault =>
      rw [hattach] at h
      cases h
  | ok attached =>
      rw [hattach] at h
      cases h
      rfl

theorem spec_of_published {state : SharedMembershipState} {segments : Segments}
    (h : Published rt settings budgetBytes corpus state segments)
    (hattach : attachTo settings state segments = some set) :
    set.Ok ∧ set.Fresh ∧ ∀ fp, fp ∈ set.packed ↔ Loaded rt settings budgetBytes corpus fp := by
  obtain ⟨client, now, generation, host, built, hserves, hbuilt, rfl, hfind⟩ := h
  obtain ⟨report, segments', hbuild, hhost, -, hname, hcount⟩ := buildGeneration_eq_ok hbuilt
  obtain ⟨-, -, hpacked⟩ := spec_of_build hserves hbuild
  obtain ⟨values, truncated, -, hvalues⟩ := buildMembership_eq_ok hbuild
  have hshm : built.state.shmName = segmentName generation :=
    hname.trans (shmName_build hvalues)
  have hattach := attach_of_attachTo hattach
  rw [hshm] at hfind hattach
  rw [hcount] at hattach
  rw [hhost] at hfind
  have hmade : (Snapshot.mk values (maxEntriesOf budgetBytes)).Made rt set :=
    .attached hvalues hfind hattach
  have hbuilt : (Snapshot.mk values (maxEntriesOf budgetBytes)).Made rt built.membership :=
    .built hvalues
  obtain ⟨hok, hfresh, hwords⟩ := made_spec hmade
  obtain ⟨-, -, hbuiltWords⟩ := made_spec hbuilt
  exact ⟨hok, hfresh, fun fp => by rw [hwords, ← hbuiltWords, hpacked]⟩

/-- However it comes, a set is fresh and has the keys of its corpus loaded before
the ceiling. -/
theorem spec_of_arrives {ready : Bool} (h : Arrives rt settings budgetBytes ready corpus set) :
    set.Ok ∧ set.Fresh ∧ ∀ fp, fp ∈ set.packed ↔ Loaded rt settings budgetBytes corpus fp := by
  cases h with
  | loaded _ hserves hrole hload =>
      obtain ⟨name, segments, report, segments', hbuild⟩ :=
        buildMembership_of_load hload hrole rfl
      exact spec_of_build hserves hbuild
  | rebuilt _ hserves hbuilt =>
      obtain ⟨report, segments', hbuild, -⟩ := buildGeneration_eq_ok hbuilt
      exact spec_of_build hserves hbuild
  | attached hpublished hattach => exact spec_of_published hpublished hattach

end Arrive

section Run

variable {rt settings budgetBytes} {s s' : Trusting} {corpus : List Str} {set : MembershipSet}

/-- What every state keeps: a set with a corpus is trusted, and its overlay is sound. -/
structure Trusting.Sound (s : Trusting) : Prop where
  ok : s.worker.membership.Ok
  ready : s.corpus ≠ none → s.worker.split.ready = true

theorem contains_swap_iff {old : MembershipSet} (hold : old.Ok) (hset : set.Ok)
    (hfresh : set.Fresh)
    (hpacked : ∀ fp, fp ∈ set.packed ↔ Loaded rt settings budgetBytes corpus fp) (value : Str) :
    (set.adoptOverlay old).contains rt value = true ↔
      Kept rt settings budgetBytes corpus old value := by
  rw [MembershipSet.contains_iff (MembershipSet.ok_adoptOverlay hset hfresh hold),
    MembershipSet.overlay_adoptOverlay hset hfresh hold, Kept, ← hpacked]
  exact Overlay.holds_iff

theorem sound_step_trust {a : TrustStep} (h : s.Sound)
    (hstep : (trustSystem rt settings budgetBytes).step s a s') : s'.Sound := by
  cases a with
  | swap corpus set =>
      obtain ⟨harrives, rfl⟩ := hstep
      obtain ⟨hok, hfresh, -⟩ := spec_of_arrives harrives
      exact ⟨MembershipSet.ok_adoptOverlay hok hfresh h.ok, fun _ => rfl⟩
  | event event now =>
      cases hstep
      obtain ⟨keys, hsplit⟩ := @split_handle rt settings event s.consumer s.worker now
      constructor
      · rw [Worker.membership, hsplit]
        exact MembershipSet.ok_writeAll h.ok _ keys
      · intro hcorpus
        rw [hsplit]
        refine h.ready fun hnone => hcorpus ?_
        dsimp only
        rw [hnone, ite_self]
  | health connected activityLagS =>
      cases hstep
      exact ⟨h.ok, h.ready⟩

theorem noMiss_swap_iff (h : s.Sound) {ready : Bool}
    (harrives : Arrives rt settings budgetBytes ready corpus set) :
    (s.swapped corpus set).NoMiss rt settings ↔
      Covered rt settings budgetBytes corpus s.worker.membership := by
  obtain ⟨hok, hfresh, hpacked⟩ := spec_of_arrives harrives
  have hcontains := contains_swap_iff h.ok hok hfresh hpacked
  unfold Trusting.NoMiss Covered Trusting.swapped
  simp only [Option.some.injEq, forall_eq']
  refine forall₅_congr fun raw hraw value hvalue hlookupable => ?_
  rw [SplitBackend.route_current_iff rfl]
  simp only [← hcontains]
  rfl

theorem noMiss_event (h : s.Sound) (hmiss : s.NoMiss rt settings) {event : StreamEvent} {now : ℚ}
    (hstep : (trustSystem rt settings budgetBytes).step s (.event event now) s') :
    s'.NoMiss rt settings := by
  cases hstep
  obtain ⟨keys, hsplit⟩ := @split_handle rt settings event s.consumer s.worker now
  intro corpus hcorpus raw hraw value hvalue hlookupable
  dsimp only at hcorpus
  split at hcorpus
  · cases hcorpus
  · rename_i hadds
    have hready : s.worker.split.ready = true := h.ready (by rw [hcorpus]; simp)
    have hkept : ∀ text, s.worker.membership.contains rt text = true →
        (MembershipSet.writeAll rt true keys s.worker.membership).contains rt text = true := by
      intro text htext
      by_cases hmem : ∃ key ∈ keys, fingerprint rt key = fingerprint rt text
      · exact MembershipSet.contains_writeAll_of_mem h.ok true keys hmem
      · rw [MembershipSet.contains_writeAll_of_not_mem h.ok true keys (by simpa using hmem)]
        exact htext
    have hlive := hmiss corpus hcorpus raw hraw value hvalue hlookupable
    rw [SplitBackend.route_current_iff hready] at hlive
    dsimp only
    rw [hsplit, decide_eq_true hadds]
    refine (SplitBackend.route_current_iff ?_).mpr ?_
    · exact hready
    rcases hlive with hvalue | ⟨host, hhost, hcontains⟩
    · exact .inl (hkept _ hvalue)
    · exact .inr ⟨host, hhost, hkept _ hcontains⟩

theorem noMiss_step {a : TrustStep} (h : s.Sound) (hmiss : s.NoMiss rt settings)
    (hcovers : CoversSwap rt settings budgetBytes s a)
    (hstep : (trustSystem rt settings budgetBytes).step s a s') : s'.NoMiss rt settings := by
  cases a with
  | swap corpus set =>
      obtain ⟨harrives, rfl⟩ := hstep
      exact (noMiss_swap_iff h harrives).mpr (hcovers corpus set rfl)
  | event event now => exact noMiss_event h hmiss hstep
  | health connected activityLagS =>
      cases hstep
      exact hmiss

theorem sound_init_trust (h : (trustSystem rt settings budgetBytes).init s) : s.Sound := by
  obtain ⟨⟨live, hsplit⟩, hcorpus⟩ := h
  refine ⟨?_, fun hnone => absurd hcorpus hnone⟩
  rw [Worker.membership, hsplit]
  exact MembershipSet.ok_empty

end Run

/-- A trusted set misses nothing of its corpus throughout a run exactly when each
swap covers the corpus of the new set. -/
theorem corpus_never_missed_iff {trace : List TrustStep} {s : Trusting} :
    Reaches (trustSystem rt settings budgetBytes)
        (fun s a => ∀ s', (trustSystem rt settings budgetBytes).step s a s' →
          s'.NoMiss rt settings) trace s ↔
      Reaches (trustSystem rt settings budgetBytes) (CoversSwap rt settings budgetBytes)
        trace s := by
  constructor
  · intro hrun
    refine hrun.weaken (I := Trusting.Sound) (fun _ => sound_init_trust) ?_ ?_
    · exact fun _ _ _ hsound _ hstep => sound_step_trust hsound hstep
    · rintro s _ s' hsound hstep hmiss corpus set rfl
      obtain ⟨harrives, rfl⟩ := id hstep
      exact (noMiss_swap_iff hsound harrives).mp (hmiss _ hstep)
  · intro hrun
    refine hrun.weaken (I := fun s => s.Sound ∧ s.NoMiss rt settings) (fun s hinit => ?_) ?_ ?_
    · refine ⟨sound_init_trust hinit, fun corpus hcorpus => ?_⟩
      rw [hinit.2] at hcorpus
      cases hcorpus
    · exact fun _ _ _ hinv hcovers hstep =>
        ⟨sound_step_trust hinv.1 hstep, noMiss_step hinv.1 hinv.2 hcovers hstep⟩
    · exact fun _ _ _ hinv _ hcovers s' hstep => noMiss_step hinv.1 hinv.2 hcovers hstep

section Sample

def indicatorSettings : Settings := { sampleSettings 50000 with membershipSource := .indicators }

def indicatorEdge (value : Str) : Json :=
  .obj [("node", .obj [("observables", .obj [("edges",
    .arr [.obj [("node", .obj [("observable_value", .str value)])]])])])]

def sharedClient : BootstrapClient where
  countIndicators := .ok (.obj [("indicators",
    .obj [("pageInfo", .obj [("globalCount", .int 3)])])])
  countObservables := .ok (.obj [("stixCyberObservables",
    .obj [("pageInfo", .obj [("globalCount", .int 2)])])])
  page _ := .ok (.obj [("indicators",
    .obj [("pageInfo", .obj [("endCursor", .null), ("hasNextPage", .bool false)]),
      ("edges", .arr (["evil.com".toList, "evil.com".toList, "good.com".toList].map
        indicatorEdge))])])

def sharedCorpus : List Str := ["evil.com", "evil.com", "good.com"]

theorem norm_shared : ∀ raw ∈ sharedCorpus,
    norm sampleRuntime indicatorSettings raw = .ok (some raw) := by
  intro raw hraw
  rcases List.mem_cons.mp hraw with rfl | hraw
  · exact norm_evil 50000
  · rcases List.mem_cons.mp hraw with rfl | hraw
    · exact norm_evil 50000
    · rw [List.mem_singleton.mp hraw]
      exact norm_good 50000

theorem keysOf_shared : keysOf sampleRuntime indicatorSettings sharedCorpus = sharedCorpus := by
  have hkeys : ∀ raws ⊆ sharedCorpus, keysOf sampleRuntime indicatorSettings raws = raws := by
    intro raws
    induction raws with
    | nil => exact fun _ => rfl
    | cons raw raws ih =>
        intro hsub
        rw [keysOf_cons_some (norm_shared raw (hsub List.mem_cons_self)),
          ih fun other hother => hsub (List.mem_cons_of_mem _ hother)]
  exact hkeys _ (List.Subset.refl _)

theorem healthy_shared :
    Healthy sampleRuntime indicatorSettings sharedClient sharedCorpus where
  indicators := ⟨3, rfl⟩
  observables := ⟨2, rfl⟩
  serves := .last rfl
  normalizes raw hraw := ⟨_, norm_shared raw hraw⟩

def untrusted : Trusting where
  worker := ⟨{ membership := .empty, live := ⟨.init 1048576 1024 86400 900⟩ }, none⟩
  consumer := {}
  corpus := none

theorem init_untrusted (budgetBytes : ℕ) :
    (trustSystem sampleRuntime indicatorSettings budgetBytes).init untrusted := ⟨⟨_, rfl⟩, rfl⟩

theorem arrives_shared : ∃ set,
    Arrives sampleRuntime indicatorSettings 16 false sharedCorpus set := by
  obtain ⟨built, hbuilt⟩ := (buildGeneration_healthy healthy_shared 0 1 ⟨[], none⟩).mpr
    (.inr (by simp))
  have hload : load sampleRuntime indicatorSettings sharedClient 0 16 true ⟨[], none⟩ ⟨[], none⟩ =
      .ok (⟨some built.membership, .builder, built.state.generation⟩,
        built.host.publish built.state) := by
    rw [load_lockFree rfl rfl rfl]
    exact bind_eq_ok_iff.mpr ⟨built, hbuilt, rfl⟩
  have hrole : Role.builder ≠ .reader := by decide
  exact ⟨_, .loaded rfl healthy_shared.serves hrole hload⟩

theorem normalize_good : indicatorSettings.normalize sampleRuntime "good.com" =
    .ok ⟨"good.com", "good.com", .domain, none⟩ := rfl

/-- The two indicators on the first domain use up the entries of the two
observables, and the second domain is missed. -/
theorem corpus_missed_at_ceiling :
    ¬ ∀ (rt : Runtime) (settings : Settings) (budgetBytes : ℕ) (trace : List TrustStep)
      (s : Trusting), settings.membershipMode = .auto →
      Reaches (trustSystem rt settings budgetBytes) anyStep trace s → s.NoMiss rt settings := by
  intro hall
  obtain ⟨set, harrives⟩ := arrives_shared
  have hstart : Reaches (trustSystem sampleRuntime indicatorSettings 16) anyStep [] untrusted :=
    .init (init_untrusted 16)
  have hswap : (trustSystem sampleRuntime indicatorSettings 16).step untrusted
      (.swap sharedCorpus set) (untrusted.swapped sharedCorpus set) := ⟨harrives, rfl⟩
  have hmiss := hall _ _ _ _ _ rfl (hstart.step trivial hswap)
  have hcovered := (noMiss_swap_iff (sound_init_trust (init_untrusted 16)) harrives).mp hmiss
  rcases hcovered "good.com" (by decide) _ normalize_good rfl with hkept | ⟨host, hhost, -⟩
  · rcases hkept with hadded | ⟨-, key, hkey, hfp⟩
    · exact absurd hadded (Finset.notMem_empty _)
    · rw [keysOf_shared] at hkey
      have hevil : key = "evil.com".toList := by
        revert key
        decide
      rw [hevil] at hfp
      exact absurd hfp (by decide)
  · cases hhost

end Sample

end OpenctiLookup
