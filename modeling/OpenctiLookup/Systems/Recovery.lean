import OpenctiLookup.Systems.Rebuild

/-! What a build that stops leaves on the host, and whether the next one gets
through. The next build takes the same number, so it wants the same name; a load
sweeps before it builds but keeps that name, and a rebuild sweeps only at its
end. -/
namespace OpenctiLookup
open Python Theory

/-- The two callers of `build_membership` that publish. -/
inductive BuildPath where
  | load
  | rebuild

/-- The host as a build finds it when it makes its segment. -/
def BuildPath.start : BuildPath → Host → Host
  | .load, host => host.sweepStaleSegments (keepBeforeBuild host)
  | .rebuild, host => host

/-- Where a build stops after its segment has been created: before `os.replace`,
with whatever it has copied, or after it. -/
inductive StopPoint where
  | unpublished (words : List Word)
  | published

/-- One build of the next generation, up to its publish. -/
def attempt (rt : Runtime) (settings : Settings) (client : BootstrapClient) (now : ℚ)
    (path : BuildPath) (maxEntries : Option ℕ) (host : Host) : Py BuiltGeneration :=
  buildGeneration rt settings client now maxEntries host.nextGeneration (path.start host)

/-- What a build leaves on the host when it stops. A set without values has no
segment. -/
def stopped (path : BuildPath) (host : Host) (built : BuiltGeneration) : StopPoint → Host
  | .unpublished words =>
      match built.membership.shmName with
      | none => path.start host
      | some name =>
          { path.start host with segments := (path.start host).segments ++ [⟨name, words⟩] }
  | .published => built.host.publish built.state

inductive HostStep where
  /-- A build that stops, or completes but for its sweep. -/
  | attempt (path : BuildPath) (settings : Settings) (client : BootstrapClient) (now : ℚ)
      (maxEntries : Option ℕ) (stop : StopPoint)
  /-- A sweep, or the `unlink` of a builder that shuts down. -/
  | remove (kept : Segments)

/-- A host over the builds of any number of processes, one builder at a time. -/
def hostSystem (rt : Runtime) : System Host HostStep where
  init host :=
    host.stateFile = none ∧ ∀ segment ∈ host.segments, startsWith segmentPrefix segment.name = false
  step host a host' :=
    match a with
    | .attempt path settings client now maxEntries stop =>
        ∃ built, OpenctiLookup.attempt rt settings client now path maxEntries host = .ok built ∧
          host' = stopped path host built stop
    | .remove kept => kept ⊆ host.segments ∧ host' = { host with segments := kept }

section Numbers

variable {rt : Runtime} {settings : Settings} {client : BootstrapClient} {now : ℚ}
  {maxEntries : Option ℕ} {path : BuildPath} {host host' : Host} {built : BuiltGeneration}

def Host.Numbered (host : Host) : Prop :=
  ∀ segment ∈ host.segments, ∀ generation, segment.name = segmentName generation →
    generation ≤ host.nextGeneration

theorem startsWith_segmentName (generation : ℕ) :
    startsWith segmentPrefix (segmentName generation) = true :=
  List.isPrefixOf_iff_prefix.mpr (List.prefix_append _ _)

theorem segments_start_subset (path : BuildPath) (host : Host) :
    (path.start host).segments ⊆ host.segments := by
  cases path with
  | load => exact List.filter_subset_self _
  | rebuild => exact List.Subset.refl _

theorem stateFile_start (path : BuildPath) (host : Host) :
    (path.start host).stateFile = host.stateFile := by cases path <;> rfl

theorem mem_segments_start {segment : Segment}
    (hname : segment.name = segmentName host.nextGeneration) :
    segment ∈ (path.start host).segments ↔ segment ∈ host.segments := by
  cases path with
  | rebuild => exact Iff.rfl
  | load =>
      refine ⟨fun h => (List.mem_filter.mp h).1, fun h => List.mem_filter.mpr ⟨h, ?_⟩⟩
      rw [hname, Bool.or_eq_true, decide_eq_true_iff]
      exact .inr List.mem_cons_self

theorem segments_build {values : List Str} {name : Str} {overlayMax : ℤ}
    {segments segments' : Segments} {set : MembershipSet}
    (h : MembershipSet.build rt values (some name) overlayMax maxEntries segments =
      .ok (set, segments')) :
    (set.shmName = none ∧ set.packed = [] ∧ segments' = segments) ∨
      set.shmName = some name ∧ segments' = segments ++ [⟨name, set.packed⟩] := by
  by_cases hempty : MembershipSet.packedArray rt values maxEntries = []
  · rw [MembershipSet.build_empty hempty] at h
    cases h
    exact .inl ⟨rfl, MembershipSet.packed_init_none _ _ _, rfl⟩
  · obtain ⟨-, rfl, rfl⟩ := (MembershipSet.build_named_iff hempty).mp h
    refine .inr ⟨rfl, ?_⟩
    rw [MembershipSet.packed_init_some, List.take_length]

theorem build_of_attempt (h : attempt rt settings client now path maxEntries host = .ok built) :
    built.state.generation = host.nextGeneration ∧
      built.state.shmName = built.membership.shmName.getD (segmentName host.nextGeneration) ∧
      built.state.count = built.membership.count ∧
      ∃ values, MembershipSet.build rt values (some (segmentName host.nextGeneration))
        settings.membershipOverlayMax maxEntries (path.start host).segments =
          .ok (built.membership, built.host.segments) := by
  obtain ⟨report, segments, hbuild, hhost, hgeneration, hname, hcount⟩ := buildGeneration_eq_ok h
  refine ⟨hgeneration, hname, hcount, ?_⟩
  rw [hhost]
  obtain ⟨values, truncated, -, hset⟩ := buildMembership_eq_ok hbuild
  exact ⟨values, hset⟩

/-- A build numbers its state, names its segment after the number and adds no
other. -/
theorem attempt_spec (h : attempt rt settings client now path maxEntries host = .ok built) :
    built.state.generation = host.nextGeneration ∧
      (∀ name, built.membership.shmName = some name → name = segmentName host.nextGeneration) ∧
      ∀ segment ∈ built.host.segments,
        segment ∈ host.segments ∨
          segment = ⟨segmentName host.nextGeneration, built.membership.packed⟩ := by
  obtain ⟨hgeneration, -, -, values, hset⟩ := build_of_attempt h
  refine ⟨hgeneration, ?_⟩
  rcases segments_build hset with ⟨hnone, -, hsame⟩ | ⟨hname, hnew⟩
  · refine ⟨fun name hname => ?_, fun segment hsegment => ?_⟩
    · rw [hnone] at hname
      cases hname
    · rw [hsame] at hsegment
      exact .inl (segments_start_subset path host hsegment)
  · refine ⟨fun name hother => Option.some.inj (hother.symm.trans hname),
      fun segment hsegment => ?_⟩
    rw [hnew] at hsegment
    rcases List.mem_append.mp hsegment with hold | hlast
    · exact .inl (segments_start_subset path host hold)
    · exact .inr (List.mem_singleton.mp hlast)

theorem isSome_shmName (h : attempt rt settings client now path maxEntries host = .ok built)
    (hpacked : built.membership.packed ≠ []) : built.membership.shmName.isSome = true := by
  obtain ⟨-, -, -, values, hset⟩ := build_of_attempt h
  rcases segments_build hset with ⟨-, hempty, -⟩ | ⟨hname, -⟩
  · exact absurd hempty hpacked
  · rw [hname]
    rfl

theorem nextGeneration_stopped_unpublished (words : List Word) :
    (stopped path host built (.unpublished words)).nextGeneration = host.nextGeneration := by
  have hstate : (stopped path host built (.unpublished words)).stateFile = host.stateFile := by
    rw [← stateFile_start path host, stopped]
    split <;> rfl
  rw [Host.nextGeneration, Host.nextGeneration, Host.read, Host.read, hstate]

theorem nextGeneration_stopped_published
    (h : attempt rt settings client now path maxEntries host = .ok built) :
    (stopped path host built .published).nextGeneration = host.nextGeneration + 1 :=
  congrArg (· + 1) (attempt_spec h).1

theorem numbered_init (h : (hostSystem rt).init host) : host.Numbered := by
  intro segment hsegment generation hname
  have hforeign := h.2 segment hsegment
  rw [hname, startsWith_segmentName] at hforeign
  cases hforeign

theorem numbered_stopped_unpublished (h : host.Numbered)
    (hbuilt : attempt rt settings client now path maxEntries host = .ok built) (words : List Word) :
    (stopped path host built (.unpublished words)).Numbered := by
  intro segment hsegment generation hname
  rw [nextGeneration_stopped_unpublished]
  rw [stopped] at hsegment
  split at hsegment
  · exact h segment (segments_start_subset path host hsegment) generation hname
  · rename_i name hset
    rcases List.mem_append.mp hsegment with hold | hlast
    · exact h segment (segments_start_subset path host hold) generation hname
    · rw [List.mem_singleton.mp hlast, (attempt_spec hbuilt).2.1 name hset] at hname
      exact (segmentName_injective hname).ge

theorem numbered_stopped_published (h : host.Numbered)
    (hbuilt : attempt rt settings client now path maxEntries host = .ok built) :
    ∀ segment ∈ (stopped path host built .published).segments, ∀ generation,
      segment.name = segmentName generation → generation ≤ host.nextGeneration := by
  intro segment hsegment generation hname
  rcases (attempt_spec hbuilt).2.2 segment hsegment with hold | hnew
  · exact h segment hold generation hname
  · rw [hnew] at hname
    exact (segmentName_injective hname).ge

theorem numbered_step {a : HostStep} (h : host.Numbered)
    (hstep : (hostSystem rt).step host a host') :
    host'.Numbered := by
  cases a with
  | attempt path settings client now maxEntries stop =>
      obtain ⟨built, hbuilt, rfl⟩ := hstep
      cases stop with
      | unpublished words => exact numbered_stopped_unpublished h hbuilt words
      | published =>
          intro segment hsegment generation hname
          rw [nextGeneration_stopped_published hbuilt]
          have hle := numbered_stopped_published h hbuilt segment hsegment generation hname
          exact hle.trans (Nat.le_succ _)
  | remove kept =>
      obtain ⟨hkept, rfl⟩ := hstep
      exact fun segment hsegment => h segment (hkept hsegment)

theorem numbered_of_reaches {trace : List HostStep}
    (h : Reaches (hostSystem rt) anyStep trace host) :
    host.Numbered :=
  h.invariant (fun _ => numbered_init) fun _ _ _ hnumbered _ hstep => numbered_step hnumbered hstep

end Numbers

/-! ### The next build -/

variable (rt : Runtime) (settings : Settings) (client : BootstrapClient) (now : ℚ) (budgetBytes : ℕ)

def LoadPublishes (waited host : Host) : Prop :=
  ∃ loaded host', load rt settings client now budgetBytes true waited host = .ok (loaded, host') ∧
    loaded.role = .builder ∧
    host'.read.map SharedMembershipState.generation = some host.nextGeneration

def RebuildPublishes (backend : SplitBackend) (host : Host) : Prop :=
  ∃ host' backend', rebuild rt settings client now budgetBytes host backend =
    .ok (host', backend') ∧
    host'.read.map SharedMembershipState.generation = some host.nextGeneration

section Recovers

variable {rt settings client now budgetBytes} {corpus : List Str} {host : Host}

theorem attempt_healthy (h : Healthy rt settings client corpus) (path : BuildPath) :
    (∃ built, attempt rt settings client now path (maxEntriesOf budgetBytes) host = .ok built) ↔
      keysOf rt settings corpus = [] ∨
        ∀ segment ∈ host.segments, segment.name ≠ segmentName host.nextGeneration := by
  have hfree : (∀ segment ∈ (path.start host).segments,
        segment.name ≠ segmentName host.nextGeneration) ↔
      ∀ segment ∈ host.segments, segment.name ≠ segmentName host.nextGeneration :=
    ⟨fun hall segment hmem hname => hall segment ((mem_segments_start hname).mpr hmem) hname,
      fun hall segment hmem => hall segment (segments_start_subset path host hmem)⟩
  rw [← hfree]
  exact buildGeneration_healthy h now _ _

theorem load_lockFree (hshared : settings.membershipShared = true) {n : ℤ}
    (hcount : countObservables rt client = .ok n)
    (haffordable : affordable settings n budgetBytes = true)
    (waited : Host) :
    load rt settings client now budgetBytes true waited host =
      buildAndPublish rt settings client now (maxEntriesOf budgetBytes) host := by
  unfold load
  rw [hcount, ok_bind, haffordable, hshared]
  rfl

theorem load_locked (hshared : settings.membershipShared = true) {n : ℤ}
    (hcount : countObservables rt client = .ok n)
    (haffordable : affordable settings n budgetBytes = true)
    (waited : Host) :
    load rt settings client now budgetBytes false waited host =
      .ok (match waited.read.bind fun state =>
          (attachTo settings state waited.segments).map fun set => (set, state.generation) with
        | some (set, generation) => (⟨some set, .reader, generation⟩, waited)
        | none => (⟨none, .none, 0⟩, waited)) := by
  unfold load
  rw [hcount, ok_bind, haffordable, hshared]
  simp only [Bool.not_true, Bool.false_eq_true, if_false]
  cases waited.read with
  | none => rfl
  | some state =>
      dsimp only [Option.bind_some]
      cases attachTo settings state waited.segments <;> rfl

theorem loadPublishes_iff (hshared : settings.membershipShared = true)
    (hindex : ∃ n, countObservables rt client = .ok n ∧ affordable settings n budgetBytes = true)
    (waited : Host) :
    LoadPublishes rt settings client now budgetBytes waited host ↔
      ∃ built, attempt rt settings client now .load
        (maxEntriesOf budgetBytes) host = .ok built := by
  obtain ⟨n, hcount, haffordable⟩ := hindex
  unfold LoadPublishes
  rw [load_lockFree hshared hcount haffordable]
  constructor
  · rintro ⟨loaded, host', hload, -⟩
    obtain ⟨built, hbuilt, -⟩ := bind_eq_ok_iff.mp hload
    exact ⟨built, hbuilt⟩
  · rintro ⟨built, hbuilt⟩
    exact ⟨_, _, bind_eq_ok_iff.mpr ⟨built, hbuilt, rfl⟩, rfl,
      congrArg some (attempt_spec hbuilt).1⟩

theorem rebuildPublishes_iff (backend : SplitBackend) :
    RebuildPublishes rt settings client now budgetBytes backend host ↔
      ∃ built, attempt rt settings client now .rebuild
        (maxEntriesOf budgetBytes) host = .ok built := by
  unfold RebuildPublishes rebuild
  constructor
  · rintro ⟨host', backend', hrebuild, -⟩
    obtain ⟨built, hbuilt, -⟩ := bind_eq_ok_iff.mp hrebuild
    exact ⟨built, hbuilt⟩
  · rintro ⟨built, hbuilt⟩
    exact ⟨_, _, bind_eq_ok_iff.mpr ⟨built, hbuilt, rfl⟩, congrArg some (attempt_spec hbuilt).1⟩

/-- The name a stopped build leaves free is the next one's exactly when it has
published. -/
theorem free_stopped_iff {path : BuildPath} {built : BuiltGeneration} {settings' : Settings}
    {client' : BootstrapClient} {now' : ℚ} {maxEntries : Option ℕ} (hnumbered : host.Numbered)
    (hbuilt : attempt rt settings' client' now' path maxEntries host = .ok built)
    (hsegment : built.membership.shmName.isSome = true) (stop : StopPoint) :
    (∀ segment ∈ (stopped path host built stop).segments,
        segment.name ≠ segmentName (stopped path host built stop).nextGeneration) ↔
      stop = .published := by
  cases stop with
  | unpublished words =>
      refine ⟨fun hfree => ?_, fun h => StopPoint.noConfusion h⟩
      rw [nextGeneration_stopped_unpublished] at hfree
      obtain ⟨name, hname⟩ := Option.isSome_iff_exists.mp hsegment
      have horphan : (⟨name, words⟩ : Segment) ∈
          (stopped path host built (.unpublished words)).segments := by
        rw [stopped, hname]
        exact List.mem_append_right _ (List.mem_singleton_self _)
      exact absurd ((attempt_spec hbuilt).2.1 name hname) (hfree _ horphan)
  | published =>
      refine ⟨fun _ => rfl, fun _ segment hsegment hname => ?_⟩
      have hle := numbered_stopped_published hnumbered hbuilt segment hsegment _ hname
      rw [nextGeneration_stopped_published hbuilt] at hle
      exact absurd hle (Nat.not_succ_le_self _)

/-- After a build that stops once it has its segment, the next load and the next
rebuild publish exactly when it had published, or there is nothing left to pack. -/
theorem next_build_publishes_iff {trace : List HostStep} {path : BuildPath} {settings' : Settings}
    {client' : BootstrapClient} {now' : ℚ} {maxEntries : Option ℕ} {built : BuiltGeneration}
    {stop : StopPoint} {waited : Host} {backend : SplitBackend}
    (hrun : Reaches (hostSystem rt) anyStep trace host)
    (hbuilt : attempt rt settings' client' now' path maxEntries host = .ok built)
    (hsegment : built.membership.shmName.isSome = true)
    (hhealthy : Healthy rt settings client corpus) (hshared : settings.membershipShared = true)
    (haffordable : ∀ n, countObservables rt client = .ok n →
      affordable settings n budgetBytes = true) :
    (LoadPublishes rt settings client now budgetBytes waited (stopped path host built stop) ∧
        RebuildPublishes rt settings client now budgetBytes backend
          (stopped path host built stop)) ↔
      stop = .published ∨ keysOf rt settings corpus = [] := by
  obtain ⟨n, hcount⟩ := hhealthy.observables
  rw [loadPublishes_iff hshared ⟨n, hcount, haffordable n hcount⟩, rebuildPublishes_iff,
    attempt_healthy hhealthy, attempt_healthy hhealthy, and_self,
    free_stopped_iff (numbered_of_reaches hrun) hbuilt hsegment]
  exact or_comm

end Recovers

section RecoverySample

def bareHost : Host := ⟨[], none⟩

theorem init_bareHost (rt : Runtime) : (hostSystem rt).init bareHost := ⟨rfl, by simp [bareHost]⟩

theorem affordable_evil (n : ℤ)
    (h : countObservables sampleRuntime (.onePage ["evil.com"]) = .ok n) :
    affordable (sampleSettings 50000) n 1024 = true := by
  obtain rfl : (1 : ℤ) = n := Except.ok.inj h
  rfl

theorem attempt_evil : ∃ built, attempt sampleRuntime (sampleSettings 50000)
    (.onePage ["evil.com"]) 0
    .load (maxEntriesOf 1024) bareHost = .ok built ∧ built.membership.shmName.isSome = true ∧
    ∀ fp, fp ∈ built.membership.packed ↔ fp = fingerprint sampleRuntime "evil.com" := by
  have hfree : ∀ segment ∈ bareHost.segments,
      segment.name ≠ segmentName bareHost.nextGeneration := by simp [bareHost]
  obtain ⟨built, hbuilt⟩ := (attempt_healthy (healthy_sample 50000) .load).mpr (.inr hfree)
  obtain ⟨report, segments, hbuild, -⟩ := buildGeneration_eq_ok hbuilt
  have hpacked : ∀ fp, fp ∈ built.membership.packed ↔
    fp = fingerprint sampleRuntime "evil.com" := by
    intro fp
    have hseen : MembershipSet.seenValues (maxEntriesOf 1024) ["evil.com".toList] 0 =
        ["evil.com".toList] := rfl
    rw [packed_buildMembership (healthy_sample 50000).serves
      (fun _ => @maxEntriesOf_pos 1024 _) hbuild,
      keysOf_evil, hseen]
    exact ⟨fun ⟨key, hkey, hfp⟩ => List.mem_singleton.mp hkey ▸ hfp.symm,
      fun hfp => ⟨"evil.com", List.mem_singleton_self _, hfp.symm⟩⟩
  exact ⟨built, hbuilt, isSome_shmName hbuilt (List.ne_nil_of_mem ((hpacked _).mpr rfl)), hpacked⟩

/-- A process killed between `os.replace` and the return of `publish` is followed
by builds that publish. -/
theorem next_build_publishes_after_publish :
    ∃ built, attempt sampleRuntime (sampleSettings 50000) (.onePage ["evil.com"]) 0 .load
        (maxEntriesOf 1024) bareHost = .ok built ∧
      LoadPublishes sampleRuntime (sampleSettings 50000) (.onePage ["evil.com"]) 0 1024 bareHost
        (stopped .load bareHost built .published) ∧
      RebuildPublishes sampleRuntime (sampleSettings 50000) (.onePage ["evil.com"]) 0 1024
        (sampleWorker 50000).split (stopped .load bareHost built .published) := by
  obtain ⟨built, hbuilt, hsegment, -⟩ := attempt_evil
  exact ⟨built, hbuilt, (next_build_publishes_iff (.init (init_bareHost _)) hbuilt hsegment
    (healthy_sample 50000) rfl affordable_evil).mpr (.inl rfl)⟩

/-- A process killed before `os.replace` leaves a segment no build gets past. -/
theorem orphan_segment_stops_next_build :
    ¬ ∀ (rt : Runtime) (trace : List HostStep) (host : Host) (settings settings' : Settings)
      (client client' : BootstrapClient) (now now' : ℚ) (path : BuildPath) (maxEntries : Option ℕ)
      (built : BuiltGeneration) (stop : StopPoint) (corpus : List Str) (budgetBytes : ℕ)
      (waited : Host) (backend : SplitBackend), Reaches (hostSystem rt) anyStep trace host →
      attempt rt settings' client' now' path maxEntries host = .ok built →
      built.membership.shmName.isSome = true → Healthy rt settings client corpus →
      settings.membershipShared = true →
      (∀ n, countObservables rt client = .ok n → affordable settings n budgetBytes = true) →
      LoadPublishes rt settings client now budgetBytes waited (stopped path host built stop) ∧
        RebuildPublishes rt settings client now budgetBytes backend
          (stopped path host built stop) := by
  intro hall
  obtain ⟨built, hbuilt, hsegment, -⟩ := attempt_evil
  obtain ⟨hload, -⟩ := hall _ _ _ _ _ _ _ 0 _ _ _ _ (.unpublished [0]) _ 1024 bareHost
    (sampleWorker 50000).split (.init (init_bareHost _)) hbuilt hsegment (healthy_sample 50000) rfl
    affordable_evil
  rw [loadPublishes_iff rfl ⟨1, rfl, rfl⟩, attempt_healthy (healthy_sample 50000),
    keysOf_evil] at hload
  have hnumbered : bareHost.Numbered := numbered_init (init_bareHost sampleRuntime)
  rcases hload with hkeys | hfree
  · cases hkeys
  · exact StopPoint.noConfusion ((free_stopped_iff hnumbered hbuilt hsegment _).mp hfree)

end RecoverySample

end OpenctiLookup
