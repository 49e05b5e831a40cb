import OpenctiLookup.Corpus
import OpenctiLookup.Opencti.Events
import OpenctiLookup.Theory.Runs

/-! Rebuilds in the builder process, interleaved with the live stream. A rebuild
packs a new snapshot and the swap lays the whole old overlay over it, so nothing
ever leaves the overlay. -/
namespace OpenctiLookup
open Python Theory

structure Rebuilding where
  reason : Str
  previous : Option SharedMembershipState
  generation : ℕ
  /-- The fingerprints stream events touched since it started. -/
  touched : Finset Word

structure BuilderState where
  host : Host
  consumer : StreamConsumer
  worker : Worker
  rebuilding : Option Rebuilding
  /-- The fingerprints touched since the last completed `overlay_full` rebuild
  started, once there is one. -/
  sinceFull : Option (Finset Word)

inductive BuilderStep where
  | event (change : Change)
  /-- The reconcile loop wakes up, by its interval or by a request. -/
  | start (timedOut : Bool)
  | finish (client : BootstrapClient) (now : ℚ)
  /-- A rebuild raises and leaves this behind on the host. -/
  | fail (host : Host)

variable (rt : Runtime) (settings : Settings) (budgetBytes : ℕ)

namespace BuilderState

variable (s : BuilderState)

def membership : MembershipSet := s.worker.membership

def setReconciler (f : Reconciler → Reconciler) : Worker :=
  { s.worker with reconciler := s.worker.reconciler.map f }

def afterEvent (change : Change) : BuilderState where
  host := s.host
  consumer := (change.handled rt settings s.consumer s.worker).consumer
  worker := (change.handled rt settings s.consumer s.worker).target
  rebuilding := s.rebuilding.map fun r =>
    { r with touched := r.touched ∪ change.touched rt settings }
  sinceFull := s.sinceFull.map fun since => since ∪ change.touched rt settings

def afterStart (reason : Str) : BuilderState :=
  { s with
    worker := s.setReconciler Reconciler.begin
    rebuilding := some ⟨reason, s.host.read, s.host.nextGeneration, ∅⟩ }

def afterFinish (r : Rebuilding) (built : BuiltGeneration) : BuilderState where
  host := (installGeneration r.previous built s.worker.split).1
  consumer := s.consumer
  worker :=
    { s.setReconciler (Reconciler.completed r.reason r.generation) with
      split := (installGeneration r.previous built s.worker.split).2 }
  rebuilding := none
  sinceFull := if r.reason = "overlay_full" then some r.touched else s.sinceFull

def afterFail (host : Host) : BuilderState :=
  { s with host := host, worker := s.setReconciler Reconciler.failed, rebuilding := none }

end BuilderState

def builderSystem : System BuilderState BuilderStep where
  init s :=
    (∃ values name maxEntries segments segments',
      MembershipSet.build rt values name settings.membershipOverlayMax maxEntries segments =
        .ok (s.membership, segments')) ∧
      s.worker.reconciler = some {} ∧ s.rebuilding = none ∧ s.sinceFull = none
  step s a s' :=
    match a with
    | .event change =>
        (change.handled rt settings s.consumer s.worker).fault = none ∧
          s' = s.afterEvent rt settings change
    | .start timedOut =>
        s.rebuilding = none ∧ ∃ r, s.worker.reconciler = some r ∧
          (timedOut = true ∨ r.trigger = true) ∧
          s' = s.afterStart (if timedOut then "scheduled" else r.nextReason)
    | .finish client now =>
        ∃ r built, s.rebuilding = some r ∧
          buildGeneration rt settings client now (maxEntriesOf budgetBytes) r.generation s.host =
            .ok built ∧
          s' = s.afterFinish r built
    | .fail host => s.rebuilding.isSome = true ∧ s' = s.afterFail host

section Invariant

variable {rt settings budgetBytes} {s s' : BuilderState}

theorem step_start {r : Reconciler} (hidle : s.rebuilding = none)
    (hreconciler : s.worker.reconciler = some r) (htrigger : r.trigger = true) :
    (builderSystem rt settings budgetBytes).step s (.start false) (s.afterStart r.nextReason) :=
  ⟨hidle, r, hreconciler, .inr htrigger, rfl⟩

theorem step_finish {r : Rebuilding} {client : BootstrapClient} {now : ℚ} {built : BuiltGeneration}
    (hr : s.rebuilding = some r)
    (hbuilt : buildGeneration rt settings client now
      (maxEntriesOf budgetBytes) r.generation s.host =
      .ok built) :
    (builderSystem rt settings budgetBytes).step s (.finish client now) (s.afterFinish r built) :=
  ⟨r, built, hr, hbuilt, rfl⟩

/-- What every state of the builder keeps about the served set. -/
structure BuilderState.Sound (settings : Settings) (s : BuilderState) : Prop where
  ok : s.membership.Ok
  overlayMax : s.membership.overlayMax = settings.membershipOverlayMax

theorem membership_afterEvent {change : Change}
    (hfault : (change.handled rt settings s.consumer s.worker).fault = none) :
    (s.afterEvent rt settings change).membership =
      MembershipSet.writeAll rt change.kind.adds (change.keys rt settings) s.membership := by
  unfold BuilderState.afterEvent BuilderState.membership
  dsimp only
  rw [target_handled _ _ _ hfault, Worker.membership_changed]

theorem sound_init (h : (builderSystem rt settings budgetBytes).init s) : s.Sound settings := by
  obtain ⟨⟨values, name, maxEntries, segments, segments', hbuild⟩, -⟩ := h
  obtain ⟨hok, -, -, hmax⟩ := MembershipSet.build_spec hbuild
  exact ⟨hok, hmax⟩

theorem membership_afterFinish (r : Rebuilding) (built : BuiltGeneration) :
    (s.afterFinish r built).membership = built.membership.adoptOverlay s.membership := rfl

theorem reconciler_afterFinish (r : Rebuilding) (built : BuiltGeneration) :
    (s.afterFinish r built).worker.reconciler =
      s.worker.reconciler.map (Reconciler.completed r.reason r.generation) := rfl

theorem sinceFull_afterFinish {r : Rebuilding} (h : r.reason = "overlay_full")
    (built : BuiltGeneration) : (s.afterFinish r built).sinceFull = some r.touched := if_pos h

theorem membership_afterStart (reason : Str) : (s.afterStart reason).membership =
    s.membership := rfl

theorem reconciler_afterStart (reason : Str) :
    (s.afterStart reason).worker.reconciler = s.worker.reconciler.map Reconciler.begin := rfl

theorem sound_afterFinish (h : s.Sound settings) {r : Rebuilding}
    {client : BootstrapClient} {now : ℚ}
    {built : BuiltGeneration}
    (hbuilt : buildGeneration rt settings client now
      (maxEntriesOf budgetBytes) r.generation s.host =
      .ok built) : (s.afterFinish r built).Sound settings := by
  obtain ⟨report, segments, hbuild, -⟩ := buildGeneration_eq_ok hbuilt
  obtain ⟨hok, hfresh, hmax⟩ := buildMembership_fresh hbuild
  exact ⟨MembershipSet.ok_adoptOverlay hok hfresh h.ok, hmax⟩

theorem sound_afterEvent {change : Change} (h : s.Sound settings)
    (hfault : (change.handled rt settings s.consumer s.worker).fault = none) :
    (s.afterEvent rt settings change).Sound settings := by
  refine ⟨?_, ?_⟩
  · rw [membership_afterEvent hfault]
    exact MembershipSet.ok_writeAll h.ok _ _
  · rw [membership_afterEvent hfault, (MembershipSet.writeAll_packed _ _).2, h.overlayMax]

theorem sound_step {a : BuilderStep} (h : s.Sound settings)
    (hstep : (builderSystem rt settings budgetBytes).step s a s') : s'.Sound settings := by
  cases a with
  | event change =>
      obtain ⟨hfault, rfl⟩ := hstep
      exact sound_afterEvent h hfault
  | start timedOut =>
      obtain ⟨-, r, -, -, rfl⟩ := hstep
      exact ⟨h.ok, h.overlayMax⟩
  | finish client now =>
      obtain ⟨r, built, -, hbuilt, rfl⟩ := hstep
      exact sound_afterFinish h hbuilt
  | fail host =>
      obtain ⟨-, rfl⟩ := hstep
      exact ⟨h.ok, h.overlayMax⟩

theorem sound_of_reaches {ok : BuilderState → BuilderStep → Prop} {trace : List BuilderStep}
    (h : Reaches (builderSystem rt settings budgetBytes) ok trace s) : s.Sound settings :=
  h.invariant (fun _ => sound_init) fun _ _ _ hsound _ hstep => sound_step hsound hstep

end Invariant

/-! ### What a rebuild repairs -/

/-- A fingerprint is that of a lookupable value of the snapshot. -/
def InSnapshot (snapshot : List Str) (fp : Word) : Prop :=
  ∃ key ∈ keysOf rt settings snapshot, fingerprint rt key = fp

def Loaded (snapshot : List Str) (fp : Word) : Prop :=
  ∃ key ∈ MembershipSet.seenValues (maxEntriesOf budgetBytes) (keysOf rt settings snapshot) 0,
    fingerprint rt key = fp

/-- The old overlay says nothing against the snapshot, and says what the entry
ceiling cut off. -/
structure OverlayAgrees (snapshot : List Str) (old : MembershipSet) : Prop where
  added : ∀ value, fingerprint rt value ∈ old.added →
    InSnapshot rt settings snapshot (fingerprint rt value)
  tombstones : ∀ value, fingerprint rt value ∈ old.tombstones →
    ¬ InSnapshot rt settings snapshot (fingerprint rt value)
  cut : ∀ value, InSnapshot rt settings snapshot (fingerprint rt value) →
    ¬ Loaded rt settings budgetBytes snapshot (fingerprint rt value) →
    fingerprint rt value ∈ old.added

section Rebuild

variable {rt settings budgetBytes} {snapshot : List Str} {old new : MembershipSet}

theorem loaded_inSnapshot {fp : Word} (h : Loaded rt settings budgetBytes snapshot fp) :
    InSnapshot rt settings snapshot fp := by
  obtain ⟨key, hkey, hfp⟩ := h
  refine ⟨key, ?_, hfp⟩
  unfold MembershipSet.seenValues at hkey
  split at hkey
  · exact hkey
  · exact List.mem_of_mem_take hkey

/-- A freshly built set under an old overlay answers for the snapshot exactly
when the overlay agrees with it. -/
theorem contains_adoptOverlay_iff (hold : old.Ok) (hnew : new.Ok) (hfresh : new.Fresh)
    (hpacked : ∀ fp, fp ∈ new.packed ↔ Loaded rt settings budgetBytes snapshot fp) :
    (∀ value, (new.adoptOverlay old).contains rt value = true ↔
        InSnapshot rt settings snapshot (fingerprint rt value)) ↔
      OverlayAgrees rt settings budgetBytes snapshot old := by
  have hcontains : ∀ value, (new.adoptOverlay old).contains rt value = true ↔
      Overlay.Holds (· ∈ new.packed) (old.overlay hold) (fingerprint rt value) := by
    intro value
    rw [MembershipSet.contains_iff (MembershipSet.ok_adoptOverlay hnew hfresh hold),
      MembershipSet.overlay_adoptOverlay hnew hfresh hold]
    rfl
  simp only [hcontains]
  constructor
  · intro h
    refine ⟨fun value hadded => ?_, fun value hremoved => ?_, fun value hin hcut => ?_⟩
    · exact (h value).mp ((Overlay.holds_of_verdict
        (Overlay.verdict_eq_some_true.mpr hadded)).mpr rfl)
    · rw [← h value, Overlay.holds_of_verdict (Overlay.verdict_eq_some_false.mpr hremoved)]
      simp
    · have hholds := (h value).mpr hin
      cases hverdict : (old.overlay hold).verdict (fingerprint rt value) with
      | none =>
          rw [Overlay.holds_of_untouched hverdict, hpacked] at hholds
          exact absurd hholds hcut
      | some present =>
          rw [Overlay.holds_of_verdict hverdict] at hholds
          exact Overlay.verdict_eq_some_true.mp (hholds ▸ hverdict)
  · intro h value
    cases hverdict : (old.overlay hold).verdict (fingerprint rt value) with
    | none =>
        rw [Overlay.holds_of_untouched hverdict, hpacked]
        refine ⟨loaded_inSnapshot, fun hin => ?_⟩
        by_contra hcut
        have hadded : fingerprint rt value ∈ (old.overlay hold).added := h.cut value hin hcut
        rw [Overlay.verdict_eq_some_true.mpr hadded] at hverdict
        cases hverdict
    | some present =>
        rw [Overlay.holds_of_verdict hverdict]
        cases present with
        | true => exact ⟨fun _ => h.added value
            (Overlay.verdict_eq_some_true.mp hverdict), fun _ => rfl⟩
        | false =>
            have hout := h.tombstones value (Overlay.verdict_eq_some_false.mp hverdict)
            exact ⟨fun hfalse => Bool.noConfusion hfalse, fun hin => absurd hin hout⟩

theorem contains_rebuild_iff {s : BuilderState} (hsound : s.Sound settings)
    {client : BootstrapClient} (hserves : Serves settings client .null snapshot) {now : ℚ}
    {host' : Host} {backend' : SplitBackend}
    (hrebuild : rebuild rt settings client now budgetBytes s.host s.worker.split =
      .ok (host', backend')) :
    (∀ value, backend'.membership.contains rt value = true ↔
        InSnapshot rt settings snapshot (fingerprint rt value)) ↔
      OverlayAgrees rt settings budgetBytes snapshot s.membership := by
  unfold rebuild at hrebuild
  obtain ⟨built, hbuilt, hinstall⟩ := bind_eq_ok_iff.mp hrebuild
  cases hinstall
  obtain ⟨report, segments, hbuild, -⟩ := buildGeneration_eq_ok hbuilt
  obtain ⟨hok, hfresh, -⟩ := buildMembership_fresh hbuild
  exact contains_adoptOverlay_iff hsound.ok hok hfresh
    (packed_buildMembership hserves (fun _ => maxEntriesOf_pos) hbuild)

theorem buildGeneration_healthy {client : BootstrapClient} {corpus : List Str}
    (h : Healthy rt settings client corpus) (now : ℚ) (generation : ℕ) (host : Host) :
    (∃ built, buildGeneration rt settings client now (maxEntriesOf budgetBytes) generation host =
        .ok built) ↔
      keysOf rt settings corpus = [] ∨
        ∀ segment ∈ host.segments, segment.name ≠ segmentName generation := by
  rw [← buildMembership_healthy h (fun _ => @maxEntriesOf_pos budgetBytes _)]
  unfold buildGeneration
  simp only [bind_eq_ok_iff]
  exact ⟨fun ⟨_, built, hbuilt, _⟩ => ⟨built, hbuilt⟩, fun ⟨built, hbuilt⟩ =>
    ⟨_, built, hbuilt, rfl⟩⟩

end Rebuild

/-- After a rebuild without events in between, the served set answers for the
snapshot exactly when the overlay of the run before agrees with it. -/
theorem rebuild_repairs_iff {trace : List BuilderStep} {s : BuilderState} {client : BootstrapClient}
    {snapshot : List Str} {now : ℚ} {host' : Host} {backend' : SplitBackend}
    (hrun : Reaches (builderSystem rt settings budgetBytes) anyStep trace s)
    (hserves : Serves settings client .null snapshot)
    (hrebuild : rebuild rt settings client now budgetBytes s.host s.worker.split =
      .ok (host', backend')) :
    (∀ value, backend'.membership.contains rt value = true ↔
        InSnapshot rt settings snapshot (fingerprint rt value)) ↔
      OverlayAgrees rt settings budgetBytes snapshot s.membership :=
  contains_rebuild_iff (sound_of_reaches hrun) hserves hrebuild

section RepairSample

def sampleBuilder (overlayMax : ℤ) : BuilderState :=
  ⟨⟨[], none⟩, {}, sampleWorker overlayMax, none, none⟩

theorem init_sampleBuilder (overlayMax : ℤ) :
    (builderSystem sampleRuntime (sampleSettings overlayMax) 0).init (sampleBuilder overlayMax) :=
  ⟨⟨[], none, none, [], [], rfl⟩, rfl, rfl, rfl⟩

def afterSample (overlayMax : ℤ) (kind : ChangeKind) (domains : List Str) : BuilderState :=
  (sampleBuilder overlayMax).afterEvent sampleRuntime (sampleSettings overlayMax)
    (sampleChange kind "a" domains)

theorem event_sampleBuilder (overlayMax : ℤ) (kind : ChangeKind) (domains : List Str)
    (hdomains : domains ⊆ ["evil.com", "good.com"]) :
    (builderSystem sampleRuntime (sampleSettings overlayMax) 0).step (sampleBuilder overlayMax)
      (.event (sampleChange kind "a" domains)) (afterSample overlayMax kind domains) :=
  ⟨fault_sample overlayMax kind "a" hdomains _ _, rfl⟩

theorem healthy_sample (overlayMax : ℤ) :
    Healthy sampleRuntime (sampleSettings overlayMax) (.onePage ["evil.com"]) ["evil.com"] :=
  healthy_onePage rfl fun raw hraw => by
    rw [List.mem_singleton.mp hraw]
    exact ⟨_, norm_evil overlayMax⟩

theorem rebuild_sample (s : BuilderState) (hhost : s.host = ⟨[], none⟩) :
    ∃ host' backend', rebuild sampleRuntime (sampleSettings 50000)
      (.onePage ["evil.com"]) 0 0 s.host
      s.worker.split = .ok (host', backend') := by
  obtain ⟨built, hbuilt⟩ := (buildGeneration_healthy (healthy_sample 50000) 0
    s.host.nextGeneration s.host).mpr (.inr (by rw [hhost]; simp))
  exact ⟨_, _, bind_eq_ok_iff.mpr ⟨built, hbuilt, rfl⟩⟩

def touchedSample : BuilderState :=
  (afterSample 50000 .create ["evil.com"]).afterEvent sampleRuntime (sampleSettings 50000)
    (sampleChange .delete "b" ["good.com"])

theorem reaches_touchedSample :
    Reaches (builderSystem sampleRuntime (sampleSettings 50000) 0) anyStep
      [.event (sampleChange .create "a" ["evil.com"]),
        .event (sampleChange .delete "b" ["good.com"])] touchedSample :=
  ((Reaches.init (init_sampleBuilder 50000)).step trivial
    (event_sampleBuilder 50000 .create ["evil.com"] (by simp))).step trivial
      ⟨fault_sample 50000 .delete "b" (by simp) _ _, rfl⟩

theorem overlay_touchedSample :
    touchedSample.membership.added = {fingerprint sampleRuntime "evil.com"} ∧
      touchedSample.membership.tombstones = {fingerprint sampleRuntime "good.com"} := by
  have hgood : (sampleChange .delete "b" ["good.com"]).keys sampleRuntime (sampleSettings 50000) =
      ["good.com".toList] := (keys_sampleObject 50000 _).trans (keysOf_good 50000)
  have hevil : (sampleChange .create "a" ["evil.com"]).keys sampleRuntime (sampleSettings 50000) =
      ["evil.com".toList] := (keys_sampleObject 50000 _).trans (keysOf_evil 50000)
  rw [touchedSample, membership_afterEvent (fault_sample 50000 .delete "b" (by simp) _ _), hgood,
    afterSample, membership_afterEvent (fault_sample 50000 .create "a" (by simp) _ _), hevil]
  decide

/-- The added value is in the snapshot and the removed one is not, so the rebuild over them
repairs the set. -/
theorem rebuild_repairs_touched :
    ∃ host' backend', rebuild sampleRuntime (sampleSettings 50000) (.onePage ["evil.com"]) 0 0
        touchedSample.host touchedSample.worker.split = .ok (host', backend') ∧
      ∀ value, backend'.membership.contains sampleRuntime value = true ↔
        InSnapshot sampleRuntime (sampleSettings 50000) ["evil.com"]
          (fingerprint sampleRuntime value) := by
  obtain ⟨host', backend', hrebuild⟩ := rebuild_sample touchedSample rfl
  obtain ⟨hadded, htombstones⟩ := overlay_touchedSample
  have hsnapshot : ∀ fp, InSnapshot sampleRuntime (sampleSettings 50000) ["evil.com"] fp ↔
      fingerprint sampleRuntime "evil.com" = fp := by
    intro fp
    rw [InSnapshot, keysOf_evil]
    simp
  refine ⟨host', backend', hrebuild, (rebuild_repairs_iff _ _ _ reaches_touchedSample
    (healthy_sample 50000).serves hrebuild).mpr ⟨fun value hvalue => ?_, fun value hvalue => ?_,
      fun value hin hcut => absurd hin hcut⟩⟩
  · rw [hadded, Finset.mem_singleton] at hvalue
    exact (hsnapshot _).mpr hvalue.symm
  · rw [htombstones, Finset.mem_singleton] at hvalue
    rw [hsnapshot, hvalue]
    decide

/-- A tombstone outlives the rebuild that finds its value in the snapshot. -/
theorem rebuild_keeps_stale_tombstone :
    ¬ ∀ (rt : Runtime) (settings : Settings) (budgetBytes : ℕ) (trace : List BuilderStep)
      (s : BuilderState) (client : BootstrapClient) (snapshot : List Str) (now : ℚ) (host' : Host)
      (backend' : SplitBackend), Reaches (builderSystem rt settings budgetBytes) anyStep trace s →
      Serves settings client .null snapshot →
      rebuild rt settings client now budgetBytes s.host s.worker.split = .ok (host', backend') →
      ∀ value, backend'.membership.contains rt value = true ↔
        InSnapshot rt settings snapshot (fingerprint rt value) := by
  intro hall
  have hstep := event_sampleBuilder 50000 .delete ["evil.com"] (by simp)
  have hrun : Reaches (builderSystem sampleRuntime (sampleSettings 50000) 0) anyStep _
      (afterSample 50000 .delete ["evil.com"]) :=
    .step (.init (init_sampleBuilder 50000)) trivial hstep
  obtain ⟨host', backend', hrebuild⟩ := rebuild_sample (afterSample 50000 .delete ["evil.com"]) rfl
  have hserved := hall _ _ _ _ _ _ _ _ _ _ hrun (healthy_sample 50000).serves hrebuild
  have hagrees := (contains_rebuild_iff (sound_of_reaches hrun) (healthy_sample 50000).serves
    hrebuild).mp hserved
  refine hagrees.tombstones "evil.com" ?_ ⟨"evil.com", ?_, rfl⟩
  · rw [afterSample, membership_afterEvent hstep.1, Change.keys, sampleChange, keys_sampleObject,
      keysOf_evil]
    decide
  · rw [keysOf_evil]
    exact List.mem_singleton_self _

end RepairSample

/-! ### When a full overlay is folded in -/

def Requests (s : BuilderState) (change : Change) : Prop :=
  (change.handled rt settings s.consumer s.worker).target.reconciler ≠ s.worker.reconciler

/-- After a completed `overlay_full` rebuild the overlay holds only what events
touched since that rebuild started, and the next request waits for `overlay_max`
of them. -/
structure FoldedIn (s : BuilderState) : Prop where
  bounded : ∀ since, s.sinceFull = some since → s.membership.touched ⊆ since
  spaced : ∀ change, (change.handled rt settings s.consumer s.worker).fault = none →
    Requests rt settings s change → ∀ since, s.sinceFull = some since →
    settings.membershipOverlayMax ≤ ((since ∪ change.touched rt settings).card : ℤ)

/-- When an `overlay_full` rebuild completes, events since its start have touched
everything in the overlay. -/
def Retouched (s : BuilderState) (a : BuilderStep) : Prop :=
  ∀ client now, a = .finish client now → ∀ r, s.rebuilding = some r → r.reason = "overlay_full" →
    s.membership.touched ⊆ r.touched

section Folding

variable {rt settings budgetBytes} {s s' : BuilderState} {change : Change}

theorem touched_afterEvent (h : s.Sound settings)
    (hfault : (change.handled rt settings s.consumer s.worker).fault = none) :
    (s.afterEvent rt settings change).membership.touched =
      s.membership.touched ∪ change.touched rt settings := by
  rw [membership_afterEvent hfault, MembershipSet.touched_writeAll h.ok]
  rfl

theorem overlayFull_of_requests
    (hfault : (change.handled rt settings s.consumer s.worker).fault = none)
    (hrequests : Requests rt settings s change) :
    (s.afterEvent rt settings change).membership.overlayFull = true := by
  rw [membership_afterEvent hfault]
  by_contra hfull
  refine hrequests ?_
  rw [target_handled _ _ _ hfault, Worker.changed, Worker.checkOverlay]
  split
  · rfl
  · split
    · rename_i hset
      exact absurd hset hfull
    · rfl

theorem foldedIn_of_bounded (h : s.Sound settings)
    (hbounded : ∀ since, s.sinceFull = some since → s.membership.touched ⊆ since) :
    FoldedIn rt settings s := by
  refine ⟨hbounded, fun change hfault hrequests since hsince => ?_⟩
  have hfull := overlayFull_of_requests hfault hrequests
  have hsound := sound_afterEvent h hfault
  rw [MembershipSet.overlayFull_iff hsound.ok, hsound.overlayMax,
    touched_afterEvent h hfault] at hfull
  refine hfull.trans (Int.ofNat_le.mpr (Finset.card_le_card ?_))
  exact Finset.union_subset_union_left (hbounded since hsince)

theorem touched_afterFinish (h : s.Sound settings) {r : Rebuilding} {client : BootstrapClient}
    {now : ℚ} {built : BuiltGeneration}
    (hbuilt : buildGeneration rt settings client now
      (maxEntriesOf budgetBytes) r.generation s.host =
      .ok built) :
    (s.afterFinish r built).membership.touched = s.membership.touched := by
  obtain ⟨report, segments, hbuild, -⟩ := buildGeneration_eq_ok hbuilt
  rw [membership_afterFinish, MembershipSet.touched_adoptOverlay
    (buildMembership_fresh hbuild).2.1 h.ok]

theorem foldedIn_init (h : (builderSystem rt settings budgetBytes).init s) :
    FoldedIn rt settings s :=
  foldedIn_of_bounded (sound_init h) fun since hsince => by
    rw [h.2.2.2] at hsince
    cases hsince

theorem foldedIn_step {a : BuilderStep} (h : s.Sound settings) (hfolded : FoldedIn rt settings s)
    (hretouched : Retouched s a) (hstep : (builderSystem rt settings budgetBytes).step s a s') :
    FoldedIn rt settings s' := by
  refine foldedIn_of_bounded (sound_step h hstep) ?_
  intro since hsince
  cases a with
  | event change =>
      obtain ⟨hfault, rfl⟩ := hstep
      rw [touched_afterEvent h hfault]
      obtain ⟨before, hbefore, rfl⟩ : ∃ before, s.sinceFull = some before ∧
          before ∪ change.touched rt settings = since := Option.map_eq_some_iff.mp hsince
      exact Finset.union_subset_union_left (hfolded.bounded before hbefore)
  | start timedOut =>
      obtain ⟨-, r, -, -, rfl⟩ := hstep
      exact hfolded.bounded since hsince
  | finish client now =>
      obtain ⟨r, built, hr, hbuilt, rfl⟩ := hstep
      rw [touched_afterFinish h hbuilt]
      unfold BuilderState.afterFinish at hsince
      dsimp only at hsince
      split at hsince
      · rename_i hreason
        cases hsince
        exact hretouched client now rfl r hr hreason
      · exact hfolded.bounded since hsince
  | fail host =>
      obtain ⟨-, rfl⟩ := hstep
      exact hfolded.bounded since hsince

/-- A rebuild that completes over an overlay events have not touched again folds
nothing in. -/
theorem retouched_of_foldedIn {a : BuilderStep} (h : s.Sound settings)
    (hstep : (builderSystem rt settings budgetBytes).step s a s')
    (hfolded : FoldedIn rt settings s') :
    Retouched s a := by
  rintro client now rfl r hr hreason
  obtain ⟨r', built, hr', hbuilt, rfl⟩ := hstep
  obtain rfl := Option.some.inj (hr.symm.trans hr')
  have hbounded := hfolded.bounded r.touched (by simp [BuilderState.afterFinish, hreason])
  rwa [touched_afterFinish h hbuilt] at hbounded

end Folding

/-- Full overlays are folded in throughout a run exactly when each rebuild they
cause ends with the whole overlay touched again. -/
theorem full_overlay_folded_iff {trace : List BuilderStep} {s : BuilderState} :
    Reaches (builderSystem rt settings budgetBytes)
        (fun s a => ∀ s', (builderSystem rt settings budgetBytes).step s a s' →
          FoldedIn rt settings s') trace s ↔
      Reaches (builderSystem rt settings budgetBytes) Retouched trace s := by
  constructor
  · intro hrun
    refine hrun.weaken (I := BuilderState.Sound settings) (fun _ => sound_init) ?_ ?_
    · exact fun _ _ _ hsound _ hstep => sound_step hsound hstep
    · exact fun _ _ s' hsound hstep hclaim => retouched_of_foldedIn hsound hstep (hclaim s' hstep)
  · intro hrun
    refine hrun.weaken (I := fun s => s.Sound settings ∧ FoldedIn rt settings s)
      (fun _ hinit => ⟨sound_init hinit, foldedIn_init hinit⟩) ?_ ?_
    · exact fun _ _ _ hinv hretouched hstep =>
        ⟨sound_step hinv.1 hstep, foldedIn_step hinv.1 hinv.2 hretouched hstep⟩
    · exact fun _ _ _ hinv _ hretouched s' hstep => foldedIn_step hinv.1 hinv.2 hretouched hstep

section Again

variable {rt settings budgetBytes} {s : BuilderState} {change : Change}

theorem reconciler_of_overlayFull
    (hfault : (change.handled rt settings s.consumer s.worker).fault = none)
    (hkeys : change.keys rt settings ≠ [])
    (hfull : (s.afterEvent rt settings change).membership.overlayFull = true) :
    (change.handled rt settings s.consumer s.worker).target.reconciler =
      s.worker.reconciler.map (Reconciler.request "overlay_full") := by
  rw [membership_afterEvent hfault] at hfull
  rw [target_handled _ _ _ hfault, Worker.changed, Worker.checkOverlay, if_neg hkeys]
  exact congrArg Worker.reconciler (if_pos hfull)

theorem overlayFull_afterEvent (h : s.Sound settings)
    (hfault : (change.handled rt settings s.consumer s.worker).fault = none)
    (hfull : settings.membershipOverlayMax ≤ (s.membership.touched.card : ℤ)) :
    (s.afterEvent rt settings change).membership.overlayFull = true := by
  have hsound := sound_afterEvent h hfault
  rw [MembershipSet.overlayFull_iff hsound.ok, hsound.overlayMax, touched_afterEvent h hfault]
  exact hfull.trans (Int.ofNat_le.mpr (Finset.card_le_card Finset.subset_union_left))

/-- Once the overlay is full, the first event after a rebuild that carries a key
requests the next one. -/
theorem requests_afterFinish (h : s.Sound settings) {reconciler : Reconciler}
    (hreconciler : s.worker.reconciler = some reconciler) (htrigger : reconciler.trigger = false)
    (hfull : settings.membershipOverlayMax ≤ (s.membership.touched.card : ℤ)) {r : Rebuilding}
    {client : BootstrapClient} {now : ℚ} {built : BuiltGeneration}
    (hbuilt : buildGeneration rt settings client now
      (maxEntriesOf budgetBytes) r.generation s.host =
      .ok built)
    (hfault : (change.handled rt settings (s.afterFinish r built).consumer
      (s.afterFinish r built).worker).fault = none)
    (hkeys : change.keys rt settings ≠ []) : Requests rt settings
      (s.afterFinish r built) change := by
  have hsound : (s.afterFinish r built).Sound settings := sound_afterFinish h hbuilt
  have hstill := hfull
  rw [← touched_afterFinish h hbuilt] at hstill
  have hcompleted := reconciler_afterFinish (s := s) r built
  rw [hreconciler, Option.map_some] at hcompleted
  have hrequest := reconciler_of_overlayFull hfault hkeys
    (overlayFull_afterEvent hsound hfault hstill)
  rw [hcompleted, Option.map_some] at hrequest
  intro hsame
  rw [hrequest, hcompleted] at hsame
  have htriggers := congrArg Reconciler.trigger (Option.some.inj hsame)
  rw [Reconciler.request, if_neg (by simp [Reconciler.completed])] at htriggers
  exact Bool.noConfusion (htriggers.trans htrigger)

end Again

section FoldSample

theorem keys_sampleChange (kind : ChangeKind) (domains : List Str) :
    (sampleChange kind "a" domains).keys sampleRuntime (sampleSettings 2) =
      keysOf sampleRuntime (sampleSettings 2) domains := keys_sampleObject 2 domains

theorem full_afterSample :
    (afterSample 2 .create ["evil.com", "good.com"]).membership.overlayFull = true := by
  rw [afterSample, membership_afterEvent (fault_sample 2 .create "a" (by simp) _ _),
    keys_sampleChange, keysOf_both]
  decide

theorem reconciler_afterSample :
    (afterSample 2 .create ["evil.com", "good.com"]).worker.reconciler =
      some (Reconciler.request "overlay_full" {}) :=
  reconciler_of_overlayFull (fault_sample 2 .create "a" (by simp) _ _)
    (by rw [keys_sampleChange, keysOf_both]; simp) full_afterSample

/-- From a builder whose full overlay has just made it request a rebuild: the
rebuild starts and completes without events in between, and the next event, which
touches one fingerprint, requests another. -/
theorem not_foldedIn_of_filled {trace : List BuilderStep} {filled : BuilderState}
    (hfilled : Reaches (builderSystem sampleRuntime (sampleSettings 2) 0) anyStep trace filled)
    (hreconciler : filled.worker.reconciler = some (Reconciler.request "overlay_full" {}))
    (hidle : filled.rebuilding = none) (hhost : filled.host = ⟨[], none⟩)
    (hfull : filled.membership.overlayFull = true) :
    ∃ trace s, Reaches (builderSystem sampleRuntime (sampleSettings 2) 0) anyStep trace s ∧
      ¬ FoldedIn sampleRuntime (sampleSettings 2) s := by
  have hstarted := hfilled.step trivial (step_start hidle hreconciler rfl)
  have hsound := sound_of_reaches hfilled
  rw [MembershipSet.overlayFull_iff hsound.ok, hsound.overlayMax,
    ← membership_afterStart (Reconciler.request "overlay_full" {}).nextReason] at hfull
  obtain ⟨built, hbuilt⟩ : ∃ built, buildGeneration sampleRuntime (sampleSettings 2)
      (.onePage ["evil.com"]) 0 (maxEntriesOf 0) filled.host.nextGeneration
        filled.host = .ok built :=
    (buildGeneration_healthy (healthy_sample 2) 0 _ _).mpr (.inr (by rw [hhost]; simp))
  generalize hreason : (Reconciler.request "overlay_full" {}).nextReason = reason at hstarted hfull
  have hfinish : (builderSystem sampleRuntime (sampleSettings 2) 0).step (filled.afterStart reason)
      (.finish (.onePage ["evil.com"]) 0) ((filled.afterStart reason).afterFinish
        ⟨reason, filled.host.read, filled.host.nextGeneration, ∅⟩ built) :=
    step_finish rfl hbuilt
  have hbegun := reconciler_afterStart (s := filled) reason
  rw [hreconciler, Option.map_some] at hbegun
  have hdone := hstarted.step trivial hfinish
  refine ⟨_, _, hdone, ?_⟩
  intro hfolded
  have hone : ["evil.com".toList] ⊆ ["evil.com", "good.com"] := by simp
  have hfault := fault_sample 2 .create "a" hone
  have hrequests := requests_afterFinish (r := ⟨reason, filled.host.read,
    filled.host.nextGeneration, ∅⟩) (sound_of_reaches hstarted) hbegun rfl hfull hbuilt
    (hfault _ _) (by rw [keys_sampleChange, keysOf_evil]; simp)
  have hspaced := hfolded.spaced _ (hfault _ _) hrequests ∅
    (sinceFull_afterFinish (hreason.symm.trans rfl) built)
  rw [Change.touched, keys_sampleChange, keysOf_evil] at hspaced
  exact absurd hspaced (by decide)

/-- An event fills the overlay of two, and after the rebuild this causes a single
fingerprint is enough for the next request. -/
theorem full_overlay_requested_again :
    ¬ ∀ (rt : Runtime) (settings : Settings) (budgetBytes : ℕ) (trace : List BuilderStep)
      (s : BuilderState), Reaches (builderSystem rt settings budgetBytes) anyStep trace s →
      FoldedIn rt settings s := by
  intro hall
  obtain ⟨trace, s, hrun, hnot⟩ := not_foldedIn_of_filled
    (.step (.init (init_sampleBuilder 2)) trivial (event_sampleBuilder 2 .create _ (by simp)))
    reconciler_afterSample rfl rfl full_afterSample
  exact hnot (hall _ _ _ _ _ hrun)

end FoldSample

end OpenctiLookup
