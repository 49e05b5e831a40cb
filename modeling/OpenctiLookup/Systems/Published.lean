import OpenctiLookup.Systems.Recovery
import OpenctiLookup.Systems.ServedSet

/-! What a reader gets of a generation once it is published. A set with values leaves a segment
behind under the published name; an empty one publishes a name no segment has. -/
namespace OpenctiLookup
open Python Theory

/-- A segment as another process maps it, whole pages at a time: zeros may follow its words. -/
structure Segment.Pads (segment padded : Segment) : Prop where
  name : padded.name = segment.name
  words : ∃ zeros, padded.words = segment.words ++ List.replicate zeros 0
  empty : segment.words = [] → padded.words = []

structure Host.Pads (host padded : Host) : Prop where
  stateFile : padded.stateFile = host.stateFile
  segments : List.Forall₂ Segment.Pads host.segments padded.segments

/-- A segment of this name can be mapped: it exists and has at least one byte. -/
def Host.Maps (host : Host) (name : Str) : Prop :=
  ∃ segment, host.segments.find name = some segment ∧ segment.words ≠ []

theorem Host.Pads.refl (host : Host) : host.Pads host where
  stateFile := rfl
  segments := List.forall₂_same.mpr fun _ _ => ⟨rfl, ⟨0, (List.append_nil _).symm⟩, id⟩

variable (rt : Runtime) (settings : Settings)

/-- `read` and then `_attach`, which does not catch the `ValueError` of a segment without a
byte. -/
def readerAttach (host : Host) : Py (Option MembershipSet) :=
  match host.read with
  | none => .ok none
  | some state =>
      if (host.segments.find state.shmName).any fun segment => segment.words.isEmpty then
        .error (.raised .valueError)
      else .ok (attachTo settings state host.segments)

/-- The host once a build has published. A rebuild has swept as well. -/
def publishedBy (host : Host) (built : BuiltGeneration) (backend : SplitBackend) :
    BuildPath → Host
  | .load => built.host.publish built.state
  | .rebuild => (installGeneration host.read built backend).1

/-- A reader obtains a set that answers for every value as the builder's own does. -/
def ReaderAgrees (built : MembershipSet) (host : Host) : Prop :=
  ∃ set, readerAttach settings host = .ok (some set) ∧
    ∀ value, set.contains rt value = built.contains rt value

section Attach

variable {rt settings} {host padded : Host} {name : Str} {state : SharedMembershipState}

theorem find_sweep {keep : List Str} (h : name ∈ keep) :
    (host.sweepStaleSegments keep).segments.find name = host.segments.find name := by
  unfold Host.sweepStaleSegments Segments.find
  rw [List.find?_filter]
  congr 1
  funext segment
  by_cases hname : segment.name = name <;> simp [hname, h]

theorem find_pads {segments padded : Segments} (h : List.Forall₂ Segment.Pads segments padded) :
    (segments.find name = none → padded.find name = none) ∧
      ∀ segment, segments.find name = some segment →
        ∃ mapped, padded.find name = some mapped ∧ segment.Pads mapped := by
  unfold Segments.find
  induction h with
  | nil => exact ⟨id, nofun⟩
  | @cons first mapped segments padded hfirst hrest ih =>
      by_cases hname : first.name = name
      · have hmapped : mapped.name = name := hfirst.name.trans hname
        refine ⟨fun hnone => ?_, fun segment hsegment => ⟨mapped, ?_, ?_⟩⟩
        · simp [hname] at hnone
        · simp [hmapped]
        · have hsame : first = segment := by simpa [hname] using hsegment
          exact hsame ▸ hfirst
      · have hmapped : mapped.name ≠ name := fun h => hname (hfirst.name.symm.trans h)
        simpa [hname, hmapped] using ih

theorem maps_pads_iff (h : host.Pads padded) : padded.Maps name ↔ host.Maps name := by
  unfold Host.Maps
  cases hfind : host.segments.find name with
  | none => simp [(find_pads h.segments).1 hfind]
  | some segment =>
      obtain ⟨mapped, hmapped, hpads⟩ := (find_pads h.segments).2 segment hfind
      obtain ⟨zeros, hwords⟩ := hpads.words
      have hempty : mapped.words = [] ↔ segment.words = [] :=
        ⟨fun h => (List.append_eq_nil_iff.mp (hwords ▸ h)).1, hpads.empty⟩
      simp [hmapped, hempty]

theorem readerAttach_of_maps (hread : host.read = some state) {segment : Segment}
    (hfind : host.segments.find state.shmName = some segment) (hwords : segment.words ≠ []) :
    readerAttach settings host =
      .ok (some (.init (some segment) state.count false settings.membershipOverlayMax)) := by
  unfold readerAttach
  rw [hread]
  dsimp only
  rw [hfind, if_neg (by simpa using hwords), attachTo, MembershipSet.attach, hfind]
  rfl

theorem readerAttach_iff (host : Host) :
    (∃ set, readerAttach settings host = .ok (some set)) ↔
      ∃ state, host.read = some state ∧ host.Maps state.shmName := by
  constructor
  · rintro ⟨set, hattach⟩
    unfold readerAttach at hattach
    cases hread : host.read with
    | none =>
        rw [hread] at hattach
        cases hattach
    | some state =>
        rw [hread] at hattach
        refine ⟨state, rfl, ?_⟩
        cases hfind : host.segments.find state.shmName with
        | none => simp [hfind, attachTo, MembershipSet.attach, Except.toOption] at hattach
        | some segment =>
            refine ⟨segment, hfind, fun hempty => ?_⟩
            simp [hfind, hempty] at hattach
  · rintro ⟨state, hread, segment, hfind, hwords⟩
    exact ⟨_, readerAttach_of_maps hread hfind hwords⟩

end Attach

section Publish

variable {rt settings} {client : BootstrapClient} {now : ℚ} {path : BuildPath} {budgetBytes : ℕ}
  {host : Host} {built : BuiltGeneration} {corpus : List Str}

theorem packed_attempt_eq_nil_iff (hserves : Serves settings client .null corpus)
    (h : attempt rt settings client now path (maxEntriesOf budgetBytes) host = .ok built) :
    built.membership.packed = [] ↔ keysOf rt settings corpus = [] := by
  obtain ⟨report, segments, hbuild, -⟩ := buildGeneration_eq_ok h
  exact packed_eq_nil_iff hserves (fun _ => @maxEntriesOf_pos budgetBytes _) hbuild

theorem shmName_attempt
    (h : attempt rt settings client now path (maxEntriesOf budgetBytes) host = .ok built) :
    built.state.shmName = segmentName host.nextGeneration := by
  obtain ⟨-, hname, -⟩ := build_of_attempt h
  rw [hname]
  cases hshm : built.membership.shmName with
  | none => rfl
  | some name => exact (attempt_spec h).2.1 name hshm

theorem find_publishedBy (backend : SplitBackend)
    (h : attempt rt settings client now path (maxEntriesOf budgetBytes) host = .ok built) :
    (publishedBy host built backend path).segments.find (segmentName host.nextGeneration) =
      built.host.segments.find (segmentName host.nextGeneration) := by
  cases path with
  | load => rfl
  | rebuild =>
      refine find_sweep ?_
      rw [keepAfterRebuild, (attempt_spec h).1]
      exact List.mem_cons_self

theorem find_start (path : BuildPath) (host : Host) :
    (path.start host).segments.find (segmentName host.nextGeneration) =
      host.segments.find (segmentName host.nextGeneration) := by
  cases path with
  | load => exact find_sweep List.mem_cons_self
  | rebuild => rfl

theorem published_empty
    (h : attempt rt settings client now path (maxEntriesOf budgetBytes) host = .ok built)
    (hempty : built.membership.packed = []) :
    built.state.count = 0 ∧ (∀ value, built.membership.contains rt value = false) ∧
      built.host.segments.find (segmentName host.nextGeneration) =
        host.segments.find (segmentName host.nextGeneration) := by
  obtain ⟨-, -, hcount, values, hset⟩ := build_of_attempt h
  obtain ⟨hok, hfresh, -⟩ := MembershipSet.build_spec hset
  refine ⟨by rw [hcount, hok.count_eq, hempty, List.length_nil], fun value => ?_, ?_⟩
  · rw [← Bool.not_eq_true, MembershipSet.contains_fresh hok hfresh, hempty]
    exact List.not_mem_nil
  · have hpacked := (MembershipSet.build_spec hset).2.2.1
    rw [MembershipSet.build_empty (hpacked.symm.trans hempty)] at hset
    rw [← (Prod.mk.inj (Except.ok.inj hset)).2, find_start]

theorem published_packed
    (h : attempt rt settings client now path (maxEntriesOf budgetBytes) host = .ok built)
    (hpacked : built.membership.packed ≠ []) :
    built.host.segments.find (segmentName host.nextGeneration) =
      some ⟨segmentName host.nextGeneration, built.membership.packed⟩ := by
  obtain ⟨-, -, -, values, hset⟩ := build_of_attempt h
  rw [(MembershipSet.build_spec hset).2.2.1] at hpacked ⊢
  obtain ⟨hfree, hsegments, -⟩ := (MembershipSet.build_named_iff hpacked).mp hset
  rw [hsegments]
  exact find_append_self _ hfree

theorem contains_mapped {set : MembershipSet} (hok : set.Ok) (hfresh : set.Fresh)
    {name : Str} {mapped : Segment} (hpads : Segment.Pads ⟨name, set.packed⟩ mapped)
    (overlayMax : ℤ) (value : Str) :
    (MembershipSet.init (some mapped) set.count false overlayMax).contains rt value =
      set.contains rt value := by
  obtain ⟨zeros, hwords⟩ := hpads.words
  have hview : mapped.words.take set.count = set.packed := by
    rw [hwords, hok.count_eq, List.take_left']
    rfl
  have hmapped : (MembershipSet.init (some mapped) set.count false overlayMax).Ok := by
    refine ⟨?_, ?_, by simp [MembershipSet.init]⟩
    · rw [MembershipSet.packed_init_some, hview]
      exact hok.sorted
    · rw [MembershipSet.packed_init_some, hview]
      exact hok.count_eq
  rw [Bool.eq_iff_iff, MembershipSet.contains_fresh hmapped ⟨rfl, rfl⟩,
    MembershipSet.contains_fresh hok hfresh, MembershipSet.packed_init_some, hview]

/-- A reader obtains the published set exactly when the corpus has something to look up, or a
segment of the name was left over for it. -/
theorem reader_agrees_iff {backend : SplitBackend} {reader : Host}
    (hserves : Serves settings client .null corpus)
    (hbuilt : attempt rt settings client now path (maxEntriesOf budgetBytes) host = .ok built)
    (hpads : (publishedBy host built backend path).Pads reader) :
    (ReaderAgrees rt settings built.membership reader ↔
      keysOf rt settings corpus ≠ [] ∨ host.Maps (segmentName host.nextGeneration)) ∧
    ((∃ set, readerAttach settings reader = .ok (some set)) ↔
      ∃ state, reader.read = some state ∧ reader.Maps state.shmName) := by
  refine ⟨?_, readerAttach_iff reader⟩
  have hread : reader.read = some built.state := by
    rw [Host.read, hpads.stateFile]
    cases path <;> rfl
  have hname := shmName_attempt hbuilt
  have hfind := find_publishedBy backend hbuilt
  rw [ne_eq, ← packed_attempt_eq_nil_iff hserves hbuilt]
  by_cases hempty : built.membership.packed = []
  · obtain ⟨hcount, hcontains, hsame⟩ := published_empty hbuilt hempty
    have hmaps : reader.Maps built.state.shmName ↔ host.Maps (segmentName host.nextGeneration) := by
      rw [maps_pads_iff hpads, hname, Host.Maps, hfind, hsame]
      rfl
    rw [← hmaps, or_iff_right (not_not.mpr hempty)]
    constructor
    · rintro ⟨set, hattach, -⟩
      obtain ⟨state, hstate, hstateMaps⟩ := (readerAttach_iff reader).mp ⟨set, hattach⟩
      obtain rfl := Option.some.inj (hread.symm.trans hstate)
      exact hstateMaps
    · rintro ⟨segment, hsegment, hwords⟩
      refine ⟨_, readerAttach_of_maps hread hsegment hwords, fun value => ?_⟩
      rw [hcontains, hcount]
      simp [MembershipSet.contains, MembershipSet.init]
  · refine iff_of_true ?_ (.inl hempty)
    obtain ⟨-, -, hcount, values, hset⟩ := build_of_attempt hbuilt
    obtain ⟨hok, hfresh, -⟩ := MembershipSet.build_spec hset
    rw [published_packed hbuilt hempty] at hfind
    obtain ⟨mapped, hmapped, hmappedPads⟩ := (find_pads hpads.segments).2 _ hfind
    obtain ⟨zeros, hwords⟩ := hmappedPads.words
    have hnonempty : mapped.words ≠ [] := by
      rw [hwords]
      exact fun h => hempty (List.append_eq_nil_iff.mp h).1
    refine ⟨_, readerAttach_of_maps hread (hname ▸ hmapped) hnonempty, fun value => ?_⟩
    rw [hcount]
    exact contains_mapped hok hfresh hmappedPads _ value

end Publish

section PublishSample

/-- The first generation of a corpus of one domain, as its builder left it. -/
theorem reader_agrees_evil : ∃ built, attempt sampleRuntime (sampleSettings 50000)
      (.onePage ["evil.com"]) 0 .load (maxEntriesOf 1024) bareHost = .ok built ∧
    ReaderAgrees sampleRuntime (sampleSettings 50000) built.membership
      (publishedBy bareHost built (sampleWorker 50000).split .load) := by
  obtain ⟨built, hbuilt, -⟩ := attempt_evil
  have hpads := Host.Pads.refl (publishedBy bareHost built (sampleWorker 50000).split .load)
  refine ⟨built, hbuilt, (reader_agrees_iff (healthy_sample 50000).serves hbuilt hpads).1.mpr
    (.inl ?_)⟩
  rw [keysOf_evil]
  exact List.cons_ne_nil _ _

/-- The first generation of an empty corpus is published under a name no segment has. -/
theorem empty_generation_not_attached :
    ¬ ∀ (rt : Runtime) (settings : Settings) (client : BootstrapClient) (corpus : List Str)
      (now : ℚ) (path : BuildPath) (budgetBytes : ℕ) (host reader : Host) (built : BuiltGeneration)
      (backend : SplitBackend), Serves settings client .null corpus →
      attempt rt settings client now path (maxEntriesOf budgetBytes) host = .ok built →
      (publishedBy host built backend path).Pads reader →
      ReaderAgrees rt settings built.membership reader := by
  intro hall
  have hhealthy : Healthy sampleRuntime (sampleSettings 50000) (.onePage []) [] :=
    healthy_onePage rfl (by simp)
  obtain ⟨built, hbuilt⟩ := (@attempt_healthy _ _ _ 0 1024 _ bareHost hhealthy .load).mpr (.inl rfl)
  obtain ⟨set, hattach, -⟩ := hall _ _ _ _ _ _ _ _ _ _ (sampleWorker 50000).split hhealthy.serves
    hbuilt (Host.Pads.refl _)
  obtain ⟨state, hstate, segment, hsegment, -⟩ := (readerAttach_iff _).mp ⟨set, hattach⟩
  obtain rfl := Option.some.inj hstate
  obtain ⟨-, -, hfind⟩ := published_empty hbuilt
    ((packed_attempt_eq_nil_iff hhealthy.serves hbuilt).mpr rfl)
  rw [shmName_attempt hbuilt, find_publishedBy _ hbuilt, hfind] at hsegment
  cases hsegment

end PublishSample

end OpenctiLookup
