import OpenctiLookup.Corpus
import OpenctiLookup.Opencti.Events
import OpenctiLookup.Opencti.Hits

/-! The membership set as a filter in front of the slow path. It holds the
normalized corpus, the slow path asks for the stored text, so what the filter
lets through and what OpenCTI has need not be the same values. -/
namespace OpenctiLookup
open Python Theory

section Route

variable (rt : Runtime) (settings : Settings)

/-- What the bootstrap pages list: the values of the observables, or of those with
an indicator when the indicators are walked. Empty values are left out. -/
def Upstream.Lists {rt : Runtime} (upstream : Upstream rt) (corpus : List Str) : Prop :=
  ∀ raw, raw ∈ corpus ↔ raw ≠ [] ∧ ∃ observable ∈ upstream.observables, observable.value = raw ∧
    (settings.membershipSource = .indicators → observable.indicators ≠ [])

variable (limit : Option ℕ) (corpus : List Str)

/-- A key of the corpus, loaded before the entry ceiling, has the fingerprint. -/
def Keyed (value : Str) : Prop :=
  ∃ key ∈ MembershipSet.seenValues limit (keysOf rt settings corpus) 0,
    fingerprint rt key = fingerprint rt value

/-- The value or the hostname of the URL fallback is keyed. -/
def Passes (value : Normalized) : Prop :=
  Keyed rt settings limit corpus value.value ∨
    ∃ host, LiveBackend.fallbackHost rt settings value = some host ∧
      Keyed rt settings limit corpus host

variable {rt} in
/-- A backend that serves the set built from the corpus of an OpenCTI: ready, not
stale, with nothing cached. -/
structure Prefiltered (upstream : Upstream rt) (backend : SplitBackend) : Prop where
  lists : upstream.Lists settings corpus
  room : ∀ most, limit = some most → 0 < most
  built : ∃ (client : BootstrapClient) (name : Option Str) (segments segments' : Segments)
    (report : BootstrapReport), Serves settings client .null corpus ∧
      buildMembership rt settings client limit name segments =
        .ok (backend.membership, report, segments')
  ready : backend.ready = true
  current : backend.stale = false
  uncached : backend.live.cache.data = []

variable {rt settings limit corpus} {upstream : Upstream rt} {backend : SplitBackend}
variable {now mono : ℚ}

theorem contains_prefiltered (h : Prefiltered settings limit corpus upstream
    backend) (value : Str) :
    backend.membership.contains rt value = true ↔ Keyed rt settings limit corpus value := by
  obtain ⟨client, name, segments, segments', report, hserves, hbuilt⟩ := h.built
  obtain ⟨hok, hfresh, -⟩ := buildMembership_fresh hbuilt
  rw [MembershipSet.contains_fresh hok hfresh, packed_buildMembership hserves h.room hbuilt]
  rfl

theorem route_prefiltered (h : Prefiltered settings limit corpus upstream backend)
    (value : Normalized) :
    backend.route rt settings value = .live ↔ Passes rt settings limit corpus value := by
  rw [SplitBackend.route_live_iff h.ready h.current, Passes, contains_prefiltered h]
  simp only [contains_prefiltered h]

theorem lookup_of_passes (h : Prefiltered settings limit corpus upstream backend)
    {value : Normalized}
    (hlookupable : value.lookupable = true) (hpasses : Passes rt settings limit corpus value) :
    (backend.lookup rt settings upstream.client now mono value).map (·.1.payload) =
      LiveBackend.fetch rt settings upstream.client now value := by
  rw [← lookup_upstream upstream h.uncached hlookupable mono]
  unfold SplitBackend.lookup
  rw [if_neg (by simp [hlookupable]), (route_prefiltered h value).mpr hpasses]
  dsimp only
  cases LiveBackend.lookup rt settings upstream.client now mono backend.live value <;> rfl

theorem lookup_of_not_passes (h : Prefiltered settings limit corpus upstream backend)
    {value : Normalized} (hlookupable : value.lookupable = true)
    (hpasses : ¬ Passes rt settings limit corpus value) :
    (backend.lookup rt settings upstream.client now mono value).map (·.1.payload) = .ok miss := by
  have hroute : backend.route rt settings value = .membershipMiss := by
    cases hroute : backend.route rt settings value with
    | live => exact absurd ((route_prefiltered h value).mp hroute) hpasses
    | membershipMiss => rfl
  unfold SplitBackend.lookup
  rw [if_neg (by simp [hlookupable]), hroute]
  rfl

theorem lookup_prefiltered (h : Prefiltered settings limit corpus upstream backend)
    {value : Normalized}
    (hlookupable : value.lookupable = true) :
    Returns ((backend.lookup rt settings upstream.client now mono value).map (·.1.payload))
      (Settles (Passes rt settings limit corpus value ∧
        upstream.FindsValue settings now value)) := by
  by_cases hpasses : Passes rt settings limit corpus value
  · rw [lookup_of_passes h hlookupable hpasses, and_iff_right hpasses]
    exact fetch_upstream upstream value
  · rw [lookup_of_not_passes h hlookupable hpasses]
    exact .ok (.inr ⟨fun hboth => hpasses hboth.1, rfl⟩)

theorem found_prefiltered_iff (h : Prefiltered settings limit corpus upstream backend)
    {value : Normalized} (hlookupable : value.lookupable = true) :
    Returns (backend.lookup rt settings upstream.client now mono value)
        (fun answer => answer.1.payload.Found) ↔
      Passes rt settings limit corpus value ∧ upstream.FindsValue settings now value := by
  refine (@returns_map_iff _ _ _ (fun answer : LookupResult × SplitBackend => answer.1.payload)
    Payload.Found).symm.trans ?_
  obtain ⟨payload, hlookup, hsettles⟩ := @lookup_prefiltered rt settings limit corpus
    upstream backend
    now mono h value hlookupable
  rw [← hsettles.found_iff]
  constructor
  · rintro ⟨found, hfound, hpost⟩
    rw [hlookup] at hfound
    cases hfound
    exact hpost
  · exact fun hfound => ⟨payload, hlookup, hfound⟩

theorem lookup_eq_iff (h : Prefiltered settings limit corpus upstream backend) {live : LiveBackend}
    (huncached : live.cache.data = []) {value : Normalized}
    (hlookupable : value.lookupable = true) :
    (backend.lookup rt settings upstream.client now mono value).map (·.1.payload) =
        (LiveBackend.lookup rt settings upstream.client now mono live value).map (·.1.payload) ↔
      (upstream.FindsValue settings now value → Passes rt settings limit corpus value) := by
  rw [lookup_upstream upstream huncached hlookupable]
  by_cases hpasses : Passes rt settings limit corpus value
  · rw [lookup_of_passes h hlookupable hpasses]
    exact iff_of_true rfl fun _ => hpasses
  · obtain ⟨payload, hfetch, hsettles⟩ := @fetch_upstream rt settings now upstream value
    rw [lookup_of_not_passes h hlookupable hpasses, hfetch, Except.ok.injEq, eq_comm,
      hsettles.eq_miss_iff]
    exact ⟨fun hnot hfinds => absurd hfinds hnot, fun hall hfinds => hpasses (hall hfinds)⟩

theorem stored_of_finds {value : Str} {kind : IndicatorType} (hkind : kind.hashAlgorithm = none)
    (h : upstream.Finds settings now (LiveBackend.request settings value kind)) :
    ∃ observable ∈ upstream.observables, observable.value = value ∧
      observable.Hits settings now := by
  obtain ⟨observable, hpick, hhits⟩ := h
  obtain ⟨hmem, hselected, -⟩ := upstream.pick_mem _ _ hpick
  refine ⟨observable, hmem, ?_, hhits⟩
  have hfilters : (LiveBackend.request settings value kind).filters = valueFilter value := by
    rw [LiveBackend.request, hkind]
  rw [Observable.selectedBy, hfilters] at hselected
  rcases hselected with ⟨-, hvalue⟩ | ⟨hash, -, -, hhash⟩
  · exact (congrArg Filter.value hvalue).symm
  · have hkey : 'v' = 'h' := Option.some.inj (congrArg (fun filter => filter.key.head?) hhash)
    exact absurd hkey (by decide)

theorem finds_of_matches {request : LookupRequest} {observable : Observable rt}
    (hmem : observable ∈ upstream.observables) (hmatches : observable.Matches request)
    (hall : ∀ other ∈ upstream.observables, other.Matches request → other.Hits settings now) :
    upstream.Finds settings now request := by
  obtain ⟨picked, hpick⟩ := Option.isSome_iff_exists.mp (upstream.pick_isSome _ ⟨_, hmem, hmatches⟩)
  obtain ⟨hpicked, hsame⟩ := upstream.pick_mem _ _ hpick
  exact ⟨picked, hpick, hall picked hpicked hsame⟩

theorem keyed_of_norm (h : Prefiltered settings none corpus upstream backend)
    {observable : Observable rt} (hmem : observable ∈ upstream.observables)
    (hhits : observable.Hits settings now) {key : Str}
    (hnorm : norm rt settings observable.value = .ok (some key)) :
    Keyed rt settings none corpus key := by
  have hlisted : observable.value ∈ corpus := by
    refine (h.lists _).mpr ⟨?_, observable, hmem, rfl, fun _ hnone => ?_⟩
    · intro hempty
      rw [hempty, norm_empty] at hnorm
      cases hnorm
    · obtain ⟨indicator, hindicator, -⟩ := hhits
      rw [hnone] at hindicator
      cases hindicator
  exact ⟨key, mem_keysOf.mpr ⟨_, hlisted, hnorm⟩, rfl⟩

theorem passes_of_fixed (h : Prefiltered settings none corpus upstream backend) {value : Normalized}
    (hkind : value.type.hashAlgorithm = none)
    (hvalue : norm rt settings value.value = .ok (some value.value))
    (hhost : ∀ host, LiveBackend.fallbackHost rt settings value = some host →
      norm rt settings host = .ok (some host))
    (hfinds : upstream.FindsValue settings now value) : Passes rt settings none corpus value := by
  rcases hfinds with hfinds | ⟨host, hsome, hfinds⟩
  · obtain ⟨observable, hmem, hstored, hhits⟩ := stored_of_finds hkind hfinds
    exact .inl (keyed_of_norm h hmem hhits (hstored ▸ hvalue))
  · obtain ⟨observable, hmem, hstored, hhits⟩ := stored_of_finds rfl hfinds
    exact .inr ⟨host, hsome, keyed_of_norm h hmem hhits (hstored ▸ hhost host hsome)⟩

/-- A backend with the set of the values of some observables. -/
theorem exists_prefiltered {observables : List (Observable rt)}
    (hsource : settings.membershipSource = .observables)
    (hvalues : ∀ observable ∈ observables, observable.value ≠ [] ∧
      ∃ key, norm rt settings observable.value = .ok key) :
    ∃ backend, Prefiltered settings none (observables.map Observable.value)
      (.ofList observables) backend := by
  have hnorm : ∀ raw ∈ observables.map Observable.value,
      raw ≠ [] ∧ ∃ key, norm rt settings raw = .ok key := by
    intro raw hraw
    obtain ⟨observable, hmem, rfl⟩ := List.mem_map.mp hraw
    exact hvalues observable hmem
  have hhealthy := @healthy_onePage settings rt hsource _ fun raw hraw => (hnorm raw hraw).2
  rw [List.filter_eq_self.mpr fun raw hraw => by simpa using (hnorm raw hraw).1] at hhealthy
  obtain ⟨⟨set, report, segments⟩, hbuilt⟩ :=
    (@buildMembership_healthy _ _ none _ _ hhealthy nofun "generation" []).mpr (.inr nofun)
  refine ⟨{ membership := set, live := ⟨PayloadCache.init 1048576 1024 86400 900⟩, ready := true },
    fun raw => ?_, nofun, ⟨_, _, _, _, _, hhealthy.serves, hbuilt⟩, rfl, rfl, rfl⟩
  constructor
  · intro hraw
    obtain ⟨observable, hmem, hvalue⟩ := List.mem_map.mp hraw
    refine ⟨(hnorm raw hraw).1, observable, hmem, hvalue, fun hother => ?_⟩
    rw [hsource] at hother
    cases hother
  · rintro ⟨-, observable, hmem, rfl, -⟩
    exact List.mem_map_of_mem hmem

end Route

section PrefilterSample

def soleObservable (entityType : EntityType) (value : Str) : Observable sampleRuntime where
  id := "observable"
  entityType := entityType
  value := value
  indicators := [{ id := "indicator" }]

def soleUpstream (entityType : EntityType) (value : Str) : Upstream sampleRuntime :=
  .ofList [soleObservable entityType value]

theorem hits_soleObservable (entityType : EntityType) (value : Str) :
    (soleObservable entityType value).Hits (sampleSettings 50000) 0 :=
  ⟨_, List.mem_singleton_self _, rfl⟩

theorem finds_soleUpstream {entityType : EntityType} {value : Str} {request : LookupRequest}
    (h : (soleObservable entityType value).Matches request) :
    (soleUpstream entityType value).Finds (sampleSettings 50000) 0 request :=
  finds_of_matches List.mem_cons_self h fun other hother _ => by
    rw [List.mem_singleton.mp hother]
    exact hits_soleObservable entityType value

theorem prefiltered_sole (entityType : EntityType) {value : Str} (hnonempty : value ≠ [])
    {key : Option Str} (hnorm : norm sampleRuntime (sampleSettings 50000) value = .ok key) :
    ∃ backend, Prefiltered (sampleSettings 50000) none [value]
      (soleUpstream entityType value) backend := by
  refine @exists_prefiltered _ _ [soleObservable entityType value] rfl fun observable hmem => ?_
  rw [List.mem_singleton.mp hmem]
  exact ⟨hnonempty, key, hnorm⟩

section Values

set_option maxRecDepth 10000 in
theorem normalize_evil : (sampleSettings 50000).normalize sampleRuntime "evil.com" =
    .ok ⟨"evil.com", "evil.com", .domain, none⟩ := rfl

set_option maxRecDepth 10000 in
theorem normalize_upper : (sampleSettings 50000).normalize sampleRuntime "EVIL.COM" =
    .ok ⟨"EVIL.COM", "evil.com", .domain, none⟩ := rfl

set_option maxRecDepth 10000 in
theorem normalize_server : (sampleSettings 50000).normalize sampleRuntime "http://evilserver/x" =
    .ok ⟨"http://evilserver/x", "http://evilserver/x", .url, none⟩ := rfl

set_option maxRecDepth 10000 in
theorem norm_server : norm sampleRuntime (sampleSettings 50000) "evilserver" = .ok none := rfl

set_option maxRecDepth 10000 in
theorem fallbackHost_server : LiveBackend.fallbackHost sampleRuntime (sampleSettings 50000)
    ⟨"http://evilserver/x", "http://evilserver/x", .url, none⟩ = some "evilserver".toList := rfl

end Values

end PrefilterSample

section Claims

variable {rt : Runtime} {settings : Settings} {limit : Option ℕ} {corpus : List Str}
variable {upstream : Upstream rt} {backend : SplitBackend} {now : ℚ}

/-- The raw value of a hit is found through the filter exactly when its key, or the
hostname's, came before the ceiling, and OpenCTI finds the normalized text. -/
theorem corpus_value_found_iff (h : Prefiltered settings limit corpus upstream backend)
    {observable : Observable rt} (hmem : observable ∈ upstream.observables)
    (hhits : observable.Hits settings now) {value : Normalized}
    (hnorm : settings.normalize rt observable.value = .ok value)
    (hlookupable : value.lookupable = true)
    (mono : ℚ) :
    Returns (backend.lookup rt settings upstream.client now mono value)
        (fun answer => answer.1.payload.Found) ↔
      (limit.isSome → Passes rt settings limit corpus value) ∧
        upstream.FindsValue settings now value := by
  have hkey : norm rt settings observable.value = .ok (some value.value) :=
    norm_eq_ok_iff.mpr ⟨value, hnorm, by rw [if_pos hlookupable]⟩
  have hpasses : (limit.isSome → Passes rt settings limit corpus value) ↔
      Passes rt settings limit corpus value := by
    cases limit with
    | none => exact iff_of_true nofun (.inl (keyed_of_norm h hmem hhits hkey))
    | some most => simp
  rw [hpasses]
  exact found_prefiltered_iff h hlookupable

theorem corpus_value_found_evil :
    ∃ backend, Prefiltered (sampleSettings 50000) none ["evil.com".toList]
        (soleUpstream .domainName "evil.com") backend ∧
      Returns (backend.lookup sampleRuntime (sampleSettings 50000)
        (soleUpstream .domainName "evil.com").client 0 0 ⟨"evil.com", "evil.com", .domain, none⟩)
        fun answer => answer.1.payload.Found := by
  obtain ⟨backend, h⟩ := prefiltered_sole .domainName (by decide) (norm_evil 50000)
  have hfinds : (soleUpstream .domainName "evil.com").Finds (sampleSettings 50000) 0
      (LiveBackend.request (sampleSettings 50000) "evil.com" .domain) :=
    finds_soleUpstream ⟨.inl ⟨nofun, rfl⟩, by decide⟩
  exact ⟨backend, h, (corpus_value_found_iff h List.mem_cons_self (hits_soleObservable _ _)
    normalize_evil rfl 0).mpr ⟨nofun, .inl hfinds⟩⟩

/-- A domain stored in capitals is looked up in lower case, which OpenCTI does not have. -/
theorem corpus_value_missed_uppercase :
    ¬ ∀ (rt : Runtime) (settings : Settings) (limit : Option ℕ) (corpus : List Str)
      (upstream : Upstream rt) (backend : SplitBackend) (now mono : ℚ),
      Prefiltered settings limit corpus upstream backend →
      (∀ observable ∈ upstream.observables, observable.entityType ≠ .stixFile) →
      ∀ observable ∈ upstream.observables, observable.Hits settings now →
      ∀ value, settings.normalize rt observable.value = .ok value → value.lookupable = true →
        Returns (backend.lookup rt settings upstream.client now mono value)
          fun answer => answer.1.payload.Found := by
  intro hall
  obtain ⟨backend, h⟩ := prefiltered_sole .domainName (by decide)
    (norm_eq_ok_iff.mpr ⟨_, normalize_upper, rfl⟩)
  have hfound := hall _ _ _ _ _ _ 0 0 h (fun observable hmem => by
    rw [List.mem_singleton.mp hmem]
    nofun) _ List.mem_cons_self (hits_soleObservable _ _) _ normalize_upper rfl
  obtain ⟨-, hfinds⟩ := (found_prefiltered_iff h rfl).mp hfound
  rcases hfinds with hfinds | ⟨host, hhost, -⟩
  · obtain ⟨observable, hmem, hstored, -⟩ := stored_of_finds rfl hfinds
    rw [List.mem_singleton.mp hmem] at hstored
    exact absurd hstored (by decide)
  · cases hhost

variable (rt settings) in
/-- What a query is answered through the filter. -/
def SplitBackend.payloadFor (backend : SplitBackend) (client : Client)
    (now mono : ℚ) (query : Str) :
    Py Payload := do
  (backend.lookup rt settings client now mono (← settings.normalize rt query)).map (·.1.payload)

variable (rt settings) in
/-- What it is answered without. -/
def LiveBackend.payloadFor (backend : LiveBackend) (client : Client) (now mono : ℚ) (query : Str) :
    Py Payload := do
  (LiveBackend.lookup rt settings client now mono backend (← settings.normalize rt query)).map
    (·.1.payload)

/-- The filter changes no answer but of a query that is a hit and does not pass. -/
theorem same_payload_iff (h : Prefiltered settings limit corpus upstream backend)
    {live : LiveBackend}
    (huncached : live.cache.data = []) (query : Str) (mono : ℚ) :
    backend.payloadFor rt settings upstream.client now mono query =
        live.payloadFor rt settings upstream.client now mono query ↔
      ∀ value, settings.normalize rt query = .ok value → value.lookupable = true →
        upstream.FindsValue settings now value → Passes rt settings limit corpus value := by
  unfold SplitBackend.payloadFor LiveBackend.payloadFor
  cases hnorm : settings.normalize rt query with
  | error fault => exact iff_of_true rfl nofun
  | ok value =>
      rw [ok_bind, ok_bind]
      simp only [Except.ok.injEq, forall_eq']
      by_cases hlookupable : value.lookupable = true
      · rw [lookup_eq_iff h huncached hlookupable, forall_prop_of_true hlookupable]
      · unfold SplitBackend.lookup LiveBackend.lookup
        rw [if_pos (by simp [hlookupable]), if_pos (by simp [hlookupable])]
        exact iff_of_true rfl fun h => absurd h hlookupable

theorem same_payload_evil :
    ∃ backend, Prefiltered (sampleSettings 50000) none ["evil.com".toList]
        (soleUpstream .domainName "evil.com") backend ∧
      backend.payloadFor sampleRuntime (sampleSettings 50000)
          (soleUpstream .domainName "evil.com").client 0 0 "evil.com" =
        backend.live.payloadFor sampleRuntime (sampleSettings 50000)
          (soleUpstream .domainName "evil.com").client 0 0 "evil.com" := by
  obtain ⟨backend, h⟩ := prefiltered_sole .domainName (by decide) (norm_evil 50000)
  refine ⟨backend, h, (same_payload_iff h h.uncached "evil.com" 0).mpr fun value hvalue _ _ => ?_⟩
  cases normalize_evil.symm.trans hvalue
  exact .inl (keyed_of_norm h List.mem_cons_self (hits_soleObservable _ _) (norm_evil 50000))

/-- A hostname without a dot is found for a URL, and the filter drops it. -/
theorem payload_hidden_by_filter :
    ¬ ∀ (rt : Runtime) (settings : Settings) (corpus : List Str) (upstream : Upstream rt)
      (backend : SplitBackend) (live : LiveBackend) (now mono : ℚ),
      settings.membershipSource = .observables →
      Prefiltered settings none corpus upstream backend →
      (∀ observable ∈ upstream.observables, observable.entityType ≠ .stixFile) →
      live.cache.data = [] → ∀ query,
        backend.payloadFor rt settings upstream.client now mono query =
          live.payloadFor rt settings upstream.client now mono query := by
  intro hall
  obtain ⟨backend, h⟩ := prefiltered_sole .hostname (by decide) norm_server
  have hsame := hall _ _ _ _ backend backend.live 0 0 rfl h (fun observable hmem => by
    rw [List.mem_singleton.mp hmem]
    nofun) h.uncached "http://evilserver/x"
  unfold SplitBackend.payloadFor LiveBackend.payloadFor at hsame
  rw [normalize_server, ok_bind, ok_bind, lookup_eq_iff h h.uncached rfl] at hsame
  have hfinds : (soleUpstream .hostname "evilserver").Finds (sampleSettings 50000) 0
      (LiveBackend.request (sampleSettings 50000) "evilserver" .domain) :=
    finds_soleUpstream ⟨.inl ⟨nofun, rfl⟩, by decide⟩
  have hkeys : keysOf sampleRuntime (sampleSettings 50000) ["evilserver"] = [] :=
    keysOf_cons_none norm_server []
  have hunkeyed : ∀ value, ¬ Keyed sampleRuntime (sampleSettings 50000) none
    ["evilserver"] value := by
    rintro value ⟨key, hkey, -⟩
    rw [hkeys] at hkey
    cases hkey
  rcases hsame (.inr ⟨_, fallbackHost_server, hfinds⟩) with hkeyed | ⟨host, -, hkeyed⟩
  · exact hunkeyed _ hkeyed
  · exact hunkeyed _ hkeyed

end Claims

end OpenctiLookup
