import OpenctiLookup.Systems.Prefilter

/-! One observable for each query. OpenCTI is asked for the first match only, so
where several observables share a value the verdict is that of the one it
returns. -/
namespace OpenctiLookup
open Python Theory

variable {rt : Runtime} {settings : Settings} {now : ℚ}

/-- The payload says that the value itself was found. -/
def Payload.FoundExactly (payload : Payload) : Prop :=
  payload.Found ∧ payload.get "match_type" = some "exact".toList

section MatchType

variable {value matchType : Str}

/-- However the rest of a payload comes out, it starts with the verdict and how the
value matched. -/
theorem payloadOf_eq_ok {node primary indicatorType : Json} {survivors : List Json}
    {payload : Payload}
    (h : payloadOf rt settings now node primary survivors value indicatorType matchType =
      .ok payload) :
    ∃ kind rest, indicatorType = .str kind ∧ payload =
      ("found".toList, "true".toList) :: ("value".toList, value) :: ("type".toList, kind) ::
        ("match_type".toList, matchType) :: rest := by
  unfold payloadOf at h
  extract_lets text at h
  simp only [bind_eq_ok_iff] at h
  obtain ⟨_, -, _, -, _, -, _, -, _, -, _, -, _, -, _, -, h⟩ := h
  obtain ⟨_, -, _, -, _, -, _, -, _, -, _, -, _, -, _, -, h⟩ := h
  cases indicatorType with
  | str kind =>
      obtain ⟨_, hkind, h⟩ := bind_eq_ok_iff.mp h
      cases hkind
      obtain ⟨_, -, h⟩ := bind_eq_ok_iff.mp h
      cases h
      exact ⟨_, _, rfl, rfl⟩
  | _ => cases h

theorem matchType_buildPayload {node indicatorType : Json} {payload : Payload}
    (h : buildPayload rt settings now node value indicatorType matchType = .ok (some payload)) :
    payload.get "match_type" = some matchType := by
  unfold buildPayload at h
  obtain ⟨survivors, -, h⟩ := bind_eq_ok_iff.mp h
  cases survivors with
  | nil => cases h
  | cons primary survivors =>
      obtain ⟨built, hbuilt, h⟩ := bind_eq_ok_iff.mp h
      cases h
      obtain ⟨kind, rest, -, rfl⟩ := payloadOf_eq_ok hbuilt
      rfl

theorem matchType_query {client : Client} {kind : IndicatorType} {payload : Payload}
    (h : LiveBackend.query rt settings client now value kind matchType = .ok (some payload)) :
    payload.get "match_type" = some matchType := by
  unfold LiveBackend.query LiveBackend.readReply at h
  obtain ⟨data, -, h⟩ := bind_eq_ok_iff.mp h
  obtain ⟨block, -, h⟩ := bind_eq_ok_iff.mp h
  obtain ⟨edges, -, h⟩ := bind_eq_ok_iff.mp h
  dsimp only at h
  split at h
  · cases h
  · obtain ⟨edge, -, h⟩ := bind_eq_ok_iff.mp h
    obtain ⟨node, -, h⟩ := bind_eq_ok_iff.mp h
    obtain ⟨entityType, -, h⟩ := bind_eq_ok_iff.mp h
    exact matchType_buildPayload h

end MatchType

section Verdict

variable {upstream : Upstream rt} {value : Normalized}

theorem fetch_foundExactly (upstream : Upstream rt) (value : Normalized) :
    Returns (LiveBackend.fetch rt settings upstream.client now value) fun payload =>
      payload.FoundExactly ↔
        upstream.Finds settings now (LiveBackend.request settings value.value value.type) := by
  unfold LiveBackend.fetch
  obtain ⟨exact, hexact, hreports⟩ :=
    @query_upstream rt settings now upstream value.value value.type "exact"
  rw [hexact, ok_bind]
  cases exact with
  | some payload =>
      exact .ok (iff_of_true ⟨hreports.2, matchType_query hexact⟩ hreports.1)
  | none =>
      have hmiss : ¬ Payload.FoundExactly miss := fun h => not_found_miss h.1
      dsimp only
      cases LiveBackend.fallbackHost rt settings value with
      | none => exact .ok (iff_of_false hmiss hreports)
      | some host =>
          obtain ⟨fallback, hfallback, -⟩ :=
            @query_upstream rt settings now upstream host .domain "hostname"
          dsimp only
          rw [hfallback, ok_bind]
          cases fallback with
          | none => exact .ok (iff_of_false hmiss hreports)
          | some payload =>
              refine .ok (iff_of_false (fun h => ?_) hreports)
              have hkind := h.2
              rw [Payload.get_set_ne _ (by decide), Payload.get_set_ne _ (by decide),
                matchType_query hfallback] at hkind
              exact absurd hkind (by decide)

theorem lookup_foundExactly_iff {backend : LiveBackend} (huncached : backend.cache.data = [])
    (hlookupable : value.lookupable = true) (mono : ℚ) :
    Returns (LiveBackend.lookup rt settings upstream.client now mono backend value)
        (fun answer => answer.1.payload.FoundExactly) ↔
      upstream.Finds settings now (LiveBackend.request settings value.value value.type) := by
  refine (@returns_map_iff _ _ _ (fun answer : LookupResult × LiveBackend => answer.1.payload)
    Payload.FoundExactly).symm.trans ?_
  rw [lookup_upstream upstream huncached hlookupable]
  obtain ⟨payload, hfetch, hiff⟩ := @fetch_foundExactly rt settings now upstream value
  rw [← hiff, hfetch]
  exact ⟨fun ⟨_, heq, h⟩ => by cases heq; exact h, fun h => .ok h⟩

/-- An exact lookup answers for all the observables that match exactly when the one
OpenCTI returns has a hit if any of them has. -/
theorem exact_verdict_iff {backend : LiveBackend} (huncached : backend.cache.data = [])
    (hlookupable : value.lookupable = true) (mono : ℚ) :
    (Returns (LiveBackend.lookup rt settings upstream.client now mono backend value)
        (fun answer => answer.1.payload.FoundExactly) ↔
      ∃ observable ∈ upstream.observables,
        observable.Matches (LiveBackend.request settings value.value value.type) ∧
          observable.Hits settings now) ↔
      ∀ picked observable,
        upstream.pick (LiveBackend.request settings value.value value.type) = some picked →
        observable ∈ upstream.observables →
        observable.Matches (LiveBackend.request settings value.value value.type) →
        observable.Hits settings now → picked.Hits settings now := by
  rw [lookup_foundExactly_iff huncached hlookupable]
  constructor
  · intro hverdict picked observable hpick hmem hmatches hhits
    obtain ⟨found, hfound, hfoundHits⟩ := hverdict.mpr ⟨observable, hmem, hmatches, hhits⟩
    cases hpick.symm.trans hfound
    exact hfoundHits
  · intro hagree
    constructor
    · rintro ⟨picked, hpick, hhits⟩
      obtain ⟨hmem, hmatches⟩ := upstream.pick_mem _ _ hpick
      exact ⟨picked, hmem, hmatches, hhits⟩
    · rintro ⟨observable, hmem, hmatches, hhits⟩
      obtain ⟨picked, hpick⟩ :=
        Option.isSome_iff_exists.mp (upstream.pick_isSome _ ⟨_, hmem, hmatches⟩)
      exact ⟨picked, hpick, hagree picked observable hpick hmem hmatches hhits⟩

def bareDomain : Observable sampleRuntime where
  id := "bare"
  entityType := .domainName
  value := "evil.com"
  indicators := []

theorem not_hits_bareDomain : ¬ bareDomain.Hits (sampleSettings 50000) 0 := by
  rintro ⟨indicator, hindicator, -⟩
  cases hindicator

theorem matches_bareDomain :
    bareDomain.Matches (LiveBackend.request (sampleSettings 50000) "evil.com" .domain) :=
  ⟨.inl ⟨nofun, rfl⟩, by decide⟩

theorem matches_hostname : (soleObservable .hostname "evil.com").Matches
    (LiveBackend.request (sampleSettings 50000) "evil.com" .domain) :=
  ⟨.inl ⟨nofun, rfl⟩, by decide⟩

theorem pick_ofList_cons {observable : Observable rt} {request : LookupRequest}
    (hmatches : observable.Matches request) (others : List (Observable rt)) :
    (Upstream.ofList (observable :: others)).pick request = some observable := by
  unfold Upstream.ofList
  dsimp only
  rw [List.find?_cons, decide_eq_true hmatches]

/-- A hostname and a domain of one value, of which the hostname is returned. -/
theorem exact_verdict_hostname :
    ¬ bareDomain.Hits (sampleSettings 50000) 0 ∧
      Returns (LiveBackend.lookup sampleRuntime (sampleSettings 50000)
          (Upstream.ofList [soleObservable .hostname "evil.com", bareDomain]).client 0 0
            ⟨.init 1048576 1024 86400 900⟩ ⟨"evil.com", "evil.com", .domain, none⟩)
        fun answer => answer.1.payload.FoundExactly := by
  refine ⟨not_hits_bareDomain, ((exact_verdict_iff rfl rfl 0).mpr ?_).mpr
    ⟨_, List.mem_cons_self, matches_hostname, hits_soleObservable _ _⟩⟩
  intro picked _ hpick _ _ _
  obtain rfl := Option.some.inj (hpick.symm.trans (pick_ofList_cons matches_hostname _))
  exact hits_soleObservable _ _

/-- A domain without indicators hides the hostname of the same value that has one. -/
theorem exact_verdict_hidden_by_bare_domain :
    ¬ ∀ (rt : Runtime) (settings : Settings) (upstream : Upstream rt) (backend : LiveBackend)
      (now mono : ℚ) (value : Normalized), backend.cache.data = [] → value.lookupable = true →
      (Returns (LiveBackend.lookup rt settings upstream.client now mono backend value)
          (fun answer => answer.1.payload.FoundExactly) ↔
        ∃ observable ∈ upstream.observables,
          observable.Matches (LiveBackend.request settings value.value value.type) ∧
            observable.Hits settings now) := by
  intro hall
  have hverdict := hall sampleRuntime (sampleSettings 50000)
    (.ofList [bareDomain, soleObservable .hostname "evil.com"]) ⟨.init 1048576 1024 86400 900⟩ 0 0
    ⟨"evil.com", "evil.com", .domain, none⟩ rfl rfl
  have hexists := hverdict.mpr ⟨_, List.mem_cons_of_mem _ List.mem_cons_self, matches_hostname,
    hits_soleObservable _ _⟩
  obtain ⟨picked, hpick, hhits⟩ := (lookup_foundExactly_iff rfl rfl 0).mp hexists
  cases (pick_ofList_cons matches_bareDomain _).symm.trans hpick
  exact not_hits_bareDomain hhits

end Verdict

end OpenctiLookup
