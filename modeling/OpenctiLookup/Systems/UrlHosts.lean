import OpenctiLookup.Systems.Prefilter

/-! A URL and its hostname. By itself the host is classified like any other value
and asked for under its own type; the fallback reads it out of the normalized URL
again and asks for a domain. The URL finds whatever its host finds exactly when
both ask the same question. -/
namespace OpenctiLookup
open Python Theory

section Asks

variable (rt : Runtime) (settings : Settings)

/-- The queries a lookup of the value may send, the exact one first. -/
def asks (value : Normalized) : List LookupRequest :=
  LiveBackend.request settings value.value value.type ::
    ((LiveBackend.fallbackHost rt settings value).map fun host =>
      LiveBackend.request settings host .domain).toList

/-- The hostname of a raw URL, as `_normalize_url` reads it. -/
def hostnameOf (raw : Str) : Option Str := do
  let cleaned ← defang rt raw
  let (_, host) ← normalizeUrl rt cleaned
  pure host

/-- `raw` is classified as a URL that can be looked up, and `bare` is what its
hostname is looked up as by itself. -/
structure HostOf (raw : Str) (url bare : Normalized) : Prop where
  normalized : settings.normalize rt raw = .ok url
  isUrl : url.type = .url
  lookupable : url.lookupable = true
  host : ∃ host, hostnameOf rt raw = some host ∧ settings.normalize rt host = .ok bare

variable {rt settings} {upstream : Upstream rt} {backend : SplitBackend} {now mono : ℚ}

theorem findsValue_iff {value : Normalized} :
    upstream.FindsValue settings now value ↔
      ∃ request ∈ asks rt settings value, upstream.Finds settings now request := by
  unfold Upstream.FindsValue asks
  rw [List.exists_mem_cons_iff]
  refine or_congr_right ?_
  cases LiveBackend.fallbackHost rt settings value <;> simp

/-- A lookup with nothing cached finds a value when it gets past the membership set
and OpenCTI answers one of its queries with a hit. -/
theorem found_iff_asks (huncached : backend.live.cache.data = []) (value : Normalized) :
    Returns (backend.lookup rt settings upstream.client now mono value)
        (fun answer => answer.1.payload.Found) ↔
      value.lookupable = true ∧ backend.route rt settings value = .live ∧
        ∃ request ∈ asks rt settings value, upstream.Finds settings now request := by
  have hmiss : ∀ source, ¬ Returns (.ok (⟨miss, source⟩, backend))
      fun answer : LookupResult × SplitBackend => answer.1.payload.Found := by
    rintro source ⟨answer, hanswer, hfound⟩
    cases hanswer
    exact not_found_miss hfound
  unfold SplitBackend.lookup
  by_cases hlookupable : value.lookupable = true
  · rw [if_neg (by simp [hlookupable]), and_iff_right hlookupable, ← findsValue_iff]
    cases hroute : backend.route rt settings value with
    | membershipMiss => exact iff_of_false (hmiss _) (by simp)
    | live =>
        rw [and_iff_right rfl]
        obtain ⟨payload, hfetch, hsettles⟩ := @fetch_upstream rt settings now upstream value
        have hlookup := @lookup_upstream rt settings now upstream backend.live huncached value
          hlookupable mono
        rw [hfetch] at hlookup
        rw [← hsettles.found_iff]
        dsimp only
        cases hlive : LiveBackend.lookup rt settings upstream.client now mono
          backend.live value with
        | error fault =>
            rw [hlive] at hlookup
            cases hlookup
        | ok answer =>
            rw [hlive] at hlookup
            obtain rfl : answer.1.payload = payload := Except.ok.inj hlookup
            rw [ok_bind]
            constructor
            · rintro ⟨found, heq, hfound⟩
              cases heq
              exact hfound
            · exact fun hfound => .ok hfound
  · rw [if_pos (by simp [hlookupable])]
    exact iff_of_false (hmiss _) fun h => hlookupable h.1

end Asks

section Adversary

variable {rt : Runtime} (settings : Settings)

def liveIndicator : Indicator rt := { id := "indicator", score := some settings.minScore }

theorem survives_liveIndicator (now : ℚ) :
    (liveIndicator settings : Indicator rt).survives settings now = true := by
  have hpasses : (liveIndicator settings : Indicator rt).passes settings now = true := by
    unfold Indicator.passes
    cases settings.hitPolicy <;> rfl
  rw [Indicator.survives, hpasses, Bool.true_and]
  exact decide_eq_true le_rfl

/-- An OpenCTI with two copies of an observable. The one with an indicator is
returned for one request only. -/
def hiddenUpstream (observable : Observable rt) (request : LookupRequest)
    (hmatches : observable.Matches request) : Upstream rt where
  observables := [{ observable with indicators := [liveIndicator settings] },
    { observable with indicators := [] }]
  pick asked :=
    if asked = request then some { observable with indicators := [liveIndicator settings] }
    else if observable.Matches asked then some { observable with indicators := [] }
    else none
  pick_mem asked picked hpick := by
    split at hpick
    · rename_i heq
      cases hpick
      exact ⟨List.mem_cons_self, heq ▸ hmatches⟩
    · split at hpick
      · rename_i hmatch
        cases hpick
        exact ⟨List.mem_cons_of_mem _ List.mem_cons_self, hmatch⟩
      · cases hpick
  pick_isSome asked hsome := by
    have hmatch : observable.Matches asked := by
      obtain ⟨other, hmem, hother⟩ := hsome
      rcases List.mem_cons.mp hmem with rfl | hmem
      · exact hother
      · rw [List.mem_singleton.mp hmem] at hother
        exact hother
    split
    · rfl
    · rfl

theorem finds_hiddenUpstream {observable : Observable rt} {request asked : LookupRequest}
    (hmatches : observable.Matches request) (now : ℚ) :
    (hiddenUpstream settings observable request hmatches).Finds settings now asked ↔
      asked = request := by
  constructor
  · rintro ⟨picked, hpick, indicator, hmem, -⟩
    by_contra hne
    unfold hiddenUpstream at hpick
    dsimp only at hpick
    rw [if_neg hne] at hpick
    split at hpick
    · cases hpick
      cases hmem
    · cases hpick
  · rintro rfl
    exact ⟨_, if_pos rfl, _, List.mem_cons_self, survives_liveIndicator settings now⟩

end Adversary

section Claim

variable {rt : Runtime} {settings : Settings} {backend : SplitBackend} {raw : Str}
variable {url bare : Normalized}

/-- Whatever OpenCTI holds, a URL finds what its host finds exactly when each query
of the host that can match anything is one of the URL's, and the membership set
lets the URL through where it lets the host through. -/
theorem url_finds_host_iff (hhost : HostOf rt settings raw url bare)
    (huncached : backend.live.cache.data = []) :
    (∀ (upstream : Upstream rt) (now mono : ℚ),
        Returns (backend.lookup rt settings upstream.client now mono bare)
          (fun answer => answer.1.payload.Found) →
        Returns (backend.lookup rt settings upstream.client now mono url)
          (fun answer => answer.1.payload.Found)) ↔
      (bare.lookupable = true → backend.route rt settings bare = .live →
        ∀ request ∈ asks rt settings bare, (∃ observable : Observable rt,
          observable.Matches request) →
          backend.route rt settings url = .live ∧ request ∈ asks rt settings url) := by
  constructor
  · rintro hfinds hlookupable hroute request hrequest ⟨observable, hmatches⟩
    have hfound := hfinds (hiddenUpstream settings observable request hmatches) 0 0
      ((found_iff_asks huncached bare).mpr ⟨hlookupable, hroute, request, hrequest,
        (finds_hiddenUpstream settings hmatches 0).mpr rfl⟩)
    obtain ⟨-, hurl, asked, hasked, hfindsAsked⟩ := (found_iff_asks huncached url).mp hfound
    rw [finds_hiddenUpstream] at hfindsAsked
    exact ⟨hurl, hfindsAsked ▸ hasked⟩
  · intro hasks upstream now mono hfound
    obtain ⟨hlookupable, hroute, request, hrequest, hfinds⟩ :=
      (found_iff_asks huncached bare).mp hfound
    obtain ⟨picked, hpick, -⟩ := id hfinds
    obtain ⟨hurl, hasked⟩ := hasks hlookupable hroute request hrequest
      ⟨picked, (upstream.pick_mem _ _ hpick).2⟩
    exact (found_iff_asks huncached url).mpr ⟨hhost.lookupable, hurl, request, hasked, hfinds⟩

theorem asked_of_domain (hdomain : bare.type = .domain)
    (hreads : LiveBackend.fallbackHost rt settings url = some bare.value) :
    asks rt settings bare ⊆ asks rt settings url := by
  have hbare : LiveBackend.fallbackHost rt settings bare = none := by
    rw [LiveBackend.fallbackHost, if_neg (by simp [hdomain])]
  unfold asks
  rw [hbare, hreads, hdomain]
  simp

theorem route_of_domain (hdomain : bare.type = .domain)
    (hreads : LiveBackend.fallbackHost rt settings url = some bare.value)
    (h : backend.route rt settings bare = .live) : backend.route rt settings url = .live := by
  have hbare : LiveBackend.fallbackHost rt settings bare = none := by
    rw [LiveBackend.fallbackHost, if_neg (by simp [hdomain])]
  unfold SplitBackend.route at h ⊢
  rw [hbare] at h
  rw [hreads]
  split at h
  · rename_i hlive
    rw [if_pos hlive]
  · rename_i hserved
    rw [if_neg hserved]
    split at h
    · rename_i hcontains
      simp [hcontains]
    · cases h

theorem found_of_domain {upstream : Upstream rt} {now mono : ℚ}
    (huncached : backend.live.cache.data = []) (hlookupable : url.lookupable = true)
    (hdomain : bare.type = .domain)
    (hreads : LiveBackend.fallbackHost rt settings url = some bare.value)
    (h : Returns (backend.lookup rt settings upstream.client now mono bare)
      fun answer => answer.1.payload.Found) :
    Returns (backend.lookup rt settings upstream.client now mono url)
      fun answer => answer.1.payload.Found := by
  obtain ⟨-, hroute, request, hrequest, hfinds⟩ := (found_iff_asks huncached bare).mp h
  exact (found_iff_asks huncached url).mpr ⟨hlookupable, route_of_domain hdomain hreads hroute,
    request, asked_of_domain hdomain hreads hrequest, hfinds⟩

end Claim

section Sample

set_option maxRecDepth 10000 in
theorem hostOf_evil : HostOf sampleRuntime (sampleSettings 50000) "http://evil.com/x"
    ⟨"http://evil.com/x", "http://evil.com/x", .url, none⟩
    ⟨"evil.com", "evil.com", .domain, none⟩ :=
  ⟨rfl, rfl, rfl, "evil.com", rfl, rfl⟩

set_option maxRecDepth 10000 in
theorem hostOf_address : HostOf sampleRuntime (sampleSettings 50000) "http://8.8.4.4/x"
    ⟨"http://8.8.4.4/x", "http://8.8.4.4/x", .url, none⟩ ⟨"8.8.4.4", "8.8.4.4", .ipv4, none⟩ :=
  ⟨rfl, rfl, rfl, "8.8.4.4", rfl, rfl⟩

set_option maxRecDepth 10000 in
theorem fallbackHost_evil : LiveBackend.fallbackHost sampleRuntime (sampleSettings 50000)
    ⟨"http://evil.com/x", "http://evil.com/x", .url, none⟩ = some "evil.com".toList := rfl

set_option maxRecDepth 10000 in
theorem fallbackHost_address : LiveBackend.fallbackHost sampleRuntime (sampleSettings 50000)
    ⟨"http://8.8.4.4/x", "http://8.8.4.4/x", .url, none⟩ = some "8.8.4.4".toList := rfl

def bareBackend : SplitBackend :=
  { membership := .empty, live := ⟨.init 1048576 1024 86400 900⟩ }

theorem found_soleUpstream {entityType : EntityType} {stored : Str} {value : Normalized}
    (hlookupable : value.lookupable = true)
    (hmatches : (soleObservable entityType stored).Matches
      (LiveBackend.request (sampleSettings 50000) value.value value.type)) :
    Returns (bareBackend.lookup sampleRuntime (sampleSettings 50000)
      (soleUpstream entityType stored).client 0 0 value) fun answer => answer.1.payload.Found :=
  (found_iff_asks rfl value).mpr ⟨hlookupable, rfl, _, List.mem_cons_self,
    finds_soleUpstream hmatches⟩

/-- A URL under a known domain is found. -/
theorem url_finds_host_evil :
    Returns (bareBackend.lookup sampleRuntime (sampleSettings 50000)
      (soleUpstream .domainName "evil.com").client 0 0
      ⟨"http://evil.com/x", "http://evil.com/x", .url, none⟩)
      fun answer => answer.1.payload.Found :=
  (url_finds_host_iff hostOf_evil rfl).mpr
    (fun _ _ _ hrequest _ => ⟨rfl, asked_of_domain rfl fallbackHost_evil hrequest⟩) _ 0 0
    (found_soleUpstream rfl ⟨.inl ⟨nofun, rfl⟩, by decide⟩)

/-- An address is found by itself, and under a URL it is asked for as a domain. -/
theorem url_misses_address :
    ¬ ∀ (rt : Runtime) (settings : Settings) (backend : SplitBackend) (raw : Str)
      (url bare : Normalized) (upstream : Upstream rt) (now mono : ℚ),
      settings.urlHostnameFallback = true → backend.live.cache.data = [] →
      HostOf rt settings raw url bare →
      Returns (backend.lookup rt settings upstream.client now mono bare)
        (fun answer => answer.1.payload.Found) →
      Returns (backend.lookup rt settings upstream.client now mono url)
        (fun answer => answer.1.payload.Found) := by
  intro hall
  have hfound := hall sampleRuntime (sampleSettings 50000) bareBackend "http://8.8.4.4/x" _ _
    (soleUpstream .ipv4Addr "8.8.4.4") 0 0 rfl rfl hostOf_address
    (found_soleUpstream rfl ⟨.inl ⟨nofun, rfl⟩, by decide⟩)
  obtain ⟨-, -, hasked⟩ := (found_iff_asks rfl _).mp hfound
  obtain ⟨request, hrequest, observable, hpick, -⟩ := hasked
  obtain ⟨hmem, -, htype⟩ := (soleUpstream .ipv4Addr "8.8.4.4").pick_mem _ _ hpick
  rw [List.mem_singleton.mp hmem] at htype
  rcases List.mem_cons.mp hrequest with rfl | hfallback
  · exact absurd htype (by decide)
  · rw [fallbackHost_address] at hfallback
    rw [List.mem_singleton.mp hfallback] at htype
    exact absurd htype (by decide)

end Sample

end OpenctiLookup
