import OpenctiLookup.Opencti.LegibleReply
import OpenctiLookup.Systems.CacheFreshness

/-! Where the answers of a worker come from. The cache, and the fetches that lookups share, never
give a value what was fetched for another, and nothing is found that OpenCTI has not reported. -/
namespace OpenctiLookup
open Python Theory

variable (rt : Runtime) (settings : Settings)

/-- A flight for the value, the one that a step of the trace finished, holds the payload, and
that is what its fetch returned. -/
def FetchReturned (trace : List ServingStep) (flights : List Flight) (value : Normalized)
    (payload : Payload) : Prop :=
  ∃ index flight client now, flights[index]? = some flight ∧
    flight.key = LiveBackend.cacheKey settings value ∧ flight.result = some (.ok payload) ∧
      .finish index client now ∈ trace ∧
        LiveBackend.fetch rt settings client now value = .ok payload

/-- A lookup of the value is answered by itself, or as a fetch of it was. -/
inductive Traced (trace : List ServingStep) (flights : List Flight) (value : Normalized) :
    LookupResult → Prop
  | missed {source : Str} (hsource : source ∈ ["skip".toList, "membership".toList]) :
      Traced trace flights value ⟨miss, source⟩
  | degraded : Traced trace flights value ⟨degradedPayload, "degraded"⟩
  | fetched {payload : Payload} {source : Str}
      (hsource : source ∈ ["payload_cache".toList, "opencti".toList])
      (h : FetchReturned rt settings trace flights value payload) :
      Traced trace flights value ⟨payload, source⟩

/-- What is cached, under way or answered was fetched for the value it is for. -/
structure Serving.Traced (trace : List ServingStep) (s : Serving) : Prop where
  cached : ∀ e ∈ s.cache.data, ∃ value, e.1 = LiveBackend.cacheKey settings value ∧
    FetchReturned rt settings trace s.flights value e.2.1
  keyed : ∀ flight ∈ s.flights, flight.key = LiveBackend.cacheKey settings flight.value
  done : ∀ flight ∈ s.flights, ∀ payload, flight.result = some (.ok payload) →
    FetchReturned rt settings trace s.flights flight.value payload
  answered : ∀ answer ∈ s.answers,
    OpenctiLookup.Traced rt settings trace s.flights answer.value answer.result

section Keys

variable {rt settings} {trace trace' : List ServingStep} {flights flights' : List Flight}
  {value other : Normalized} {payload : Payload}

theorem fetched_of_same_key (h : FetchReturned rt settings trace flights other payload)
    (hkey : LiveBackend.cacheKey settings value = LiveBackend.cacheKey settings other) :
    FetchReturned rt settings trace flights value payload := by
  obtain ⟨index, flight, client, now, hflight, hof, hdone, hmem, hfetch⟩ := h
  obtain ⟨htype, hvalue⟩ := Normalized.cacheKey_injective (List.append_cancel_left hkey)
  refine ⟨index, flight, client, now, hflight, hof.trans hkey.symm, hdone, hmem, ?_⟩
  rw [← hfetch]
  unfold LiveBackend.fetch LiveBackend.fallbackHost
  rw [htype, hvalue]

def KeepsDone (flights flights' : List Flight) : Prop :=
  ∀ (index : ℕ) (flight : Flight), flights[index]? = some flight → flight.result ≠ none →
    flights'[index]? = some flight

theorem keepsDone_append (flights more : List Flight) : KeepsDone flights (flights ++ more) := by
  intro index flight hflight _
  have hbound : index < flights.length := (List.getElem?_eq_some_iff.mp hflight).1
  rw [List.getElem?_append_left hbound]
  exact hflight

theorem keepsDone_set {index : ℕ} {flight : Flight} (hflight : flights[index]? = some flight)
    (hopen : flight.result = none) (flight' : Flight) :
    KeepsDone flights (flights.set index flight') := by
  intro i found hfound hdone
  rw [List.getElem?_set_ne, hfound]
  rintro rfl
  cases hflight.symm.trans hfound
  exact hdone hopen

theorem FetchReturned.mono (h : FetchReturned rt settings trace flights value payload)
    (hsub : trace ⊆ trace') (hkeeps : KeepsDone flights flights') :
    FetchReturned rt settings trace' flights' value payload := by
  obtain ⟨index, flight, client, now, hflight, hof, hdone, hmem, hfetch⟩ := h
  have hkept := hkeeps index flight hflight (by simp [hdone])
  exact ⟨index, flight, client, now, hkept, hof, hdone, hsub hmem, hfetch⟩

theorem Traced.mono {result : LookupResult} (h : Traced rt settings trace flights value result)
    (hsub : trace ⊆ trace') (hkeeps : KeepsDone flights flights') :
    Traced rt settings trace' flights' value result := by
  cases h with
  | missed hsource => exact .missed hsource
  | degraded => exact .degraded
  | fetched hsource hfetched => exact .fetched hsource (hfetched.mono hsub hkeeps)

theorem Serving.Traced.mono {s : Serving} (h : s.Traced rt settings trace)
    (hsub : trace ⊆ trace') : s.Traced rt settings trace' where
  cached e he := by
    obtain ⟨value, hkey, hfetched⟩ := h.cached e he
    exact ⟨value, hkey, hfetched.mono hsub fun _ _ hflight _ => hflight⟩
  keyed := h.keyed
  done flight hflight payload hdone :=
    (h.done flight hflight payload hdone).mono hsub fun _ _ hflight _ => hflight
  answered answer hanswer := (h.answered answer hanswer).mono hsub fun _ _ hflight _ => hflight

end Keys

section Steps

variable {rt settings} {trace : List ServingStep} {s s' : Serving} {value : Normalized}

theorem traced_answer (h : s.Traced rt settings trace) {asked : Normalized} (started : ℕ)
    {result : LookupResult} (obtained : Option ℕ)
    (hresult : Traced rt settings trace s.flights asked result) :
    (s.answer asked started result obtained).Traced rt settings trace where
  cached := h.cached
  keyed := h.keyed
  done := h.done
  answered answer hanswer := by
    rcases List.mem_append.mp hanswer with hold | hlast
    · exact h.answered answer hold
    · rw [List.mem_singleton.mp hlast]
      exact hresult

theorem traced_setCache (h : s.Traced rt settings trace) {cache : PayloadCache Payload}
    (hcache : ∀ e ∈ cache.data, ∃ value, e.1 = LiveBackend.cacheKey settings value ∧
      FetchReturned rt settings trace s.flights value e.2.1) :
    (s.setCache cache).Traced rt settings trace where
  cached := hcache
  keyed := h.keyed
  done := h.done
  answered := h.answered

theorem traced_flights (h : s.Traced rt settings trace) {flights : List Flight}
    {waiting : List Waiting} (hkeeps : KeepsDone s.flights flights)
    (hkeyed : ∀ flight ∈ flights, flight.key = LiveBackend.cacheKey settings flight.value)
    (hdone : ∀ flight ∈ flights, ∀ payload, flight.result = some (.ok payload) →
      flight ∈ s.flights ∨ FetchReturned rt settings trace flights flight.value payload) :
    ({ s with flights := flights, waiting := waiting } : Serving).Traced rt settings trace where
  cached e he := by
    obtain ⟨value, hkey, hfetched⟩ := h.cached e he
    exact ⟨value, hkey, hfetched.mono (List.Subset.refl _) hkeeps⟩
  keyed := hkeyed
  done flight hflight payload hresult := by
    rcases hdone flight hflight payload hresult with hold | hnew
    · exact (h.done flight hold payload hresult).mono (List.Subset.refl _) hkeeps
    · exact hnew
  answered answer hanswer :=
    (h.answered answer hanswer).mono (List.Subset.refl _) hkeeps

theorem traced_join (h : s.Traced rt settings trace) (asked : Normalized) :
    (s.join (LiveBackend.cacheKey settings asked) asked).Traced rt settings trace := by
  unfold Serving.join
  split
  · exact { h with }
  · refine traced_flights h (keepsDone_append _ _) (fun flight hflight => ?_)
      fun flight hflight payload hdone => ?_
    · rcases List.mem_append.mp hflight with hold | hnew
      · exact h.keyed flight hold
      · rw [List.mem_singleton.mp hnew]
    · rcases List.mem_append.mp hflight with hold | hnew
      · exact .inl hold
      · rw [List.mem_singleton.mp hnew] at hdone
        cases hdone

theorem traced_afterLookup (h : s.Traced rt settings trace) (asked : Normalized) (mono : ℚ) :
    (s.afterLookup rt settings asked mono).Traced rt settings trace := by
  unfold Serving.afterLookup
  split
  · exact traced_answer h _ _ (.missed List.mem_cons_self)
  · split
    · exact traced_answer h _ _ (.missed (List.mem_cons_of_mem _ List.mem_cons_self))
    · dsimp only
      split
      · next payload cache hget =>
          have hcached : FetchReturned rt settings trace s.flights asked payload := by
            obtain ⟨expiresAt, hentry, -⟩ := PayloadCache.get_fst_eq_some_iff.mp (by rw [hget])
            obtain ⟨value, hkey, hfetched⟩ := h.cached _ (PayloadCache.mem_of_entry hentry)
            exact fetched_of_same_key hfetched hkey
          refine traced_answer (traced_setCache h fun e he => h.cached e ?_) _ _
            (.fetched List.mem_cons_self hcached)
          exact PayloadCache.mem_get (by rw [hget]; exact he)
      · next cache hget =>
          refine traced_join (traced_setCache h fun e he => h.cached e ?_) asked
          exact PayloadCache.mem_get (by rw [hget]; exact he)

theorem traced_setFlight (h : s.Traced rt settings trace) {index : ℕ} {flight flight' : Flight}
    (hflight : s.flights[index]? = some flight) (hopen : flight.result = none)
    (hkey : flight'.key = flight.key) (hvalue : flight'.value = flight.value)
    (hdone : ∀ payload, flight'.result = some (.ok payload) → ∃ client now,
      .finish index client now ∈ trace ∧
        LiveBackend.fetch rt settings client now flight'.value = .ok payload) :
    (s.setFlight index flight').Traced rt settings trace := by
  have hkeyed : flight'.key = LiveBackend.cacheKey settings flight'.value := by
    rw [hkey, hvalue]
    exact h.keyed flight (List.mem_of_getElem? hflight)
  have hbound : index < s.flights.length := (List.getElem?_eq_some_iff.mp hflight).1
  refine traced_flights h (keepsDone_set hflight hopen flight') (fun found hfound => ?_)
    fun found hfound payload hresult => ?_
  · rcases List.mem_or_eq_of_mem_set hfound with hold | rfl
    · exact h.keyed found hold
    · exact hkeyed
  · rcases List.mem_or_eq_of_mem_set hfound with hold | rfl
    · exact .inl hold
    · obtain ⟨client, now, hmem, hfetch⟩ := hdone payload hresult
      exact .inr ⟨index, found, client, now, List.getElem?_set_self hbound, hkeyed, hresult, hmem,
        hfetch⟩

/-- A lookup whose fetch is done stores under its own key what was fetched for that key. -/
theorem traced_afterResume (h : s.Traced rt settings trace) (hsound : s.Sound settings)
    {index : ℕ} {waiting : Waiting} {flight : Flight} {result : Py Payload} (mono : ℚ)
    (hwaiting : s.waiting[index]? = some waiting)
    (hflight : s.flights[waiting.flight]? = some flight) (hresult : flight.result = some result) :
    (s.afterResume settings index mono waiting flight.obtained result).Traced rt settings
      trace := by
  have hdropped : (s.dropWaiting index).Traced rt settings trace := { h with }
  cases result with
  | error fault =>
      rcases afterResume_error_cases s index mono waiting flight.obtained fault with heq | heq
      · rw [heq]
        exact traced_answer hdropped _ _ .degraded
      · rw [heq]
        exact hdropped
  | ok payload =>
      have hfetched : FetchReturned rt settings trace s.flights waiting.value payload := by
        obtain ⟨-, other, hother, hkey⟩ := hsound.keyed waiting (List.mem_of_getElem? hwaiting)
        cases hflight.symm.trans hother
        have hmem := List.mem_of_getElem? hflight
        exact fetched_of_same_key (h.done flight hmem payload hresult)
          (hkey.symm.trans (h.keyed flight hmem))
      have hcached : ∀ e ∈ (s.cache.set (LiveBackend.cacheKey settings waiting.value) payload
          mono).data, ∃ value, e.1 = LiveBackend.cacheKey settings value ∧
            FetchReturned rt settings trace s.flights value e.2.1 := by
        intro e he
        rcases PayloadCache.mem_set he with rfl | hold
        · exact ⟨waiting.value, rfl, hfetched⟩
        · exact h.cached e hold
      have hanswer : Traced rt settings trace s.flights waiting.value ⟨payload, "opencti"⟩ :=
        .fetched (List.mem_cons_of_mem _ List.mem_cons_self) hfetched
      exact { traced_answer (traced_setCache hdropped hcached) waiting.started flight.obtained
        hanswer with }

theorem traced_step {a : ServingStep} (h : s.Traced rt settings trace) (hsound : s.Sound settings)
    (hstep : (servingSystem rt settings).step s a s') : s'.Traced rt settings (trace ++ [a]) := by
  have h := h.mono (List.subset_append_left trace [a])
  cases a with
  | change change =>
      obtain rfl := hstep
      exact { h with }
  | handle now =>
      obtain ⟨change, -, hfault, rfl⟩ := hstep
      refine ⟨fun e he => h.cached e ?_, h.keyed, h.done, h.answered⟩
      unfold Serving.cache at he
      dsimp only at he
      rw [split_handled hfault] at he
      exact he
  | lookup asked mono =>
      obtain rfl := hstep
      exact traced_afterLookup h asked mono
  | read index =>
      obtain ⟨flight, hflight, -, hopen, rfl⟩ := hstep
      refine traced_setFlight h hflight hopen rfl rfl fun payload hdone => ?_
      rw [hopen] at hdone
      cases hdone
  | finish index client now =>
      obtain ⟨flight, hflight, hopen, -, rfl⟩ := hstep
      refine traced_setFlight h hflight hopen rfl rfl fun payload hdone => ?_
      exact ⟨client, now, List.mem_append_right _ (List.mem_singleton_self _),
        Option.some.inj hdone⟩
  | resume index mono =>
      obtain ⟨waiting, flight, result, hwaiting, hflight, hresult, rfl⟩ := hstep
      exact traced_afterResume h hsound mono hwaiting hflight hresult
  | swap set =>
      obtain rfl := hstep
      exact { h with }
  | health connected activityLagS =>
      obtain rfl := hstep
      exact { h with }

theorem traced_run (hrun : Reaches (servingSystem rt settings) anyStep trace s) :
    s.Sound settings ∧ s.Traced rt settings trace := by
  induction hrun with
  | init hinit =>
      obtain ⟨hchanges, hhandled, hcache, hflights, hwaiting, hanswers⟩ := hinit
      refine ⟨⟨by rw [hhandled]; exact Nat.zero_le _, ?_, ?_, ?_⟩, ?_, ?_, ?_, ?_⟩
      · simp [hanswers]
      · simp [hwaiting]
      · simp [hflights]
      · simp [hcache]
      · simp [hflights]
      · simp [hflights]
      · simp [hanswers]
  | step _ _ hstep ih => exact ⟨serving_sound_step ih.1 hstep, traced_step ih.2 ih.1 hstep⟩

end Steps

section Hits

variable {rt settings} {client : Client} {now : ℚ} {value : Normalized} {payload : Payload}

theorem hit_of_query {text matchType : Str} {kind : IndicatorType}
    (h : LiveBackend.query rt settings client now text kind matchType = .ok (some payload)) :
    payload.Found ∧ ∃ data, client (LiveBackend.request settings text kind) = .ok data ∧
      HasHit rt settings now data := by
  obtain ⟨data, hdata, hread⟩ := bind_eq_ok_iff.mp h
  have hobj : data.orElse (.obj []) = data := by
    unfold LiveBackend.readReply at hread
    obtain ⟨block, hblock, -⟩ := bind_eq_ok_iff.mp hread
    cases data with
    | obj entries =>
        cases entries with
        | nil => rfl
        | cons entry entries => rfl
    | _ => cases hblock
  rw [← hobj] at hread
  have hlegible := (returns_readReply_iff data text kind matchType fun _ _ => trivial).mp
    ⟨_, hread, trivial⟩
  obtain ⟨reply, hreply, hreports⟩ :=
    (returns_readReply_iff data text kind matchType fun _ hreports => hreports).mpr hlegible
  cases hread.symm.trans hreply
  exact ⟨hreports.2, data, hdata, hreports.1⟩

/-- OpenCTI has answered the query for the value, or for the host of a URL, with a hit. -/
def ReportedHit (rt : Runtime) (settings : Settings) (client : Client) (now : ℚ)
    (value : Normalized) : Prop :=
  ∃ request data, (request = LiveBackend.request settings value.value value.type ∨
      ∃ host, LiveBackend.fallbackHost rt settings value = some host ∧
        request = LiveBackend.request settings host .domain) ∧
    client request = .ok data ∧ HasHit rt settings now data

theorem hit_of_fetch (h : LiveBackend.fetch rt settings client now value = .ok payload) :
    payload = miss ∨ payload.Found ∧ ReportedHit rt settings client now value := by
  unfold LiveBackend.fetch at h
  obtain ⟨exact, hexact, h⟩ := bind_eq_ok_iff.mp h
  cases exact with
  | some found =>
      cases h
      obtain ⟨hfound, data, hdata, hhit⟩ := hit_of_query hexact
      exact .inr ⟨hfound, _, data, .inl rfl, hdata, hhit⟩
  | none =>
      dsimp only at h
      split at h
      · cases h
        exact .inl rfl
      · next host hhost =>
          obtain ⟨byHost, hbyHost, h⟩ := bind_eq_ok_iff.mp h
          cases byHost with
          | none =>
              cases h
              exact .inl rfl
          | some found =>
              cases h
              obtain ⟨hfound, data, hdata, hhit⟩ := hit_of_query hbyHost
              exact .inr ⟨(found_fallback _ _).mpr hfound, _, data, .inr ⟨host, hhost, rfl⟩,
                hdata, hhit⟩

end Hits

section Claim

variable {rt settings} {trace : List ServingStep} {s : Serving}

/-- In every run, whatever the order of lookups, fetches and events, a lookup is answered with
a miss or with what a fetch of its own value has returned, the one of a flight under its key, and
that OpenCTI has answered with a hit. -/
theorem answers_reported (hrun : Reaches (servingSystem rt settings) anyStep trace s)
    {answer : Answer} (hanswer : answer ∈ s.answers) :
    answer.result.payload = miss ∨ answer.result.payload = degradedPayload ∨
      answer.result.payload.Found ∧ ∃ index flight client now, s.flights[index]? = some flight ∧
        flight.key = LiveBackend.cacheKey settings answer.value ∧
          flight.result = some (.ok answer.result.payload) ∧ .finish index client now ∈ trace ∧
            LiveBackend.fetch rt settings client now answer.value = .ok answer.result.payload ∧
              ReportedHit rt settings client now answer.value := by
  obtain ⟨value, started, result, obtained⟩ := answer
  cases (traced_run hrun).2.answered _ hanswer with
  | missed => exact .inl rfl
  | degraded => exact .inr (.inl rfl)
  | fetched _ h =>
      obtain ⟨index, flight, client, now, hflight, hkey, hdone, hmem, hfetch⟩ := h
      rcases hit_of_fetch hfetch with hmiss | ⟨hfound, hreported⟩
      · exact .inl hmiss
      · exact .inr (.inr ⟨hfound, index, flight, client, now, hflight, hkey, hdone, hmem, hfetch,
          hreported⟩)

end Claim

section Sample

def hitReply : Client := fun _ =>
  .ok (.obj [("stixCyberObservables", .obj [("edges", .arr [.obj [("node",
    .obj [("indicators", .obj [("edges",
      .arr [.obj [("node", .obj [("id", .str "indicator")])]])])])]])])])

theorem Payload.Found.not_missed {payload : Payload} (h : payload.Found) :
    payload ≠ miss ∧ payload ≠ degradedPayload := by
  constructor
  · rintro rfl
    cases h
  · rintro rfl
    cases h

theorem reaches_found : ∃ (trace : List ServingStep) (s : Serving) (answer : Answer),
    Reaches (servingSystem sampleRuntime (sampleSettings 50000)) anyStep trace s ∧
      answer ∈ s.answers ∧ answer.result.payload.Found := by
  have hstart : Reaches (servingSystem sampleRuntime (sampleSettings 50000)) anyStep []
      sampleServing := .init ⟨rfl, rfl, rfl, rfl, rfl, rfl⟩
  have hfetch : (sampleServing.worker.split.lookup sampleRuntime (sampleSettings 50000) hitReply 0
      0 evilValue).toOption.bind (fun answer => answer.1.payload.get "found") =
        some "true".toList := rfl
  cases hlookup : sampleServing.worker.split.lookup sampleRuntime (sampleSettings 50000) hitReply 0
      0 evilValue with
  | error fault =>
      rw [hlookup] at hfetch
      cases hfetch
  | ok answered =>
      obtain ⟨result, split⟩ := answered
      rw [hlookup] at hfetch
      obtain ⟨trace, s, obtained, hrun, -, -, hanswers⟩ := lookup_uninterrupted hstart nofun hlookup
      refine ⟨trace, s, ⟨evilValue, 0, result, obtained⟩, hrun, ?_, hfetch⟩
      rw [hanswers]
      exact List.mem_singleton_self _

theorem answers_reported_found : ∃ s : Serving, ∃ answer ∈ s.answers,
    answer.result.payload.Found ∧ ∃ client now,
      ReportedHit sampleRuntime (sampleSettings 50000) client now answer.value := by
  obtain ⟨trace, s, answer, hrun, hmem, hfound⟩ := reaches_found
  obtain ⟨hmiss, hdegraded⟩ := hfound.not_missed
  obtain ⟨-, _, _, client, now, -, -, -, -, -, hreported⟩ :=
    ((answers_reported hrun hmem).resolve_left hmiss).resolve_left hdegraded
  exact ⟨s, answer, hmem, hfound, client, now, hreported⟩

end Sample

end OpenctiLookup
