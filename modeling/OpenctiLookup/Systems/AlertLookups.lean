import OpenctiLookup.AsciiMarkers
import OpenctiLookup.Systems.FixedStates
import OpenctiLookup.Systems.MarkerLoop
import OpenctiLookup.Wazuh

/-! The indicators of an alert, looked up one by one and all together, while what the middleware
answers stays the same. -/
namespace OpenctiLookup
open Python

/-- The integration is set up for the middleware: it has its URL, and its key for the header
it sends. -/
structure Installed (rt : Runtime) (api : ApiSettings) (site : Wazuh.Site) (hookUrl apiKey : Str) :
    Prop where
  site : Wazuh.baseOf hookUrl = site.url
  header : rt.lower api.apiKeyHeader = "x-api-key".toList
  key : apiKey = api.apiKey
  ascii : isascii apiKey = true

section Statement

variable (rt : Runtime) (settings : Settings) {σ : Type} (backend : LookupBackend σ) (s : σ)

def answerTo (raw : Str) : Py Payload := do
  backend.payload s (← settings.normalize rt raw)

def Answered (raw : Str) : Prop := Succeeds (answerTo rt settings backend s raw)

/-- `lookup` of the integration against the middleware. -/
def alertLookup (api : ApiSettings) (site : Wazuh.Site) (hookUrl apiKey : Str)
    (indicators : List Str) : Py (List (Str × Json)) :=
  Wazuh.lookup (site.urlopen (Api.serve rt settings backend api s)) hookUrl apiKey indicators

def associated (found : Py (List (Str × Json))) (indicator : Str) : Option Json :=
  found.toOption.bind (List.lookup indicator)

/-- Each indicator has the same payload alone as among the others. -/
def SameAlone (lookup : List Str → Py (List (Str × Json))) (indicators : List Str) : Prop :=
  ∀ indicator ∈ indicators,
    associated (lookup [indicator]) indicator = associated (lookup indicators) indicator

/-- One indicator, or only such as the middleware answers and `GET` takes, or one among them
that is not answered and none that would be alone. -/
def Alike (indicators : List Str) : Prop :=
  indicators.length ≤ 1 ∨
    (∀ raw ∈ indicators, Answered rt settings backend s raw ∧ raw.length ≤ Api.maxLength) ∨
    (∃ raw ∈ indicators, ¬ Answered rt settings backend s raw) ∧
      ∀ raw ∈ indicators, Answered rt settings backend s raw → Api.maxLength < raw.length

end Statement

section Bulk

variable {rt : Runtime} {settings : Settings} {σ : Type} {backend : LookupBackend σ} {s s' : σ}
  {raw : Str} {values : List Str} {results : List (Str × Payload)}

theorem lookupRaw_eq (hfixed : backend.Fixed s) (hafter : backend.After s s') (raw : Str) :
    (Api.lookupRaw rt settings backend raw s').map (·.1.payload) =
      answerTo rt settings backend s raw := by
  unfold Api.lookupRaw answerTo
  cases settings.normalize rt raw with
  | error fault => rfl
  | ok normalized => exact hfixed.same s' hafter normalized

theorem after_lookupRaw {result : LookupResult} {s'' : σ} (hafter : backend.After s s')
    (h : Api.lookupRaw rt settings backend raw s' = .ok (result, s'')) : backend.After s s'' := by
  obtain ⟨normalized, -, hlookup⟩ := bind_eq_ok_iff.mp h
  exact hafter.tail ⟨normalized, result, hlookup⟩

theorem nonempty_of_answer (hfixed : backend.Fixed s) {payload : Payload}
    (h : answerTo rt settings backend s raw = .ok payload) : payload ≠ [] := by
  obtain ⟨normalized, -, h⟩ := bind_eq_ok_iff.mp h
  exact hfixed.nonempty _ _ h

theorem lookupRaw_cases (hfixed : backend.Fixed s) (hafter : backend.After s s') (raw : Str) :
    LookupBackend.Comes (answerTo rt settings backend s raw) (backend.After s)
      (Api.lookupRaw rt settings backend raw s') := by
  have heq := @lookupRaw_eq rt settings _ _ _ _ hfixed hafter raw
  cases hlookup : Api.lookupRaw rt settings backend raw s' with
  | error fault =>
      rw [hlookup] at heq
      exact .inr ⟨fault, rfl, heq.symm⟩
  | ok answer =>
      rw [hlookup] at heq
      exact .inl ⟨answer.1, answer.2, rfl, after_lookupRaw hafter hlookup, heq.symm⟩

theorem bulkLoop_of_answered (hfixed : backend.Fixed s) {payload : Str → Payload}
    (h : ∀ raw ∈ values, answerTo rt settings backend s raw = .ok (payload raw)) :
    ∀ s' results, backend.After s s' → ∃ results' s'',
      Api.bulkLoop rt settings backend values results s' = .ok (results', s'') ∧
        ∀ raw, results'.lookup raw =
          if raw ∈ values then some (payload raw) else results.lookup raw := by
  induction values with
  | nil => exact fun s' results _ => ⟨results, s', rfl, fun raw => by simp⟩
  | cons first rest ih =>
      rw [List.forall_mem_cons] at h
      intro s' results hafter
      rcases @lookupRaw_cases rt settings _ _ _ _ hfixed hafter first with
        ⟨result, s'', hlookup, hafter, hanswer⟩ | ⟨fault, -, hanswer⟩
      · obtain ⟨results', last, hloop, hresults⟩ :=
          ih h.2 s'' (Api.setResult results first result.payload) hafter
        have hpayload : result.payload = payload first :=
          Except.ok.inj (hanswer.symm.trans h.1)
        refine ⟨results', last, ?_, fun raw => ?_⟩
        · rw [Api.bulkLoop, hlookup]
          exact hloop
        · rw [hresults, Api.lookup_setResult, hpayload]
          by_cases hrest : raw ∈ rest
          · rw [if_pos hrest, if_pos (List.mem_cons_of_mem _ hrest)]
          · by_cases hfirst : raw = first
            · simp [hfirst]
            · simp [hrest, hfirst]
      · cases h.1.symm.trans hanswer

theorem bulkLoop_of_unanswered (hfixed : backend.Fixed s) (hraw : raw ∈ values)
    (h : ¬ Answered rt settings backend s raw) :
    ∀ s' results, backend.After s s' →
      ∃ fault, Api.bulkLoop rt settings backend values results s' = .error fault := by
  induction values with
  | nil => cases hraw
  | cons first rest ih =>
      intro s' results hafter
      rw [Api.bulkLoop]
      rcases @lookupRaw_cases rt settings _ _ _ _ hfixed hafter first with
        ⟨result, s'', hlookup, hafter, hanswer⟩ | ⟨fault, hlookup, -⟩
      · rcases List.mem_cons.mp hraw with rfl | hrest
        · exact absurd ⟨_, hanswer, trivial⟩ h
        · rw [hlookup]
          exact ih hrest s'' _ hafter
      · exact ⟨fault, by rw [hlookup]; rfl⟩

end Bulk

section Replies

variable {rt : Runtime} {settings : Settings} {σ : Type} {backend : LookupBackend σ} {s : σ}
  {api : ApiSettings} {site : Wazuh.Site} {hookUrl apiKey raw : Str} {indicators : List Str}

theorem verifyApiKey_of_installed (hinstalled : Installed rt api site hookUrl apiKey)
    (method : Method) (path query : Str) (headers : List (Str × Str)) (body : Option Json) :
    Api.verifyApiKey rt api ⟨method, path, query, ("X-API-Key", apiKey) :: headers, body⟩ =
      .ok none := by
  have hlong := api.longEnough
  have hascii := hinstalled.ascii
  rw [← hinstalled.key] at hlong
  unfold Api.verifyApiKey HttpRequest.header
  rw [if_pos hinstalled.header, ← hinstalled.key, List.find?_cons_of_pos (by rfl)]
  cases apiKey with
  | nil => simp at hlong
  | cons c rest => simp [hascii]

theorem serve_get (hinstalled : Installed rt api site hookUrl apiKey) (hraw : raw ≠ []) :
    Api.serve rt settings backend api s ⟨.get, "/lookup", urlencode "value" raw,
        [("X-API-Key", apiKey)], none⟩ =
      if raw.length ≤ Api.maxLength then
        match Api.lookupRaw rt settings backend raw s with
        | .ok (result, _) => some ⟨200, some result.payload.toJson⟩
        | .error (.raised _) => some ⟨500, none⟩
        | .error .diverges => none
      else some (Api.unprocessable "string_too_long" [[.str "query", .str "value"]]) := by
  have hlength : ¬ raw.length < Api.minLength := by
    rw [Api.minLength, Nat.lt_one_iff, List.length_eq_zero_iff]
    exact hraw
  have hvalue : (parseQsl (urlencode "value" raw)).reverse.lookup ("value" : Str) = some raw := by
    rw [parseQsl_urlencode]
    simp
  unfold Api.serve Api.endpoint
  rw [if_pos ⟨rfl, rfl⟩]
  dsimp only
  rw [verifyApiKey_of_installed hinstalled, ok_bind]
  dsimp only
  unfold Api.lookup
  rw [hvalue]
  dsimp only
  rw [if_neg hlength]
  by_cases hlong : raw.length ≤ Api.maxLength
  · rw [if_neg (not_lt.mpr hlong), if_pos hlong]
    cases Api.lookupRaw rt settings backend raw s with
    | error fault => cases fault <;> rfl
    | ok answer => rfl
  · rw [if_pos (not_le.mp hlong), if_neg hlong]

/-- Alone, an indicator has its payload unless `GET` finds it too long. -/
theorem associated_alone (hinstalled : Installed rt api site hookUrl apiKey)
    (hfixed : backend.Fixed s) (hraw : raw ≠ []) :
    associated (alertLookup rt settings backend s api site hookUrl apiKey [raw]) raw =
      if raw.length ≤ Api.maxLength then
        (answerTo rt settings backend s raw).toOption.map Payload.toJson
      else none := by
  have hfragment : '#' ∉ (("/lookup?" : Str) ++ urlencode "value" raw : Str) := by
    rw [List.mem_append, urlencode, List.mem_append, List.mem_cons]
    rintro (h | h | h | h)
    · revert h
      decide
    · exact not_mem_quotePlus rfl (by decide) (by decide) _ h
    · cases h
    · exact not_mem_quotePlus rfl (by decide) (by decide) _ h
  have hpath : partition '?' (("/lookup?" : Str) ++ urlencode "value" raw) =
      ("/lookup".toList, true, urlencode "value" raw) :=
    partition_append (by decide : '?' ∉ "/lookup".toList) _
  rw [alertLookup, Wazuh.lookup_one, hinstalled.site, Wazuh.Site.request_append hfragment, hpath]
  dsimp only [Option.isSome_none]
  rw [if_neg Bool.false_ne_true, if_neg Bool.false_ne_true, serve_get hinstalled hraw]
  by_cases hlong : raw.length ≤ Api.maxLength
  · rw [if_pos hlong, if_pos hlong]
    rcases @lookupRaw_cases rt settings _ _ _ _ hfixed .refl raw with
      ⟨result, s', hlookup, -, hanswer⟩ | ⟨fault, hlookup, hanswer⟩
    · rw [hlookup, hanswer]
      simp [associated, Except.toOption, Payload.truthy_toJson (nonempty_of_answer hfixed hanswer)]
    · rw [hlookup, hanswer]
      cases fault <;> rfl
  · rw [if_neg hlong, if_neg hlong]
    rfl

theorem serve_post (hinstalled : Installed rt api site hookUrl apiKey)
    (hmost : indicators.length ≤ Api.maxBulk) :
    Api.serve rt settings backend api s ⟨.post, "/lookup/bulk", [],
        [("X-API-Key", apiKey), ("Content-Type", "application/json")],
        some (.obj [("values", .arr (indicators.map .str))])⟩ =
      match Api.bulkLoop rt settings backend indicators [] s with
      | .ok (results, _) => some ⟨200, some (.obj [("count", .str (decimal results.length)),
          ("truncated", .str "false"),
          ("results", .obj (results.map fun entry => (entry.1, entry.2.toJson)))])⟩
      | .error (.raised _) => some ⟨500, none⟩
      | .error .diverges => none := by
  unfold Api.serve Api.endpoint
  rw [if_neg nofun, if_pos ⟨rfl, rfl⟩]
  dsimp only
  rw [verifyApiKey_of_installed hinstalled, ok_bind]
  dsimp only
  unfold Api.lookupBulk
  rw [Api.readValues_texts]
  dsimp only
  rw [List.take_of_length_le hmost]
  cases Api.bulkLoop rt settings backend indicators [] s with
  | error fault => cases fault <;> rfl
  | ok answer =>
      rw [if_neg (not_lt.mpr hmost)]
      rfl

/-- Together, the indicators have their payloads if all of them are answered. -/
theorem associated_together (hinstalled : Installed rt api site hookUrl apiKey)
    (hfixed : backend.Fixed s) (hmost : indicators.length ≤ Api.maxBulk)
    (hseveral : indicators.length ≠ 1) (hraw : raw ∈ indicators) :
    ((∀ other ∈ indicators, Answered rt settings backend s other) →
      associated (alertLookup rt settings backend s api site hookUrl apiKey indicators) raw =
        (answerTo rt settings backend s raw).toOption.map Payload.toJson) ∧
    ((∃ other ∈ indicators, ¬ Answered rt settings backend s other) →
      associated (alertLookup rt settings backend s api site hookUrl apiKey indicators) raw =
        none) := by
  have hpath : partition '?' ("/lookup/bulk" : Str) = ("/lookup/bulk".toList, false, []) := rfl
  rw [alertLookup, Wazuh.lookup_of_ne_one _ _ hseveral, hinstalled.site,
    Wazuh.Site.request_append (by decide : '#' ∉ "/lookup/bulk".toList), hpath]
  dsimp only [Option.isSome_some]
  rw [if_pos rfl, if_pos rfl, serve_post hinstalled hmost]
  constructor
  · intro hall
    have hanswer : ∀ other ∈ indicators, answerTo rt settings backend s other =
        .ok ((answerTo rt settings backend s other).toOption.getD []) := by
      intro other hother
      obtain ⟨payload, hpayload, -⟩ := hall other hother
      rw [hpayload]
      rfl
    obtain ⟨results, s', hloop, hresults⟩ := bulkLoop_of_answered hfixed hanswer s [] .refl
    obtain ⟨payload, hpayload, -⟩ := hall raw hraw
    rw [hloop]
    dsimp only
    rw [if_pos (by decide)]
    change List.lookup raw (results.map fun entry => (entry.1, entry.2.toJson)) = _
    rw [Api.lookup_toJson, hresults, if_pos hraw, hpayload]
    rfl
  · rintro ⟨other, hother, hunanswered⟩
    obtain ⟨fault, hloop⟩ := bulkLoop_of_unanswered hfixed hother hunanswered s [] .refl
    rw [hloop]
    cases fault <;> rfl

theorem sameAlone_iff_of_answered (hinstalled : Installed rt api site hookUrl apiKey)
    (hfixed : backend.Fixed s) (hnonempty : ∀ raw ∈ indicators, raw ≠ [])
    (hmost : indicators.length ≤ Api.maxBulk) (hseveral : indicators.length ≠ 1)
    (hall : ∀ raw ∈ indicators, Answered rt settings backend s raw) :
    SameAlone (alertLookup rt settings backend s api site hookUrl apiKey) indicators ↔
      ∀ raw ∈ indicators, raw.length ≤ Api.maxLength := by
  refine forall₂_congr fun raw hraw => ?_
  rw [associated_alone hinstalled hfixed (hnonempty raw hraw),
    (associated_together hinstalled hfixed hmost hseveral hraw).1 hall]
  obtain ⟨payload, hpayload, -⟩ := hall raw hraw
  rw [hpayload]
  by_cases hlong : raw.length ≤ Api.maxLength
  · rw [if_pos hlong]
    exact iff_of_true rfl hlong
  · rw [if_neg hlong]
    exact iff_of_false nofun hlong

theorem sameAlone_iff_of_unanswered (hinstalled : Installed rt api site hookUrl apiKey)
    (hfixed : backend.Fixed s) (hnonempty : ∀ raw ∈ indicators, raw ≠ [])
    (hmost : indicators.length ≤ Api.maxBulk) (hseveral : indicators.length ≠ 1)
    (hsome : ∃ raw ∈ indicators, ¬ Answered rt settings backend s raw) :
    SameAlone (alertLookup rt settings backend s api site hookUrl apiKey) indicators ↔
      ∀ raw ∈ indicators, Answered rt settings backend s raw → Api.maxLength < raw.length := by
  refine forall₂_congr fun raw hraw => ?_
  rw [associated_alone hinstalled hfixed (hnonempty raw hraw),
    (associated_together hinstalled hfixed hmost hseveral hraw).2 hsome]
  by_cases hlong : raw.length ≤ Api.maxLength
  · rw [if_pos hlong, Option.map_eq_none_iff]
    cases hanswer : answerTo rt settings backend s raw with
    | error fault =>
        refine iff_of_true rfl fun ⟨_, h, _⟩ => ?_
        cases hanswer.symm.trans h
    | ok payload =>
        refine iff_of_false nofun fun h => ?_
        exact absurd (h ⟨payload, hanswer, trivial⟩) (not_lt.mpr hlong)
  · rw [if_neg hlong]
    exact iff_of_true rfl fun _ => not_le.mp hlong

theorem sameAlone_of_length_le_one (lookup : List Str → Py (List (Str × Json)))
    (h : indicators.length ≤ 1) : SameAlone lookup indicators := by
  intro raw hraw
  match indicators, h with
  | [_], _ => rw [List.mem_singleton.mp hraw]

/-- The payloads of an alert's indicators do not depend on whether they are looked up together
exactly when they meet the condition. -/
theorem sameAlone_iff (hinstalled : Installed rt api site hookUrl apiKey)
    (hfixed : backend.Fixed s) (hnonempty : ∀ raw ∈ indicators, raw ≠ [])
    (hmost : indicators.length ≤ Api.maxBulk) :
    SameAlone (alertLookup rt settings backend s api site hookUrl apiKey) indicators ↔
      Alike rt settings backend s indicators := by
  unfold Alike
  by_cases hone : indicators.length ≤ 1
  · exact iff_of_true (sameAlone_of_length_le_one _ hone) (.inl hone)
  · rw [or_iff_right hone]
    by_cases hall : ∀ raw ∈ indicators, Answered rt settings backend s raw
    · rw [sameAlone_iff_of_answered hinstalled hfixed hnonempty hmost (by omega) hall, or_iff_left]
      · exact forall₂_congr fun raw hraw => (and_iff_right (hall raw hraw)).symm
      · exact fun ⟨⟨raw, hraw, h⟩, _⟩ => h (hall raw hraw)
    · have hsome : ∃ raw ∈ indicators, ¬ Answered rt settings backend s raw := by
        push Not at hall
        exact hall
      rw [sameAlone_iff_of_unanswered hinstalled hfixed hnonempty hmost (by omega) hsome,
        or_iff_right fun h => hall fun raw hraw => (h raw hraw).1, and_iff_right hsome]

end Replies

/-- The payloads of an alert's indicators do not depend on whether they are looked up together,
exactly when one that `GET` would refuse or the middleware does not answer makes no
difference. -/
theorem alert_lookups_same_iff (rt : Runtime) (settings : Settings) {σ : Type}
    (backend : LookupBackend σ) (s : σ) (api : ApiSettings) (site : Wazuh.Site)
    (hookUrl apiKey : Str) (hinstalled : Installed rt api site hookUrl apiKey)
    (hfixed : backend.Fixed s) (indicators : List Str)
    (hnonempty : ∀ indicator ∈ indicators, indicator ≠ [])
    (hmost : indicators.length ≤ Wazuh.maxIndicatorsPerAlert) :
    SameAlone (alertLookup rt settings backend s api site hookUrl apiKey) indicators ↔
      Alike rt settings backend s indicators :=
  sameAlone_iff hinstalled hfixed hnonempty (hmost.trans (by decide))

section LookupSample

def sampleApi : ApiSettings := { apiKey := "sixteen-or-more-0", longEnough := by decide }

def sampleSite : Wazuh.Site where
  url := "http://middleware:8080"
  http := by decide
  noQuery := by decide
  noFragment := by decide

def sampleBackend : LookupBackend SplitBackend :=
  SplitBackend.backend sampleRuntime (sampleSettings 50000)
    (fun _ => .error (openctiError "connect failed")) 0 0

theorem installed_sample :
    Installed sampleRuntime sampleApi sampleSite "http://middleware:8080/lookup/"
      "sixteen-or-more-0" :=
  ⟨by decide, by decide, rfl, by decide⟩

theorem fixed_sample : sampleBackend.Fixed (sampleWorker 50000).split :=
  SplitBackend.fixed_of_coherent fun _ _ he => absurd he List.not_mem_nil

theorem answered_sample {raw : Str} (h : isascii raw = true) :
    Answered sampleRuntime (sampleSettings 50000) sampleBackend (sampleWorker 50000).split
      raw := by
  have hascii : isascii (stripChars stripSet (strip raw)) = true := by
    rw [isascii, List.all_eq_true] at h ⊢
    exact fun c hc => h c (stripBy_subset _ _ (stripBy_subset _ _ hc))
  obtain ⟨value, hvalue⟩ : ∃ value,
      (sampleSettings 50000).normalize sampleRuntime raw = .ok value := by
    apply normalize_returns_iff.mpr
    apply staysLevel_of_ahead
    rw [ahead_of_isascii hascii]
    exact Nat.zero_le 2
  have hcontains : ∀ text, (sampleWorker 50000).split.membership.contains sampleRuntime text =
      false := by
    intro text
    simp [MembershipSet.contains, sampleWorker, MembershipSet.init]
  have hroute : (sampleWorker 50000).split.route sampleRuntime (sampleSettings 50000) value =
      .membershipMiss := by
    cases hroute : (sampleWorker 50000).split.route sampleRuntime (sampleSettings 50000) value with
    | membershipMiss => rfl
    | live =>
        rcases (SplitBackend.route_live_iff rfl rfl).mp hroute with h | ⟨host, -, h⟩
        · cases (hcontains _).symm.trans h
        · cases (hcontains _).symm.trans h
  refine ⟨miss, ?_, trivial⟩
  rw [answerTo, hvalue, ok_bind]
  unfold LookupBackend.payload sampleBackend SplitBackend.backend SplitBackend.lookup
  rw [hroute]
  cases value.lookupable <;> rfl

theorem alert_lookups_same_two :
    SameAlone (alertLookup sampleRuntime (sampleSettings 50000) sampleBackend
      (sampleWorker 50000).split sampleApi sampleSite "http://middleware:8080/lookup/"
      "sixteen-or-more-0") ["evil.com", "good.com"] := by
  refine (alert_lookups_same_iff sampleRuntime (sampleSettings 50000) sampleBackend
    (sampleWorker 50000).split sampleApi sampleSite _ _ installed_sample fixed_sample
    ["evil.com", "good.com"] (by decide) (by decide)).mpr (.inr (.inl ?_))
  rw [List.forall_mem_cons, List.forall_mem_singleton]
  exact ⟨⟨answered_sample (by decide), by decide⟩, answered_sample (by decide), by decide⟩

/-- `GET` refuses a text of 2049 characters, which a bulk lookup answers. -/
theorem long_indicator_lost_alone :
    ¬ ∀ (rt : Runtime) (settings : Settings) (σ : Type) (backend : LookupBackend σ) (s : σ)
      (api : ApiSettings) (site : Wazuh.Site) (hookUrl apiKey : Str) (indicators : List Str),
      Installed rt api site hookUrl apiKey → backend.Fixed s → indicators.Nodup →
      (∀ indicator ∈ indicators, indicator ≠ []) →
      indicators.length ≤ Wazuh.maxIndicatorsPerAlert →
      SameAlone (alertLookup rt settings backend s api site hookUrl apiKey) indicators := by
  intro hall
  let long : Str := List.replicate 2049 'a'
  have hlong : isascii long = true := by
    rw [isascii, List.all_eq_true]
    intro c hc
    rw [List.eq_of_mem_replicate hc]
    rfl
  have hanswered : ∀ raw ∈ [long, "evil.com"], Answered sampleRuntime (sampleSettings 50000)
      sampleBackend (sampleWorker 50000).split raw := by
    rw [List.forall_mem_cons, List.forall_mem_singleton]
    exact ⟨answered_sample hlong, answered_sample (by decide)⟩
  have hne : ∀ raw ∈ [long, "evil.com"], raw ≠ [] := by
    rw [List.forall_mem_cons, List.forall_mem_singleton]
    exact ⟨List.cons_ne_nil _ _, by decide⟩
  have hdistinct : [long, "evil.com"].Nodup := by
    rw [List.nodup_cons, List.mem_singleton]
    exact ⟨fun heq => absurd (congrArg List.head? heq) (by decide), List.nodup_singleton _⟩
  have hsame := hall _ (sampleSettings 50000) _ _ _ _ _ _ _ [long, "evil.com"] installed_sample
    fixed_sample hdistinct hne (by decide)
  have hshort := (sameAlone_iff_of_answered installed_sample fixed_sample hne (by decide)
    (by decide) hanswered).mp hsame long List.mem_cons_self
  rw [List.length_replicate] at hshort
  exact absurd hshort (by decide)

end LookupSample

end OpenctiLookup
