import OpenctiLookup.Systems.AlertLookups
import OpenctiLookup.Systems.EventFrames

/-! From an alert to the events analysisd is given for it: those of the indicators that the
middleware has found, less what its socket does not take. -/
namespace OpenctiLookup
open Python JsonText Wazuh

def Payload.fields (payload : Payload) : List (Str × Json) :=
  payload.map fun entry => (entry.1, .str entry.2)

/-- The rule and the agent of an alert are objects, or as good as absent. -/
structure WellFormed (alert agent : Json) : Prop where
  hasRule : ∃ rule fields, alert.get "rule" = .ok rule ∧ rule.orElse (.obj []) = .obj fields
  hasAgent : alert.get "agent" = .ok agent
  agentObject : agent.truthy = true → ∃ fields, agent = .obj fields

section Events

variable {rt : Runtime} {floats : Floats} {alert agent : Json} {indicator : Str}
  {payload : Payload} {takes : ℕ → Str → Bool}

theorem field_fields (payload : Payload) (key : Str) :
    Json.field payload.fields key = ((payload.lookup key).map Json.str).getD .null := by
  have hlookup : payload.fields.lookup key = (payload.lookup key).map Json.str := by
    unfold Payload.fields
    induction payload with
    | nil => rfl
    | cons entry payload ih =>
        rw [List.map_cons, List.lookup_cons, List.lookup_cons, ih]
        cases key == entry.1 <;> rfl
  rw [Json.field, hlookup]

/-- What an event says: the texts of the payload, and of the alert where they stand for
themselves. -/
structure EventReports (event : Json) (indicator : Str) (payload : Payload) : Prop where
  shape : ∃ enrichment, event = .obj [("integration", .str integrationName),
    (integrationName, .obj enrichment)] ∧ Json.field enrichment "indicator" = .str indicator ∧
      (∀ entry ∈ enrichment, ∃ text, entry.2 = .str text) ∧
      ((payload.map Prod.fst).Nodup → (enrichment.map Prod.fst).Nodup) ∧
      ∀ key, key ∉ ["indicator".toList, "source_rule_id".toList,
        "source_rule_description".toList, "source_alert_id".toList] →
          enrichment.lookup key = (payload.fields).lookup key

theorem texts_setField {entries : List (Str × Json)} {key text : Str}
    (h : ∀ entry ∈ entries, ∃ text, entry.2 = .str text) :
    ∀ entry ∈ setField key (.str text) entries, ∃ text, entry.2 = .str text := by
  intro entry hentry
  rcases mem_setField hentry with rfl | hentry
  · exact ⟨text, rfl⟩
  · exact h entry hentry

/-- The event of an alert and a payload has the texts of both. -/
theorem buildEvent_reports (h : WellFormed alert agent) (indicator : Str) (payload : Payload) :
    ∃ event, buildEvent rt alert indicator payload.fields = .ok event ∧
      EventReports event indicator payload := by
  obtain ⟨rule, fields, hrule, hfields⟩ := h.hasRule
  obtain ⟨entries, rfl⟩ : ∃ entries, alert = .obj entries := by
    cases alert with
    | obj entries => exact ⟨entries, rfl⟩
    | _ => cases hrule
  have hscalar : (payload.fields.filter fun entry => isScalar entry.2) = payload.fields := by
    rw [List.filter_eq_self]
    intro entry hentry
    obtain ⟨pair, -, rfl⟩ := List.mem_map.mp hentry
    rfl
  have htexts : ∀ entry ∈ payload.fields, ∃ text, entry.2 = .str text := by
    intro entry hentry
    obtain ⟨pair, -, rfl⟩ := List.mem_map.mp hentry
    exact ⟨pair.2, rfl⟩
  have hkeys : payload.fields.map Prod.fst = payload.map Prod.fst := by
    rw [Payload.fields, List.map_map]
    rfl
  unfold buildEvent
  rw [hrule, ok_bind, hfields]
  dsimp only
  rw [hscalar]
  refine ⟨_, rfl, ⟨_, rfl, ?_, ?_, fun hnodup => ?_, fun key hkey => ?_⟩⟩
  · rw [Json.field, lookup_setField, if_neg (by decide), lookup_setField, if_neg (by decide),
      lookup_setField, if_neg (by decide), lookup_setField, if_pos rfl]
    rfl
  · exact texts_setField (texts_setField (texts_setField (texts_setField htexts)))
  · rw [← hkeys] at hnodup
    exact nodup_setField (nodup_setField (nodup_setField (nodup_setField hnodup)))
  · simp only [List.mem_cons, List.not_mem_nil, or_false, not_or] at hkey
    rw [lookup_setField, if_neg hkey.2.2.2, lookup_setField, if_neg hkey.2.2.1, lookup_setField,
      if_neg hkey.2.1, lookup_setField, if_neg hkey.1]

theorem EventReports.writable {event : Json} (h : EventReports event indicator payload)
    (hpayload : (payload.map Prod.fst).Nodup) (depth : ℕ) : Writable floats (depth + 2) event := by
  obtain ⟨enrichment, rfl, -, htexts, hnodup, -⟩ := h.shape
  have hkeys : ["integration".toList, integrationName].Nodup := by decide
  rw [Writable]
  refine ⟨hkeys, ?_⟩
  simp only [WritableFields, Writable, and_true, true_and]
  exact ⟨hnodup hpayload, writableFields_of_texts depth htexts⟩

theorem sourceOf_returns (h : WellFormed alert agent) :
    ∃ source, sourceOf rt agent = .ok source := by
  unfold sourceOf
  by_cases htruthy : agent.truthy = true
  · obtain ⟨fields, rfl⟩ := h.agentObject htruthy
    rw [htruthy, Bool.not_true, if_neg Bool.false_ne_true]
    change ∃ source, (if Api.text? (Json.field fields "id") = some "000".toList then
      (pure integrationName : Py Str) else _) = .ok source
    split <;> exact ⟨_, rfl⟩
  · rw [(Bool.not_eq_true _).mp htruthy]
    exact ⟨_, rfl⟩

theorem eventPayload_returns (h : WellFormed alert agent) (event : Json) :
    ∃ datagram, eventPayload rt floats event agent = .ok datagram := by
  unfold eventPayload
  by_cases htruthy : agent.truthy = true
  · obtain ⟨fields, rfl⟩ := h.agentObject htruthy
    rw [htruthy, Bool.not_true]
    dsimp only
    rw [if_neg Bool.false_ne_true]
    change ∃ datagram, (if Api.text? (Json.field fields "id") = some "000".toList then
      (pure _ : Py Str) else _) = .ok datagram
    split <;> exact ⟨_, rfl⟩
  · rw [(Bool.not_eq_true _).mp htruthy]
    exact ⟨_, rfl⟩

theorem isHit_fields (payload : Payload) :
    isHit payload.fields = decide (payload.get "found" = some "true".toList) := by
  rw [isHit, field_fields, ← Payload.get]
  cases payload.get "found" with
  | none => rfl
  | some found => rfl

theorem readDatagram_sendEvents (h : WellFormed alert agent) {payload : Str → Payload}
    {values : List Str} (hdict : ∀ raw ∈ values, ((payload raw).map Prod.fst).Nodup) (depth n : ℕ)
    {source : Str} (hsource : sourceOf rt agent = .ok source) {event : Str → Json}
    (hevent : ∀ raw, buildEvent rt alert raw (payload raw).fields = .ok (event raw) ∧
      EventReports (event raw) raw (payload raw)) :
    (sendEvents rt floats takes alert agent n
        (values.map fun raw => (raw, (payload raw).toJson))).map
        (fun sending => readDatagram floats (depth + 2) sending.datagram) =
      (values.filter fun raw => (payload raw).get "found" = some "true".toList).map
        fun raw => some (source, event raw) := by
  induction values generalizing n with
  | nil => rfl
  | cons raw values ih =>
      rw [List.forall_mem_cons] at hdict
      have hjson : (payload raw).toJson = .obj (payload raw).fields := rfl
      rw [List.map_cons, hjson, sendEvents, List.filter_cons, ← isHit_fields]
      by_cases hhit : isHit (payload raw).fields = true
      · obtain ⟨hbuild, hreports⟩ := hevent raw
        obtain ⟨datagram, hdatagram⟩ := @eventPayload_returns rt floats _ _ h (event raw)
        obtain ⟨source', hsource', hread⟩ :=
          readDatagram_eventPayload (hreports.writable hdict.1 depth) hdatagram
        cases hsource.symm.trans hsource'
        have hof : datagramOf rt floats alert agent raw (payload raw).fields = .ok datagram := by
          rw [datagramOf, hbuild, ok_bind, hdatagram]
        rw [if_pos hhit, if_pos hhit, hof]
        dsimp only
        rw [List.map_cons, List.map_cons, hread, ih hdict.2]
      · rw [if_neg hhit, if_neg hhit, ih hdict.2]

/-- What the socket makes of a datagram is its own affair. -/
theorem taken_sendEvents {results : List (Str × Json)} {n i : ℕ} {sending : Sending}
    (h : (sendEvents rt floats takes alert agent n results)[i]? = some sending) :
    sending.taken = takes (n + i) sending.datagram := by
  induction results generalizing n i with
  | nil => cases h
  | cons entry rest ih =>
      obtain ⟨indicator, result⟩ := entry
      cases result with
      | obj fields =>
          rw [sendEvents] at h
          split at h
          · split at h
            · cases i with
              | zero =>
                  cases h
                  rfl
              | succ i =>
                  rw [List.getElem?_cons_succ] at h
                  rw [ih h, Nat.add_right_comm, Nat.add_assoc]
            · cases h
          · exact ih h
      | _ => exact ih h

end Events

section Results

variable {rt : Runtime} {settings : Settings} {σ : Type} {backend : LookupBackend σ} {s : σ}
  {api : ApiSettings} {site : Wazuh.Site} {hookUrl apiKey : Str} {indicators : List Str}
  {payload : Str → Payload}

theorem setResult_of_not_mem {results : List (Str × Payload)} {raw : Str} {found : Payload}
    (h : raw ∉ results.map Prod.fst) :
    Api.setResult results raw found = results ++ [(raw, found)] := by
  rw [Api.setResult, if_neg]
  rw [List.any_eq_true]
  rintro ⟨entry, hentry, heq⟩
  exact h (List.mem_map.mpr ⟨entry, hentry, of_decide_eq_true heq⟩)

theorem bulkLoop_distinct (hfixed : backend.Fixed s)
    (hanswer : ∀ raw ∈ indicators, answerTo rt settings backend s raw = .ok (payload raw)) :
    ∀ s' results, backend.After s s' → (results.map Prod.fst ++ indicators).Nodup →
      ∃ s'', Api.bulkLoop rt settings backend indicators results s' =
        .ok (results ++ indicators.map fun raw => (raw, payload raw), s'') := by
  induction indicators with
  | nil => exact fun s' results _ _ => ⟨s', by rw [Api.bulkLoop, List.map_nil, List.append_nil]⟩
  | cons first rest ih =>
      rw [List.forall_mem_cons] at hanswer
      intro s' results hafter hnodup
      rcases @lookupRaw_cases rt settings _ _ _ _ hfixed hafter first with
        ⟨result, s'', hlookup, hafter, hfirst⟩ | ⟨fault, -, hfirst⟩
      · have hpayload : result.payload = payload first :=
          Except.ok.inj (hfirst.symm.trans hanswer.1)
        have hnew : first ∉ results.map Prod.fst := by
          rw [List.nodup_append] at hnodup
          exact fun hmem => hnodup.2.2 first hmem first List.mem_cons_self rfl
        obtain ⟨last, hloop⟩ := ih hanswer.2 s'' (results ++ [(first, payload first)]) hafter
          (by simpa using hnodup)
        refine ⟨last, ?_⟩
        rw [Api.bulkLoop, hlookup, ok_bind]
        dsimp only
        rw [hpayload, setResult_of_not_mem hnew, hloop, List.append_assoc]
        rfl
      · cases hfirst.symm.trans hanswer.1

theorem alertLookup_one (hinstalled : Installed rt api site hookUrl apiKey)
    (hfixed : backend.Fixed s) {raw : Str} {found : Payload} (hraw : raw ≠ [])
    (hshort : raw.length ≤ Api.maxLength)
    (hanswer : answerTo rt settings backend s raw = .ok found) :
    alertLookup rt settings backend s api site hookUrl apiKey [raw] = .ok [(raw, found.toJson)] := by
  have hfragment : '#' ∉ (("/lookup?" : Str) ++ urlencode "value" raw : Str) := by
    rw [List.mem_append, urlencode, List.mem_append, List.mem_cons]
    rintro (h | h | h | h)
    · revert h
      decide
    · exact not_mem_quotePlus rfl (by decide) (by decide) _ h
    · cases h
    · exact not_mem_quotePlus rfl (by decide) (by decide) _ h
  have hpath : partition '?' (("/lookup?" : Str) ++ urlencode "value" raw) =
      ("/lookup".toList, true, urlencode "value" raw) :=
    partition_append (by decide : '?' ∉ "/lookup".toList) _
  have htruthy := Payload.truthy_toJson (nonempty_of_answer hfixed hanswer)
  rw [alertLookup, Wazuh.lookup_one, hinstalled.site, Wazuh.Site.request_append hfragment, hpath]
  dsimp only [Option.isSome_none]
  rw [if_neg Bool.false_ne_true, if_neg Bool.false_ne_true, serve_get hinstalled hraw,
    if_pos hshort]
  rcases @lookupRaw_cases rt settings _ _ _ _ hfixed .refl raw with
    ⟨result, s', hlookup, -, hsame⟩ | ⟨fault, -, hfault⟩
  · cases hsame.symm.trans hanswer
    rw [hlookup]
    dsimp only
    rw [if_pos (by decide)]
    dsimp only
    rw [if_pos htruthy]
  · cases hfault.symm.trans hanswer

/-- What the integration has of the middleware: every indicator with its payload, in their
order. -/
theorem alertLookup_eq (hinstalled : Installed rt api site hookUrl apiKey)
    (hfixed : backend.Fixed s) (hnodup : indicators.Nodup)
    (hnonempty : ∀ raw ∈ indicators, raw ≠ []) (hmost : indicators.length ≤ Api.maxBulk)
    (hanswer : ∀ raw ∈ indicators, answerTo rt settings backend s raw = .ok (payload raw))
    (hshort : ∀ raw, indicators = [raw] → raw.length ≤ Api.maxLength) :
    alertLookup rt settings backend s api site hookUrl apiKey indicators =
      .ok (indicators.map fun raw => (raw, (payload raw).toJson)) := by
  by_cases hone : ∃ raw, indicators = [raw]
  · obtain ⟨raw, rfl⟩ := hone
    rw [List.forall_mem_singleton] at hanswer hnonempty
    exact alertLookup_one hinstalled hfixed hnonempty (hshort raw rfl) hanswer
  · have hseveral : indicators.length ≠ 1 := fun h => hone (List.length_eq_one_iff.mp h)
    have hpath : partition '?' ("/lookup/bulk" : Str) = ("/lookup/bulk".toList, false, []) := rfl
    obtain ⟨s', hloop⟩ := bulkLoop_distinct hfixed hanswer s [] .refl (by simpa using hnodup)
    rw [List.nil_append] at hloop
    rw [alertLookup, Wazuh.lookup_of_ne_one _ _ hseveral, hinstalled.site,
      Wazuh.Site.request_append (by decide : '#' ∉ "/lookup/bulk".toList), hpath]
    dsimp only [Option.isSome_some]
    rw [if_pos rfl, if_pos rfl, serve_post hinstalled hmost, hloop]
    dsimp only
    rw [if_pos (by decide)]
    change Except.ok ((indicators.map fun raw => (raw, payload raw)).map
      fun entry => (entry.1, entry.2.toJson)) = _
    rw [List.map_map]
    rfl

theorem handleAlert_eq (floats : Floats) (takes : ℕ → Str → Bool)
    (hinstalled : Installed rt api site hookUrl apiKey)
    (hfixed : backend.Fixed s) {alert agent : Json} (hagent : alert.get "agent" = .ok agent)
    (hanswer : ∀ raw ∈ extractIndicators rt alert,
      answerTo rt settings backend s raw = .ok (payload raw))
    (hshort : ∀ raw, extractIndicators rt alert = [raw] → raw.length ≤ Api.maxLength) :
    handleAlert rt floats takes (site.urlopen (Api.serve rt settings backend api s)) apiKey hookUrl
        alert =
      ⟨0, sendEvents rt floats takes alert agent 0
        ((extractIndicators rt alert).map fun raw => (raw, (payload raw).toJson))⟩ := by
  obtain ⟨hnodup, hmost, hnonempty⟩ := @extractIndicators_distinct rt alert
  have hlookup := alertLookup_eq hinstalled hfixed hnodup hnonempty (hmost.trans (by decide))
    hanswer hshort
  unfold handleAlert
  cases hindicators : extractIndicators rt alert with
  | nil => rfl
  | cons first rest =>
      rw [hindicators, alertLookup] at hlookup
      dsimp only
      rw [hlookup, hagent]

theorem nonempty_of_installed (hinstalled : Installed rt api site hookUrl apiKey) :
    apiKey ≠ [] ∧ hookUrl ≠ [] := by
  constructor
  · rintro rfl
    have hlong := api.longEnough
    rw [← hinstalled.key] at hlong
    cases hlong
  · rintro rfl
    have hbase : baseOf [] = [] := rfl
    have hhttp := site.http
    rw [← hinstalled.site, hbase] at hhttp
    cases hhttp

/-- The script sends off an event for each indicator of an alert that the middleware has found,
in the order the alert has them in, and no others. Each is read back as it was built, from
where the alert came. One that the socket does not take is dropped: the others go on, and the
script ends as ever. -/
theorem alert_events (floats : Floats) (takes : ℕ → Str → Bool)
    (hinstalled : Installed rt api site hookUrl apiKey)
    (hfixed : backend.Fixed s) {files : Str → AlertFile} {script path text : Str}
    {alert agent : Json} {depth : ℕ} (hfile : files path = .text text)
    (hload : loads floats (depth + 2) text = .ok alert) (hwell : WellFormed alert agent)
    (hanswer : ∀ raw ∈ extractIndicators rt alert,
      answerTo rt settings backend s raw = .ok (payload raw) ∧
        ((payload raw).map Prod.fst).Nodup)
    (hshort : ∀ raw, extractIndicators rt alert = [raw] → raw.length ≤ Api.maxLength) :
    ∃ source, sourceOf rt agent = .ok source ∧ ∃ event : Str → Json,
      (∀ raw, buildEvent rt alert raw (payload raw).fields = .ok (event raw) ∧
        EventReports (event raw) raw (payload raw)) ∧
      let ended := main rt floats takes (depth + 2) files
        (site.urlopen (Api.serve rt settings backend api s)) [script, path, apiKey, hookUrl]
      ended.exitCode = 0 ∧
        ended.sendings.map (fun sending => readDatagram floats (depth + 2) sending.datagram) =
          ((extractIndicators rt alert).filter fun raw =>
            (payload raw).get "found" = some "true".toList).map
              (fun raw => some (source, event raw)) ∧
        ∀ (n : ℕ) (sending : Sending), ended.sendings[n]? = some sending →
          sending.taken = takes n sending.datagram := by
  obtain ⟨source, hsource⟩ := @sourceOf_returns rt _ _ hwell
  choose event hevent using fun raw => @buildEvent_reports rt _ _ hwell raw (payload raw)
  obtain ⟨hkey, hurl⟩ := nonempty_of_installed hinstalled
  have hhandled := handleAlert_eq floats takes hinstalled hfixed hwell.hasAgent
    (fun raw hraw => (hanswer raw hraw).1) hshort
  have hmain : main rt floats takes (depth + 2) files
      (site.urlopen (Api.serve rt settings backend api s)) [script, path, apiKey, hookUrl] =
        ⟨0, sendEvents rt floats takes alert agent 0
          ((extractIndicators rt alert).map fun raw => (raw, (payload raw).toJson))⟩ := by
    unfold main
    dsimp only
    rw [if_neg (by simp [hkey, hurl]), hfile]
    dsimp only
    rw [hload]
    exact hhandled
  refine ⟨source, hsource, event, hevent, ?_⟩
  dsimp only
  rw [hmain]
  refine ⟨rfl, readDatagram_sendEvents hwell (fun raw hraw => (hanswer raw hraw).2) depth 0 hsource
    hevent, fun n sending hsending => ?_⟩
  rw [taken_sendEvents hsending, Nat.zero_add]

end Results

section Sample

def samplePayload (value : Str) : Payload :=
  [("found", if value = "8.8.8.8".toList then "false" else "true")]

def foundBackend : LookupBackend Unit := fun value _ =>
  .ok (⟨samplePayload value.value, "opencti"⟩, ())

theorem fixed_found : foundBackend.Fixed () where
  same _ _ _ := rfl
  nonempty value payload h := by
    cases h
    exact List.cons_ne_nil _ _

def sampleAgent : Json := .obj [("id", .str "001"), ("name", .str "web|1:a")]

def sampleAlert : Json :=
  .obj [("agent", sampleAgent),
    ("data", .obj [("dstip", .str "93.184.216.34"), ("destination", .obj [("ip", .str "8.8.8.8")]),
      ("eventdata", .obj [("DestinationIp", .str "1.1.1.1")])])]

theorem extract_sampleAlert : extractIndicators sampleRuntime sampleAlert =
    ["1.1.1.1".toList, "8.8.8.8".toList, "93.184.216.34".toList] := by decide

/-- Two of three addresses are found, and the socket misses the first event. -/
theorem alert_events_sample :
    ∃ source, sourceOf sampleRuntime sampleAgent = .ok source ∧ ∃ event : Str → Json,
      (∀ raw, buildEvent sampleRuntime sampleAlert raw (samplePayload raw).fields =
          .ok (event raw) ∧ EventReports (event raw) raw (samplePayload raw)) ∧
      let ended := main sampleRuntime halfOnly (fun n _ => decide (0 < n)) 3
        (fun _ => .text (dumps halfOnly sampleAlert))
        (sampleSite.urlopen (Api.serve sampleRuntime (sampleSettings 50000) foundBackend sampleApi
          ())) ["custom-opencti", "/tmp/alert", "sixteen-or-more-0",
            "http://middleware:8080/lookup/"]
      ended.exitCode = 0 ∧
        ended.sendings.map (fun sending => readDatagram halfOnly 3 sending.datagram) =
          ["1.1.1.1".toList, "93.184.216.34".toList].map (fun raw => some (source, event raw)) ∧
        ∀ (n : ℕ) (sending : Sending), ended.sendings[n]? = some sending →
          sending.taken = decide (0 < n) := by
  have hwritable : Writable halfOnly 3 sampleAlert := by
    have hkeys : ["agent".toList, "data".toList].Nodup ∧ ["id".toList, "name".toList].Nodup ∧
        ["dstip".toList, "destination".toList, "eventdata".toList].Nodup ∧
        ["ip".toList].Nodup ∧ ["DestinationIp".toList].Nodup := by decide
    unfold sampleAlert sampleAgent
    simp only [Writable, WritableFields, and_true, true_and]
    exact ⟨hkeys.1, hkeys.2.1, hkeys.2.2.1, hkeys.2.2.2⟩
  have hwell : WellFormed sampleAlert sampleAgent :=
    ⟨⟨.null, [], rfl, rfl⟩, rfl, fun _ => ⟨_, rfl⟩⟩
  have hanswer : ∀ raw ∈ extractIndicators sampleRuntime sampleAlert,
      answerTo sampleRuntime (sampleSettings 50000) foundBackend () raw =
        .ok (samplePayload raw) ∧ ((samplePayload raw).map Prod.fst).Nodup := by
    rw [extract_sampleAlert]
    simp only [List.forall_mem_cons, List.not_mem_nil, false_implies, implies_true, and_true]
    exact ⟨⟨rfl, by decide⟩, ⟨rfl, by decide⟩, rfl, by decide⟩
  have hshort : ∀ raw, extractIndicators sampleRuntime sampleAlert = [raw] →
      raw.length ≤ Api.maxLength := by
    intro raw hraw
    rw [extract_sampleAlert] at hraw
    cases hraw
  let files : Str → AlertFile := fun _ => .text (dumps halfOnly sampleAlert)
  have hfile : files "/tmp/alert".toList = .text (dumps halfOnly sampleAlert) := rfl
  have hevents := @alert_events _ _ _ _ _ _ _ _ _ samplePayload halfOnly (fun n _ => decide (0 < n))
    installed_sample fixed_found files "custom-opencti".toList "/tmp/alert".toList _ _ _ _ hfile
    (loads_dumps hwritable) hwell hanswer hshort
  rw [extract_sampleAlert] at hevents
  exact hevents

end Sample

end OpenctiLookup
