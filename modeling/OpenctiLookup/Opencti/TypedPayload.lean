import OpenctiLookup.Opencti.Hits

/-! The payload of a node typed by the schema, field by field. -/
namespace OpenctiLookup
open Python

variable {rt : Runtime}

namespace Indicator

variable (now : ℚ) (indicator : Indicator rt)

def rankOf : Rank :=
  ⟨indicator.expired now, -indicator.score.getD 0, indicator.validUntil.elim [] Timestamp.text⟩

theorem rank_eq : rank rt now indicator.toJson = .ok (indicator.rankOf now) := by
  have hget : indicator.toJson.get "valid_until" =
      .ok (.ofOption (fun t => .str t.text) indicator.validUntil) := rfl
  have htext : rt.strOf ((Json.ofOption (fun t : Timestamp rt => .str t.text)
      indicator.validUntil).orElse (.str [])) = indicator.validUntil.elim [] Timestamp.text := by
    cases indicator.validUntil with
    | none => rfl
    | some validUntil =>
        have hnonempty : validUntil.text.isEmpty = false := by simpa using validUntil.nonempty
        simp [Json.ofOption, Json.orElse, Json.truthy, hnonempty, Runtime.strOf]
  unfold rank rankOf
  rw [isExpired_toJson, ok_bind, scoreOf_toJson, ok_bind, hget, ok_bind]
  dsimp only
  rw [htext]
  rfl

end Indicator

section Texts

def addLabel (label : Str) (seen : List Str) : List Str :=
  if !label.isEmpty && !seen.contains ((strip label).take maxLabelLen) then
    seen ++ [(strip label).take maxLabelLen]
  else seen

def labelUnion : List Str → List Str → List Str
  | [], seen => seen
  | label :: rest, seen =>
      if maxLabels ≤ (addLabel label seen).length then addLabel label seen
      else labelUnion rest (addLabel label seen)

def firstMarking (markings : List Str) : Option Str :=
  (markings.find? fun marking => !marking.isEmpty).map (List.take maxLabelLen)

theorem addLabels_texts (labels seen : List Str) (hroom : seen.length < maxLabels) :
    addLabels rt (labels.map fun label => .obj [("value", .str label)]) seen =
      .ok (labelUnion labels seen, decide (maxLabels ≤ (labelUnion labels seen).length)) := by
  induction labels generalizing seen with
  | nil => rw [List.map_nil, addLabels, labelUnion, decide_eq_false (Nat.not_le.mpr hroom)]
  | cons label labels ih =>
      have hstep : ∀ rest : List Json, addLabels rt (.obj [("value", .str label)] :: rest) seen =
          if maxLabels ≤ (addLabel label seen).length then .ok (addLabel label seen, true)
          else addLabels rt rest (addLabel label seen) := fun _ => rfl
      rw [List.map_cons, hstep, labelUnion]
      by_cases hfull : maxLabels ≤ (addLabel label seen).length
      · rw [if_pos hfull, if_pos hfull, decide_eq_true hfull]
      · rw [if_neg hfull, if_neg hfull]
        exact ih _ (Nat.lt_of_not_le hfull)

theorem labelUnion_append (labels more seen : List Str) (hroom : seen.length < maxLabels) :
    labelUnion (labels ++ more) seen =
      if maxLabels ≤ (labelUnion labels seen).length then labelUnion labels seen
      else labelUnion more (labelUnion labels seen) := by
  induction labels generalizing seen with
  | nil => rw [List.nil_append, labelUnion, if_neg (Nat.not_le.mpr hroom)]
  | cons label labels ih =>
      rw [List.cons_append, labelUnion, labelUnion]
      by_cases hfull : maxLabels ≤ (addLabel label seen).length
      · rw [if_pos hfull, if_pos hfull, if_pos hfull]
      · rw [if_neg hfull, if_neg hfull]
        exact ih _ (Nat.lt_of_not_le hfull)

theorem labelsFrom_eq (survivors : List (Indicator rt)) (seen : List Str)
    (hroom : seen.length < maxLabels) :
    labelsFrom rt (survivors.map Indicator.toJson) seen =
      .ok (labelUnion (survivors.flatMap Indicator.labels) seen) := by
  induction survivors generalizing seen with
  | nil => rfl
  | cons indicator survivors ih =>
      have hget : indicator.toJson.get "objectLabel" =
        .ok (.ofTexts "value" indicator.labels) := rfl
      rw [List.map_cons, labelsFrom, hget, ok_bind, Json.ofTexts, Json.iter_orElse_arr, ok_bind,
        addLabels_texts _ _ hroom, ok_bind, List.flatMap_cons, labelUnion_append _ _ _ hroom]
      dsimp only
      by_cases hfull : maxLabels ≤ (labelUnion indicator.labels seen).length
      · rw [if_pos hfull, decide_eq_true hfull]
        rfl
      · rw [if_neg hfull, decide_eq_false hfull]
        exact ih _ (Nat.lt_of_not_le hfull)

theorem firstDefinition_texts (markings : List Str) :
    firstDefinition rt (markings.map fun marking => .obj [("definition", .str marking)]) =
      .ok (firstMarking markings) := by
  induction markings with
  | nil => rfl
  | cons marking markings ih =>
      have hget : ((Json.obj [("definition", .str marking)]).orElse (.obj [])).get "definition" =
        .ok (.str marking) := rfl
      rw [List.map_cons, firstDefinition, hget, ok_bind]
      dsimp only [Json.truthy, Runtime.strOf]
      cases marking with
      | nil => exact ih
      | cons c rest => rfl

end Texts

namespace Observable

variable (settings : Settings) (now : ℚ) (observable : Observable rt)

def ranked : List (Indicator rt) :=
  (observable.indicators.filter fun indicator => indicator.survives settings now).insertionSort
    fun a b => (a.rankOf now).le (b.rankOf now) = true

theorem selectIndicators_eq :
    selectIndicators rt settings now observable.toJson =
      .ok ((observable.ranked settings now).map Indicator.toJson) := by
  unfold selectIndicators
  rw [candidates_toJson, ok_bind, filterPy_map, filterPy_ok fun _ _ => Indicator.survives_toJson]
  have hkeyed : mapPy (fun json => do pure (← rank rt now json, json))
      ((observable.indicators.filter fun indicator => indicator.survives settings now).map
        Indicator.toJson) =
      .ok ((observable.indicators.filter fun indicator => indicator.survives settings now).map
        fun indicator => (indicator.rankOf now, indicator.toJson)) := by
    rw [mapPy_map]
    refine mapPy_ok fun indicator _ => ?_
    rw [indicator.rank_eq, ok_bind]
    rfl
  refine bind_eq_ok_iff.mpr ⟨_, rfl, bind_eq_ok_iff.mpr ⟨_, hkeyed, ?_⟩⟩
  have hsorted := List.map_insertionSort
    (fun a b : Indicator rt => (a.rankOf now).le (b.rankOf now) = true)
    (fun a b : Rank × Json => a.1.le b.1 = true)
    (fun indicator : Indicator rt => (indicator.rankOf now, indicator.toJson))
    (observable.indicators.filter fun indicator => indicator.survives settings now)
    fun _ _ _ _ => Iff.rfl
  rw [sortByRank, ← hsorted, List.map_map]
  rfl

variable (primary : Indicator rt) (asked shown matchType : Str)

/-- The fields of the payload for the best of the surviving indicators, in their
order. `asked` is the value OpenCTI was asked for, `shown` the one looked up. -/
def fields : List (Str × Option Str) :=
  [("found", some "true"), ("value", some shown), ("type", some observable.entityType.text),
    ("match_type", some matchType),
    ("score", boundedText rt (.ofOption .int primary.score) maxTextLen),
    ("confidence", boundedText rt (.ofOption .int primary.confidence) maxTextLen),
    ("detection", some (boolText (primary.detection.getD false))),
    ("expired", some (boolText (primary.expired now))),
    ("revoked", some (boolText (primary.revoked.getD false))),
    ("valid_from", boundedText rt (.ofOption (fun t => .str t.text) primary.validFrom) maxTextLen),
    ("valid_until",
      boundedText rt (.ofOption (fun t => .str t.text) primary.validUntil) maxTextLen),
    ("indicator_name", boundedText rt (.ofOption .str primary.name) maxNameLen),
    ("indicator_count", some (decimal (observable.ranked settings now).length)),
    ("pattern_type", boundedText rt (.ofOption .str primary.patternType) 32),
    ("description", boundedText rt (.ofOption .str primary.description) maxTextLen),
    ("marking", (firstMarking primary.markings).or (firstMarking observable.markings)),
    ("observable_score", boundedText rt (.ofOption .int observable.score) maxTextLen),
    ("created_by", boundedText rt (.ofOption .str primary.createdBy) maxNameLen),
    ("kill_chain", joined (((primary.phases.filter fun phase => !phase.isEmpty).map
      (List.take maxLabelLen)).take maxLabels)),
    ("labels", joined (labelUnion ((observable.ranked settings now).flatMap Indicator.labels) [])),
    ("virustotal_url", virustotalUrl observable.entityType.text asked),
    ("opencti_url", if primary.id.isEmpty then none
      else some (settings.openctiUrl ++ "/dashboard/observations/indicators/" ++ primary.id))]

def payloadKeys : List Str :=
  ["found", "value", "type", "match_type", "score", "confidence", "detection", "expired", "revoked",
    "valid_from", "valid_until", "indicator_name", "indicator_count", "pattern_type",
    "description", "marking", "observable_score", "created_by", "kill_chain", "labels",
    "virustotal_url", "opencti_url"]

def fieldsAs (kind : Str) : List (Str × Option Str) :=
  (observable.fields settings now primary asked shown matchType).map fun entry =>
    if entry.1 = "type".toList then (entry.1, some kind)
    else if entry.1 = "virustotal_url".toList then (entry.1, virustotalUrl kind asked)
    else entry

def present (fields : List (Str × Option Str)) : Payload :=
  fields.filterMap fun entry => entry.2.map fun text => (entry.1, text)

theorem marking_eq : marking rt observable.toJson primary.toJson =
    .ok ((firstMarking primary.markings).or (firstMarking observable.markings)) := by
  have hprimary : primary.toJson.get "objectMarking" =
    .ok (.ofTexts "definition" primary.markings) := rfl
  have hnode : observable.toJson.get "objectMarking" =
    .ok (.ofTexts "definition" observable.markings) := rfl
  unfold marking
  rw [hprimary, ok_bind, hnode, Json.ofTexts, Json.iter_orElse_arr, ok_bind, firstDefinition_texts,
    ok_bind]
  cases firstMarking primary.markings with
  | some definition => rfl
  | none =>
      dsimp only
      rw [ok_bind, Json.ofTexts, Json.iter_orElse_arr, ok_bind, firstDefinition_texts]
      rfl

theorem phaseNames_eq : phaseNames rt primary.toJson =
    .ok ((primary.phases.filter fun phase => !phase.isEmpty).map (List.take maxLabelLen)) := by
  have hget : primary.toJson.get "killChainPhases" =
    .ok (.ofTexts "phase_name" primary.phases) := rfl
  have hkept : filterPy (fun phase : Str => do
      pure (← (Json.obj [("phase_name", .str phase)]).get "phase_name").truthy) primary.phases =
        .ok (primary.phases.filter fun phase => !phase.isEmpty) := filterPy_ok fun _ _ => rfl
  unfold phaseNames
  rw [hget, ok_bind, Json.ofTexts, Json.iter_orElse_arr, ok_bind, filterPy_map, hkept]
  exact (mapPy_map _ _ _).trans (mapPy_ok fun _ _ => rfl)

theorem payloadOf_kind (kind : Str) : payloadOf rt settings now observable.toJson primary.toJson
      ((observable.ranked settings now).map Indicator.toJson) asked (.str kind) matchType =
    .ok (present (observable.fieldsAs settings now primary asked asked matchType kind)) := by
  have hdetection : (boundedText rt (.ofOption .bool primary.detection) maxTextLen).getD "false" =
      boolText (primary.detection.getD false) := by
    cases primary.detection <;> rfl
  have hrevoked : (boundedText rt (.ofOption .bool primary.revoked) maxTextLen).getD "false" =
      boolText (primary.revoked.getD false) := by
    cases primary.revoked <;> rfl
  have hcreatedBy : ((Json.ofOption (fun name => .obj [("name", .str name)])
      primary.createdBy).orElse (.obj [])).get "name" = .ok (.ofOption .str primary.createdBy) := by
    cases primary.createdBy <;> rfl
  have hget : primary.toJson.get "createdBy" =
    .ok (.ofOption (fun name => .obj [("name", .str name)]) primary.createdBy) := rfl
  have hurl : (if (Json.str primary.id).truthy = true then
      some (settings.openctiUrl ++ "/dashboard/observations/indicators/" ++
        rt.strOf (.str primary.id)) else none) =
      if primary.id.isEmpty then none
      else some (settings.openctiUrl ++ "/dashboard/observations/indicators/" ++ primary.id) := by
    cases primary.id <;> rfl
  unfold payloadOf
  rw [Indicator.isExpired_toJson, ok_bind]
  extract_lets text
  have hprimary : ∀ {key : Str} {value : Json} (limit : ℕ), primary.toJson.get key = .ok value →
      text primary.toJson key limit = .ok (boundedText rt value limit) := by
    intro key value limit hvalue
    exact bind_eq_ok_iff.mpr ⟨value, hvalue, rfl⟩
  have hscore := @hprimary "x_opencti_score" (.ofOption .int primary.score) maxTextLen rfl
  have hconfidence := @hprimary "confidence" (.ofOption .int primary.confidence) maxTextLen rfl
  have hdetects :=
    @hprimary "x_opencti_detection" (.ofOption .bool primary.detection) maxTextLen rfl
  have hrevokes := @hprimary "revoked" (.ofOption .bool primary.revoked) maxTextLen rfl
  have hvalidFrom := @hprimary "valid_from"
    (.ofOption (fun t => .str t.text) primary.validFrom) maxTextLen rfl
  have hvalidUntil := @hprimary "valid_until"
    (.ofOption (fun t => .str t.text) primary.validUntil) maxTextLen rfl
  have hname := @hprimary "name" (.ofOption .str primary.name) maxNameLen rfl
  have hpattern := @hprimary "pattern_type" (.ofOption .str primary.patternType) 32 rfl
  have hdescription := @hprimary "description" (.ofOption .str primary.description) maxTextLen rfl
  have hobservable : text observable.toJson "x_opencti_score" maxTextLen =
      .ok (boundedText rt (.ofOption .int observable.score) maxTextLen) := rfl
  have hroom : ([] : List Str).length < maxLabels := by decide
  rw [hscore, ok_bind, hconfidence, ok_bind, hdetects, ok_bind, hrevokes, ok_bind, hvalidFrom,
    ok_bind, hvalidUntil, ok_bind, hname, ok_bind, hpattern, ok_bind, hdescription, ok_bind,
    marking_eq, ok_bind, hobservable, ok_bind, hget, ok_bind, hcreatedBy, ok_bind, phaseNames_eq,
    ok_bind, labelsFrom_eq _ _ hroom, ok_bind]
  have hkind : ∀ f : Str → Py Payload,
      (do let kind ← (pure kind : Py Str); f kind) = f kind := fun _ => rfl
  have hid : primary.toJson.get "id" = .ok (.str primary.id) := rfl
  dsimp only
  rw [hkind, hid, ok_bind, hurl, hdetection, hrevoked, List.length_map]
  rfl

theorem buildPayload_kind (kind : Str) :
    buildPayload rt settings now observable.toJson asked (.str kind) matchType =
      .ok ((observable.ranked settings now).head?.map fun primary =>
        present (observable.fieldsAs settings now primary asked asked matchType kind)) := by
  unfold buildPayload
  rw [selectIndicators_eq, ok_bind]
  cases hranked : observable.ranked settings now with
  | nil => rfl
  | cons primary rest =>
      have hpayload := observable.payloadOf_kind settings now primary asked matchType kind
      rw [hranked] at hpayload
      rw [List.map_cons] at hpayload ⊢
      dsimp only
      rw [hpayload]
      rfl

end Observable

section Set

variable {payload before after : Payload} {key : Str}

theorem mem_keys_of_mem_present {fields : List (Str × Option Str)} {e : Str × Str}
    (h : e ∈ Observable.present fields) : e.1 ∈ fields.map Prod.fst := by
  obtain ⟨field, hfield, hsome⟩ := List.mem_filterMap.mp h
  obtain ⟨text, -, rfl⟩ := Option.map_eq_some_iff.mp hsome
  exact List.mem_map_of_mem hfield

end Set

section Fetch

variable {settings : Settings} {now : ℚ}

variable (settings now) in
/-- The observable OpenCTI returns for a request, with its best indicator, if one
survives. -/
def Upstream.hit (upstream : Upstream rt) (request : LookupRequest) :
    Option (Observable rt × Indicator rt) :=
  (upstream.pick request).bind fun observable =>
    (observable.ranked settings now).head?.map fun primary => (observable, primary)

variable (settings now) in
/-- What a fetch comes to: the payload of the value, of its fallback host, or the miss. -/
def Upstream.fetched (upstream : Upstream rt) (value : Normalized) : Payload :=
  match upstream.hit settings now (LiveBackend.request settings value.value value.type) with
  | some hit =>
      Observable.present (hit.1.fields settings now hit.2 value.value value.value "exact")
  | none =>
      match LiveBackend.fallbackHost rt settings value with
      | none => miss
      | some host =>
          match upstream.hit settings now (LiveBackend.request settings host .domain) with
          | some hit =>
              Observable.present (hit.1.fields settings now hit.2 host value.value "hostname") ++
                [("matched_value".toList, host)]
          | none => miss

end Fetch

end OpenctiLookup
