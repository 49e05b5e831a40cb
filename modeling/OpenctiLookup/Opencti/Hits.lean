import OpenctiLookup.Backends.Live

/-! What the mapper makes of a node typed by the schema, and the live backend of
an OpenCTI that answers: no access raises, and a value is found exactly when an
indicator of the observable passes the hit policy and the minimum score. -/
namespace OpenctiLookup
open Python

variable {rt : Runtime}

namespace Indicator

variable (settings : Settings) (now : ℚ) (indicator : Indicator rt)

def expired : Bool :=
  match indicator.validUntil with
  | none => false
  | some validUntil => decide (validUntil.instant ≤ now)

def passes : Bool :=
  match settings.hitPolicy with
  | .all => true
  | .liveOnly => !indicator.revoked.getD false
  | .expiryAware => !indicator.revoked.getD false || indicator.expired now

def survives : Bool :=
  indicator.passes settings now && decide (settings.minScore ≤ indicator.score.getD 0)

variable {settings now indicator}

theorem isExpired_toJson : isExpired rt indicator.toJson now = .ok (indicator.expired now) := by
  have hget : indicator.toJson.get "valid_until" =
      .ok (.ofOption (fun t => .str t.text) indicator.validUntil) := rfl
  unfold isExpired expired
  rw [hget, ok_bind]
  cases indicator.validUntil with
  | none => rfl
  | some validUntil =>
      have hparse : parseDt rt (.str validUntil.text) = some (.aware validUntil.instant) := by
        rw [parseDt, if_neg (by simpa using validUntil.nonempty), validUntil.parses]
      simp only [Json.ofOption, Option.elim, hparse]
      rfl

theorem passesPolicy_toJson :
    passesPolicy rt indicator.toJson settings.hitPolicy now =
      .ok (indicator.passes settings now) := by
  have hget : indicator.toJson.get "revoked" = .ok (.ofOption .bool indicator.revoked) := rfl
  have hrevoked : (Json.ofOption Json.bool indicator.revoked).truthy =
    indicator.revoked.getD false := by
    cases indicator.revoked <;> rfl
  unfold passesPolicy passes
  rw [hget, ok_bind]
  dsimp only
  rw [hrevoked]
  cases settings.hitPolicy with
  | all => rfl
  | liveOnly => rfl
  | expiryAware =>
      dsimp only
      rw [isExpired_toJson]
      cases indicator.revoked.getD false <;> rfl

theorem scoreOf_toJson : scoreOf rt indicator.toJson = .ok (indicator.score.getD 0) := by
  have hget : indicator.toJson.get "x_opencti_score" = .ok (.ofOption .int indicator.score) := rfl
  unfold scoreOf
  rw [hget, ok_bind]
  cases indicator.score with
  | none => rfl
  | some score =>
      by_cases hzero : score = 0
      · subst hzero
        rfl
      · simp [Json.ofOption, Json.orElse, Json.truthy, hzero, Runtime.intOf]

theorem survives_toJson :
    OpenctiLookup.survives rt settings now indicator.toJson =
      .ok (indicator.survives settings now) := by
  unfold OpenctiLookup.survives survives
  rw [passesPolicy_toJson, ok_bind, scoreOf_toJson]
  cases indicator.passes settings now <;> rfl

theorem rank_toJson : Returns (rank rt now indicator.toJson) fun _ => True := by
  unfold rank
  rw [isExpired_toJson, scoreOf_toJson]
  exact ⟨_, rfl, trivial⟩

end Indicator

section Texts

def Readable (key : Str) (items : List Json) : Prop :=
  ∀ item ∈ items, Returns ((item.orElse (.obj [])).get key) fun _ => True

theorem readable_ofTexts (key : Str) (texts : List Str) :
    Returns (((Json.ofTexts key texts).orElse (.arr [])).iter) (Readable key) := by
  unfold Json.ofTexts
  rw [Json.iter_orElse_arr]
  refine .ok fun item hitem => ?_
  obtain ⟨text, -, rfl⟩ := List.mem_map.mp hitem
  exact ⟨_, rfl, trivial⟩

theorem addLabels_returns {labels : List Json} (h : Readable "value" labels) (seen : List Str) :
    Returns (addLabels rt labels seen) fun _ => True := by
  induction labels generalizing seen with
  | nil => exact .ok trivial
  | cons label labels ih =>
      unfold addLabels
      refine (h label List.mem_cons_self).bind fun value _ => ?_
      extract_lets text union
      by_cases hfull : maxLabels ≤ union.length
      · rw [if_pos hfull]
        exact .ok trivial
      · rw [if_neg hfull]
        exact ih (fun item hitem => h item (List.mem_cons_of_mem _ hitem)) union

theorem firstDefinition_returns {markings : List Json} (h : Readable "definition" markings) :
    Returns (firstDefinition rt markings) fun _ => True := by
  induction markings with
  | nil => exact .ok trivial
  | cons marking markings ih =>
      unfold firstDefinition
      refine (h marking List.mem_cons_self).bind fun definition _ => ?_
      split
      · exact .ok trivial
      · exact ih fun item hitem => h item (List.mem_cons_of_mem _ hitem)

end Texts

namespace Indicator

variable {now : ℚ}

theorem labelsFrom_toJson {jsons : List Json}
    (h : ∀ json ∈ jsons, ∃ indicator : Indicator rt, json = indicator.toJson) (seen : List Str) :
    Returns (labelsFrom rt jsons seen) fun _ => True := by
  induction jsons generalizing seen with
  | nil => exact .ok trivial
  | cons json jsons ih =>
      obtain ⟨indicator, rfl⟩ := h json List.mem_cons_self
      have hmore := ih fun json hjson => h json (List.mem_cons_of_mem _ hjson)
      have hget : indicator.toJson.get "objectLabel" =
        .ok (.ofTexts "value" indicator.labels) := rfl
      rw [labelsFrom, hget, ok_bind]
      refine (readable_ofTexts _ _).bind fun labels hlabels => ?_
      refine (addLabels_returns hlabels seen).bind fun union _ => ?_
      by_cases hfull : union.2 = true
      · simp only [hfull, if_true]
        exact .ok trivial
      · simp only [hfull]
        exact hmore union.1

theorem phaseNames_toJson (indicator : Indicator rt) :
    Returns (phaseNames rt indicator.toJson) fun _ => True := by
  have hget : indicator.toJson.get "killChainPhases" =
    .ok (.ofTexts "phase_name" indicator.phases) := rfl
  unfold phaseNames
  rw [hget, ok_bind, Json.ofTexts, Json.iter_orElse_arr, ok_bind]
  have hread : ∀ phase ∈ indicator.phases.map fun text => Json.obj [("phase_name", .str text)],
      ∃ name, phase.get "phase_name" = .ok name := by
    intro phase hphase
    obtain ⟨text, -, rfl⟩ := List.mem_map.mp hphase
    exact ⟨_, rfl⟩
  refine (filterPy_returns fun phase hphase => ?_).bind fun named hnamed => ?_
  · obtain ⟨name, hname⟩ := hread phase hphase
    rw [hname, ok_bind]
    exact .ok trivial
  · refine (@mapPy_returns _ _ _ (fun _ _ => True) _ fun phase hphase => ?_).mono fun _ _ => trivial
    obtain ⟨name, hname⟩ := hread phase (hnamed hphase)
    rw [hname, ok_bind]
    exact .ok trivial

end Indicator

namespace Observable

variable (settings : Settings) (now : ℚ) (observable : Observable rt)

/-- An indicator of the observable counts as a hit. -/
def Hits : Prop := ∃ indicator ∈ observable.indicators, indicator.survives settings now = true

variable {settings now observable}

theorem candidates_toJson :
    candidates observable.toJson = .ok (observable.indicators.map Indicator.toJson) := by
  have hget : observable.toJson.get "indicators" = .ok (.obj [("edges",
      .arr (observable.indicators.map fun indicator => .obj [("node", indicator.toJson)]))]) := rfl
  have hedges : ∀ edges : List Json,
      ((Json.obj [("edges", .arr edges)]).orElse (.obj [])).getD "edges" (.arr []) =
        .ok (.arr edges) :=
    fun _ => rfl
  have hkept : filterPy (fun indicator : Indicator rt => do
      pure (← (Json.obj [("node", indicator.toJson)]).get "node").truthy) observable.indicators =
        .ok observable.indicators :=
    (@filterPy_ok _ _ (fun _ => true) _ fun _ _ => rfl).trans (congrArg _ (List.filter_true _))
  unfold candidates
  rw [hget, ok_bind]
  dsimp only
  rw [hedges, ok_bind, Json.iter_arr, ok_bind, filterPy_map, hkept]
  exact (mapPy_map _ _ _).trans (mapPy_ok fun _ _ => rfl)

theorem selectIndicators_toJson :
    Returns (selectIndicators rt settings now observable.toJson) fun selected =>
      selected.Perm ((observable.indicators.filter fun indicator =>
        indicator.survives settings now).map Indicator.toJson) := by
  unfold selectIndicators
  rw [candidates_toJson, ok_bind, filterPy_map, filterPy_ok fun _ _ => Indicator.survives_toJson]
  refine .bind (.ok rfl) fun survivors hsurvivors => ?_
  subst hsurvivors
  refine (@mapPy_returns _ _ _ (fun indicator keyed => keyed.2 = indicator) _ ?_).bind
    fun keyed hkeyed => ?_
  · intro json hjson
    obtain ⟨indicator, -, rfl⟩ := List.mem_map.mp hjson
    exact Indicator.rank_toJson.bind fun rank _ => .ok rfl
  · have hsnd : keyed.map Prod.snd = (observable.indicators.filter fun indicator =>
        indicator.survives settings now).map Indicator.toJson := by
      rw [← List.forall₂_eq_eq_eq, List.forall₂_map_left_iff]
      exact hkeyed.flip
    rw [← hsnd]
    exact .ok ((List.perm_insertionSort _ keyed).map Prod.snd)

theorem marking_toJson (indicator : Indicator rt) :
    Returns (marking rt observable.toJson indicator.toJson) fun _ => True := by
  have hprimary : indicator.toJson.get "objectMarking" =
    .ok (.ofTexts "definition" indicator.markings) :=
    rfl
  have hnode : observable.toJson.get "objectMarking" =
    .ok (.ofTexts "definition" observable.markings) :=
    rfl
  unfold marking
  rw [hprimary, ok_bind, hnode, ok_bind]
  refine (readable_ofTexts _ _).bind fun markings hmarkings => ?_
  refine (firstDefinition_returns hmarkings).bind fun definition _ => ?_
  cases definition with
  | some definition => exact .ok trivial
  | none =>
      refine (readable_ofTexts _ _).bind fun markings hmarkings => ?_
      exact firstDefinition_returns hmarkings

theorem payloadOf_toJson (indicator : Indicator rt) {survivors : List Json}
    (hsurvivors : ∀ json ∈ survivors, ∃ indicator : Indicator rt, json = indicator.toJson)
    (value kind matchType : Str) :
    Returns (payloadOf rt settings now observable.toJson indicator.toJson survivors
      value (.str kind)
      matchType) fun payload => payload.get "found" = some "true".toList := by
  have hcreatedBy : Returns (((Json.ofOption (fun name => .obj [("name", .str name)])
      indicator.createdBy).orElse (.obj [])).get "name") fun _ => True := by
    cases indicator.createdBy <;> exact ⟨_, rfl, trivial⟩
  have hget : indicator.toJson.get "createdBy" =
    .ok (.ofOption (fun name => .obj [("name", .str name)]) indicator.createdBy) := rfl
  have hlabels : Returns (labelsFrom rt survivors []) fun _ => True :=
    Indicator.labelsFrom_toJson hsurvivors []
  unfold payloadOf
  rw [Indicator.isExpired_toJson, ok_bind]
  extract_lets text
  have htext : ∀ (fields : List (Str × Json)) (key : Str) (limit : ℕ),
      Returns (text (.obj fields) key limit) fun _ => True := fun _ _ _ => ⟨_, rfl, trivial⟩
  refine (htext _ _ _).bind fun score _ => (htext _ _ _).bind fun confidence _ => ?_
  refine (htext _ _ _).bind fun detection _ => (htext _ _ _).bind fun revoked _ => ?_
  refine (htext _ _ _).bind fun validFrom _ => (htext _ _ _).bind fun validUntil _ => ?_
  refine (htext _ _ _).bind fun name _ => (htext _ _ _).bind fun patternType _ => ?_
  refine (htext _ _ _).bind fun description _ => (marking_toJson indicator).bind fun marking _ => ?_
  refine (htext _ _ _).bind fun observableScore _ => ?_
  rw [hget, ok_bind]
  refine hcreatedBy.bind fun createdBy _ => indicator.phaseNames_toJson.bind fun phases _ => ?_
  exact hlabels.bind fun labels _ => ⟨_, rfl, rfl⟩

end Observable

/-- The payload says that the value was found. -/
def Payload.Found (payload : Payload) : Prop := payload.get "found" = some "true".toList

theorem found_fallback {payload : Payload} (value host : Str) :
    ((payload.set "value" value).set "matched_value" host).Found ↔ payload.Found := by
  unfold Payload.Found
  rw [Payload.get_set_ne _ (by decide), Payload.get_set_ne _ (by decide)]

def Reports (hit : Prop) (reply : Option Payload) : Prop :=
  reply.elim (¬hit) fun payload => hit ∧ payload.Found

section Answers

variable {settings : Settings} {now : ℚ}

theorem buildPayload_toJson (observable : Observable rt) (value kind matchType : Str) :
    Returns (buildPayload rt settings now observable.toJson value (.str kind) matchType)
      (Reports (observable.Hits settings now)) := by
  unfold buildPayload
  refine Observable.selectIndicators_toJson.bind fun survivors hsurvivors => ?_
  have hmem : ∀ json, json ∈ survivors ↔ ∃ indicator ∈ observable.indicators,
      indicator.survives settings now = true ∧ indicator.toJson = json := fun json => by
    rw [hsurvivors.mem_iff]
    simp [and_assoc]
  cases survivors with
  | nil =>
      refine .ok fun ⟨indicator, hindicator, hsurvives⟩ => ?_
      exact absurd ((hmem _).mpr ⟨indicator, hindicator, hsurvives, rfl⟩) List.not_mem_nil
  | cons primary rest =>
      obtain ⟨indicator, hindicator, hsurvives, rfl⟩ := (hmem primary).mp List.mem_cons_self
      refine (Observable.payloadOf_toJson indicator
        (fun json hjson => ?_) value kind matchType).bind
        fun payload hpayload => .ok ⟨⟨indicator, hindicator, hsurvives⟩, hpayload⟩
      obtain ⟨other, -, -, hother⟩ := (hmem json).mp hjson
      exact ⟨other, hother.symm⟩

variable (settings now) in
/-- The observable OpenCTI returns for a request counts as a hit. -/
def Upstream.Finds (upstream : Upstream rt) (request : LookupRequest) : Prop :=
  ∃ observable, upstream.pick request = some observable ∧ observable.Hits settings now

def Upstream.client (upstream : Upstream rt) : Client := fun request =>
    .ok (upstream.answer request)

theorem readReply_observable (observable : Observable rt) (value : Str) (kind : IndicatorType)
    (matchType : Str) :
    LiveBackend.readReply rt settings now
      (.obj [("stixCyberObservables", .obj [("edges",
        .arr [.obj [("node", observable.toJson)]])])]) value kind matchType =
      buildPayload rt settings now observable.toJson value (.str observable.entityType.text)
        matchType := by
  have hkind : ∀ entityType : EntityType,
      (Json.str entityType.text).orElse (.str kind.value) = .str entityType.text := by
    intro entityType
    cases entityType <;> rfl
  have hget : observable.toJson.get "entity_type" =
    .ok (.str observable.entityType.text) := rfl
  change (observable.toJson.get "entity_type" >>= fun entityType =>
    buildPayload rt settings now
    observable.toJson value (entityType.orElse (.str kind.value)) matchType) = _
  rw [hget, ok_bind, hkind]

theorem readReply_answer (upstream : Upstream rt) (request : LookupRequest) (value : Str)
    (kind : IndicatorType) (matchType : Str) :
    Returns (LiveBackend.readReply rt settings now (upstream.answer request) value kind matchType)
      (Reports (upstream.Finds settings now request)) := by
  unfold Upstream.answer Upstream.Finds
  cases hpick : upstream.pick request with
  | none => exact ⟨none, rfl, fun ⟨_, h, _⟩ => by cases h⟩
  | some observable =>
      refine readReply_observable observable value kind matchType ▸
        (buildPayload_toJson observable value _ matchType).mono fun reply hreport => ?_
      simpa using hreport

theorem query_upstream (upstream : Upstream rt) (value : Str) (kind : IndicatorType)
    (matchType : Str) :
    Returns (LiveBackend.query rt settings upstream.client now value kind matchType)
      (Reports (upstream.Finds settings now (LiveBackend.request settings value kind))) :=
  readReply_answer upstream (LiveBackend.request settings value kind) value kind matchType

variable (settings now) in
/-- The slow path has a hit: at the value itself, or at the hostname of a URL. -/
def Upstream.FindsValue (upstream : Upstream rt) (value : Normalized) : Prop :=
  upstream.Finds settings now (LiveBackend.request settings value.value value.type) ∨
    ∃ host, LiveBackend.fallbackHost rt settings value = some host ∧
      upstream.Finds settings now (LiveBackend.request settings host .domain)

theorem not_found_miss : ¬ Payload.Found miss := by
  unfold Payload.Found miss
  decide

def Settles (hit : Prop) (payload : Payload) : Prop :=
  hit ∧ payload.Found ∨ ¬hit ∧ payload = miss

theorem Settles.found_iff {hit : Prop} {payload : Payload} (h : Settles hit payload) :
    payload.Found ↔ hit := by
  rcases h with ⟨hhit, hfound⟩ | ⟨hhit, rfl⟩
  · exact iff_of_true hfound hhit
  · exact iff_of_false not_found_miss hhit

theorem Settles.eq_miss_iff {hit : Prop} {payload : Payload} (h : Settles hit payload) :
    payload = miss ↔ ¬hit := by
  rw [← h.found_iff]
  rcases h with ⟨-, hfound⟩ | ⟨-, rfl⟩
  · exact iff_of_false (fun heq => not_found_miss (heq ▸ hfound)) (not_not.mpr hfound)
  · exact iff_of_true rfl not_found_miss

theorem fetch_upstream (upstream : Upstream rt) (value : Normalized) :
    Returns (LiveBackend.fetch rt settings upstream.client now value)
      (Settles (upstream.FindsValue settings now value)) := by
  unfold LiveBackend.fetch
  refine (query_upstream upstream _ _ _).bind fun exact hexact => ?_
  cases exact with
  | some payload => exact .ok (.inl ⟨.inl hexact.1, hexact.2⟩)
  | none =>
      dsimp only
      cases hhost : LiveBackend.fallbackHost rt settings value with
      | none =>
          refine .ok (.inr ⟨?_, rfl⟩)
          rintro (hfinds | ⟨host, hsome, -⟩)
          · exact hexact hfinds
          · rw [hhost] at hsome
            cases hsome
      | some host =>
          refine (query_upstream upstream _ _ _).bind fun fallback hfallback => ?_
          cases fallback with
          | some payload =>
              exact .ok (.inl ⟨.inr ⟨host, hhost, hfallback.1⟩,
                (found_fallback _ _).mpr hfallback.2⟩)
          | none =>
              refine .ok (.inr ⟨?_, rfl⟩)
              rintro (hfinds | ⟨other, hsome, hfinds⟩)
              · exact hexact hfinds
              · cases hhost.symm.trans hsome
                exact hfallback hfinds

theorem lookup_upstream (upstream : Upstream rt) {backend : LiveBackend}
    (hcache : backend.cache.data = []) {value : Normalized} (hlookupable : value.lookupable = true)
    (mono : ℚ) :
    (LiveBackend.lookup rt settings upstream.client now mono backend value).map (·.1.payload) =
      LiveBackend.fetch rt settings upstream.client now value := by
  obtain ⟨payload, hfetch, -⟩ := @fetch_upstream rt settings now upstream value
  have hget : ∀ key, backend.cache.get key mono = (none, backend.cache) := by
    intro key
    unfold PayloadCache.get PayloadCache.entry
    rw [hcache]
    rfl
  unfold LiveBackend.lookup
  rw [if_neg (by simp [hlookupable]), hfetch]
  simp only [hget]
  rfl

end Answers

end OpenctiLookup
