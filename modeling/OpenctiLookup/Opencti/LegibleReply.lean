import OpenctiLookup.Opencti.Hits

/-! Which replies the mapper can read. A reply is any JSON value, and each access,
conversion and comparison on the way to a payload asks something of it. -/
namespace OpenctiLookup
open Python

namespace Python.Json

def indicatorEdges (node : Json) : Json := (node.member "indicators").memberD "edges" (.arr [])

def indicators (node : Json) : List Json :=
  (node.indicatorEdges.elements.filter fun edge => (edge.member "node").truthy).map
    fun edge => edge.member "node"

def lookupEdges (data : Json) : Json := (data.member "stixCyberObservables").member "edges"

def lookupNode (data : Json) : Json :=
  match data.lookupEdges with
  | .arr (first :: _) => (first.member "node").orElse (.obj [])
  | _ => .obj []

theorem lookupNode_of_falsy {data : Json} (hfalsy : data.lookupEdges.truthy = false) :
    data.lookupNode = .obj [] := by
  unfold lookupNode
  cases hedges : data.lookupEdges with
  | arr items =>
      cases items with
      | nil => rfl
      | cons first rest =>
          rw [hedges] at hfalsy
          cases hfalsy
  | _ => rfl

end Python.Json

variable (rt : Runtime) (settings : Settings) (now : ℚ)

def Comparable (node : Json) : Prop :=
  ∀ wall, parseDt rt (node.member "valid_until") ≠ some (.naive wall)

/-- `int` takes the score. -/
def HasScore (indicator : Json) : Prop :=
  Succeeds (rt.intOf ((indicator.member "x_opencti_score").orElse (.int 0)))

/-- An indicator can be judged by the hit policy and the minimum score, and ranked
if it passes. -/
structure LegibleIndicator (indicator : Json) : Prop where
  obj : indicator.IsObj
  revoked : settings.hitPolicy = .expiryAware → (indicator.member "revoked").truthy = true →
    Comparable rt indicator
  score : passesPolicy rt indicator settings.hitPolicy now = .ok true → HasScore rt indicator
  survivor : survives rt settings now indicator = .ok true → Comparable rt indicator

structure LegibleNode (node : Json) : Prop where
  obj : node.IsObj
  indicators : (node.member "indicators").Mapping
  edges : node.indicatorEdges.Iterable
  edge : ∀ edge ∈ node.indicatorEdges.elements, edge.IsObj
  indicator : ∀ indicator ∈ node.indicators, LegibleIndicator rt settings now indicator

def LegibleLabels : List Json → List Str → Prop
  | [], _ => True
  | label :: rest, seen => label.Mapping ∧
      ∀ union, addLabels rt [label] seen = .ok (union, false) → LegibleLabels rest union

def LegibleLabelLists : List Json → List Str → Prop
  | [], _ => True
  | indicator :: rest, seen => (indicator.member "objectLabel").Walkable ∧
      LegibleLabels rt (indicator.member "objectLabel").elements seen ∧
        ∀ union, addLabels rt (indicator.member "objectLabel").elements seen = .ok (union, false) →
          LegibleLabelLists rest union

def LegibleMarkings : List Json → Prop
  | [] => True
  | marking :: rest => marking.Mapping ∧
      ((marking.member "definition").truthy = false → LegibleMarkings rest)

structure LegibleFields (node primary : Json) (survivors : List Json) : Prop where
  marking : (primary.member "objectMarking").Walkable ∧
    LegibleMarkings (primary.member "objectMarking").elements
  nodeMarking : (∀ marking ∈ (primary.member "objectMarking").elements,
      (marking.member "definition").truthy = false) →
    (node.member "objectMarking").Walkable ∧ LegibleMarkings (node.member "objectMarking").elements
  createdBy : (primary.member "createdBy").Mapping
  phases : (primary.member "killChainPhases").Walkable ∧
    ∀ phase ∈ (primary.member "killChainPhases").elements, phase.IsObj
  labels : LegibleLabelLists rt survivors []

def NodeHits (node : Json) : Prop :=
  ∃ indicator ∈ node.indicators, survives rt settings now indicator = .ok true

def HasHit (data : Json) : Prop := NodeHits rt settings now data.lookupNode

structure LegibleLookup (data : Json) : Prop where
  mapping : data.Mapping
  block : (data.member "stixCyberObservables").Mapping
  edges : data.lookupEdges.truthy = true →
    ∃ fields rest, data.lookupEdges = .arr (.obj fields :: rest)
  node : LegibleNode rt settings now data.lookupNode
  fields : ∀ primary rest,
    selectIndicators rt settings now data.lookupNode = .ok (primary :: rest) →
      LegibleFields rt data.lookupNode primary (primary :: rest)
  kind : HasHit rt settings now data → (data.lookupNode.member "entity_type").truthy = true →
    ∃ text, data.lookupNode.member "entity_type" = .str text

section Indicators

variable {rt settings now} {node indicator : Json}

theorem succeeds_isExpired_iff :
    Succeeds (isExpired rt node now) ↔ node.IsObj ∧ Comparable rt node := by
  unfold isExpired Comparable
  rw [succeeds_bind_iff, Json.returns_get_iff]
  refine and_congr_right fun _ => ?_
  cases parseDt rt (node.member "valid_until") with
  | none => simp [returns_pure_iff]
  | some datetime =>
      cases datetime with
      | aware instant => simp [returns_pure_iff]
      | naive wall => exact iff_of_false not_returns_error (by simp)

theorem succeeds_passesPolicy_iff : Succeeds (passesPolicy rt indicator settings.hitPolicy now) ↔
    indicator.IsObj ∧ (settings.hitPolicy = .expiryAware →
      (indicator.member "revoked").truthy = true → Comparable rt indicator) := by
  unfold passesPolicy
  rw [succeeds_bind_iff, Json.returns_get_iff]
  refine and_congr_right fun hobj => ?_
  cases settings.hitPolicy with
  | all => simp [returns_pure_iff]
  | liveOnly => simp [returns_pure_iff]
  | expiryAware =>
      cases (indicator.member "revoked").truthy with
      | false => simp [returns_pure_iff]
      | true => simp [succeeds_isExpired_iff, hobj]

theorem succeeds_scoreOf_iff :
    Succeeds (scoreOf rt indicator) ↔ indicator.IsObj ∧ HasScore rt indicator := by
  unfold scoreOf HasScore
  rw [succeeds_bind_iff, Json.returns_get_iff]

theorem succeeds_survives_iff : Succeeds (survives rt settings now indicator) ↔
    Succeeds (passesPolicy rt indicator settings.hitPolicy now) ∧
      (passesPolicy rt indicator settings.hitPolicy now = .ok true → HasScore rt indicator) := by
  unfold survives
  rw [succeeds_bind_iff, returns_iff]
  refine and_congr_right fun hpasses => ?_
  have hobj := (succeeds_passesPolicy_iff.mp hpasses).1
  obtain ⟨passes, hpasses, -⟩ := hpasses
  rw [hpasses]
  cases passes with
  | false => simp [returns_pure_iff]
  | true =>
      simp only [Except.ok.injEq, forall_eq', if_true, forall_const, succeeds_bind_iff]
      rw [returns_iff, succeeds_scoreOf_iff]
      simp [hobj, returns_pure_iff]

theorem succeeds_rank_iff : Succeeds (rank rt now indicator) ↔
    indicator.IsObj ∧ Comparable rt indicator ∧ HasScore rt indicator := by
  unfold rank
  rw [succeeds_bind_iff, returns_iff, succeeds_isExpired_iff, and_assoc]
  refine and_congr_right fun hobj => and_congr_right fun hcomparable => ?_
  obtain ⟨expired, hexpired, -⟩ := (@succeeds_isExpired_iff rt now _).mpr ⟨hobj, hcomparable⟩
  simp only [hexpired, Except.ok.injEq, forall_eq', succeeds_bind_iff]
  rw [returns_iff, succeeds_scoreOf_iff]
  simp [hobj, Json.returns_get_iff, returns_pure_iff]

end Indicators

section Nodes

variable {rt settings now} {node : Json}

theorem item_of_member {edge : Json} {key : Str} (hobj : edge.IsObj)
    (htruthy : (edge.member key).truthy = true) : edge.item key = .ok (edge.member key) := by
  obtain ⟨fields, rfl⟩ := Json.isObj_iff.mp hobj
  simp only [Json.member, Json.field, Json.item] at htruthy ⊢
  cases hlookup : fields.lookup key with
  | none =>
      rw [hlookup] at htruthy
      cases htruthy
  | some value => rfl

theorem returns_candidates_iff {post : List Json → Prop} :
    Returns (candidates node) post ↔ node.IsObj ∧ (node.member "indicators").Mapping ∧
      node.indicatorEdges.Iterable ∧ (∀ edge ∈ node.indicatorEdges.elements, edge.IsObj) ∧
        post node.indicators := by
  have hread : ∀ edge : Json,
      Succeeds (do pure (← edge.get "node").truthy : Py Bool) ↔ edge.IsObj := fun edge => by
    rw [succeeds_bind_iff, Json.returns_get_iff]
    simp [returns_pure_iff]
  unfold candidates
  rw [returns_bind_iff, Json.returns_get_iff]
  refine and_congr_right fun hobj => ?_
  rw [returns_bind_iff, Json.returns_orElse_getD_iff]
  refine and_congr_right fun hmapping => ?_
  rw [returns_bind_iff, Json.returns_iter_iff]
  refine and_congr_right fun hiterable => ?_
  rw [returns_bind_iff, returns_filterPy_iff, forall₂_congr fun edge _ => hread edge]
  refine and_congr_right fun hedges => ?_
  have hkept : (node.indicatorEdges.elements.filter fun edge =>
      (do pure (← edge.get "node").truthy : Py Bool).toOption.getD false) =
        node.indicatorEdges.elements.filter fun edge => (edge.member "node").truthy := by
    refine List.filter_congr fun edge hedge => ?_
    obtain ⟨fields, rfl⟩ := Json.isObj_iff.mp (hedges edge hedge)
    rfl
  have hitems : mapPy (fun edge : Json => edge.item "node")
      (node.indicatorEdges.elements.filter fun edge => (edge.member "node").truthy) =
        .ok node.indicators := by
    refine mapPy_ok fun edge hedge => ?_
    obtain ⟨hmem, htruthy⟩ := List.mem_filter.mp hedge
    exact item_of_member (hedges edge hmem) htruthy
  change Returns (mapPy _ (node.indicatorEdges.elements.filter _)) post ↔ _
  rw [hkept, hitems, returns_ok_iff]

theorem legibleIndicator_iff (indicator : Json) : LegibleIndicator rt settings now indicator ↔
    Succeeds (survives rt settings now indicator) ∧
      (survives rt settings now indicator = .ok true → Succeeds (rank rt now indicator)) := by
  rw [succeeds_survives_iff, succeeds_passesPolicy_iff, succeeds_rank_iff]
  constructor
  · intro h
    refine ⟨⟨⟨h.obj, h.revoked⟩, h.score⟩, fun hsurvives => ⟨h.obj, h.survivor hsurvives, ?_⟩⟩
    obtain ⟨passes, hpasses, hscore⟩ := bind_eq_ok_iff.mp hsurvives
    cases passes with
    | false => cases hscore
    | true => exact h.score hpasses
  · rintro ⟨⟨⟨hobj, hrevoked⟩, hscore⟩, hsurvivor⟩
    exact ⟨hobj, hrevoked, hscore, fun hsurvives => (hsurvivor hsurvives).2.1⟩

theorem mem_survivors_iff {indicators : List Json} {indicator : Json} :
    (indicator ∈ indicators.filter fun indicator =>
        (survives rt settings now indicator).toOption.getD false) ↔
      indicator ∈ indicators ∧ survives rt settings now indicator = .ok true := by
  rw [List.mem_filter]
  refine and_congr_right fun _ => ?_
  cases survives rt settings now indicator with
  | error fault => simp [Except.toOption]
  | ok survives => simp [Except.toOption]

theorem returns_ranked_iff {survivors : List Json} {post : List Json → Prop}
    (hpost : ∀ selected : List Json, selected.Perm survivors → post selected) :
    Returns (do
        let keyed ← mapPy (fun indicator => do pure (← rank rt now indicator, indicator)) survivors
        pure ((sortByRank keyed).map Prod.snd)) post ↔
      ∀ indicator ∈ survivors, Succeeds (rank rt now indicator) := by
  have hitem : ∀ indicator : Json,
      Succeeds (do pure (← rank rt now indicator, indicator) : Py (Rank × Json)) ↔
        Succeeds (rank rt now indicator) := fun indicator => by
    rw [succeeds_bind_iff]
    simp [returns_pure_iff]
  rw [returns_bind_iff, returns_iff, succeeds_mapPy_iff]
  simp only [hitem, returns_pure_iff]
  refine and_iff_left_of_imp fun hranks keyed hkeyed => hpost _ ?_
  have hreturns : Returns
      (mapPy (fun indicator => do pure (← rank rt now indicator, indicator)) survivors)
      (List.Forall₂ (fun indicator keyed => keyed.2 = indicator) survivors) :=
    mapPy_returns fun indicator hmem => (hranks indicator hmem).bind fun rank _ => .ok rfl
  obtain ⟨ranked, hranked, hpairs⟩ := hreturns
  cases hkeyed.symm.trans hranked
  have hsnd : keyed.map Prod.snd = survivors := by
    rw [← List.forall₂_eq_eq_eq, List.forall₂_map_left_iff]
    exact hpairs.flip
  rw [← hsnd]
  exact (List.perm_insertionSort _ keyed).map Prod.snd

theorem returns_selectIndicators_iff {post : List Json → Prop}
    (hpost : ∀ selected, (∀ indicator, indicator ∈ selected ↔
      indicator ∈ node.indicators ∧ survives rt settings now indicator = .ok true) →
        post selected) :
    Returns (selectIndicators rt settings now node) post ↔ LegibleNode rt settings now node := by
  unfold selectIndicators
  rw [returns_bind_iff, returns_candidates_iff, returns_bind_iff, returns_filterPy_iff,
    returns_ranked_iff fun selected hperm => hpost selected fun indicator => by
      rw [hperm.mem_iff, mem_survivors_iff]]
  simp only [mem_survivors_iff, and_imp]
  constructor
  · rintro ⟨hobj, hindicators, hedges, hedge, hsurvives, hranks⟩
    exact ⟨hobj, hindicators, hedges, hedge, fun indicator hmem =>
      (legibleIndicator_iff indicator).mpr ⟨hsurvives indicator hmem, hranks indicator hmem⟩⟩
  · intro h
    have hboth := fun indicator hmem => (legibleIndicator_iff indicator).mp (h.indicator _ hmem)
    exact ⟨h.obj, h.indicators, h.edges, h.edge, fun indicator hmem => (hboth indicator hmem).1,
      fun indicator hmem => (hboth indicator hmem).2⟩

theorem succeeds_selectIndicators_iff :
    Succeeds (selectIndicators rt settings now node) ↔ LegibleNode rt settings now node :=
  returns_selectIndicators_iff fun _ _ => trivial

end Nodes

section Fields

variable {rt settings now}

theorem addLabels_cons (label : Json) (rest : List Json) (seen : List Str) :
    addLabels rt (label :: rest) seen = (addLabels rt [label] seen >>= fun union =>
      if union.2 then pure union else addLabels rt rest union.1) := by
  rw [addLabels, addLabels]
  cases (label.orElse (.obj [])).get "value" with
  | error fault => rfl
  | ok value =>
      rw [ok_bind, ok_bind]
      extract_lets text union
      by_cases hfull : maxLabels ≤ union.length
      · rw [if_pos hfull, if_pos hfull]
        rfl
      · rw [if_neg hfull, if_neg hfull, addLabels]
        rfl

theorem succeeds_addLabel_iff (label : Json) (seen : List Str) :
    Succeeds (addLabels rt [label] seen) ↔ label.Mapping := by
  rw [addLabels, succeeds_bind_iff, Json.returns_orElse_get_iff]
  refine and_iff_left ?_
  extract_lets text union
  split
  · exact .ok trivial
  · exact .ok trivial

theorem succeeds_addLabels_iff (labels : List Json) (seen : List Str) :
    Succeeds (addLabels rt labels seen) ↔ LegibleLabels rt labels seen := by
  induction labels generalizing seen with
  | nil => simp [addLabels, LegibleLabels, returns_ok_iff]
  | cons label rest ih =>
      rw [addLabels_cons, succeeds_bind_iff, returns_iff, succeeds_addLabel_iff, LegibleLabels]
      refine and_congr_right fun _ => ⟨fun h union hunion => ?_, fun h union hunion => ?_⟩
      · exact (ih union).mp (h (union, false) hunion)
      · obtain ⟨union, full⟩ := union
        cases full with
        | true => exact .ok trivial
        | false => exact (ih union).mpr (h union hunion)

theorem succeeds_labelsFrom_iff {indicators : List Json}
    (hobj : ∀ indicator ∈ indicators, indicator.IsObj) (seen : List Str) :
    Succeeds (labelsFrom rt indicators seen) ↔ LegibleLabelLists rt indicators seen := by
  induction indicators generalizing seen with
  | nil => simp [labelsFrom, LegibleLabelLists, returns_ok_iff]
  | cons indicator rest ih =>
      obtain ⟨hfirst, hrest⟩ := List.forall_mem_cons.mp hobj
      rw [labelsFrom, succeeds_bind_iff, Json.returns_get_iff, and_iff_right hfirst,
        succeeds_bind_iff, Json.returns_orElse_iter_iff, succeeds_bind_iff, returns_iff,
        succeeds_addLabels_iff, LegibleLabelLists]
      refine and_congr_right fun _ => and_congr_right fun _ => ?_
      refine ⟨fun h union hunion => ?_, fun h union hunion => ?_⟩
      · exact (ih hrest union).mp (h (union, false) hunion)
      · obtain ⟨union, full⟩ := union
        cases full with
        | true => exact .ok trivial
        | false => exact (ih hrest union).mpr (h union hunion)

theorem succeeds_firstDefinition_iff (markings : List Json) :
    Succeeds (firstDefinition rt markings) ↔ LegibleMarkings markings := by
  induction markings with
  | nil => simp [firstDefinition, LegibleMarkings, returns_ok_iff]
  | cons marking rest ih =>
      rw [firstDefinition, succeeds_bind_iff, Json.returns_orElse_get_iff, LegibleMarkings]
      refine and_congr_right fun _ => ?_
      cases (marking.member "definition").truthy with
      | true => simp [returns_pure_iff]
      | false => simpa using ih

theorem returns_firstDefinition_iff (markings : List Json) :
    Returns (firstDefinition rt markings) (fun found => found = none ↔
        ∀ marking ∈ markings, (marking.member "definition").truthy = false) ↔
      LegibleMarkings markings := by
  induction markings with
  | nil => simp [firstDefinition, LegibleMarkings, returns_ok_iff]
  | cons marking rest ih =>
      rw [firstDefinition, returns_bind_iff, Json.returns_orElse_get_iff, LegibleMarkings]
      refine and_congr_right fun _ => ?_
      rw [List.forall_mem_cons]
      cases (marking.member "definition").truthy with
      | true => simp [returns_pure_iff]
      | false => simpa using ih

theorem succeeds_marking_iff {node primary : Json} (hnode : node.IsObj)
    (hprimary : primary.IsObj) : Succeeds (marking rt node primary) ↔
      ((primary.member "objectMarking").Walkable ∧
        LegibleMarkings (primary.member "objectMarking").elements) ∧
      ((∀ marking ∈ (primary.member "objectMarking").elements,
          (marking.member "definition").truthy = false) →
        (node.member "objectMarking").Walkable ∧
          LegibleMarkings (node.member "objectMarking").elements) := by
  unfold marking
  rw [succeeds_bind_iff, Json.returns_get_iff, and_iff_right hprimary, succeeds_bind_iff,
    Json.returns_orElse_iter_iff, and_assoc, succeeds_bind_iff, returns_iff,
    succeeds_firstDefinition_iff]
  refine and_congr_right fun _ => and_congr_right fun hlegible => ?_
  obtain ⟨found, hfound, hnone⟩ := (@returns_firstDefinition_iff rt _).mpr hlegible
  rw [← hnone]
  simp only [hfound, Except.ok.injEq, forall_eq']
  cases found with
  | some definition => simp [returns_pure_iff]
  | none =>
      simp only [forall_const]
      rw [succeeds_bind_iff, Json.returns_get_iff, and_iff_right hnode, succeeds_bind_iff,
        Json.returns_orElse_iter_iff, succeeds_firstDefinition_iff]

theorem succeeds_phaseNames_iff {primary : Json} (hprimary : primary.IsObj) :
    Succeeds (phaseNames rt primary) ↔ (primary.member "killChainPhases").Walkable ∧
      ∀ phase ∈ (primary.member "killChainPhases").elements, phase.IsObj := by
  have hread : ∀ phase : Json,
      Succeeds (do pure (← phase.get "phase_name").truthy : Py Bool) ↔ phase.IsObj := by
    intro phase
    rw [succeeds_bind_iff, Json.returns_get_iff]
    simp [returns_pure_iff]
  unfold phaseNames
  rw [succeeds_bind_iff, Json.returns_get_iff, and_iff_right hprimary, succeeds_bind_iff,
    Json.returns_orElse_iter_iff, succeeds_bind_iff, returns_filterPy_iff,
    forall₂_congr fun phase _ => hread phase]
  refine and_congr_right fun _ => and_iff_left_of_imp fun hphases => ?_
  refine succeeds_mapPy_iff.mpr fun phase hphase => ?_
  rw [succeeds_bind_iff, Json.returns_get_iff]
  exact ⟨hphases phase (List.mem_filter.mp hphase).1, .ok trivial⟩

end Fields

section Payloads

variable {rt settings now} {node primary kind : Json} {survivors : List Json}

theorem returns_payloadOf_iff (hnode : node.IsObj) (hprimary : primary.IsObj)
    (hcomparable : Comparable rt primary) (hsurvivors : ∀ indicator ∈ survivors, indicator.IsObj)
    (value matchType : Str) {post : Payload → Prop}
    (hpost : ∀ payload : Payload, payload.Found → post payload) :
    Returns (payloadOf rt settings now node primary survivors value kind matchType) post ↔
      LegibleFields rt node primary survivors ∧ ∃ text, kind = .str text := by
  have hfields : LegibleFields rt node primary survivors ↔
      Succeeds (marking rt node primary) ∧ (primary.member "createdBy").Mapping ∧
        Succeeds (phaseNames rt primary) ∧ Succeeds (labelsFrom rt survivors []) := by
    rw [succeeds_marking_iff hnode hprimary, succeeds_phaseNames_iff hprimary,
      succeeds_labelsFrom_iff hsurvivors]
    exact ⟨fun h => ⟨⟨h.marking, h.nodeMarking⟩, h.createdBy, h.phases, h.labels⟩,
      fun ⟨⟨hmarking, hnodeMarking⟩, hcreatedBy, hphases, hlabels⟩ =>
        ⟨hmarking, hnodeMarking, hcreatedBy, hphases, hlabels⟩⟩
  rw [hfields]
  obtain ⟨expired, hexpired, -⟩ :=
    (@succeeds_isExpired_iff rt now _).mpr ⟨hprimary, hcomparable⟩
  obtain ⟨primaryFields, rfl⟩ := Json.isObj_iff.mp hprimary
  obtain ⟨nodeFields, rfl⟩ := Json.isObj_iff.mp hnode
  unfold payloadOf
  rw [hexpired, ok_bind]
  extract_lets text
  have htext : ∀ (fields : List (Str × Json)) (key : Str) (limit : ℕ)
      (post : Option Str → Prop), Returns (text (.obj fields) key limit) post ↔
        post (boundedText rt (Json.field fields key) limit) := fun _ _ _ _ => returns_ok_iff
  simp only [returns_bind_iff, htext]
  -- What comes last raises unless the entity type is a text.
  refine (returns_congr fun marking => returns_congr fun createdBy => returns_congr fun name =>
    returns_congr fun phases => returns_congr fun labels =>
      (?_ : _ ↔ ∃ text, kind = .str text)).trans ?_
  · cases kind with
    | str s => exact iff_of_true ⟨_, rfl, hpost _ rfl⟩ ⟨s, rfl⟩
    | _ => exact iff_of_false not_returns_error (by simp)
  · rw [returns_const_iff (marking rt _ _), Json.returns_get_iff, Json.returns_orElse_get_iff,
      returns_const_iff (phaseNames rt _), returns_const_iff (labelsFrom rt _ _),
      and_iff_right hprimary, and_assoc, and_assoc, and_assoc]

theorem returns_buildPayload_iff (value matchType : Str) {post : Option Payload → Prop}
    (hpost : ∀ reply, Reports (NodeHits rt settings now node) reply → post reply) :
    Returns (buildPayload rt settings now node value kind matchType) post ↔
      LegibleNode rt settings now node ∧
        ∀ primary rest, selectIndicators rt settings now node = .ok (primary :: rest) →
          LegibleFields rt node primary (primary :: rest) ∧ ∃ text, kind = .str text := by
  unfold buildPayload
  rw [returns_bind_iff, returns_iff, succeeds_selectIndicators_iff]
  refine and_congr_right fun hlegible => ?_
  obtain ⟨selected, hselected, hmem⟩ := (returns_selectIndicators_iff fun _ h => h).mpr hlegible
  simp only [hselected, Except.ok.injEq, forall_eq']
  cases selected with
  | nil =>
      refine iff_of_true (returns_ok_iff.mpr (hpost none ?_)) (fun _ _ h => by cases h)
      rintro ⟨indicator, hindicator, hsurvives⟩
      exact absurd ((hmem indicator).mpr ⟨hindicator, hsurvives⟩) List.not_mem_nil
  | cons primary rest =>
      obtain ⟨hindicator, hsurvives⟩ := (hmem primary).mp List.mem_cons_self
      have hobj : ∀ indicator ∈ primary :: rest, indicator.IsObj := fun indicator h =>
        (hlegible.indicator indicator ((hmem indicator).mp h).1).obj
      have hcomparable := (hlegible.indicator primary hindicator).survivor hsurvives
      simp only [List.cons.injEq, and_imp, forall_apply_eq_imp_iff, forall_eq', returns_bind_iff]
      rw [returns_payloadOf_iff hlegible.obj (hobj primary List.mem_cons_self) hcomparable hobj
        value matchType]
      exact fun payload hfound =>
        returns_ok_iff.mpr (hpost (some payload) ⟨⟨primary, hindicator, hsurvives⟩, hfound⟩)

theorem legibleNode_empty : LegibleNode rt settings now (.obj []) :=
  ⟨trivial, nofun, trivial, nofun, nofun⟩

theorem returns_readNode_iff (value default matchType : Str) {post : Option Payload → Prop}
    (hpost : ∀ reply, Reports (NodeHits rt settings now node) reply → post reply) :
    Returns (do
        let entityType := (← node.get "entity_type").orElse (.str default)
        buildPayload rt settings now node value entityType matchType) post ↔
    LegibleNode rt settings now node ∧
      ∀ primary rest, selectIndicators rt settings now node = .ok (primary :: rest) →
        LegibleFields rt node primary (primary :: rest) ∧
          ((node.member "entity_type").truthy = true →
            ∃ text, node.member "entity_type" = .str text) := by
  have hkind : ∀ entityType : Json, (∃ text, entityType.orElse (.str default) = .str text) ↔
      (entityType.truthy = true → ∃ text, entityType = .str text) := by
    intro entityType
    cases htruthy : entityType.truthy with
    | true => simp [Json.orElse, htruthy]
    | false => simp [Json.orElse, htruthy]
  rw [returns_bind_iff, Json.returns_get_iff, returns_buildPayload_iff value matchType hpost, hkind]
  exact and_iff_right_of_imp fun h => h.1.obj

theorem legibleLookup_iff (data : Json) : LegibleLookup rt settings now data ↔ data.Mapping ∧
    (data.member "stixCyberObservables").Mapping ∧
      (data.lookupEdges.truthy = true →
        ∃ fields rest, data.lookupEdges = .arr (.obj fields :: rest)) ∧
      LegibleNode rt settings now data.lookupNode ∧
      ∀ primary rest, selectIndicators rt settings now data.lookupNode = .ok (primary :: rest) →
        LegibleFields rt data.lookupNode primary (primary :: rest) ∧
          ((data.lookupNode.member "entity_type").truthy = true →
            ∃ text, data.lookupNode.member "entity_type" = .str text) := by
  constructor
  · intro h
    refine ⟨h.mapping, h.block, h.edges, h.node, fun primary rest hselected => ?_⟩
    obtain ⟨selected, hok, hmem⟩ := (returns_selectIndicators_iff fun _ h => h).mpr h.node
    cases hok.symm.trans hselected
    exact ⟨h.fields primary rest hselected,
      h.kind ⟨primary, (hmem primary).mp List.mem_cons_self⟩⟩
  · rintro ⟨hmapping, hblock, hedges, hnode, hprimary⟩
    refine ⟨hmapping, hblock, hedges, hnode, fun primary rest h => (hprimary primary rest h).1, ?_⟩
    rintro ⟨indicator, hindicator⟩
    obtain ⟨selected, hok, hmem⟩ := (returns_selectIndicators_iff fun _ h => h).mpr hnode
    cases selected with
    | nil => exact absurd ((hmem indicator).mpr hindicator) List.not_mem_nil
    | cons primary rest => exact (hprimary primary rest hok).2

theorem returns_readReply_iff (data : Json) (value : Str) (kind : IndicatorType) (matchType : Str)
    {post : Option Payload → Prop}
    (hpost : ∀ reply, Reports (HasHit rt settings now data) reply → post reply) :
    Returns (LiveBackend.readReply rt settings now (data.orElse (.obj [])) value kind matchType)
        post ↔ LegibleLookup rt settings now data := by
  rw [legibleLookup_iff]
  unfold LiveBackend.readReply
  rw [returns_bind_iff, Json.returns_orElse_get_iff]
  refine and_congr_right fun _ => ?_
  rw [returns_bind_iff, Json.returns_orElse_get_iff]
  refine and_congr_right fun _ => ?_
  change Returns (if !(data.lookupEdges.orElse (.arr [])).truthy then .ok none else do
      let node := (← (← (data.lookupEdges.orElse (.arr [])).head).get "node").orElse (.obj [])
      let entityType := (← node.get "entity_type").orElse (.str kind.value)
      buildPayload rt settings now node value entityType matchType) _ ↔ _
  cases htruthy : data.lookupEdges.truthy with
  | false =>
      have hnode := Json.lookupNode_of_falsy htruthy
      have hempty : data.lookupEdges.orElse (.arr []) = .arr [] := by
        rw [Json.orElse, htruthy]
        rfl
      rw [hempty, hnode]
      refine iff_of_true (returns_ok_iff.mpr (hpost none ?_))
        ⟨fun h => absurd h Bool.false_ne_true, legibleNode_empty, fun _ _ h => by cases h⟩
      rintro ⟨indicator, hindicator, -⟩
      rw [hnode] at hindicator
      cases hindicator
  | true =>
      have hsame : data.lookupEdges.orElse (.arr []) = data.lookupEdges := by
        rw [Json.orElse, htruthy]
        rfl
      rw [hsame, htruthy, if_neg (by decide)]
      unfold HasHit Json.lookupNode at hpost
      unfold Json.lookupNode
      cases hedges : data.lookupEdges with
      | arr items =>
          cases items with
          | nil => exact iff_of_false not_returns_error (by simp)
          | cons first rest =>
              rw [Json.head, ok_bind, returns_bind_iff, Json.returns_get_iff]
              dsimp only
              rw [hedges] at hpost
              rw [returns_readNode_iff value kind.value matchType hpost]
              refine and_congr_left fun _ => ?_
              simp [Json.isObj_iff]
      | str s =>
          refine iff_of_false ?_ (by simp)
          cases s with
          | nil => exact not_returns_error
          | cons c s => exact not_returns_error
      | _ => exact iff_of_false not_returns_error (by simp)

end Payloads

/-! ### What reading a reply raises -/

section Plain

variable {rt settings now}

theorem plain_isExpired (node : Json) : Plain (isExpired rt node now) := by
  refine (node.plain_get _).bind fun validUntil => ?_
  split <;> exact nofun

theorem plain_scoreOf (node : Json) : Plain (scoreOf rt node) := by
  refine (node.plain_get _).bind fun score => ?_
  unfold Runtime.intOf
  split
  all_goals try split
  all_goals exact nofun

theorem plain_survives (indicator : Json) : Plain (survives rt settings now indicator) := by
  have hpolicy : Plain (passesPolicy rt indicator settings.hitPolicy now) := by
    refine (indicator.plain_get _).bind fun revoked => ?_
    cases settings.hitPolicy with
    | all => exact .ok _
    | liveOnly => exact .ok _
    | expiryAware =>
        dsimp only
        split
        · exact plain_isExpired indicator
        · exact .ok _
  refine hpolicy.bind fun passes => ?_
  cases passes with
  | false => exact .ok _
  | true => exact (plain_scoreOf indicator).bind fun _ => .ok _

theorem plain_selectIndicators (node : Json) : Plain (selectIndicators rt settings now node) := by
  have hcandidates : Plain (candidates node) :=
    (node.plain_get _).bind fun raw => (Json.plain_getD _ _ _).bind fun edges =>
      edges.plain_iter.bind fun items =>
        (plain_filterPy (fun edge => (edge.plain_get _).bind fun _ => .ok _) _).bind fun kept =>
          plain_mapPy (fun edge => edge.plain_item _) kept
  have hrank : ∀ indicator : Json, Plain (rank rt now indicator) := fun indicator =>
    (plain_isExpired indicator).bind fun _ => (plain_scoreOf indicator).bind fun _ =>
      (indicator.plain_get _).bind fun _ => .ok _
  exact hcandidates.bind fun indicators => (plain_filterPy plain_survives indicators).bind
    fun survivors =>
      (plain_mapPy (fun indicator => (hrank indicator).bind fun _ => .ok _) survivors).bind
        fun _ => .ok _

theorem plain_labelsFrom (indicators : List Json) (seen : List Str) :
    Plain (labelsFrom rt indicators seen) := by
  have hlabels : ∀ (labels : List Json) (seen : List Str), Plain (addLabels rt labels seen) := by
    intro labels
    induction labels with
    | nil => exact fun _ => .ok _
    | cons label rest ih =>
        intro seen
        refine (Json.plain_get _ _).bind fun value => ?_
        extract_lets text union
        split
        · exact .ok _
        · exact ih union
  induction indicators generalizing seen with
  | nil => exact .ok _
  | cons indicator rest ih =>
      refine (indicator.plain_get _).bind fun raw => (Json.plain_iter _).bind fun labels =>
        (hlabels labels seen).bind fun union => ?_
      obtain ⟨union, full⟩ := union
      cases full with
      | true => exact .ok _
      | false => exact ih union

theorem plain_marking (node primary : Json) : Plain (marking rt node primary) := by
  have hdefinition : ∀ markings : List Json, Plain (firstDefinition rt markings) := by
    intro markings
    induction markings with
    | nil => exact .ok _
    | cons marking rest ih =>
        refine (Json.plain_get _ _).bind fun definition => ?_
        split
        · exact .ok _
        · exact ih
  refine (primary.plain_get _).bind fun raw => (Json.plain_iter _).bind fun markings =>
    (hdefinition markings).bind fun found => ?_
  cases found with
  | some definition => exact .ok _
  | none => exact (node.plain_get _).bind fun raw => (Json.plain_iter _).bind fun markings =>
      hdefinition markings

theorem plain_payloadOf (node primary : Json) (survivors : List Json) (value : Str) (kind : Json)
    (matchType : Str) :
    Plain (payloadOf rt settings now node primary survivors value kind matchType) := by
  have hphases : Plain (phaseNames rt primary) :=
    (primary.plain_get _).bind fun raw => (Json.plain_iter _).bind fun phases =>
      (plain_filterPy (fun phase => (phase.plain_get _).bind fun _ => .ok _) phases).bind
        fun named => plain_mapPy (fun phase => (phase.plain_get _).bind fun _ => .ok _) named
  unfold payloadOf
  refine (plain_isExpired primary).bind fun expired => ?_
  extract_lets text
  have htext : ∀ (source : Json) (key : Str) (limit : ℕ), Plain (text source key limit) :=
    fun source key limit => (source.plain_get key).bind fun _ => .ok _
  refine (htext _ _ _).bind fun score => (htext _ _ _).bind fun confidence => ?_
  refine (htext _ _ _).bind fun detection => (htext _ _ _).bind fun revoked => ?_
  refine (htext _ _ _).bind fun validFrom => (htext _ _ _).bind fun validUntil => ?_
  refine (htext _ _ _).bind fun name => (htext _ _ _).bind fun patternType => ?_
  refine (htext _ _ _).bind fun description => (plain_marking node primary).bind fun marking => ?_
  refine (htext _ _ _).bind fun observableScore => (primary.plain_get _).bind fun raw => ?_
  refine (Json.plain_get _ _).bind fun createdBy => hphases.bind fun phases => ?_
  refine (plain_labelsFrom survivors []).bind fun labels => ?_
  cases kind with
  | str s => exact (primary.plain_get _).bind fun _ => .ok _
  | _ => exact nofun

theorem plain_readReply (data : Json) (value : Str) (kind : IndicatorType) (matchType : Str) :
    Plain (LiveBackend.readReply rt settings now data value kind matchType) := by
  unfold LiveBackend.readReply
  refine (data.plain_get _).bind fun block => (Json.plain_get _ _).bind fun edges => ?_
  dsimp only
  split
  · exact .ok _
  refine (Json.plain_head _).bind fun first => (first.plain_get _).bind fun raw =>
    (Json.plain_get _ _).bind fun entityType => (plain_selectIndicators _).bind fun survivors => ?_
  cases survivors with
  | nil => exact .ok _
  | cons primary rest => exact (plain_payloadOf _ _ _ _ _ _).bind fun _ => .ok _

end Plain

end OpenctiLookup
