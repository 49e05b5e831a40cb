import OpenctiLookup.Config
import Mathlib.Data.List.Sort

/-! `opencti/mapper.py`: from an OpenCTI observable node to a flat payload. The
node is whatever JSON came back, so every access may raise. -/
namespace OpenctiLookup
open Python

def maxLabels : Nat := 24
def maxLabelLen : Nat := 64
def maxTextLen : Nat := 256
def maxNameLen : Nat := 128

/-- A flat payload, in insertion order. -/
abbrev Payload := List (Str × Str)

namespace Payload

def get (payload : Payload) (key : Str) : Option Str := payload.lookup key

/-- `payload[key] = value`: a key that exists keeps its place. -/
def set (payload : Payload) (key value : Str) : Payload :=
  if payload.any fun entry => entry.1 = key then
    payload.map fun entry => if entry.1 = key then (key, value) else entry
  else payload ++ [(key, value)]

theorem get_set_ne (payload : Payload) {key other : Str} (h : other ≠ key) (value : Str) :
    (payload.set key value).get other = payload.get other := by
  unfold set get
  split
  · rename_i hset
    clear hset
    induction payload with
    | nil => rfl
    | cons entry payload ih =>
        rw [List.map_cons, List.lookup_cons, List.lookup_cons, ih]
        by_cases hkey : entry.1 = key
        · simp [hkey, beq_eq_false_iff_ne.mpr h]
        · simp [hkey]
  · rw [List.lookup_append, List.lookup_cons, beq_eq_false_iff_ne.mpr h]
    simp

end Payload

def miss : Payload := [("found", "false")]
def degradedPayload : Payload := [("found", "false"), ("degraded", "true")]

variable (rt : Runtime)

/-- `_s`: a bounded, non-empty text, or none to omit the field. -/
def boundedText (value : Json) (limit : Nat) : Option Str :=
  match value with
  | .null => none
  | .bool b => some (if b then "true" else "false")
  | value =>
      let text := strip (rt.strOf value)
      if text.isEmpty then none else some (text.take limit)

def parseDt (raw : Json) : Option Datetime :=
  match raw with
  | .str s => if s.isEmpty then none else rt.fromisoformat (replaceChar 'Z' "+00:00" s)
  | _ => none

/-- `is_expired` at an instant; a naive `valid_until` does not compare. -/
def isExpired (node : Json) (now : ℚ) : Py Bool := do
  match parseDt rt (← node.get "valid_until") with
  | none => pure false
  | some (.aware validUntil) => pure (decide (validUntil ≤ now))
  | some (.naive _) => throw (.raised .typeError)

def passesPolicy (node : Json) (policy : HitPolicy) (now : ℚ) : Py Bool := do
  let revoked := (← node.get "revoked").truthy
  match policy with
  | .all => pure true
  | .liveOnly => pure !revoked
  -- A revoke inside the validity window is a human retraction.
  | .expiryAware => if revoked then isExpired rt node now else pure true

/-- `int(node.get("x_opencti_score") or 0)`. -/
def scoreOf (node : Json) : Py ℤ := do
  rt.intOf ((← node.get "x_opencti_score").orElse (.int 0))

def survives (settings : Settings) (now : ℚ) (indicator : Json) : Py Bool := do
  if ← passesPolicy rt indicator settings.hitPolicy now then
    pure (decide (settings.minScore ≤ (← scoreOf rt indicator)))
  else pure false

/-- A sort key: live before expired, higher score first, then `valid_until`. -/
structure Rank where
  expired : Bool
  negScore : ℤ
  validUntil : Str
deriving DecidableEq

/-- `<=` on texts, by code point. -/
def strLe : Str → Str → Bool
  | [], _ => true
  | _ :: _, [] => false
  | c :: s, d :: t => if c = d then strLe s t else decide (c < d)

/-- `<=` on the key tuples. -/
def Rank.le (a b : Rank) : Bool :=
  if a.expired = b.expired then
    if a.negScore = b.negScore then strLe a.validUntil b.validUntil
    else decide (a.negScore < b.negScore)
  else !a.expired

def rank (now : ℚ) (indicator : Json) : Py Rank := do
  let expired ← isExpired rt indicator now
  let score ← scoreOf rt indicator
  let validUntil := (← indicator.get "valid_until").orElse (.str [])
  pure ⟨expired, -score, rt.strOf validUntil⟩

def candidates (node : Json) : Py (List Json) := do
  let raw := (← node.get "indicators").orElse (.obj [])
  let edges ← (← raw.getD "edges" (.arr [])).iter
  let kept ← filterPy (fun edge => do pure (← edge.get "node").truthy) edges
  mapPy (fun edge => edge.item "node") kept

/-- `list.sort(key=...)`: the keys first, then a stable sort. -/
def sortByRank (keyed : List (Rank × Json)) : List (Rank × Json) :=
  keyed.insertionSort fun a b => a.1.le b.1 = true

/-- `select_indicators`: surviving indicators, best first. -/
def selectIndicators (settings : Settings) (now : ℚ) (node : Json) : Py (List Json) := do
  let survivors ← filterPy (survives rt settings now) (← candidates node)
  let keyed ← mapPy (fun indicator => do pure (← rank rt now indicator, indicator)) survivors
  pure ((sortByRank keyed).map Prod.snd)

/-- The inner loop of `_labels`; the flag says that the union is full. -/
def addLabels : List Json → List Str → Py (List Str × Bool)
  | [], seen => .ok (seen, false)
  | label :: rest, seen => do
      let value ← (label.orElse (.obj [])).get "value"
      let text := (strip (rt.strOf value)).take maxLabelLen
      let seen := if value.truthy && !seen.contains text then seen ++ [text] else seen
      if maxLabels ≤ seen.length then pure (seen, true) else addLabels rest seen

/-- `_labels`: union of labels across the surviving indicators, deduplicated. -/
def labelsFrom : List Json → List Str → Py (List Str)
  | [], seen => .ok seen
  | indicator :: rest, seen => do
      let labels ← ((← indicator.get "objectLabel").orElse (.arr [])).iter
      let (seen, full) ← addLabels rt labels seen
      if full then pure seen else labelsFrom rest seen

def firstDefinition : List Json → Py (Option Str)
  | [] => .ok none
  | marking :: rest => do
      let definition ← (marking.orElse (.obj [])).get "definition"
      if definition.truthy then pure (some ((rt.strOf definition).take maxLabelLen))
      else firstDefinition rest

/-- `_marking`: the indicator's own marking before the observable's. -/
def marking (node primary : Json) : Py (Option Str) := do
  match ← firstDefinition rt (← ((← primary.get "objectMarking").orElse (.arr [])).iter) with
  | some definition => pure (some definition)
  | none => firstDefinition rt (← ((← node.get "objectMarking").orElse (.arr [])).iter)

def virustotalUrl (indicatorType value : Str) : Option Str :=
  if startsWith "StixFile" indicatorType then
    some ("https://www.virustotal.com/gui/file/" ++ value)
  else if indicatorType = "IPv4-Addr" ∨ indicatorType = "IPv6-Addr" then
    some ("https://www.virustotal.com/gui/ip-address/" ++ value)
  else if indicatorType = "Domain-Name" ∨ indicatorType = "Hostname" then
    some ("https://www.virustotal.com/gui/domain/" ++ value)
  else none

def phaseNames (primary : Json) : Py (List Str) := do
  let phases ← ((← primary.get "killChainPhases").orElse (.arr [])).iter
  let named ← filterPy (fun phase => do pure (← phase.get "phase_name").truthy) phases
  mapPy (fun phase => do pure ((rt.strOf (← phase.get "phase_name")).take maxLabelLen)) named

/-- `",".join(parts) or None`. -/
def joined (parts : List Str) : Option Str :=
  let text := join "," parts
  if text.isEmpty then none else some text

def boolText (b : Bool) : Str := if b then "true" else "false"

/-- The payload of a non-empty list of survivors. -/
def payloadOf (settings : Settings) (now : ℚ) (node primary : Json) (survivors : List Json)
    (value : Str) (indicatorType : Json) (matchType : Str) : Py Payload := do
  let expired ← isExpired rt primary now
  let text := fun (source : Json) (key : Str) (limit : Nat) => do
    pure (boundedText rt (← source.get key) limit)
  let score ← text primary "x_opencti_score" maxTextLen
  let confidence ← text primary "confidence" maxTextLen
  let detection ← text primary "x_opencti_detection" maxTextLen
  let revoked ← text primary "revoked" maxTextLen
  let validFrom ← text primary "valid_from" maxTextLen
  let validUntil ← text primary "valid_until" maxTextLen
  let name ← text primary "name" maxNameLen
  let patternType ← text primary "pattern_type" 32
  let description ← text primary "description" maxTextLen
  let marking ← marking rt node primary
  let observableScore ← text node "x_opencti_score" maxTextLen
  let createdBy ← ((← primary.get "createdBy").orElse (.obj [])).get "name"
  let phases ← phaseNames rt primary
  let labels ← labelsFrom rt survivors []
  let kind ← match indicatorType with
    | .str s => pure s
    | _ => throw (.raised .attributeError)
  let indicatorId ← primary.get "id"
  let fields : List (Str × Option Str) :=
    [("found", some "true"), ("value", some value), ("type", some kind),
      ("match_type", some matchType), ("score", score), ("confidence", confidence),
      ("detection", some (detection.getD "false")), ("expired", some (boolText expired)),
      ("revoked", some (revoked.getD "false")), ("valid_from", validFrom),
      ("valid_until", validUntil), ("indicator_name", name),
      ("indicator_count", some (decimal survivors.length)), ("pattern_type", patternType),
      ("description", description), ("marking", marking), ("observable_score", observableScore),
      ("created_by", boundedText rt createdBy maxNameLen),
      ("kill_chain", joined (phases.take maxLabels)), ("labels", joined labels),
      ("virustotal_url", virustotalUrl kind value),
      ("opencti_url", if indicatorId.truthy then
          some (settings.openctiUrl ++ "/dashboard/observations/indicators/" ++
            rt.strOf indicatorId)
        else none)]
  pure (fields.filterMap fun entry => entry.2.map fun text => (entry.1, text))

/-- `build_payload`: none when nothing survives the hit policy. -/
def buildPayload (settings : Settings) (now : ℚ) (node : Json) (value : Str) (indicatorType : Json)
    (matchType : Str) : Py (Option Payload) := do
  let survivors ← selectIndicators rt settings now node
  match survivors with
  | [] => pure none
  | primary :: _ =>
      pure (some (← payloadOf rt settings now node primary survivors value indicatorType matchType))

end OpenctiLookup
