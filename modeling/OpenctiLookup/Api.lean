import OpenctiLookup.Backends.Split
import OpenctiLookup.Python.UrlQuery

/-! `api/lookup.py` and `api/deps.py`: the lookup endpoints over a backend, which each lookup
may leave in another state. -/
namespace OpenctiLookup
open Python

structure ApiSettings where
  apiKey : Str
  apiKeyHeader : Str := "X-API-Key"
  longEnough : 16 ≤ apiKey.length

/-- `lookup` of `app.state.backend`. -/
abbrev LookupBackend (σ : Type) := Normalized → σ → Py (LookupResult × σ)

def SplitBackend.backend (rt : Runtime) (settings : Settings) (client : Client) (now mono : ℚ) :
    LookupBackend SplitBackend := fun value backend =>
  backend.lookup rt settings client now mono value

def LiveBackend.backend (rt : Runtime) (settings : Settings) (client : Client) (now mono : ℚ) :
    LookupBackend LiveBackend := fun value backend =>
  LiveBackend.lookup rt settings client now mono backend value

inductive Method where
  | get
  | post
deriving DecidableEq, Repr

structure HttpRequest where
  method : Method
  path : Str
  query : Str
  headers : List (Str × Str)
  /-- The value of the body, if there is one. -/
  body : Option Json

structure HttpReply where
  status : ℕ
  /-- The value of the body, if it is JSON. -/
  body : Option Json

def HttpRequest.header (request : HttpRequest) (name : Str) : Option Str :=
  (request.headers.find? fun entry => entry.1.map asciiLower = name.map asciiLower).map Prod.snd

namespace Payload

def toJson (payload : Payload) : Json := .obj (payload.map fun entry => (entry.1, .str entry.2))

theorem truthy_toJson {payload : Payload} (h : payload ≠ []) : payload.toJson.truthy = true := by
  cases payload with
  | nil => exact absurd rfl h
  | cons entry payload => rfl

end Payload

namespace Api

def httpException (status : ℕ) (detail : Str) : HttpReply :=
  ⟨status, some (.obj [("detail", .str detail)])⟩

/-- A `RequestValidationError`, with one error for each place. -/
def unprocessable (kind : Str) (places : List (List Json)) : HttpReply :=
  ⟨422, some (.obj [("detail",
    .arr (places.map fun loc => .obj [("type", .str kind), ("loc", .arr loc)]))])⟩

def minLength : ℕ := 1
def maxLength : ℕ := 2048
def maxBulk : ℕ := 500

section Dependencies

variable (rt : Runtime) (api : ApiSettings) (request : HttpRequest)

/-- `verify_api_key`, with the `HTTPException` it raises. `compare_digest` takes no text
outside ASCII. -/
def verifyApiKey : Py (Option HttpReply) :=
  let supplied :=
    if rt.lower api.apiKeyHeader = "x-api-key".toList then request.header "X-API-Key"
    else request.header api.apiKeyHeader
  match supplied.getD [] with
  | [] => .ok (some (httpException 401 ("missing " ++ api.apiKeyHeader ++ " header")))
  | supplied =>
      if !isascii supplied || !isascii api.apiKey then .error (.raised .typeError)
      else if supplied = api.apiKey then .ok none
      else .ok (some (httpException 403 "invalid API key"))

def customerCode : Option Str :=
  match request.header "X-Customer-Code" with
  | some code => if code.isEmpty then none else some (code.take 64)
  | none => none

end Dependencies

section Endpoints

variable (rt : Runtime) (settings : Settings) {σ : Type} (backend : LookupBackend σ)

def lookupRaw (raw : Str) (s : σ) : Py (LookupResult × σ) := do
  let normalized ← settings.normalize rt raw
  backend normalized s

/-- `lookup`. Of a parameter given twice the last value counts. -/
def lookup (request : HttpRequest) (s : σ) : Py (HttpReply × σ) :=
  match (parseQsl request.query).reverse.lookup ("value" : Str) with
  | none => .ok (unprocessable "missing" [[.str "query", .str "value"]], s)
  | some value =>
      if value.length < minLength then
        .ok (unprocessable "string_too_short" [[.str "query", .str "value"]], s)
      else if maxLength < value.length then
        .ok (unprocessable "string_too_long" [[.str "query", .str "value"]], s)
      else do
        let (result, s) ← lookupRaw rt settings backend value s
        let payload :=
          match customerCode request with
          | some tenant => result.payload.set "customer_code" tenant
          | none => result.payload
        pure (⟨200, some payload.toJson⟩, s)

/-- `results[raw] = payload`. -/
def setResult (results : List (Str × Payload)) (raw : Str) (payload : Payload) :
    List (Str × Payload) :=
  if results.any fun entry => entry.1 = raw then
    results.map fun entry => if entry.1 = raw then (raw, payload) else entry
  else results ++ [(raw, payload)]

/-- The loop of `lookup_bulk`. -/
def bulkLoop : List Str → List (Str × Payload) → σ → Py (List (Str × Payload) × σ)
  | [], results, s => .ok (results, s)
  | raw :: rest, results, s => do
      let (result, s) ← lookupRaw rt settings backend raw s
      bulkLoop rest (setResult results raw result.payload) s

def text? : Json → Option Str
  | .str s => some s
  | _ => none

/-- The `values` of a body, a `list[str]`. -/
def readValues (body : Option Json) : List Str ⊕ HttpReply :=
  match body with
  | some (.obj fields) =>
      match Json.field fields "values" with
      | .null => .inr (unprocessable "missing" [[.str "body", .str "values"]])
      | .arr items =>
          match items.zipIdx.filter fun item => (text? item.1).isNone with
          | [] => .inl (items.filterMap text?)
          | wrong => .inr (unprocessable "string_type"
              (wrong.map fun item => [.str "body", .str "values", .int item.2]))
      | _ => .inr (unprocessable "list_type" [[.str "body", .str "values"]])
  | _ => .inr (unprocessable "missing" [[.str "body", .str "values"]])

theorem readValues_texts (texts : List Str) :
    readValues (some (.obj [("values", .arr (texts.map .str))])) = .inl texts := by
  have hitems : ((texts.map Json.str).zipIdx.filter fun item => (text? item.1).isNone) = [] := by
    rw [List.filter_eq_nil_iff]
    rintro ⟨item, index⟩ hitem
    obtain ⟨text, -, rfl⟩ := List.mem_map.mp (List.fst_mem_of_mem_zipIdx hitem)
    exact Bool.false_ne_true
  unfold readValues
  dsimp only
  rw [Json.field_cons_self]
  dsimp only
  rw [hitems]
  simp [List.filterMap_map, Function.comp_def, text?]

def lookupBulk (request : HttpRequest) (s : σ) : Py (HttpReply × σ) :=
  match readValues request.body with
  | .inr reply => .ok (reply, s)
  | .inl values => do
      let (results, s) ← bulkLoop rt settings backend (values.take maxBulk) [] s
      pure (⟨200, some (.obj [("count", .str (decimal results.length)),
        ("truncated", .str (if maxBulk < values.length then "true" else "false")),
        ("results", .obj (results.map fun entry => (entry.1, entry.2.toJson)))])⟩, s)

variable (api : ApiSettings)

/-- The endpoint of a request, with the dependency it has in front. -/
def endpoint (request : HttpRequest) (s : σ) : Option (Py (HttpReply × σ)) :=
  let guarded := fun handler : HttpRequest → σ → Py (HttpReply × σ) => do
    match ← verifyApiKey rt api request with
    | some reply => pure (reply, s)
    | none => handler request s
  if request.method = .get ∧ request.path = "/lookup".toList then
    some (guarded (lookup rt settings backend))
  else if request.method = .post ∧ request.path = "/lookup/bulk".toList then
    some (guarded (lookupBulk rt settings backend))
  else none

/-- What the router makes of a request, if the route is its own and an answer ever comes.
What an endpoint raises is a 500 with a text. -/
def serve (s : σ) (request : HttpRequest) : Option HttpReply :=
  match endpoint rt settings backend api request s with
  | some (.ok (reply, _)) => some reply
  | some (.error (.raised _)) => some ⟨500, none⟩
  | some (.error .diverges) => none
  | none => none

end Endpoints

section Results

variable {results : List (Str × Payload)} {raw : Str} {payload : Payload}

theorem lookup_replace (other : Str) :
    (results.map fun entry => if entry.1 = raw then (raw, payload) else entry).lookup other =
      if other = raw then (results.lookup raw).map fun _ => payload else results.lookup other := by
  induction results with
  | nil => simp
  | cons entry results ih =>
      obtain ⟨key, stored⟩ := entry
      rw [List.map_cons, List.lookup_cons, List.lookup_cons, List.lookup_cons, ih]
      by_cases hkey : key = raw
      · by_cases hother : other = raw
        · simp [hkey, hother]
        · simp [hkey, hother, beq_eq_false_iff_ne.mpr hother]
      · by_cases hother : other = raw
        · simp [hother, hkey, beq_eq_false_iff_ne.mpr (Ne.symm hkey)]
        · simp [hkey, hother]

theorem lookup_setResult (other : Str) :
    (setResult results raw payload).lookup other =
      if other = raw then some payload else results.lookup other := by
  unfold setResult
  split
  · next hset =>
      obtain ⟨entry, hentry, hkey⟩ := List.any_eq_true.mp hset
      obtain ⟨stored, hstored⟩ : ∃ stored, results.lookup raw = some stored := by
        rw [← Option.isSome_iff_exists, List.lookup_isSome_iff]
        exact ⟨entry, hentry, by simpa using (of_decide_eq_true hkey).symm⟩
      rw [lookup_replace, hstored, Option.map_some]
  · next hset =>
      have hnone : results.lookup raw = none := by
        rw [List.lookup_eq_none_iff]
        intro entry hentry
        rw [bne_iff_ne]
        exact fun hkey => hset (List.any_eq_true.mpr ⟨entry, hentry, decide_eq_true hkey.symm⟩)
      rw [List.lookup_append]
      by_cases hother : other = raw
      · simp [hother, hnone]
      · simp [hother, List.lookup_cons, beq_eq_false_iff_ne.mpr hother]

theorem lookup_toJson :
    List.lookup raw (results.map fun entry => (entry.1, entry.2.toJson)) =
      (results.lookup raw).map Payload.toJson := by
  induction results with
  | nil => rfl
  | cons entry results ih =>
      rw [List.map_cons, List.lookup_cons, List.lookup_cons, ih]
      cases raw == entry.1 <;> rfl

end Results

end Api

end OpenctiLookup
