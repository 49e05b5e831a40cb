import OpenctiLookup.Opencti.Mapper

/-! `opencti/queries.py`: the lookup query, and the part of OpenCTI that answers
it. The store is typed by the GraphQL schema and turned into the JSON the
mapper reads. -/
namespace OpenctiLookup
open Python

/-- `_eq`: one key, the `eq` operator, one value. -/
structure Filter where
  key : Str
  value : Str
deriving DecidableEq

def valueFilter (value : Str) : Filter := ⟨"value", value⟩

def hashFilter (algorithm digest : Str) : Filter := ⟨"hashes." ++ algorithm, digest⟩

/-- The variables of the `LOOKUP` document. -/
structure LookupRequest where
  filters : Filter
  types : List Str
deriving DecidableEq

inductive EntityType where
  | ipv4Addr
  | ipv6Addr
  | domainName
  | hostname
  | url
  | stixFile
deriving DecidableEq, Repr

namespace EntityType

def text : EntityType → Str
  | ipv4Addr => "IPv4-Addr"
  | ipv6Addr => "IPv6-Addr"
  | domainName => "Domain-Name"
  | hostname => "Hostname"
  | url => "Url"
  | stixFile => "StixFile"

end EntityType

section Schema

variable (rt : Runtime)

/-- A timezone-aware timestamp as the API spells it. -/
structure Timestamp where
  text : Str
  instant : ℚ
  nonempty : text ≠ []
  parses : rt.fromisoformat (replaceChar 'Z' "+00:00" text) = some (.aware instant)

structure Indicator where
  id : Str
  name : Option Str := none
  patternType : Option Str := none
  confidence : Option ℤ := none
  score : Option ℤ := none
  detection : Option Bool := none
  validFrom : Option (Timestamp rt) := none
  validUntil : Option (Timestamp rt) := none
  revoked : Option Bool := none
  description : Option Str := none
  labels : List Str := []
  markings : List Str := []
  createdBy : Option Str := none
  phases : List Str := []

structure Observable where
  id : Str
  entityType : EntityType
  value : Str
  score : Option ℤ := none
  markings : List Str := []
  /-- The digests of a file, by algorithm. -/
  hashes : List (Str × Str) := []
  indicators : List (Indicator rt)

end Schema

variable {rt : Runtime}

def Indicator.toJson (indicator : Indicator rt) : Json :=
  .obj [("id", .str indicator.id), ("name", .ofOption .str indicator.name),
    ("pattern_type", .ofOption .str indicator.patternType),
    ("confidence", .ofOption .int indicator.confidence),
    ("x_opencti_score", .ofOption .int indicator.score),
    ("x_opencti_detection", .ofOption .bool indicator.detection),
    ("valid_from", .ofOption (fun t => .str t.text) indicator.validFrom),
    ("valid_until", .ofOption (fun t => .str t.text) indicator.validUntil),
    ("revoked", .ofOption .bool indicator.revoked),
    ("description", .ofOption .str indicator.description),
    ("objectLabel", .ofTexts "value" indicator.labels),
    ("objectMarking", .ofTexts "definition" indicator.markings),
    ("createdBy", .ofOption (fun name => .obj [("name", .str name)]) indicator.createdBy),
    ("killChainPhases", .ofTexts "phase_name" indicator.phases)]

def Observable.toJson (observable : Observable rt) : Json :=
  .obj [("id", .str observable.id), ("entity_type", .str observable.entityType.text),
    ("observable_value", .str observable.value),
    ("x_opencti_score", .ofOption .int observable.score),
    ("objectMarking", .ofTexts "definition" observable.markings),
    ("indicators", .obj [("edges",
      .arr (observable.indicators.map fun indicator => .obj [("node", indicator.toJson)]))])]

/-- What a filter selects: the `value` key by equality on the stored text, files
excepted, and a `hashes` key by the digest of its algorithm. -/
def Observable.selectedBy (observable : Observable rt) (filters : Filter) : Prop :=
  (observable.entityType ≠ .stixFile ∧ filters = valueFilter observable.value) ∨
    ∃ hash ∈ observable.hashes, observable.entityType = .stixFile ∧
      filters = hashFilter hash.1 hash.2

instance (observable : Observable rt) (filters : Filter) :
    Decidable (observable.selectedBy filters) :=
  inferInstanceAs (Decidable (_ ∨ _))

def Observable.Matches (observable : Observable rt) (request : LookupRequest) : Prop :=
  observable.selectedBy request.filters ∧ observable.entityType.text ∈ request.types

instance (observable : Observable rt) (request : LookupRequest) :
    Decidable (observable.Matches request) :=
  inferInstanceAs (Decidable (_ ∧ _))

/-- An OpenCTI whose data does not change. Of the observables that match a
request, `first: 1` returns one of OpenCTI's choosing. -/
structure Upstream (rt : Runtime) where
  observables : List (Observable rt)
  pick : LookupRequest → Option (Observable rt)
  pick_mem : ∀ request observable, pick request = some observable →
    observable ∈ observables ∧ observable.Matches request
  pick_isSome : ∀ request, (∃ observable ∈ observables, observable.Matches request) →
    (pick request).isSome

/-- One that returns the first match in the order of its store. -/
def Upstream.ofList (observables : List (Observable rt)) : Upstream rt where
  observables := observables
  pick request := observables.find? fun observable => observable.Matches request
  pick_mem request observable h :=
    ⟨List.mem_of_find?_eq_some h, by simpa using List.find?_some h⟩
  pick_isSome request h := by
    obtain ⟨observable, hmem, hmatches⟩ := h
    exact List.find?_isSome.mpr ⟨observable, hmem, by simpa using hmatches⟩

/-- The `data` of the reply to a `LOOKUP`. -/
def Upstream.answer (upstream : Upstream rt) (request : LookupRequest) : Json :=
  .obj [("stixCyberObservables", .obj [("edges",
    .arr ((upstream.pick request).toList.map fun observable =>
      .obj [("node", observable.toJson)]))])]

end OpenctiLookup
