import OpenctiLookup.Cache.Payload
import OpenctiLookup.Opencti.Queries

/-! `backends/live.py`: one query per value, behind the payload cache. -/
namespace OpenctiLookup
open Python

/-- `OpenCTIClient.execute` on the lookup document: the `data` of the reply, or
the exception. -/
abbrev Client := LookupRequest → Py Json

def breakerOpenError (message : Str) : Fault := .raised (.custom "BreakerOpenError" message)
def openctiError (message : Str) : Fault := .raised (.custom "OpenCTIError" message)

structure LookupResult where
  payload : Payload
  /-- Which tier answered. -/
  source : Str
deriving DecidableEq

structure LiveBackend where
  cache : PayloadCache Payload
deriving DecidableEq

namespace LiveBackend

variable (rt : Runtime) (settings : Settings) (client : Client) (now : ℚ)

def request (value : Str) (kind : IndicatorType) : LookupRequest where
  filters :=
    match kind.hashAlgorithm with
    | some algorithm => hashFilter algorithm value
    | none => valueFilter value
  types := settings.queryTypesFor kind.value

/-- `_query` on the reply. -/
def readReply (data : Json) (value : Str) (kind : IndicatorType) (matchType : Str) :
    Py (Option Payload) := do
  let block := (← data.get "stixCyberObservables").orElse (.obj [])
  let edges := (← block.get "edges").orElse (.arr [])
  if !edges.truthy then pure none
  else
    let node := (← (← edges.head).get "node").orElse (.obj [])
    let entityType := (← node.get "entity_type").orElse (.str kind.value)
    buildPayload rt settings now node value entityType matchType

def query (value : Str) (kind : IndicatorType) (matchType : Str) : Py (Option Payload) := do
  readReply rt settings now (← client (request settings value kind)) value kind matchType

/-- The hostname the URL fallback asks about, if any. -/
def fallbackHost (value : Normalized) : Option Str :=
  if value.type = .url ∧ settings.urlHostnameFallback then
    (urlHostname rt value.value).filter fun host => !host.isEmpty
  else none

/-- `_fetch`: the exact match, then the hostname of a URL. -/
def fetch (value : Normalized) : Py Payload := do
  match ← query rt settings client now value.value value.type "exact" with
  | some payload => pure payload
  | none =>
      match fallbackHost rt settings value with
      | none => pure miss
      | some host =>
          match ← query rt settings client now host .domain "hostname" with
          | some payload => pure ((payload.set "value" value.value).set "matched_value" host)
          | none => pure miss

def cacheKey (value : Normalized) : Str := settings.cacheKeyVersion ++ ":" ++ value.cacheKey

/-- The exceptions `lookup` turns into a degraded answer. -/
def isUpstreamError : Fault → Bool
  | .raised (.custom cls _) => cls = "BreakerOpenError".toList || cls = "OpenCTIError".toList
  | _ => false

/-- `lookup` at the monotonic time `mono`, with `now` on the wall clock. -/
def lookup (mono : ℚ) (backend : LiveBackend) (value : Normalized) :
    Py (LookupResult × LiveBackend) :=
  if !value.lookupable then .ok (⟨miss, "skip"⟩, backend)
  else
    let key := cacheKey settings value
    match backend.cache.get key mono with
    | (some cached, cache) => .ok (⟨cached, "payload_cache"⟩, { backend with cache := cache })
    | (none, cache) =>
        match fetch rt settings client now value with
        | .ok payload =>
            .ok (⟨payload, "opencti"⟩, { backend with cache := cache.set key payload mono })
        | .error fault =>
            if isUpstreamError fault then
              .ok (⟨degradedPayload, "degraded"⟩, { backend with cache := cache })
            else .error fault

theorem lookup_of_fresh {mono : ℚ} {backend : LiveBackend} {value : Normalized} {payload : Payload}
    (hlookupable : value.lookupable = true)
    (hfresh : backend.cache.fresh (cacheKey settings value) mono payload) :
    lookup rt settings client now mono backend value =
      .ok (⟨payload, "payload_cache"⟩,
        { backend with cache := (backend.cache.get (cacheKey settings value) mono).2 }) := by
  have hget := PayloadCache.get_fst_eq_some_iff.mpr hfresh
  unfold lookup
  rw [hlookupable]
  cases hpair : backend.cache.get (cacheKey settings value) mono with
  | mk cached cache =>
      rw [hpair] at hget
      obtain rfl : cached = some payload := hget
      simp [hpair]

end LiveBackend

end OpenctiLookup
