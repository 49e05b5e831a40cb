import OpenctiLookup.Backends.Live
import OpenctiLookup.Theory.Tally

/-! `obs/metrics.py`: the counters of the lookup endpoint, and what it adds to them. -/
namespace OpenctiLookup
open Python Theory

/-- The labels of `LOOKUPS`. -/
structure LookupLabels where
  result : Str
  source : Str
  type : Str
deriving DecidableEq

/-- `LOOKUPS`, how often `LOOKUP_LATENCY` was observed for a source, and `DEGRADED`. -/
structure Metrics where
  lookups : LookupLabels → ℕ := fun _ => 0
  latencies : Str → ℕ := fun _ => 0
  degraded : ℕ := 0

def lookupLabels (result : LookupResult) (kind : IndicatorType) : LookupLabels where
  result := (result.payload.get "found").getD "false"
  source := result.source
  type := kind.value

def saysDegraded (payload : Payload) : Bool :=
  decide (payload.get "degraded" = some "true".toList)

def Metrics.observe (metrics : Metrics) (result : LookupResult) (kind : IndicatorType) :
    Metrics where
  lookups := bump metrics.lookups (lookupLabels result kind)
  latencies := bump metrics.latencies result.source
  degraded := if saysDegraded result.payload then metrics.degraded + 1 else metrics.degraded

end OpenctiLookup
