import OpenctiLookup.Opencti.PayloadRoom
import OpenctiLookup.Opencti.Events
import OpenctiLookup.Theory.Runs

/-! The byte budget of the payload cache. Its entries are counted as if each had at
most `payload_max_entry_bytes`, and the mapper bounds characters, field by field,
but neither the fields together nor the value and the links. What OpenCTI sends has to leave
the room. -/
namespace OpenctiLookup
open Python Theory

variable (rt : Runtime) (settings : Settings) (budgetBytes : ℕ)

/-- Every payload stored fits an entry, and all of them the budget. -/
structure WithinBudget (cache : PayloadCache Payload) : Prop where
  entries : ∀ e ∈ cache.data, (e.2.1.bytes : ℤ) ≤ settings.payloadMaxEntryBytes
  total : settings.payloadMaxEntryBytes ≤ budgetBytes →
    ((cache.data.map fun e => e.2.1.bytes).sum : ℤ) ≤ budgetBytes

variable {rt} in
/-- The room for what a fetch gives, from the texts of the node OpenCTI returns. The record of
a miss takes 17 bytes. -/
def Upstream.room (now : ℚ) (upstream : Upstream rt) (value : Normalized) : ℕ :=
  match upstream.hit settings now (LiveBackend.request settings value.value value.type) with
  | some hit => hit.1.room settings now hit.2 value.value value.value
  | none =>
      match LiveBackend.fallbackHost rt settings value with
      | none => 17
      | some host =>
          match upstream.hit settings now (LiveBackend.request settings host .domain) with
          | some hit => hit.1.room settings now hit.2 host value.value + (19 + quotedBytes host)
          | none => 17

section Bytes

variable {rt settings}

end Bytes

section Run

variable {rt settings budgetBytes} {cache cache' : PayloadCache Payload}

end Run

section Sample

end Sample

end OpenctiLookup
