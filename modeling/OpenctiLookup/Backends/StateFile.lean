import OpenctiLookup.Backends.SharedState
import OpenctiLookup.Python.JsonText

/-! `backends/shared_state.py`: the text of the state file. -/
namespace OpenctiLookup
open Python JsonText

/-- The fields of `SharedMembershipState`, in their order. -/
def stateFields : List Str := ["shm_name", "count", "generation", "built_at", "corpus"]

/-- A `SharedMembershipState` as `read` makes it: the types of its fields are not checked. -/
structure RawState where
  shmName : Json
  count : Json
  generation : Json
  builtAt : Json
  corpus : Json

/-- `SharedMembershipState(**raw)`, where a `TypeError` is no state: every field is given, and
nothing else. -/
def RawState.ofJson : Json → Option RawState
  | .obj entries =>
      let field (key : Str) : Option Json := entries.lookup key
      if entries.all fun entry => decide (entry.1 ∈ stateFields) then do
        let shmName ← field "shm_name"
        let count ← field "count"
        let generation ← field "generation"
        let builtAt ← field "built_at"
        let corpus ← field "corpus"
        pure ⟨shmName, count, generation, builtAt, corpus⟩
      else none
  | _ => none

namespace SharedMembershipState

variable (state : SharedMembershipState)

def asdict : Json :=
  .obj
    [("shm_name", .str state.shmName), ("count", .int state.count),
      ("generation", .int state.generation), ("built_at", .float state.builtAt),
      ("corpus", .int state.corpus)]

def raw : RawState :=
  ⟨.str state.shmName, .int state.count, .int state.generation, .float state.builtAt,
    .int state.corpus⟩

end SharedMembershipState

variable (floats : Floats)

/-- What `publish` writes. -/
def stateText (state : SharedMembershipState) : Str := dumps floats state.asdict

/-- `read`, of a file that is not there or has this text. -/
def readText (depth : ℕ) : Option Str → Py (Option RawState)
  | none => .ok none
  | some text =>
      match loads floats depth text with
      | .ok raw => .ok (RawState.ofJson raw)
      | .error (.raised .valueError) => .ok none
      | .error e => .error e

/-- A state that `publish` can write and `read` can take. -/
structure Storable (state : SharedMembershipState) : Prop where
  count : (decimal state.count).length ≤ maxStrDigits
  generation : (decimal state.generation).length ≤ maxStrDigits
  builtAt : floats.Reads state.builtAt
  corpus : (decimal state.corpus.natAbs).length ≤ maxStrDigits

variable {floats} {state : SharedMembershipState}

theorem Storable.writable (h : Storable floats state) (depth : ℕ) :
    Writable floats (depth + 1) state.asdict := by
  have hkeys : stateFields.Nodup := by decide
  unfold SharedMembershipState.asdict
  rw [Writable]
  refine ⟨hkeys, ?_⟩
  simp only [WritableFields, Writable]
  exact ⟨trivial, h.count, h.generation, h.builtAt, h.corpus, trivial⟩

theorem Storable.readText (h : Storable floats state) (depth : ℕ) :
    readText floats (depth + 1) (some (stateText floats state)) = .ok (some state.raw) := by
  have hloads := loads_dumps (h.writable depth)
  unfold OpenctiLookup.readText stateText
  dsimp only
  rw [hloads]
  rfl

end OpenctiLookup
