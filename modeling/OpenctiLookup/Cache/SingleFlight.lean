import Mathlib.Data.List.AList
import OpenctiLookup.Python.Text

/-! `cache/singleflight.py`: one run of `fn` for a key at a time, and a future that those who
ask meanwhile wait on. `do` is cut where it suspends. -/
namespace OpenctiLookup
open Python

/-- How an `fn` ends, and a future with it. -/
inductive Ending (α ε : Type) where
  | result (value : α)
  | raised (error : ε)
  /-- `CancelledError`. -/
  | cancelled
deriving DecidableEq

structure SingleFlight (α ε : Type) where
  /-- `_inflight`: the future of each key that is being run. -/
  inflight : AList fun _ : Str => ℕ
  /-- The futures made so far, none while pending. -/
  futures : List (Option (Ending α ε))

/-- What the beginning of a `do` leads to: a run of its own, or a wait on another's. -/
structure Ticket where
  future : ℕ
  leads : Bool
deriving DecidableEq

namespace SingleFlight

variable {α ε : Type}

def empty : SingleFlight α ε := ⟨∅, []⟩

/-- `do` up to its first suspension. -/
def begin (flight : SingleFlight α ε) (key : Str) : Ticket × SingleFlight α ε :=
  match flight.inflight.lookup key with
  | some future => (⟨future, false⟩, flight)
  | none =>
      (⟨flight.futures.length, true⟩,
        { inflight := flight.inflight.insert key flight.futures.length
          futures := flight.futures ++ [none] })

def ending (flight : SingleFlight α ε) (future : ℕ) : Option (Ending α ε) :=
  flight.futures[future]?.join

/-- `do` from the end of `fn` on. `set_exception` takes a `CancelledError` like any other
exception, and the key is dropped whatever the ending. -/
def settle (flight : SingleFlight α ε) (key : Str) (future : ℕ) (ending : Ending α ε) :
    SingleFlight α ε where
  inflight := flight.inflight.erase key
  futures :=
    if (flight.ending future).isSome then flight.futures
    else flight.futures.set future (some ending)

section Lookup

variable (flight : SingleFlight α ε) {key : Str}

theorem begin_of_lookup {future : ℕ} (h : flight.inflight.lookup key = some future) :
    flight.begin key = (⟨future, false⟩, flight) := by
  rw [begin, h]

theorem begin_of_none (h : flight.inflight.lookup key = none) :
    flight.begin key = (⟨flight.futures.length, true⟩,
      ⟨flight.inflight.insert key flight.futures.length, flight.futures ++ [none]⟩) := by
  rw [begin, h]

theorem ending_append_none (future : ℕ) (inflight : AList fun _ : Str => ℕ) :
    SingleFlight.ending ⟨inflight, flight.futures ++ [none]⟩ future = flight.ending future := by
  unfold ending
  rcases Nat.lt_trichotomy future flight.futures.length with h | rfl | h
  · rw [List.getElem?_append_left h]
  · simp
  · rw [List.getElem?_eq_none (by rw [List.length_append]; exact h), List.getElem?_eq_none h.le]

theorem length_settle (key : Str) (future : ℕ) (ending : Ending α ε) :
    (flight.settle key future ending).futures.length = flight.futures.length := by
  unfold settle
  split
  · rfl
  · exact List.length_set

theorem ending_settle (key : Str) {future : ℕ} (ending : Ending α ε)
    (hpending : flight.ending future = none) (hlt : future < flight.futures.length) (other : ℕ) :
    (flight.settle key future ending).ending other =
      if other = future then some ending else flight.ending other := by
  unfold settle
  rw [hpending, if_neg (by simp)]
  unfold SingleFlight.ending
  dsimp only
  split
  · rename_i heq
    rw [heq, List.getElem?_set_self hlt]
    rfl
  · rename_i hne
    rw [List.getElem?_set_ne (Ne.symm hne)]

end Lookup

end SingleFlight

end OpenctiLookup
