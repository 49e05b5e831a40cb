import OpenctiLookup.Opencti.Stream

/-! `StreamConsumer.run` and `_consume_once`: connect, read until the connection ends,
wait, connect again. The runs here are those during which `stop` is not called. -/
namespace OpenctiLookup
open Python

/-- `random.random()`. -/
structure Draw where
  value : ℚ
  nonneg : 0 ≤ value
  lt_one : value < 1

inductive Attempt where
  /-- No answer: connecting raised, with this text. -/
  | unreachable (error : Str)
  /-- An answer. After a 200 these events arrive, each at its time; then the server
  closes the stream, or reading it raises with the text in `broken`. -/
  | answered (status : ℕ) (reasonPhrase : Str) (events : List (ℚ × StreamEvent))
      (broken : Option Str)

/-- Whether the attempt gets as far as `stats.connected = True`. -/
def Attempt.establishes : Attempt → Bool
  | .unreachable _ => false
  | .answered status _ _ _ => status = 200

/-- How `_consume_once` ends: it returns, it raises, or it never comes back. -/
inductive ConsumeEnd where
  | returned
  | raised (error : Str)
  | stuck
deriving DecidableEq

/-- How an attempt ended, and whether it was connected first. -/
inductive AttemptEnd where
  /-- An exception before the connection was established. -/
  | refused
  /-- An exception on an established connection. -/
  | broken
  /-- The server closed the stream. -/
  | closed
deriving DecidableEq

/-- What `run` holds: the consumer with the two counters only the loop writes, what its
callbacks act on, and the local `backoff`. -/
structure ConsumerLoop (τ : Type) where
  consumer : StreamConsumer
  target : τ
  reconnects : ℕ := 0
  lastError : Option Str := none
  backoff : ℚ := 1

/-- One turn of the loop: where it asked the stream to resume, how the attempt ended, and
how many seconds `run` waited before the next one. -/
structure LoopRound where
  resumeFrom : Option Str
  outcome : AttemptEnd
  wait : ℚ

variable (rt : Runtime) {τ : Type} (callbacks : Callbacks τ) (describe : PyErr → Str)

/-- The `async for` over the events of a connection. -/
def StreamConsumer.handleAll : List (ℚ × StreamEvent) → StreamConsumer → τ → Handled τ
  | [], consumer, target => ⟨consumer, target, none⟩
  | (now, event) :: rest, consumer, target =>
      let handled := StreamConsumer.handle rt callbacks now event consumer target
      match handled.fault with
      | some _ => handled
      | none => handleAll rest handled.consumer handled.target

/-- `str(exc)[:200]`, kept in `stats.last_error`. -/
def errorText (error : Str) : Str := error.take 200

/-- `min(backoff, 60.0) * (0.5 + random.random())`. -/
def reconnectDelay (backoff : ℚ) (draw : Draw) : ℚ := min backoff 60 * (1 / 2 + draw.value)

/-- The message of `StreamRefusedError`. -/
def refusalText (status : ℕ) (reasonPhrase : Str) : Str :=
  "refused: HTTP ".toList ++ decimal status ++ " ".toList ++ reasonPhrase

namespace ConsumerLoop

/-- `stats.connected`. -/
def setConnected (connected : Bool) (loop : ConsumerLoop τ) : ConsumerLoop τ :=
  { loop with
    consumer := { loop.consumer with
      stats := { loop.consumer.stats with connected := connected } } }

/-- `params = {"from": self._cursor} if self._cursor else {}`. -/
def resumeFrom (loop : ConsumerLoop τ) : Option Str :=
  loop.consumer.cursor.filter fun cursor => !cursor.isEmpty

def afterEvents (loop : ConsumerLoop τ) (handled : Handled τ) (broken : Option Str) :
    ConsumerLoop τ × ConsumeEnd :=
  ({ loop with consumer := handled.consumer, target := handled.target },
    match handled.fault with
    | some .diverges => .stuck
    | some (.raised error) => .raised (describe error)
    | none =>
      match broken with
      | some error => .raised error
      | none => .returned)

def consumeOnce (loop : ConsumerLoop τ) : Attempt → ConsumerLoop τ × ConsumeEnd
  | .unreachable error => (loop, .raised error)
  | .answered status reasonPhrase events broken =>
      if status ≠ 200 then (loop, .raised (refusalText status reasonPhrase))
      else
        let connected := { loop.setConnected true with lastError := none }
        connected.afterEvents describe
          (StreamConsumer.handleAll rt callbacks events connected.consumer connected.target) broken

/-- The `except` branch, up to the wait. -/
def afterRaise (loop : ConsumerLoop τ) (error : Str) : ConsumerLoop τ :=
  { loop.setConnected false with
    lastError := some (errorText error)
    reconnects := loop.reconnects + 1
    backoff := min (loop.backoff * 2) 60 }

/-- One turn of the `while`; none when the attempt never comes back. -/
def turn (loop : ConsumerLoop τ) (attempt : Attempt) (draw : Draw) :
    Option (LoopRound × ConsumerLoop τ) :=
  match loop.consumeOnce rt callbacks describe attempt with
  | (_, .stuck) => none
  | (after, .returned) => some (⟨loop.resumeFrom, .closed, 0⟩, { after with backoff := 1 })
  | (after, .raised error) =>
      some (⟨loop.resumeFrom, if attempt.establishes then .broken else .refused,
        reconnectDelay after.backoff draw⟩, after.afterRaise error)

/-- The turns `run` makes over what its attempts meet, and the state they leave. -/
def turns : ConsumerLoop τ → List (Attempt × Draw) → List LoopRound × ConsumerLoop τ
  | loop, [] => ([], loop)
  | loop, (attempt, draw) :: rest =>
      match loop.turn rt callbacks describe attempt draw with
      | none => ([], loop)
      | some (round, loop) =>
          let (log, final) := turns loop rest
          (round :: log, final)

/-- `run`, started on a consumer. `backoff` is the loop's own and starts at 1. -/
def run (consumer : StreamConsumer) (target : τ) (attempts : List (Attempt × Draw)) :
    List LoopRound :=
  (turns rt callbacks describe { consumer, target } attempts).1

end ConsumerLoop

end OpenctiLookup
