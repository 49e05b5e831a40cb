import OpenctiLookup.Backends.Live
import OpenctiLookup.Opencti.Breaker

/-! `OpenCTIClient.execute` of `opencti/client.py`: what OpenCTI's behaviour comes to,
and what the breaker is told of it. -/
namespace OpenctiLookup
open Python

/-- What comes of one `post`. The body is what `orjson.loads` makes of its bytes. -/
inductive Reply where
  | connectError (detail : Str)
  | timeout (detail : Str)
  | httpError (detail : Str)
  | response (status : ℕ) (body : Option Json)

/-- A `record_success`, or a `record_failure` with its reason, which is the
`_last_error` it leaves. -/
inductive Report where
  | success
  | failure (reason : Str)
deriving DecidableEq

/-- What an `execute` tells the breaker, and what it returns or raises. -/
structure Execution where
  reports : List Report
  result : Py Json

def Execution.failed (reason message : Str) : Execution :=
  ⟨[.failure reason], .error (openctiError message)⟩

variable (rt : Runtime)

/-- `str(errors[0].get("message", errors[0]))[:200]`. -/
def graphqlMessage (errors : Json) : Py Str := do
  let first ← errors.head
  pure ((rt.strOf (← first.getD "message" first)).take 200)

def readBody (body : Json) : Execution :=
  match body.get "errors" with
  -- An exception of its own leaves the breaker untold.
  | .error fault => ⟨[], .error fault⟩
  | .ok errors =>
      if errors.truthy then
        match graphqlMessage rt errors with
        | .error fault => ⟨[], .error fault⟩
        | .ok message => .failed ("graphql: " ++ message) ("graphql error: " ++ message)
      else ⟨[.success], do pure ((← body.get "data").orElse (.obj []))⟩

/-- The loop over the attempts: only a failed connection is worth another one. -/
def attempts : List Reply → Execution
  | [] => ⟨[], .error (openctiError "unreachable")⟩
  | .connectError detail :: rest =>
      if rest.isEmpty then .failed ("connect: " ++ detail) ("connect failed: " ++ detail)
      else attempts rest
  | .timeout detail :: _ => .failed ("timeout: " ++ detail) ("timeout: " ++ detail)
  | .httpError detail :: _ => .failed ("http: " ++ detail) ("http error: " ++ detail)
  | .response status body :: _ =>
      if status ≠ 200 then
        .failed ("status " ++ decimal status) ("unexpected status " ++ decimal status)
      else
        match body with
        | none => .failed "malformed json" "malformed json from OpenCTI"
        | some body => readBody rt body

/-- What an `execute` meets: the breaker when it is called, and the reply to each attempt. -/
structure Exchange where
  breaker : CircuitBreaker
  calledAt : ℚ
  replies : ℕ → Reply

def Exchange.refused (exchange : Exchange) : Bool := !exchange.breaker.allows exchange.calledAt

def execute (retryConnect : Bool) (exchange : Exchange) : Execution :=
  if exchange.refused then ⟨[], .error (breakerOpenError "circuit breaker open")⟩
  else attempts rt ((List.range (if retryConnect then 2 else 1)).map exchange.replies)

def clientOf (exchange : LookupRequest → Exchange) : Client := fun request =>
  (execute rt true (exchange request)).result

end OpenctiLookup
