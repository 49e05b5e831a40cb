import OpenctiLookup.Python.Runtime

/-! `opencti/stream.py`: what the live-stream consumer does with one event. The
consumer's own state is separate from the target its callbacks act on. -/
namespace OpenctiLookup
open Python

def observableTypes : List Str := ["ipv4-addr", "ipv6-addr", "domain-name", "url", "hostname"]

def addEvents : List Str := ["create", "update", "merge"]
def removeEvents : List Str := ["delete"]
def heartbeatEvents : List Str := ["heartbeat"]
def metricsEvents : List Str := ["consumer_metrics"]

/-- One server-sent event. `data` is what `json.loads` makes of its text: a value,
a `ValueError`, or a `RecursionError` for one nested too deep. -/
structure StreamEvent where
  kind : Str
  id : Option Str
  data : Py Json

variable (rt : Runtime)

def observableValues (items : List Json) : List Str :=
  items.filterMap fun observable =>
    match observable with
    | .obj fields =>
        let value := Json.field fields "value"
        if value.truthy then some (rt.strOf value) else none
    | _ => none

/-- The loop over the extensions of an indicator: the values it yields, and the
exception it ends in, if any. -/
def extensionValues : List Json → List Str × Option Fault
  | [] => ([], none)
  | .obj fields :: rest =>
      match ((Json.field fields "observable_values").orElse (.arr [])).iter with
      | .error fault => ([], some fault)
      | .ok items =>
          let (values, fault) := extensionValues rest
          (observableValues rt items ++ values, fault)
  | _ :: rest => extensionValues rest

/-- `extract_values`: a generator, so what it yields before it raises counts. -/
def extractValues (payload : List (Str × Json)) : List Str × Option Fault :=
  match Json.field payload "data" with
  | .obj stix =>
      match Json.field stix "type" with
      | .str stixType =>
          if stixType = "indicator" then
            match ((Json.field stix "extensions").orElse (.obj [])).values with
            | .error fault => ([], some fault)
            | .ok extensions => extensionValues rt extensions
          else
            let value := Json.field stix "value"
            if stixType ∈ observableTypes ∧ value.truthy then ([rt.strOf value], none)
            else ([], none)
      -- Looking a list or a `dict` up in a set raises.
      | .arr _ => ([], some (.raised .typeError))
      | .obj _ => ([], some (.raised .typeError))
      | _ => ([], none)
  | _ => ([], none)

/-- What a consumer is wired to. -/
structure Callbacks (τ : Type) where
  onAdd : Str → τ → Py τ
  onRemove : Str → τ → Py τ
  normalize : Str → Py (Option Str)
  overlayFull : τ → Bool
  onOverlayFull : τ → τ

structure StreamStats where
  connected : Bool := false
  eventsApplied : ℕ := 0
  eventsSkipped : ℕ := 0
  adds : ℕ := 0
  removes : ℕ := 0
  heartbeats : ℕ := 0
  lastEventId : Option Str := none
  lastActivityAt : ℚ := 0
  lastEventAt : ℚ := 0
deriving DecidableEq

structure StreamConsumer where
  /-- `_cursor`. -/
  cursor : Option Str := none
  stats : StreamStats := {}
deriving DecidableEq

/-- What an event leaves: consumer, target and the exception that escaped. -/
structure Handled (τ : Type) where
  consumer : StreamConsumer
  target : τ
  fault : Option Fault

namespace StreamConsumer

variable {τ : Type} (callbacks : Callbacks τ)

/-- The loop over the extracted values, with the number applied. -/
def applyValues (removing : Bool) : List Str → ℕ → τ → ℕ × τ × Option Fault
  | [], touched, target => (touched, target, none)
  | raw :: rest, touched, target =>
      match callbacks.normalize raw with
      | .error fault => (touched, target, some fault)
      | .ok none => applyValues removing rest touched target
      | .ok (some value) =>
          match if removing then callbacks.onRemove value target
            else callbacks.onAdd value target with
          | .error fault => (touched, target, some fault)
          | .ok target => applyValues removing rest (touched + 1) target

def skip (consumer : StreamConsumer) : StreamConsumer :=
  { consumer with
    stats := { consumer.stats with eventsSkipped := consumer.stats.eventsSkipped + 1 } }

/-- The end of `_handle`, after the loop over the values. -/
def finish (now : ℚ) (touched : ℕ) (consumer : StreamConsumer) (target : τ) : Handled τ :=
  if touched = 0 then ⟨consumer.skip, target, none⟩
  else
    let stats := { consumer.stats with
      eventsApplied := consumer.stats.eventsApplied + 1, lastEventAt := now }
    ⟨{ consumer with stats := stats },
      if callbacks.overlayFull target then callbacks.onOverlayFull target else target, none⟩

/-- `_handle` on a create, update, merge or delete whose data is an object. -/
def apply (now : ℚ) (removing : Bool) (payload : List (Str × Json)) (consumer : StreamConsumer)
    (target : τ) : Handled τ :=
  let (values, raised) := extractValues rt payload
  let (touched, target, fault) := applyValues callbacks removing values 0 target
  let stats := consumer.stats
  let consumer := { consumer with
    stats := if removing then { stats with removes := stats.removes + touched }
      else { stats with adds := stats.adds + touched } }
  match fault, raised with
  | some fault, _ => ⟨consumer, target, some fault⟩
  | none, some raised => ⟨consumer, target, some raised⟩
  | none, none => finish callbacks now touched consumer target

/-- `float(json.loads(data).get("timeLag", 0.0))`: data nested too deep and an
integer too large for a float raise something the handler does not suppress. -/
def timeLagFault : Py Json → Option Fault
  | .ok (.obj fields) =>
      match Json.field fields "timeLag" with
      | .int n => if 2 ^ 1024 - 2 ^ 970 ≤ n.natAbs then some (.raised .overflowError) else none
      | _ => none
  | .ok _ => none
  | .error (.raised .valueError) => none
  | .error fault => some fault

/-- `_handle`. The cursor moves first, whatever becomes of the event. -/
def handle (now : ℚ) (event : StreamEvent) (consumer : StreamConsumer) (target : τ) : Handled τ :=
  let consumer :=
    match event.id with
    | some id =>
        if id.isEmpty then consumer
        else
          { consumer with
            cursor := some id
            stats := { consumer.stats with lastEventId := some id } }
    | none => consumer
  let consumer := { consumer with stats := { consumer.stats with lastActivityAt := now } }
  if event.kind ∈ heartbeatEvents then
    ⟨{ consumer with stats := { consumer.stats with heartbeats := consumer.stats.heartbeats + 1 } },
      target, none⟩
  else if event.kind ∈ metricsEvents then ⟨consumer, target, timeLagFault event.data⟩
  else if event.kind = "connected" then ⟨consumer, target, none⟩
  else if event.kind ∉ addEvents ∧ event.kind ∉ removeEvents then ⟨consumer.skip, target, none⟩
  else
    match event.data with
    | .ok (.obj payload) =>
        apply rt callbacks now (decide (event.kind ∈ removeEvents)) payload consumer target
    | .ok _ => ⟨consumer.skip, target, none⟩
    | .error (.raised .valueError) => ⟨consumer.skip, target, none⟩
    | .error fault => ⟨consumer, target, some fault⟩

end StreamConsumer

end OpenctiLookup
