import OpenctiLookup.Python.JsonText
import OpenctiLookup.Wazuh.Extraction

/-! `wazuh/custom-opencti.py`: what the integration writes back for an alert, and the run of
the script. -/
namespace OpenctiLookup.Wazuh
open Python JsonText

def integrationName : Str := "opencti"

/-- `isinstance(v, (str, int, float))`: a `bool` is an `int`. -/
def isScalar : Json → Bool
  | .str _ | .int _ | .float _ | .bool _ => true
  | _ => false

variable (rt : Runtime)

def buildEvent (alert : Json) (indicator : Str) (result : List (Str × Json)) : Py Json := do
  let rule := (← alert.get "rule").orElse (.obj [])
  let enrichment := result.filter fun entry => isScalar entry.2
  let enrichment := setField "indicator" (.str indicator) enrichment
  let ruleId ← rule.getD "id" (.str "")
  let enrichment := setField "source_rule_id" (.str (rt.strOf ruleId)) enrichment
  let description ← rule.getD "description" (.str "")
  let enrichment :=
    setField "source_rule_description" (.str ((rt.strOf description).take 256)) enrichment
  let alertId ← alert.getD "id" (.str "")
  let enrichment := setField "source_alert_id" (.str (rt.strOf alertId)) enrichment
  pure (.obj [("integration", .str integrationName), (integrationName, .obj enrichment)])

def locationOf (agent : Json) : Py Str := do
  let id ← agent.get "id"
  let name ← agent.get "name"
  let ip ← agent.getD "ip" (.str "any")
  pure ("[" ++ rt.strOf id ++ "] (" ++ rt.strOf name ++ ") " ++ rt.strOf ip)

/-- The two replacements of `send_event`. -/
def escapeLocation (location : Str) : Str := replaceChar ':' "|:" (replaceChar '|' "||" location)

variable (floats : Floats)

/-- The datagram that `send_event` writes. -/
def eventPayload (message agent : Json) : Py Str :=
  let here : Str := "1:" ++ integrationName ++ ":" ++ dumps floats message
  if !agent.truthy then .ok here
  else do
    if Api.text? (← agent.get "id") = some "000".toList then pure here
    else
      let location ← locationOf rt agent
      pure ("1:" ++ escapeLocation location ++ "->" ++ integrationName ++ ":" ++
        dumps floats message)

/-- `result.get("found") == "true"`. -/
def isHit (result : List (Str × Json)) : Bool :=
  decide (Api.text? (Json.field result "found") = some "true".toList)

def datagramOf (alert agent : Json) (indicator : Str) (result : List (Str × Json)) : Py Str := do
  let event ← buildEvent rt alert indicator result
  eventPayload rt floats event agent

/-- An event as `send_event` leaves it: its datagram, and whether analysisd's socket took it.
Without the socket, or when the datagram is too large for it, the `OSError` is logged and the
event is gone. -/
structure Sending where
  datagram : Str
  taken : Bool
deriving DecidableEq

variable (takes : ℕ → Str → Bool)

/-- The loop of `main`, up to what it raises; `takes` is what the socket makes of the `n`-th
datagram. -/
def sendEvents (alert agent : Json) : ℕ → List (Str × Json) → List Sending
  | _, [] => []
  | n, (indicator, .obj result) :: rest =>
      if isHit result then
        match datagramOf rt floats alert agent indicator result with
        | .ok datagram => ⟨datagram, takes n datagram⟩ :: sendEvents alert agent (n + 1) rest
        | .error _ => []
      else sendEvents alert agent n rest
  | n, _ :: rest => sendEvents alert agent n rest

/-- What `open` finds under a path. -/
inductive AlertFile where
  | missing
  | unreadable
  | undecodable
  | text (s : Str)

/-- How the script ends: its exit code, and the events it has sent off. -/
structure Ended where
  exitCode : ℕ
  sendings : List Sending := []
deriving DecidableEq

def errBadArguments : ℕ := 2
def errFileNotFound : ℕ := 6
def errInvalidJson : ℕ := 7

variable (depth : ℕ) (files : Str → AlertFile) (urlopen : WebRequest → Option HttpReply)

/-- `main` behind `load_alert`. What is raised here is logged, and the script exits with 0. -/
def handleAlert (apiKey hookUrl : Str) (alert : Json) : Ended :=
  match extractIndicators rt alert with
  | [] => { exitCode := 0 }
  | indicators =>
      match lookup urlopen hookUrl apiKey indicators, alert.get "agent" with
      | .ok results, .ok agent =>
          { exitCode := 0, sendings := sendEvents rt floats takes alert agent 0 results }
      | _, _ => { exitCode := 0 }

def main (argv : List Str) : Ended :=
  match argv with
  | _ :: alertFile :: apiKey :: hookUrl :: _ =>
      if apiKey.isEmpty || hookUrl.isEmpty then { exitCode := errBadArguments }
      else
        match files alertFile with
        | .missing => { exitCode := errFileNotFound }
        | .unreadable => { exitCode := 0 }
        | .undecodable => { exitCode := errInvalidJson }
        | .text s =>
            match loads floats depth s with
            | .ok alert => handleAlert rt floats takes urlopen apiKey hookUrl alert
            | .error (.raised .valueError) => { exitCode := errInvalidJson }
            | .error _ => { exitCode := 0 }
  | _ => { exitCode := errBadArguments }

end OpenctiLookup.Wazuh
