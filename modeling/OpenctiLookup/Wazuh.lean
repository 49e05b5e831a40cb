import OpenctiLookup.Api

/-! `wazuh/custom-opencti.py`: the lookups of the integration, which asks for one indicator
and for several in different ways. -/
namespace OpenctiLookup
open Python

/-- A `urllib.request.Request`. -/
structure WebRequest where
  url : Str
  method : Method
  headers : List (Str × Str)
  /-- The value of the data, if there is any. -/
  data : Option Json

namespace Wazuh

def maxIndicatorsPerAlert : ℕ := 16

/-- The hook URL without the `/lookup` it may end in. -/
def baseOf (baseUrl : Str) : Str :=
  let base := rstripChars "/" baseUrl
  if ("/lookup" : Str).isSuffixOf base then base.take (base.length - ("/lookup" : Str).length)
  else base

def isHttp (url : Str) : Bool := startsWith "http://" url || startsWith "https://" url

section Requests

variable (urlopen : WebRequest → Option HttpReply)

/-- `_request`, on an `urlopen` that gives nothing when the connection fails or the time
is up. A reply with another status is an `HTTPError`. -/
def request (url apiKey : Str) (payload : Option Json) : Option Json :=
  if !isHttp url then none
  else
    let opened := urlopen {
      url
      method := if payload.isSome then .post else .get
      headers := ("X-API-Key", apiKey) ::
        (if payload.isSome then [("Content-Type", "application/json")] else [])
      data := payload }
    match opened with
    | some reply => if 200 ≤ reply.status ∧ reply.status < 300 then reply.body else none
    | none => none

def lookup (baseUrl apiKey : Str) (indicators : List Str) : Py (List (Str × Json)) :=
  let base := baseOf baseUrl
  match indicators with
  | [indicator] =>
      match request urlopen (base ++ "/lookup?" ++ urlencode "value" indicator) apiKey none with
      | some body => .ok (if body.truthy then [(indicator, body)] else [])
      | none => .ok []
  | _ =>
      match request urlopen (base ++ "/lookup/bulk") apiKey
          (some (.obj [("values", .arr (indicators.map .str))])) with
      | some body =>
          if !body.truthy then .ok []
          else do
            match ← body.get "results" with
            | .obj fields => pure fields
            | _ => pure []
      | none => .ok []

variable {urlopen}

theorem lookup_one (baseUrl apiKey indicator : Str) :
    lookup urlopen baseUrl apiKey [indicator] =
      match request urlopen (baseOf baseUrl ++ (("/lookup?" : Str) ++ urlencode "value" indicator))
        apiKey none with
      | some body => .ok (if body.truthy then [(indicator, body)] else [])
      | none => .ok [] := by
  rw [← List.append_assoc]
  rfl

theorem lookup_of_ne_one (baseUrl apiKey : Str) {indicators : List Str}
    (h : indicators.length ≠ 1) :
    lookup urlopen baseUrl apiKey indicators =
      match request urlopen (baseOf baseUrl ++ "/lookup/bulk") apiKey
        (some (.obj [("values", .arr (indicators.map .str))])) with
      | some body =>
          if !body.truthy then .ok []
          else do
            match ← body.get "results" with
            | .obj fields => pure fields
            | _ => pure []
      | none => .ok [] := by
  match indicators, h with
  | [], _ => rfl
  | [_], h => exact absurd rfl h
  | _ :: _ :: _, _ => rfl

end Requests

/-- Where the middleware is reached: a URL without query and fragment. -/
structure Site where
  url : Str
  http : isHttp url = true
  noQuery : '?' ∉ url
  noFragment : '#' ∉ url

namespace Site

variable (site : Site) (serve : HttpRequest → Option HttpReply)

def target (url : Str) : Option (Str × Str) :=
  let full := if (rpartition '#' url).2.1 then (rpartition '#' url).1 else url
  if startsWith site.url full then
    let rest := full.drop site.url.length
    some ((partition '?' rest).1, (partition '?' rest).2.2)
  else none

/-- `urlopen`, as far as the middleware answers. -/
def urlopen (request : WebRequest) : Option HttpReply :=
  match site.target request.url with
  | some (path, query) => serve ⟨request.method, path, query, request.headers, request.data⟩
  | none => none

variable {site serve}

theorem target_append {rest : Str} (h : '#' ∉ rest) :
    site.target (site.url ++ rest) = some ((partition '?' rest).1, (partition '?' rest).2.2) := by
  have hplain : '#' ∉ (site.url ++ rest).reverse := by
    rw [List.mem_reverse, List.mem_append, not_or]
    exact ⟨site.noFragment, h⟩
  have hnone : (rpartition '#' (site.url ++ rest)).2.1 = false := by
    rw [rpartition, partition_of_not_mem hplain]
    rfl
  have hstarts : startsWith site.url (site.url ++ rest) = true :=
    List.isPrefixOf_iff_prefix.mpr (List.prefix_append _ _)
  unfold target
  rw [hnone, if_neg Bool.false_ne_true]
  dsimp only
  rw [if_pos hstarts, List.drop_left]

theorem isHttp_append (rest : Str) : isHttp (site.url ++ rest) = true := by
  have hstarts : ∀ start : Str, startsWith start site.url = true →
      startsWith start (site.url ++ rest) = true := fun start h =>
    List.isPrefixOf_iff_prefix.mpr
      ((List.isPrefixOf_iff_prefix.mp h).trans (List.prefix_append _ _))
  have hhttp := site.http
  unfold isHttp at hhttp ⊢
  rw [Bool.or_eq_true] at hhttp ⊢
  exact hhttp.imp (hstarts _) (hstarts _)

theorem request_append {rest : Str} (h : '#' ∉ rest) (apiKey : Str) (payload : Option Json) :
    request (site.urlopen serve) (site.url ++ rest) apiKey payload =
      match serve {
          method := if payload.isSome then .post else .get
          path := (partition '?' rest).1
          query := (partition '?' rest).2.2
          headers := ("X-API-Key", apiKey) ::
            (if payload.isSome then [("Content-Type", "application/json")] else [])
          body := payload } with
      | some reply => if 200 ≤ reply.status ∧ reply.status < 300 then reply.body else none
      | none => none := by
  unfold request urlopen
  rw [isHttp_append, target_append h]
  rfl

end Site

end Wazuh

end OpenctiLookup
