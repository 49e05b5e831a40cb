import OpenctiLookup.Opencti.Client
import OpenctiLookup.Opencti.Events
import OpenctiLookup.Opencti.LegibleReply

/-! What a lookup makes of any behaviour of OpenCTI. It answers, and each of its calls
is reported to the breaker, when what comes back can be read; what cannot be read
raises through both. -/
namespace OpenctiLookup
open Python

/-- A body with status 200 is a `dict`, and its errors start with one. -/
structure LegibleBody (body : Json) : Prop where
  obj : body.IsObj
  errors : (body.member "errors").truthy = true →
    ∃ first rest, body.member "errors" = .arr (.obj first :: rest)

namespace Exchange

variable (exchange : Exchange)

def decisive : Reply :=
  match exchange.replies 0 with
  | .connectError _ => exchange.replies 1
  | reply => reply

def body : Option Json :=
  if exchange.refused then none
  else
    match exchange.decisive with
    | .response status body => if status = 200 then body else none
    | _ => none

def data : Option Json :=
  exchange.body.bind fun body =>
    if (body.member "errors").truthy then none else some (body.member "data")

end Exchange

variable (rt : Runtime) (settings : Settings) (now : ℚ)

/-- OpenCTI's answer to one request can be read, if it is one. -/
structure Exchange.Legible (exchange : Exchange) : Prop where
  body : ∀ body, exchange.body = some body → LegibleBody body
  data : ∀ data, exchange.data = some data → LegibleLookup rt settings now data

namespace LiveBackend

variable (exchange : LookupRequest → Exchange) (mono : ℚ) (backend : LiveBackend)
  (value : Normalized)

def fetchRequests (client : Client) : List LookupRequest :=
  request settings value.value value.type ::
    match query rt settings client now value.value value.type "exact" with
    | .ok none => ((fallbackHost rt settings value).map (request settings · .domain)).toList
    | _ => []

def requests (client : Client) : List LookupRequest :=
  if !value.lookupable then []
  else
    match (backend.cache.get (cacheKey settings value) mono).1 with
    | some _ => []
    | none => fetchRequests rt settings now value client

/-- What a lookup answers: an entry of the cache, a hit, the miss or the degraded miss. -/
def Answer (result : LookupResult) : Prop :=
  (∃ entry ∈ backend.cache.data, result.payload = entry.2.1) ∨ result.payload.Found ∨
    result.payload = miss ∨ result.payload = degradedPayload

/-- Each call that is not refused is reported once. -/
def Reported (requests : List LookupRequest) : Prop :=
  ∀ request ∈ requests, (exchange request).refused = false →
    ∃ report, (execute rt true (exchange request)).reports = [report]

/-- A lookup answers, and its calls are reported. -/
structure Graceful : Prop where
  answers : Returns (lookup rt settings (clientOf rt exchange) now mono backend value)
    fun answer => Answer backend answer.1
  reports : Reported rt exchange
    (requests rt settings now mono backend value (clientOf rt exchange))

/-- What a lookup that is not served from the cache reads of OpenCTI is legible. -/
structure Legible : Prop where
  exact : (exchange (request settings value.value value.type)).Legible rt settings now
  fallback : ∀ data, (exchange (request settings value.value value.type)).data = some data →
    ¬ HasHit rt settings now data → ∀ host, fallbackHost rt settings value = some host →
      (exchange (request settings host .domain)).Legible rt settings now

end LiveBackend

section Execute

variable {rt settings now} {exchange : Exchange} {body : Json}

theorem execute_eq (hallowed : exchange.refused = false) :
    execute rt true exchange = attempts rt [exchange.decisive] := by
  have hpair : attempts rt [exchange.replies 0, exchange.replies 1] =
      attempts rt [exchange.decisive] := by
    unfold Exchange.decisive
    cases exchange.replies 0 <;> rfl
  rw [execute, hallowed]
  exact hpair

/-- Without a body to read, the call fails in a way the live backend knows. -/
theorem execute_of_none (h : exchange.body = none) :
    (∃ fault, (execute rt true exchange).result = .error fault ∧
      LiveBackend.isUpstreamError fault = true) ∧
    (exchange.refused = false → ∃ report, (execute rt true exchange).reports = [report]) := by
  have hfailed : ∀ reason message : Str,
      (∃ fault, (Execution.failed reason message).result = .error fault ∧
        LiveBackend.isUpstreamError fault = true) ∧
      (false = false → ∃ report, (Execution.failed reason message).reports = [report]) :=
    fun reason message => ⟨⟨_, rfl, rfl⟩, fun _ => ⟨_, rfl⟩⟩
  cases hrefused : exchange.refused with
  | true =>
      rw [execute, hrefused]
      exact ⟨⟨_, rfl, rfl⟩, nofun⟩
  | false =>
      rw [execute_eq hrefused]
      rw [Exchange.body, hrefused, if_neg Bool.false_ne_true] at h
      cases hdecisive : exchange.decisive with
      | connectError detail => exact hfailed ("connect: " ++ detail) ("connect failed: " ++ detail)
      | timeout detail => exact hfailed ("timeout: " ++ detail) ("timeout: " ++ detail)
      | httpError detail => exact hfailed ("http: " ++ detail) ("http error: " ++ detail)
      | response status body =>
          rw [hdecisive] at h
          unfold attempts
          by_cases hstatus : status = 200
          · rw [if_neg (not_not.mpr hstatus)]
            dsimp only at h
            rw [if_pos hstatus] at h
            rw [h]
            exact hfailed "malformed json" "malformed json from OpenCTI"
          · rw [if_pos hstatus]
            exact hfailed ("status " ++ decimal status) ("unexpected status " ++ decimal status)

theorem execute_of_some (h : exchange.body = some body) :
    exchange.refused = false ∧ execute rt true exchange = readBody rt body := by
  unfold Exchange.body at h
  cases hrefused : exchange.refused with
  | true =>
      rw [hrefused] at h
      cases h
  | false =>
      rw [hrefused, if_neg Bool.false_ne_true] at h
      refine ⟨rfl, (execute_eq hrefused).trans ?_⟩
      cases hdecisive : exchange.decisive with
      | response status reply =>
          rw [hdecisive] at h
          dsimp only at h
          split at h
          · rename_i hstatus
            subst h
            rw [attempts, if_neg (not_not.mpr hstatus)]
          · cases h
      | _ =>
          rw [hdecisive] at h
          cases h

theorem succeeds_graphqlMessage_iff {errors : Json} (htruthy : errors.truthy = true) :
    Succeeds (graphqlMessage rt errors) ↔ ∃ first rest, errors = .arr (.obj first :: rest) := by
  unfold graphqlMessage
  rw [succeeds_bind_iff]
  cases errors with
  | arr items =>
      cases items with
      | nil => cases htruthy
      | cons first rest =>
          rw [Json.head, returns_ok_iff, succeeds_bind_iff, Json.returns_getD_iff]
          simp [Json.isObj_iff, returns_pure_iff]
  | str s =>
      cases s with
      | nil => cases htruthy
      | cons c s =>
          rw [Json.head, returns_ok_iff]
          exact iff_of_false not_returns_error (by simp)
  | _ => exact iff_of_false not_returns_error (by simp)

theorem not_upstream_of_plain {α : Type} {x : Py α} {fault : Fault} (hplain : Plain x)
    (h : x = .error fault) : LiveBackend.isUpstreamError fault = false := by
  subst h
  cases fault with
  | diverges => rfl
  | raised error =>
      cases error with
      | custom cls message => exact absurd rfl (hplain cls message)
      | _ => rfl

theorem readBody_legible (h : LegibleBody body) :
    (∃ report, (readBody rt body).reports = [report]) ∧
      (((body.member "errors").truthy = true ∧ ∃ fault, (readBody rt body).result = .error fault ∧
          LiveBackend.isUpstreamError fault = true) ∨
        (body.member "errors").truthy = false ∧
          (readBody rt body).result = .ok ((body.member "data").orElse (.obj []))) := by
  obtain ⟨fields, rfl⟩ := Json.isObj_iff.mp h.obj
  unfold readBody
  rw [Json.get_obj]
  dsimp only
  cases htruthy : (Json.field fields "errors").truthy with
  | true =>
      obtain ⟨message, hmessage, -⟩ := (@succeeds_graphqlMessage_iff rt _ htruthy).mpr
        (h.errors htruthy)
      rw [if_pos rfl, hmessage]
      exact ⟨⟨_, rfl⟩, .inl ⟨htruthy, _, rfl, rfl⟩⟩
  | false =>
      rw [if_neg Bool.false_ne_true]
      exact ⟨⟨_, rfl⟩, .inr ⟨htruthy, rfl⟩⟩

theorem readBody_illegible (h : ¬ LegibleBody body) :
    (readBody rt body).reports = [] ∧ ∃ fault, (readBody rt body).result = .error fault ∧
      LiveBackend.isUpstreamError fault = false := by
  have hmessage : ∀ errors : Json, Plain (graphqlMessage rt errors) := fun errors =>
    errors.plain_head.bind fun first => (first.plain_getD _ _).bind fun _ => .ok _
  unfold readBody
  cases hget : body.get "errors" with
  | error fault => exact ⟨rfl, fault, rfl, not_upstream_of_plain (body.plain_get _) hget⟩
  | ok errors =>
      obtain ⟨hobj, rfl⟩ := (@Json.returns_get_iff body (errors = ·) "errors").mp ⟨_, hget, rfl⟩
      dsimp only
      by_cases htruthy : (body.member "errors").truthy = true
      · rw [if_pos htruthy]
        cases hread : graphqlMessage rt (body.member "errors") with
        | error fault => exact ⟨rfl, fault, rfl, not_upstream_of_plain (hmessage _) hread⟩
        | ok message =>
            exact absurd ⟨hobj, fun _ => (succeeds_graphqlMessage_iff htruthy).mp
              ⟨message, hread, trivial⟩⟩ h
      · exact absurd ⟨hobj, fun htrue => absurd htrue htruthy⟩ h

end Execute

section Query

variable {rt settings now} {exchange : LookupRequest → Exchange}

theorem Exchange.data_of_body {exchange : Exchange} {body : Json} (h : exchange.body = some body) :
    exchange.data =
      if (body.member "errors").truthy then none else some (body.member "data") := by
  rw [Exchange.data, h, Option.bind_some]

variable {value : Str} {kind : IndicatorType}

theorem query_eq_bind (rt : Runtime) (settings : Settings) (now : ℚ)
    (exchange : LookupRequest → Exchange) (value : Str) (kind : IndicatorType) (matchType : Str) :
    LiveBackend.query rt settings (clientOf rt exchange) now value kind matchType =
      ((execute rt true (exchange (LiveBackend.request settings value kind))).result >>= fun data =>
        LiveBackend.readReply rt settings now data value kind matchType) := rfl

/-- A call whose answer can be read is reported, and comes to a reply or to an error
the live backend knows. -/
theorem query_legible
    (h : (exchange (LiveBackend.request settings value kind)).Legible rt settings now)
    (matchType : Str) :
    ((exchange (LiveBackend.request settings value kind)).refused = false → ∃ report,
      (execute rt true (exchange (LiveBackend.request settings value kind))).reports = [report]) ∧
    ((∃ data, (exchange (LiveBackend.request settings value kind)).data = some data ∧
        Returns (LiveBackend.query rt settings (clientOf rt exchange) now value kind matchType)
          (Reports (HasHit rt settings now data))) ∨
      (exchange (LiveBackend.request settings value kind)).data = none ∧ ∃ fault,
        LiveBackend.query rt settings (clientOf rt exchange) now value kind matchType =
          .error fault ∧ LiveBackend.isUpstreamError fault = true) := by
  rw [query_eq_bind]
  generalize exchange (LiveBackend.request settings value kind) = exchange at h ⊢
  cases hbody : exchange.body with
  | none =>
      obtain ⟨⟨fault, hresult, hupstream⟩, hreports⟩ := @execute_of_none rt _ hbody
      refine ⟨hreports, .inr ⟨by rw [Exchange.data, hbody]; rfl, fault, ?_, hupstream⟩⟩
      rw [hresult, error_bind]
  | some body =>
      obtain ⟨-, hexecute⟩ := @execute_of_some rt _ _ hbody
      rw [hexecute]
      obtain ⟨hreports, hresult⟩ := @readBody_legible rt _ (h.body body hbody)
      refine ⟨fun _ => hreports, ?_⟩
      rcases hresult with ⟨herrors, fault, hresult, hupstream⟩ | ⟨herrors, hresult⟩
      · refine .inr ⟨?_, fault, by rw [hresult, error_bind], hupstream⟩
        rw [Exchange.data_of_body hbody, if_pos herrors]
      · have hdata := Exchange.data_of_body hbody
        rw [herrors, if_neg Bool.false_ne_true] at hdata
        refine .inl ⟨_, hdata, ?_⟩
        rw [hresult, ok_bind]
        exact (returns_readReply_iff _ _ _ _ fun _ hreply => hreply).mpr (h.data _ hdata)

theorem query_illegible
    (h : ¬ (exchange (LiveBackend.request settings value kind)).Legible rt settings now)
    (matchType : Str) :
    ∃ fault, LiveBackend.query rt settings (clientOf rt exchange) now value kind matchType =
      .error fault ∧ LiveBackend.isUpstreamError fault = false := by
  rw [query_eq_bind]
  generalize exchange (LiveBackend.request settings value kind) = exchange at h ⊢
  cases hbody : exchange.body with
  | none =>
      refine absurd ⟨fun body hsome => ?_, fun data hdata => ?_⟩ h
      · cases hbody.symm.trans hsome
      · rw [Exchange.data, hbody] at hdata
        cases hdata
  | some body =>
      obtain ⟨-, hexecute⟩ := @execute_of_some rt _ _ hbody
      have hdata := Exchange.data_of_body hbody
      have hlookup : LegibleBody body →
          ¬ ∀ data, exchange.data = some data → LegibleLookup rt settings now data := by
        refine fun hlegible hall => h ⟨fun other hother => ?_, hall⟩
        cases hbody.symm.trans hother
        exact hlegible
      rw [hexecute]
      by_cases hlegible : LegibleBody body
      · obtain ⟨-, ⟨herrors, -⟩ | ⟨herrors, hresult⟩⟩ := @readBody_legible rt _ hlegible
        · refine absurd (fun data hsome => ?_) (hlookup hlegible)
          rw [hdata, if_pos herrors] at hsome
          cases hsome
        · rw [hresult, ok_bind]
          rw [herrors, if_neg Bool.false_ne_true] at hdata
          have hread : ¬ LegibleLookup rt settings now (body.member "data") := by
            refine fun hread => hlookup hlegible fun data hsome => ?_
            cases hdata.symm.trans hsome
            exact hread
          rw [← returns_readReply_iff _ value kind matchType fun _ _ => trivial] at hread
          cases hreply : LiveBackend.readReply rt settings now
              ((body.member "data").orElse (.obj [])) value kind matchType with
          | ok reply => exact absurd ⟨reply, hreply, trivial⟩ hread
          | error fault =>
              exact ⟨fault, rfl, not_upstream_of_plain (plain_readReply _ _ _ _) hreply⟩
      · obtain ⟨-, fault, hresult, hupstream⟩ := @readBody_illegible rt _ hlegible
        exact ⟨fault, by rw [hresult, error_bind], hupstream⟩

end Query

section Lookup

variable {rt settings now} {exchange : LookupRequest → Exchange} {mono : ℚ} {backend : LiveBackend}
  {value : Normalized}

/-- The calls of a fetch that reads nothing illegible are reported, and it comes to a
hit, to the miss, or to an error the live backend knows. -/
theorem fetch_legible (h : LiveBackend.Legible rt settings now exchange value) :
    LiveBackend.Reported rt exchange
      (LiveBackend.fetchRequests rt settings now value (clientOf rt exchange)) ∧
    (Returns (LiveBackend.fetch rt settings (clientOf rt exchange) now value)
        (fun payload => payload.Found ∨ payload = miss) ∨
      ∃ fault, LiveBackend.fetch rt settings (clientOf rt exchange) now value = .error fault ∧
        LiveBackend.isUpstreamError fault = true) := by
  unfold LiveBackend.fetch LiveBackend.fetchRequests LiveBackend.Reported
  obtain ⟨hreport, hquery⟩ := query_legible h.exact "exact"
  rw [List.forall_mem_cons, and_assoc]
  refine ⟨hreport, ?_⟩
  rcases hquery with ⟨data, hdata, reply, hquery, hreports⟩ | ⟨-, fault, hquery, hupstream⟩
  · rw [hquery, ok_bind]
    cases reply with
    | some payload => exact ⟨nofun, .inl (.ok (.inl hreports.2))⟩
    | none =>
        dsimp only
        cases hhost : LiveBackend.fallbackHost rt settings value with
        | none => exact ⟨nofun, .inl (.ok (.inr rfl))⟩
        | some host =>
            obtain ⟨hreport, hquery⟩ := query_legible
              (h.fallback data hdata hreports host hhost) "hostname"
            refine ⟨by simpa using hreport, ?_⟩
            dsimp only
            rcases hquery with ⟨_, -, reply, hquery, hreports⟩ | ⟨-, fault, hquery, hupstream⟩
            · rw [hquery, ok_bind]
              cases reply with
              | none => exact .inl (.ok (.inr rfl))
              | some payload =>
                  exact .inl (.ok (.inl ((found_fallback _ _).mpr hreports.2)))
            · rw [hquery, error_bind]
              exact .inr ⟨fault, rfl, hupstream⟩
  · rw [hquery, error_bind]
    exact ⟨nofun, .inr ⟨fault, rfl, hupstream⟩⟩

theorem fetch_illegible (h : ¬ LiveBackend.Legible rt settings now exchange value) :
    ∃ fault, LiveBackend.fetch rt settings (clientOf rt exchange) now value = .error fault ∧
      LiveBackend.isUpstreamError fault = false := by
  unfold LiveBackend.fetch
  by_cases hexact : (exchange (LiveBackend.request settings value.value value.type)).Legible
      rt settings now
  · rcases (query_legible hexact "exact").2 with ⟨data, hdata, reply, hquery, hreports⟩ | ⟨hnone, -⟩
    · have hfallback : ¬ (¬ HasHit rt settings now data →
          ∀ host, LiveBackend.fallbackHost rt settings value = some host →
            (exchange (LiveBackend.request settings host .domain)).Legible rt settings now) := by
        refine fun hfallback => h ⟨hexact, fun other hother => ?_⟩
        cases hdata.symm.trans hother
        exact hfallback
      cases reply with
      | some payload => exact absurd (fun hno => absurd hreports.1 hno) hfallback
      | none =>
          rw [hquery, ok_bind]
          dsimp only
          cases hhost : LiveBackend.fallbackHost rt settings value with
          | none =>
              rw [hhost] at hfallback
              exact absurd (fun _ _ => nofun) hfallback
          | some host =>
              have hillegible : ¬ (exchange (LiveBackend.request settings host .domain)).Legible
                  rt settings now := by
                refine fun hlegible => hfallback fun _ other hother => ?_
                cases hhost.symm.trans hother
                exact hlegible
              obtain ⟨fault, hquery, hupstream⟩ := query_illegible hillegible "hostname"
              dsimp only
              exact ⟨fault, by rw [hquery, error_bind], hupstream⟩
    · refine absurd ⟨hexact, fun data hdata => ?_⟩ h
      cases hnone.symm.trans hdata
  · obtain ⟨fault, hquery, hupstream⟩ := query_illegible hexact "exact"
    exact ⟨fault, by rw [hquery, error_bind], hupstream⟩

theorem lookup_of_uncached {client : Client} (hlookupable : value.lookupable = true)
    (hcached : (backend.cache.get (LiveBackend.cacheKey settings value) mono).1 = none) :
    LiveBackend.lookup rt settings client now mono backend value =
      match LiveBackend.fetch rt settings client now value with
      | .ok payload => .ok (⟨payload, "opencti"⟩, { backend with
          cache := (backend.cache.get (LiveBackend.cacheKey settings value) mono).2.set
            (LiveBackend.cacheKey settings value) payload mono })
      | .error fault =>
          if LiveBackend.isUpstreamError fault then
            .ok (⟨degradedPayload, "degraded"⟩, { backend with
              cache := (backend.cache.get (LiveBackend.cacheKey settings value) mono).2 })
          else .error fault := by
  unfold LiveBackend.lookup
  rw [hlookupable]
  rcases hget : backend.cache.get (LiveBackend.cacheKey settings value) mono with ⟨cached, cache⟩
  rw [hget] at hcached
  cases hcached
  rw [if_neg (by decide)]
  cases LiveBackend.fetch rt settings client now value with
  | ok payload => simp only [hget]
  | error fault => simp only [hget]

theorem legible_of_answers (hlookupable : value.lookupable = true)
    (hcached : (backend.cache.get (LiveBackend.cacheKey settings value) mono).1 = none)
    (h : Succeeds (LiveBackend.lookup rt settings (clientOf rt exchange) now mono backend value)) :
    LiveBackend.Legible rt settings now exchange value := by
  by_contra hillegible
  obtain ⟨fault, hfetch, hupstream⟩ := fetch_illegible hillegible
  obtain ⟨answer, hlookup, -⟩ := h
  rw [lookup_of_uncached hlookupable hcached, hfetch] at hlookup
  simp only [hupstream] at hlookup
  cases hlookup

theorem graceful_skipped (hlookupable : value.lookupable = false) :
    LiveBackend.Graceful rt settings now exchange mono backend value := by
  constructor
  · refine ⟨(⟨miss, "skip"⟩, backend), ?_, .inr (.inr (.inl rfl))⟩
    rw [LiveBackend.lookup, hlookupable]
    rfl
  · rw [LiveBackend.requests, hlookupable]
    exact nofun

theorem graceful_cached (hlookupable : value.lookupable = true) {payload : Payload}
    (hcached : (backend.cache.get (LiveBackend.cacheKey settings value) mono).1 = some payload) :
    LiveBackend.Graceful rt settings now exchange mono backend value := by
  have hfresh := PayloadCache.get_fst_eq_some_iff.mp hcached
  constructor
  · rw [LiveBackend.lookup_of_fresh rt settings _ now hlookupable hfresh]
    obtain ⟨expiresAt, hentry, -⟩ := hfresh
    exact .ok (.inl ⟨_, PayloadCache.mem_of_entry hentry, rfl⟩)
  · rw [LiveBackend.requests, hlookupable, hcached]
    exact nofun

theorem graceful_legible (hlookupable : value.lookupable = true)
    (hcached : (backend.cache.get (LiveBackend.cacheKey settings value) mono).1 = none)
    (h : LiveBackend.Legible rt settings now exchange value) :
    LiveBackend.Graceful rt settings now exchange mono backend value := by
  obtain ⟨hreported, hfetch⟩ := fetch_legible h
  constructor
  · rw [lookup_of_uncached hlookupable hcached]
    rcases hfetch with ⟨payload, hfetch, hanswer⟩ | ⟨fault, hfetch, hupstream⟩
    · rw [hfetch]
      exact .ok (.inr (hanswer.imp_right .inl))
    · rw [hfetch]
      dsimp only
      rw [if_pos hupstream]
      exact .ok (.inr (.inr (.inr rfl)))
  · rw [LiveBackend.requests, hlookupable, hcached]
    exact hreported

end Lookup

/-- A lookup answers with every call reported, exactly when it is served from the cache
or what it reads is legible. -/
theorem lookup_graceful_iff (rt : Runtime) (settings : Settings) (now mono : ℚ)
    (exchange : LookupRequest → Exchange) (backend : LiveBackend) (value : Normalized) :
    LiveBackend.Graceful rt settings now exchange mono backend value ↔
      (value.lookupable = true →
        (backend.cache.get (LiveBackend.cacheKey settings value) mono).1 = none →
          LiveBackend.Legible rt settings now exchange value) := by
  constructor
  · intro h hlookupable hcached
    exact legible_of_answers hlookupable hcached (h.answers.mono fun _ _ => trivial)
  · intro h
    cases hlookupable : value.lookupable with
    | false => exact graceful_skipped hlookupable
    | true =>
        cases hcached : (backend.cache.get (LiveBackend.cacheKey settings value) mono).1 with
        | some cached => exact graceful_cached hlookupable hcached
        | none => exact graceful_legible hlookupable hcached (h hlookupable hcached)

section Sample

/-- A breaker that has seen nothing, and a server that answers every request with an
empty list. -/
def listExchange : Exchange := ⟨{}, 0, fun _ => .response 200 (some (.arr []))⟩

/-- A list for a body raises through the lookup. -/
theorem lookup_raises_on_list : ¬ ∀ (rt : Runtime) (settings : Settings) (now mono : ℚ)
    (exchange : LookupRequest → Exchange) (backend : LiveBackend) (value : Normalized),
    value.lookupable = true →
      LiveBackend.Graceful rt settings now exchange mono backend value := by
  intro hclaim
  let backend : LiveBackend := ⟨PayloadCache.init 1048576 1024 86400 900⟩
  have hgraceful := hclaim sampleRuntime (sampleSettings 50000) 0 0 (fun _ => listExchange) backend
    ⟨"evil.com", "evil.com", .domain, none⟩ rfl
  have hlegible := legible_of_answers rfl rfl (hgraceful.answers.mono fun _ _ => trivial)
  exact (hlegible.exact.body (.arr []) rfl).obj

end Sample

end OpenctiLookup
