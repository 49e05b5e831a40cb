import OpenctiLookup.Systems.Answers
import OpenctiLookup.Systems.CacheFreshness
import OpenctiLookup.Systems.Requests

/-! A worker whose OpenCTI has gone away. It has swapped a membership set in; from then
on no request is answered, the breaker opens and lets probes through, and the health of
the stream decides whether the set is still asked first. -/
namespace OpenctiLookup
open Python Theory

structure Outage where
  split : SplitBackend
  breaker : CircuitBreaker
  /-- The wall clock and the monotonic one. -/
  now : ℚ
  mono : ℚ

/-- What each request of a lookup meets at each attempt. -/
abbrev Replies := LookupRequest → ℕ → Reply

/-- No request gets a body with status 200. -/
def Reply.Fails : Reply → Prop
  | .response status body => status ≠ 200 ∨ body = none
  | _ => True

inductive OutageStep where
  | pass (seconds : ℚ)
  | lookup (value : Normalized) (replies : Replies)
  /-- Another upstream call: a probe of `/readyz`, a count, a page of a rebuild. -/
  | call (retryConnect : Bool) (replies : ℕ → Reply)
  /-- The health watcher after one of its sleeps. -/
  | health (connected : Bool) (activityLagS : ℚ)
  /-- The adoption of a generation published before. -/
  | swap (set : MembershipSet)
  /-- A lookup that was answered before gets its turn. -/
  | store (value : Normalized) (payload : Payload)

namespace Outage

variable (rt : Runtime) (settings : Settings) (s : Outage)

def cache : PayloadCache Payload := s.split.live.cache

def withCache (cache : PayloadCache Payload) : Outage :=
  { s with split := { s.split with live := ⟨cache⟩ } }

def exchange (replies : ℕ → Reply) : Exchange := ⟨s.breaker, s.mono, replies⟩

def client (replies : Replies) : Client := clientOf rt fun request => s.exchange (replies request)

def told (retryConnect : Bool) (replies : ℕ → Reply) : CircuitBreaker :=
  s.breaker.tell s.mono (execute rt retryConnect (s.exchange replies)).reports

def lookup (value : Normalized) (replies : Replies) : Py (LookupResult × SplitBackend) :=
  s.split.lookup rt settings (s.client rt replies) s.now s.mono value

/-- The state after a lookup; an exact query that fails is the only one. -/
def afterLookup (value : Normalized) (replies : Replies) (result : LookupResult)
    (split : SplitBackend) : Outage :=
  { s with
    split := split
    breaker :=
      if result.source = "degraded" then
        s.told rt true (replies (LiveBackend.request settings value.value value.type))
      else s.breaker }

end Outage

variable (rt : Runtime) (settings : Settings)

def outageSystem : System Outage OutageStep where
  init s := s.split.ready = true
  step s a s' :=
    match a with
    | .pass seconds =>
        0 ≤ seconds ∧ s' = { s with now := s.now + seconds, mono := s.mono + seconds }
    | .lookup value replies =>
        (∀ request attempt, (replies request attempt).Fails) ∧
          ∃ result split, s.lookup rt settings value replies = .ok (result, split) ∧
            s' = s.afterLookup rt settings value replies result split
    | .call retryConnect replies =>
        (∀ attempt, (replies attempt).Fails) ∧
          s' = { s with breaker := s.told rt retryConnect replies }
    | .health connected activityLagS =>
        s' = { s with
          split := s.split.streamHealth connected activityLagS settings.streamStaleAfterS }
    | .swap set => s' = { s with split := s.split.swapMembership set true }
    | .store value payload =>
        s' = s.withCache (s.cache.set (LiveBackend.cacheKey settings value) payload s.mono)

section Lookup

variable {rt settings} {s s' : Outage} {value : Normalized} {replies : Replies}

theorem body_of_fails {exchange : Exchange} (h : ∀ attempt, (exchange.replies attempt).Fails) :
    exchange.body = none := by
  have hdecisive : exchange.decisive.Fails := by
    unfold Exchange.decisive
    split
    · exact h 1
    · exact h 0
  unfold Exchange.body
  split
  · rfl
  · cases hreply : exchange.decisive with
    | response status body =>
        rw [hreply] at hdecisive
        dsimp only
        rcases hdecisive with hstatus | rfl
        · exact if_neg hstatus
        · exact ite_self none
    | _ => rfl

theorem client_fails (h : ∀ request attempt, (replies request attempt).Fails)
    (request : LookupRequest) : ∃ fault, s.client rt replies request = .error fault ∧
      LiveBackend.isUpstreamError fault = true :=
  (execute_of_none (body_of_fails (h request))).1

theorem fetch_fails (h : ∀ request attempt, (replies request attempt).Fails) :
    ∃ fault, LiveBackend.fetch rt settings (s.client rt replies) s.now value = .error fault ∧
      LiveBackend.isUpstreamError fault = true := by
  obtain ⟨fault, hfault, hupstream⟩ :=
    @client_fails rt s replies h (LiveBackend.request settings value.value value.type)
  refine ⟨fault, ?_, hupstream⟩
  unfold LiveBackend.fetch LiveBackend.query
  rw [hfault]
  rfl

variable (rt settings s value) in
/-- What an unexpired entry of the cache holds for the value. -/
def Outage.Cached (payload : Payload) : Prop :=
  s.cache.fresh (LiveBackend.cacheKey settings value) s.mono payload

variable (rt settings s value) in
/-- How a lookup is answered while no request is. -/
inductive Outage.Answers : Payload → Prop
  | skipped : value.lookupable = false → Answers miss
  | missed : value.lookupable = true → s.split.route rt settings value = .membershipMiss →
      Answers miss
  | cached {payload : Payload} : value.lookupable = true →
      s.split.route rt settings value = .live → s.Cached settings value payload → Answers payload
  | degraded : value.lookupable = true → s.split.route rt settings value = .live →
      (∀ payload, ¬ s.Cached settings value payload) → Answers degradedPayload

theorem lookup_in_outage (h : ∀ request attempt, (replies request attempt).Fails) :
    Returns (s.lookup rt settings value replies) fun answer =>
      s.Answers rt settings value answer.1.payload := by
  unfold Outage.lookup SplitBackend.lookup
  cases hlookupable : value.lookupable with
  | false => exact .ok (.skipped hlookupable)
  | true =>
      rw [if_neg (by decide)]
      cases hroute : s.split.route rt settings value with
      | membershipMiss => exact .ok (.missed hlookupable hroute)
      | live =>
          dsimp only
          cases hcached :
              (s.split.live.cache.get (LiveBackend.cacheKey settings value) s.mono).1 with
          | some payload =>
              have hfresh := PayloadCache.get_fst_eq_some_iff.mp hcached
              rw [LiveBackend.lookup_of_fresh _ _ _ _ hlookupable hfresh]
              exact .ok (.cached hlookupable hroute hfresh)
          | none =>
              obtain ⟨fault, hfetch, hupstream⟩ := @fetch_fails rt settings s value replies h
              rw [lookup_of_uncached hlookupable hcached, hfetch]
              dsimp only
              rw [if_pos hupstream]
              refine .ok (.degraded hlookupable hroute fun payload hfresh => ?_)
              cases (PayloadCache.get_fst_eq_some_iff.mpr hfresh).symm.trans hcached

theorem not_found_degraded : ¬ degradedPayload.Found := by
  unfold Payload.Found degradedPayload
  decide

theorem Outage.Cached.unique {payload other : Payload} (h : s.Cached settings value payload)
    (hother : s.Cached settings value other) : payload = other := by
  obtain ⟨_, hentry, -⟩ := h
  obtain ⟨_, hentry', -⟩ := hother
  cases hentry.symm.trans hentry'
  rfl

theorem found_member_iff {payload : Payload} (h : s.Answers rt settings value payload)
    (hmember : s.split.membership.contains rt value.value = true) :
    payload.Found ↔ value.lookupable = true ∧
      ∃ cached, s.Cached settings value cached ∧ cached.Found := by
  have hroute := @route_of_contains rt settings _ _ hmember
  cases h with
  | skipped hskip => exact iff_of_false not_found_miss fun h => by simp [hskip] at h
  | missed _ hmiss => cases hroute.symm.trans hmiss
  | cached hlookupable _ hcached =>
      constructor
      · intro hfound
        exact ⟨hlookupable, payload, hcached, hfound⟩
      · rintro ⟨-, other, hother, hfound⟩
        rw [hcached.unique hother]
        exact hfound
  | degraded _ _ hnone =>
      exact iff_of_false not_found_degraded fun ⟨_, cached, hcached, _⟩ => hnone cached hcached

/-- A value that is not in the set gets the plain miss from the set while it is trusted,
and otherwise when that is what the cache holds. -/
theorem miss_other_iff {payload : Payload} (h : s.Answers rt settings value payload)
    (hready : s.split.ready = true)
    (hother : s.split.membership.contains rt value.value = false)
    (hhost : ∀ host, LiveBackend.fallbackHost rt settings value = some host →
      s.split.membership.contains rt host = false) :
    payload = miss ↔
      value.lookupable = false ∨ s.split.stale = false ∨ s.Cached settings value miss := by
  have hroute : s.split.stale = false → s.split.route rt settings value = .membershipMiss := by
    intro hcurrent
    cases hlive : s.split.route rt settings value with
    | membershipMiss => rfl
    | live =>
        have hsource := (SplitBackend.route_live_iff hready hcurrent).mp hlive
        rcases hsource with hvalue | ⟨host, hsome, hmem⟩
        · rw [hother] at hvalue
          cases hvalue
        · rw [hhost host hsome] at hmem
          cases hmem
  cases h with
  | skipped hskip => exact iff_of_true rfl (.inl hskip)
  | missed _ hmiss =>
      exact iff_of_true rfl (.inr (.inl (SplitBackend.trusted_of_route_miss hmiss).2))
  | cached hlookupable hlive hcached =>
      refine ⟨fun heq => .inr (.inr (heq ▸ hcached)), ?_⟩
      rintro (hskip | hcurrent | hmiss)
      · cases hlookupable.symm.trans hskip
      · cases hlive.symm.trans (hroute hcurrent)
      · exact hcached.unique hmiss
  | degraded hlookupable hlive hnone =>
      refine iff_of_false (by decide) ?_
      rintro (hskip | hcurrent | hmiss)
      · cases hlookupable.symm.trans hskip
      · cases hlive.symm.trans (hroute hcurrent)
      · exact hnone miss hmiss

/-- The set that was swapped in stays the one that is asked. -/
theorem ready_step {a : OutageStep} (h : s.split.ready = true)
    (hstep : (outageSystem rt settings).step s a s') : s'.split.ready = true := by
  cases a with
  | pass seconds =>
      obtain ⟨-, rfl⟩ := hstep
      exact h
  | lookup value replies =>
      obtain ⟨-, result, split, hlookup, rfl⟩ := hstep
      unfold Outage.lookup SplitBackend.lookup at hlookup
      split at hlookup
      · cases hlookup
        exact h
      · split at hlookup
        · cases hlookup
          exact h
        · obtain ⟨⟨_, _⟩, -, hlookup⟩ := bind_eq_ok_iff.mp hlookup
          cases hlookup
          exact h
  | call retryConnect replies =>
      obtain ⟨-, rfl⟩ := hstep
      exact h
  | health connected activityLagS =>
      obtain rfl := hstep
      exact h
  | swap set =>
      obtain rfl := hstep
      rfl
  | store value payload =>
      obtain rfl := hstep
      exact h

/-- Every lookup of an outage returns. A member whose payload is cached is answered with
it, and what is neither a member nor a URL with a member for a host gets the plain miss
exactly while the set is trusted, or from the cache. -/
theorem outage_answers {trace : List OutageStep}
    (hrun : Reaches (outageSystem rt settings) anyStep trace s) (value : Normalized)
    {replies : Replies} (hfails : ∀ request attempt, (replies request attempt).Fails) :
    Returns (s.lookup rt settings value replies) fun answer =>
      (s.split.membership.contains rt value.value = true → value.lookupable = true →
        ∀ cached, s.Cached settings value cached → cached.Found → answer.1.payload.Found) ∧
      (s.split.membership.contains rt value.value = false →
        (∀ host, LiveBackend.fallbackHost rt settings value = some host →
          s.split.membership.contains rt host = false) →
        (answer.1.payload = miss ↔
          value.lookupable = false ∨ s.split.stale = false ∨ s.Cached settings value miss)) := by
  have hready : s.split.ready = true :=
    hrun.invariant (I := fun s => s.split.ready = true) (fun _ hinit => hinit)
      fun _ _ _ h _ hstep => ready_step h hstep
  refine (lookup_in_outage hfails).mono fun answer hanswers => ⟨?_, ?_⟩
  · exact fun hmember hlookupable cached hcached hfound =>
      (found_member_iff hanswers hmember).mpr ⟨hlookupable, cached, hcached, hfound⟩
  · exact fun hother hhost => miss_other_iff hanswers hready hother hhost

end Lookup

section OutageSample

def cutOff (stale : Bool) : Outage where
  split := sampleServing.worker.split.markStale stale
  breaker := .new 5 30
  now := 0
  mono := 0

def goodValue : Normalized := ⟨"good.com", "good.com", .domain, none⟩

def cutOffCached : Outage :=
  (cutOff false).withCache ((cutOff false).cache.set evilKey [("found", "true")] 0)

def silence : Replies := fun _ _ => .timeout "read"

theorem silence_fails (request : LookupRequest) (attempt : ℕ) : (silence request attempt).Fails :=
  trivial

theorem reaches_cutOff (stale : Bool) :
    Reaches (outageSystem sampleRuntime (sampleSettings 50000)) anyStep [] (cutOff stale) :=
  .init rfl

theorem cached_cutOffCached :
    cutOffCached.Cached (sampleSettings 50000) evilValue [("found", "true")] :=
  ⟨0 + (86400 : ℤ), rfl, by norm_num [cutOffCached, cutOff, Outage.withCache]⟩

theorem outage_answers_cached :
    Returns (cutOffCached.lookup sampleRuntime (sampleSettings 50000) evilValue silence)
        (fun answer => answer.1.payload.Found) ∧
      Returns (cutOffCached.lookup sampleRuntime (sampleSettings 50000) goodValue silence)
        (fun answer => answer.1.payload = miss) := by
  have hrun : Reaches (outageSystem sampleRuntime (sampleSettings 50000)) anyStep
      [.store evilValue [("found", "true")]] cutOffCached :=
    (reaches_cutOff false).step trivial
      (show (outageSystem sampleRuntime (sampleSettings 50000)).step _ (.store _ _) _ from rfl)
  have hother : ∀ host, LiveBackend.fallbackHost sampleRuntime (sampleSettings 50000) goodValue =
      some host → cutOffCached.split.membership.contains sampleRuntime host = false := by
    intro host hhost
    cases hhost
  constructor
  · refine (outage_answers hrun evilValue silence_fails).mono fun answer h => ?_
    exact h.1 (by decide) rfl _ cached_cutOffCached rfl
  · refine (outage_answers hrun goodValue silence_fails).mono fun answer h => ?_
    exact (h.2 (by decide) hother).mpr (.inr (.inl rfl))

theorem not_cached_cutOff (stale : Bool) (value : Normalized) (payload : Payload) :
    ¬ (cutOff stale).Cached (sampleSettings 50000) value payload := by
  rintro ⟨_, hentry, -⟩
  cases hentry

theorem not_found_cutOff :
    Returns ((cutOff false).lookup sampleRuntime (sampleSettings 50000) evilValue silence)
      fun answer => ¬ answer.1.payload.Found := by
  refine (lookup_in_outage silence_fails).mono fun answer hanswers hfound => ?_
  obtain ⟨-, cached, hcached, -⟩ := (found_member_iff hanswers (by decide)).mp hfound
  exact not_cached_cutOff false evilValue cached hcached

theorem not_member_cutOff (stale : Bool) :
    (cutOff stale).split.membership.contains sampleRuntime goodValue.value = false ∧
      ∀ host, LiveBackend.fallbackHost sampleRuntime (sampleSettings 50000) goodValue = some host →
        (cutOff stale).split.membership.contains sampleRuntime host = false := by
  constructor
  · cases stale <;> decide
  · intro host hhost
    cases hhost

theorem not_miss_cutOff :
    Returns ((cutOff true).lookup sampleRuntime (sampleSettings 50000) goodValue silence)
      fun answer => answer.1.payload ≠ miss := by
  obtain ⟨hother, hhost⟩ := not_member_cutOff true
  refine (lookup_in_outage silence_fails).mono fun answer hanswers hmiss => ?_
  rcases (miss_other_iff hanswers rfl hother hhost).mp hmiss with hskip | hcurrent | hcached
  · cases hskip
  · cases hcurrent
  · exact not_cached_cutOff true goodValue miss hcached

/-- Neither half of the answer survives the loss of OpenCTI in every run. -/
theorem outage_hides_member :
    (¬ ∀ (s : Outage) (trace : List OutageStep) (value : Normalized) (replies : Replies),
      Reaches (outageSystem sampleRuntime (sampleSettings 50000)) anyStep trace s →
      (∀ request attempt, (replies request attempt).Fails) →
      value.lookupable = true → s.split.membership.contains sampleRuntime value.value = true →
      Returns (s.lookup sampleRuntime (sampleSettings 50000) value replies)
        fun answer => answer.1.payload.Found) ∧
    ¬ ∀ (s : Outage) (trace : List OutageStep) (value : Normalized) (replies : Replies),
      Reaches (outageSystem sampleRuntime (sampleSettings 50000)) anyStep trace s →
      (∀ request attempt, (replies request attempt).Fails) →
      s.split.membership.contains sampleRuntime value.value = false →
      (∀ host, LiveBackend.fallbackHost sampleRuntime (sampleSettings 50000) value = some host →
        s.split.membership.contains sampleRuntime host = false) →
      Returns (s.lookup sampleRuntime (sampleSettings 50000) value replies)
        fun answer => answer.1.payload = miss := by
  constructor
  · intro hclaim
    obtain ⟨_, hlookup, hfound⟩ := hclaim (cutOff false) [] evilValue silence (reaches_cutOff false)
      silence_fails rfl (by decide)
    obtain ⟨_, hlookup', hnot⟩ := not_found_cutOff
    cases hlookup.symm.trans hlookup'
    exact hnot hfound
  · intro hclaim
    obtain ⟨hother, hhost⟩ := not_member_cutOff true
    obtain ⟨_, hlookup, hmiss⟩ := hclaim (cutOff true) [] goodValue silence (reaches_cutOff true)
      silence_fails hother hhost
    obtain ⟨_, hlookup', hnot⟩ := not_miss_cutOff
    cases hlookup.symm.trans hlookup'
    exact hnot hmiss

end OutageSample

end OpenctiLookup
