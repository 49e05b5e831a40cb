import OpenctiLookup.Opencti.Events
import OpenctiLookup.Theory.Runs

/-! Lookups, the fetches they share and the live stream, in one worker. The
callbacks of the stream write the membership set and nothing else: the payload
cache is not told of a change, so what it holds, or a fetch under way is about to
put there, stays as old as it is. -/
namespace OpenctiLookup
open Python Theory

/-- A fetch of `SingleFlight`. -/
structure Flight where
  key : Str
  value : Normalized
  /-- How many changes OpenCTI had made when it answered the first query. -/
  obtained : Option ℕ := none
  /-- What the future holds once it is done. -/
  result : Option (Py Payload) := none

structure Waiting where
  value : Normalized
  /-- How many changes the worker had handled when it started. -/
  started : ℕ
  flight : ℕ

structure Answer where
  value : Normalized
  started : ℕ
  result : LookupResult
  /-- How many changes OpenCTI had made when the payload was obtained, if it was. -/
  obtained : Option ℕ

structure Serving where
  /-- The changes made in OpenCTI since the stream connected. -/
  changes : List Change
  handled : ℕ
  consumer : StreamConsumer
  worker : Worker
  /-- When the payload stored under a cache key was obtained. -/
  storedAt : Str → ℕ
  flights : List Flight
  waiting : List Waiting
  answers : List Answer

inductive ServingStep where
  | change (change : Change)
  | handle (now : ℚ)
  | lookup (value : Normalized) (mono : ℚ)
  /-- OpenCTI answers the first query of a fetch. -/
  | read (flight : ℕ)
  /-- A fetch ends, its client having answered its queries as it did. -/
  | finish (flight : ℕ) (client : Client) (now : ℚ)
  /-- A lookup whose fetch is done gets its turn on the event loop. -/
  | resume (index : ℕ) (mono : ℚ)
  | swap (set : MembershipSet)
  | health (connected : Bool) (activityLagS : ℚ)

namespace Serving

variable (rt : Runtime) (settings : Settings) (s : Serving)

def cache : PayloadCache Payload := s.worker.split.live.cache

def setCache (cache : PayloadCache Payload) : Serving :=
  { s with worker := { s.worker with split := { s.worker.split with live := ⟨cache⟩ } } }

def answer (value : Normalized) (started : ℕ) (result : LookupResult)
    (obtained : Option ℕ) : Serving :=
  { s with answers := s.answers ++ [⟨value, started, result, obtained⟩] }

/-- `SingleFlight.do` up to its first suspension. -/
def join (key : Str) (value : Normalized) : Serving :=
  match s.flights.findIdx? fun flight => decide (flight.key = key) && flight.result.isNone with
  | some flight => { s with waiting := s.waiting ++ [⟨value, s.handled, flight⟩] }
  | none =>
      { s with
        flights := s.flights ++ [⟨key, value, none, none⟩]
        waiting := s.waiting ++ [⟨value, s.handled, s.flights.length⟩] }

/-- `SplitBackend.lookup` up to its first suspension. -/
def afterLookup (value : Normalized) (mono : ℚ) : Serving :=
  if !value.lookupable then s.answer value s.handled ⟨miss, "skip"⟩ none
  else
    match s.worker.split.route rt settings value with
    | .membershipMiss => s.answer value s.handled ⟨miss, "membership"⟩ none
    | .live =>
        let key := LiveBackend.cacheKey settings value
        match s.cache.get key mono with
        | (some payload, cache) =>
            (s.setCache cache).answer value s.handled ⟨payload, "payload_cache"⟩
              (some (s.storedAt key))
        | (none, cache) => (s.setCache cache).join key value

def setFlight (index : ℕ) (flight : Flight) : Serving :=
  { s with flights := s.flights.set index flight }

def dropWaiting (index : ℕ) : Serving := { s with waiting := s.waiting.eraseIdx index }

/-- `LiveBackend.lookup` from the end of its fetch on. -/
def afterResume (index : ℕ) (mono : ℚ) (waiting : Waiting) (obtained : Option ℕ) :
    Py Payload → Serving
  | .ok payload =>
      let key := LiveBackend.cacheKey settings waiting.value
      { (((s.dropWaiting index).setCache (s.cache.set key payload mono)).answer waiting.value
          waiting.started ⟨payload, "opencti"⟩ obtained) with
        storedAt := Function.update s.storedAt key (obtained.getD 0) }
  | .error fault =>
      if LiveBackend.isUpstreamError fault then
        (s.dropWaiting index).answer waiting.value waiting.started
          ⟨degradedPayload, "degraded"⟩ none
      else s.dropWaiting index

end Serving

variable (rt : Runtime) (settings : Settings)

def servingSystem : System Serving ServingStep where
  init s :=
    s.changes = [] ∧ s.handled = 0 ∧ s.cache.data = [] ∧ s.flights = [] ∧
      s.waiting = [] ∧ s.answers = []
  step s a s' :=
    match a with
    | .change change => s' = { s with changes := s.changes ++ [change] }
    | .handle now =>
        ∃ change, s.changes[s.handled]? = some change ∧
          (({ change with now := now } : Change).handled rt settings s.consumer
            s.worker).fault = none ∧
          s' = { s with
            handled := s.handled + 1
            consumer :=
              (({ change with now := now } : Change).handled rt settings s.consumer
                s.worker).consumer
            worker :=
              (({ change with now := now } : Change).handled rt settings s.consumer
                s.worker).target }
    | .lookup value mono => s' = s.afterLookup rt settings value mono
    | .read index =>
        ∃ flight, s.flights[index]? = some flight ∧ flight.obtained = none ∧ flight.result = none ∧
          s' = s.setFlight index { flight with obtained := some s.changes.length }
    | .finish index client now =>
        ∃ flight, s.flights[index]? = some flight ∧ flight.result = none ∧
          ((LiveBackend.fetch rt settings client now flight.value).toOption.isSome →
            flight.obtained.isSome) ∧
          s' = s.setFlight index
            { flight with result := some (LiveBackend.fetch rt settings client now flight.value) }
    | .resume index mono =>
        ∃ waiting flight result, s.waiting[index]? = some waiting ∧
          s.flights[waiting.flight]? = some flight ∧ flight.result = some result ∧
          s' = s.afterResume settings index mono waiting flight.obtained result
    | .swap set =>
        s' = { s with worker := { s.worker with split := s.worker.split.swapMembership set true } }
    | .health connected activityLagS =>
        s' = { s with
          worker := { s.worker with
            split := s.worker.split.streamHealth connected activityLagS
              settings.streamStaleAfterS } }

/-- The payload was not obtained before any change of the value that had been
handled when the lookup started. -/
def Answer.Fresh (changes : List Change) (answer : Answer) : Prop :=
  ∀ i < answer.started, ∀ change, changes[i]? = some change →
    answer.value.value ∈ change.keys rt settings → ∀ n, answer.obtained = some n → i < n

def AnswersFresh (s : Serving) : Prop := ∀ answer ∈ s.answers, answer.Fresh rt settings s.changes

/-- A fetch is awaited while it runs, and until the last lookup that shares it has
had its turn. -/
def Serving.Awaited (s : Serving) (index : ℕ) (flight : Flight) : Prop :=
  flight.result = none ∨ ∃ waiting ∈ s.waiting, waiting.flight = index

/-- Neither the cache nor a fetch under way has a payload for a value that is older
than the `i`th change. -/
structure Serving.Renewed (s : Serving) (i : ℕ) (value : Normalized) : Prop where
  cached : ∀ e ∈ s.cache.data, e.1 = LiveBackend.cacheKey settings value →
    i < s.storedAt (LiveBackend.cacheKey settings value)
  fetched : ∀ index flight, s.flights[index]? = some flight → s.Awaited index flight →
    flight.key = LiveBackend.cacheKey settings value → ∀ n, flight.obtained = some n → i < n

/-- When an event is handled, nothing older than its change is cached, or under
way, for the values it carries. -/
def NothingOlder (s : Serving) (a : ServingStep) : Prop :=
  ∀ now, a = .handle now → ∀ change, s.changes[s.handled]? = some change →
    ∀ value : Normalized, value.value ∈ change.keys rt settings → s.Renewed settings s.handled value

/-! ### What a lookup does -/

section Outcomes

variable {rt settings} (s : Serving)

theorem afterLookup_cases (asked : Normalized) (mono : ℚ) :
    (∃ source, s.afterLookup rt settings asked mono =
      s.answer asked s.handled ⟨miss, source⟩ none) ∨
    (∃ payload cache,
      s.cache.get (LiveBackend.cacheKey settings asked) mono = (some payload, cache) ∧
      s.afterLookup rt settings asked mono =
        (s.setCache cache).answer asked s.handled ⟨payload, "payload_cache"⟩
          (some (s.storedAt (LiveBackend.cacheKey settings asked)))) ∨
    ∃ cache, s.cache.get (LiveBackend.cacheKey settings asked) mono = (none, cache) ∧
      s.afterLookup rt settings asked mono =
        (s.setCache cache).join (LiveBackend.cacheKey settings asked) asked := by
  unfold Serving.afterLookup
  split
  · exact .inl ⟨_, rfl⟩
  · split
    · exact .inl ⟨_, rfl⟩
    · dsimp only
      split
      · rename_i payload cache hget
        exact .inr (.inl ⟨payload, cache, hget, rfl⟩)
      · rename_i cache hget
        exact .inr (.inr ⟨cache, hget, rfl⟩)

theorem afterResume_error_cases (index : ℕ) (mono : ℚ) (waiting : Waiting) (obtained : Option ℕ)
    (fault : Fault) :
    s.afterResume settings index mono waiting obtained (.error fault) =
      (s.dropWaiting index).answer waiting.value waiting.started
        ⟨degradedPayload, "degraded"⟩ none ∨
    s.afterResume settings index mono waiting obtained (.error fault) = s.dropWaiting index := by
  unfold Serving.afterResume
  dsimp only
  split
  · exact .inl rfl
  · exact .inr rfl

end Outcomes

/-! ### A lookup by itself -/

section Uninterrupted

variable {rt settings} {s : Serving} {value : Normalized} {mono now : ℚ}

def Serving.awaits (s : Serving) (value : Normalized) (flight : Flight) : Serving :=
  { s with
    flights := s.flights ++ [flight]
    waiting := s.waiting ++ [⟨value, s.handled, s.flights.length⟩] }

theorem join_idle (hidle : ∀ flight ∈ s.flights, flight.result.isSome = true) (key : Str)
    (value : Normalized) : s.join key value = s.awaits value ⟨key, value, none, none⟩ := by
  have hnone : s.flights.findIdx? (fun flight =>
    decide (flight.key = key) && flight.result.isNone) =
      none := by
    rw [List.findIdx?_eq_none_iff]
    intro flight hflight
    rw [Option.isNone_eq_false_iff.mpr (hidle flight hflight), Bool.and_false]
  rw [Serving.join, hnone]
  rfl

theorem flights_awaits (flight : Flight) :
    (s.awaits value flight).flights[s.flights.length]? = some flight := by
  simp [Serving.awaits]

theorem setFlight_awaits (flight flight' : Flight) :
    (s.awaits value flight).setFlight s.flights.length flight' = s.awaits value flight' := by
  simp [Serving.awaits, Serving.setFlight]

theorem reaches_fetched {trace : List ServingStep} {key : Str} (client : Client) (now mono : ℚ)
    (hrun : Reaches (servingSystem rt settings) anyStep trace
      (s.awaits value ⟨key, value, none, none⟩)) :
    ∃ trace flight, flight.result.isSome = true ∧ Reaches (servingSystem rt settings) anyStep trace
      ((s.awaits value flight).afterResume settings s.waiting.length mono
        ⟨value, s.handled, s.flights.length⟩ (some s.changes.length)
        (LiveBackend.fetch rt settings client now value)) := by
  have hread : (servingSystem rt settings).step (s.awaits value ⟨key, value, none, none⟩)
      (.read s.flights.length) (s.awaits value ⟨key, value, some s.changes.length, none⟩) :=
    ⟨_, flights_awaits _, rfl, rfl, (setFlight_awaits _ _).symm⟩
  have hfinish : (servingSystem rt settings).step
      (s.awaits value ⟨key, value, some s.changes.length, none⟩)
      (.finish s.flights.length client now) (s.awaits value ⟨key, value, some s.changes.length,
        some (LiveBackend.fetch rt settings client now value)⟩) :=
    ⟨_, flights_awaits _, rfl, fun _ => rfl, (setFlight_awaits _ _).symm⟩
  have hresume : (servingSystem rt settings).step
    (s.awaits value ⟨key, value, some s.changes.length,
      some (LiveBackend.fetch rt settings client now value)⟩) (.resume s.waiting.length mono) _ :=
    ⟨⟨value, s.handled, s.flights.length⟩, _, _, by simp [Serving.awaits],
      flights_awaits _, rfl, rfl⟩
  exact ⟨_, _, rfl, ((hrun.step trivial hread).step trivial hfinish).step trivial hresume⟩

/-- What is awaited comes to the answer `LiveBackend.lookup` gives after its fetch. -/
theorem fetch_uninterrupted {trace : List ServingStep} {key : Str} {client : Client}
    {result : LookupResult} {live : LiveBackend} (hkey : LiveBackend.cacheKey settings value = key)
    (hrun : Reaches (servingSystem rt settings) anyStep trace
      (s.awaits value ⟨key, value, none, none⟩))
    (hlive : (match LiveBackend.fetch rt settings client now value with
      | .ok payload => .ok (⟨payload, "opencti"⟩, ⟨s.cache.set key payload mono⟩)
      | .error fault =>
          if LiveBackend.isUpstreamError fault then
            .ok (⟨degradedPayload, "degraded"⟩, ⟨s.cache⟩)
          else .error fault : Py (LookupResult × LiveBackend)) = .ok (result, live))
    (hidle : ∀ flight ∈ s.flights, flight.result.isSome = true) :
    ∃ trace s' obtained, Reaches (servingSystem rt settings) anyStep trace s' ∧
      (∀ flight ∈ s'.flights, flight.result.isSome = true) ∧
      s'.worker.split = { s.worker.split with live := live } ∧ s'.answers = s.answers ++
        [⟨value, s.handled, result, obtained⟩] := by
  obtain ⟨_, flight, hdone, hend⟩ := reaches_fetched client now mono hrun
  have hidle : ∀ flight' ∈ s.flights ++ [flight], flight'.result.isSome = true := by
    intro flight' hflight'
    rcases List.mem_append.mp hflight' with hold | hlast
    · exact hidle flight' hold
    · rw [List.mem_singleton.mp hlast]
      exact hdone
  cases hfetch : LiveBackend.fetch rt settings client now value with
  | ok payload =>
      rw [hfetch] at hlive hend
      cases hlive
      rw [← hkey]
      exact ⟨_, _, _, hend, hidle, rfl, rfl⟩
  | error fault =>
      rw [hfetch] at hlive hend
      dsimp only at hlive
      by_cases hupstream : LiveBackend.isUpstreamError fault = true
      · rw [if_pos hupstream] at hlive
        unfold Serving.afterResume at hend
        dsimp only at hend
        rw [if_pos hupstream] at hend
        cases hlive
        exact ⟨_, _, _, hend, hidle, rfl, rfl⟩
      · rw [if_neg hupstream] at hlive
        cases hlive

/-- A lookup that runs with no other step in between ends as `SplitBackend.lookup`
does on the backend it started with, and leaves no fetch under way. -/
theorem lookup_uninterrupted {trace : List ServingStep} {client : Client} {result : LookupResult}
    {split : SplitBackend} (hrun : Reaches (servingSystem rt settings) anyStep trace s)
    (hidle : ∀ flight ∈ s.flights, flight.result.isSome = true)
    (hlookup : s.worker.split.lookup rt settings client now mono value = .ok (result, split)) :
    ∃ trace s' obtained, Reaches (servingSystem rt settings) anyStep trace s' ∧
      (∀ flight ∈ s'.flights, flight.result.isSome = true) ∧
      s'.worker.split = split ∧ s'.answers = s.answers ++
        [⟨value, s.handled, result, obtained⟩] := by
  have hfirst := hrun.step trivial
    (show (servingSystem rt settings).step s (.lookup value mono) _ from rfl)
  unfold Serving.afterLookup at hfirst
  unfold SplitBackend.lookup at hlookup
  by_cases hlookupable : value.lookupable = true
  · rw [if_neg (by simp [hlookupable])] at hlookup hfirst
    cases hroute : s.worker.split.route rt settings value with
    | membershipMiss =>
        rw [hroute] at hlookup hfirst
        cases hlookup
        exact ⟨_, _, _, hfirst, hidle, rfl, rfl⟩
    | live =>
        rw [hroute] at hlookup hfirst
        dsimp only at hlookup hfirst
        obtain ⟨⟨found, live⟩, hlive, hlookup⟩ := bind_eq_ok_iff.mp hlookup
        cases hlookup
        unfold LiveBackend.lookup at hlive
        rw [if_neg (by simp [hlookupable])] at hlive
        unfold Serving.cache at hfirst
        dsimp only at hlive
        cases hget : s.worker.split.live.cache.get (LiveBackend.cacheKey settings value) mono with
        | mk cached cache =>
            rw [hget] at hlive hfirst
            cases cached with
            | some payload =>
                cases hlive
                exact ⟨_, _, _, hfirst, hidle, rfl, rfl⟩
            | none =>
                have hjoin := @join_idle (s.setCache cache) hidle
                  (LiveBackend.cacheKey settings value) value
                dsimp only at hlive hfirst
                rw [hjoin] at hfirst
                exact fetch_uninterrupted (s := s.setCache cache) rfl hfirst hlive hidle
  · rw [if_pos (by simp [hlookupable])] at hlookup hfirst
    cases hlookup
    exact ⟨_, _, _, hfirst, hidle, rfl, rfl⟩

end Uninterrupted

/-! ### One step -/

section Step

variable {rt settings} {s s' : Serving} {i : ℕ} {value : Normalized}

structure Serving.Sound (settings : Settings) (s : Serving) : Prop where
  handled_le : s.handled ≤ s.changes.length
  started_le : ∀ answer ∈ s.answers, answer.started ≤ s.handled
  keyed : ∀ waiting ∈ s.waiting, waiting.started ≤ s.handled ∧ ∃ flight,
    s.flights[waiting.flight]? = some flight ∧
      flight.key = LiveBackend.cacheKey settings waiting.value
  obtained : ∀ (index : ℕ) (flight : Flight) (payload : Payload), s.flights[index]? = some flight →
    flight.result = some (.ok payload) → flight.obtained.isSome = true

def Serving.AllRenewed (rt : Runtime) (settings : Settings) (s : Serving) : Prop :=
  ∀ i < s.handled, ∀ change, s.changes[i]? = some change → ∀ value : Normalized,
    value.value ∈ change.keys rt settings → s.Renewed settings i value

theorem Serving.Renewed.mono (h : s.Renewed settings i value)
    (hcache : ∀ e ∈ s'.cache.data, e ∈ s.cache.data) (hstored : s'.storedAt = s.storedAt)
    (hflights : ∀ index flight, s'.flights[index]? = some flight → s'.Awaited index flight →
      (s.flights[index]? = some flight ∧ s.Awaited index flight) ∨
        ∀ n, flight.obtained = some n → i < n) : s'.Renewed settings i value where
  cached e he hkey := by
    rw [hstored]
    exact h.cached e (hcache e he) hkey
  fetched index flight hflight hawaited hkey n hn := by
    rcases hflights index flight hflight hawaited with ⟨hold, hwas⟩ | hnew
    · exact h.fetched index flight hold hwas hkey n hn
    · exact hnew n hn

theorem split_handled {change : Change} {consumer : StreamConsumer} {worker : Worker}
    (hfault : (change.handled rt settings consumer worker).fault = none) :
    (change.handled rt settings consumer worker).target.split =
      { worker.split with
        membership := MembershipSet.writeAll rt change.kind.adds (change.keys rt settings)
          worker.membership } := by
  rw [target_handled _ _ _ hfault, Worker.changed, Worker.checkOverlay]
  split
  · rfl
  · split <;> rfl

theorem renewed_join (h : s.Renewed settings i value) (key : Str) (asked : Normalized) :
    (s.join key asked).Renewed settings i value := by
  unfold Serving.join
  cases hfound : s.flights.findIdx? fun flight =>
    decide (flight.key = key) && flight.result.isNone with
  | some found =>
      obtain ⟨hlt, hopen, -⟩ := List.findIdx?_eq_some_iff_getElem.mp hfound
      refine h.mono (fun _ he => he) rfl fun index flight hflight hawaited => .inl ⟨hflight, ?_⟩
      rcases hawaited with hnone | ⟨waiting, hwaiting, hindex⟩
      · exact .inl hnone
      · rcases List.mem_append.mp hwaiting with hold | hlast
        · exact .inr ⟨waiting, hold, hindex⟩
        · -- The fetch joined is still running.
          rw [List.mem_singleton.mp hlast] at hindex
          obtain rfl : found = index := hindex
          have hsame : s.flights[found] = flight := by
            rw [List.getElem?_eq_getElem hlt] at hflight
            exact Option.some.inj hflight
          rw [hsame, Bool.and_eq_true] at hopen
          exact .inl (Option.isNone_iff_eq_none.mp hopen.2)
  | none =>
      refine h.mono (fun _ he => he) rfl fun index flight hflight hawaited => ?_
      dsimp only at hflight
      rw [List.getElem?_append] at hflight
      split at hflight
      · rename_i hlt
        refine .inl ⟨hflight, ?_⟩
        rcases hawaited with hnone | ⟨waiting, hwaiting, hindex⟩
        · exact .inl hnone
        · rcases List.mem_append.mp hwaiting with hold | hlast
          · exact .inr ⟨waiting, hold, hindex⟩
          · rw [List.mem_singleton.mp hlast] at hindex
            exact absurd hindex (Nat.ne_of_gt hlt)
      · rename_i hge
        obtain rfl := List.mem_singleton.mp (List.mem_of_getElem? hflight)
        exact .inr fun n hn => by cases hn

theorem renewed_setFlight (h : s.Renewed settings i value) {index : ℕ} {flight flight' : Flight}
    (hflight : s.flights[index]? = some flight) (hopen : flight.result = none)
    (hkey : flight'.key = flight.key)
    (hobtained : ∀ n, flight'.obtained = some n → flight.obtained = some n ∨ i < n) :
    (s.setFlight index flight').Renewed settings i value where
  cached := h.cached
  fetched other found hfound hawaited hfoundKey n hn := by
    unfold Serving.setFlight at hfound
    dsimp only at hfound
    rw [List.getElem?_set] at hfound
    split at hfound
    · split at hfound
      · cases hfound
        rcases hobtained n hn with hbefore | hlt
        · exact h.fetched index flight hflight (.inl hopen) (hkey ▸ hfoundKey) n hbefore
        · exact hlt
      · cases hfound
    · exact h.fetched other found hfound hawaited hfoundKey n hn

theorem renewed_dropWaiting (h : s.Renewed settings i value) (index : ℕ) :
    (s.dropWaiting index).Renewed settings i value := by
  refine h.mono (fun _ he => he) rfl fun other flight hflight hawaited => .inl ⟨hflight, ?_⟩
  rcases hawaited with hnone | ⟨waiting, hwaiting, hindex⟩
  · exact .inl hnone
  · exact .inr ⟨waiting, List.mem_of_mem_eraseIdx hwaiting, hindex⟩

theorem renewed_answer (h : s.Renewed settings i value) (asked : Normalized) (started : ℕ)
    (result : LookupResult) (obtained : Option ℕ) :
    (s.answer asked started result obtained).Renewed settings i value :=
  ⟨h.cached, h.fetched⟩

theorem renewed_setCache (h : s.Renewed settings i value) {cache : PayloadCache Payload}
    (hcache : ∀ e ∈ cache.data, e ∈ s.cache.data) : (s.setCache cache).Renewed settings i value :=
  ⟨fun e he => h.cached e (hcache e he), h.fetched⟩

theorem renewed_afterLookup (h : s.Renewed settings i value) (asked : Normalized) (mono : ℚ) :
    (s.afterLookup rt settings asked mono).Renewed settings i value := by
  rcases afterLookup_cases s asked mono with ⟨source, heq⟩ | ⟨payload, cache, hget, heq⟩ |
    ⟨cache, hget, heq⟩
  · rw [heq]
    exact renewed_answer h _ _ _ _
  · rw [heq]
    refine renewed_answer (renewed_setCache h fun e he => ?_) _ _ _ _
    exact PayloadCache.mem_get (by rw [hget]; exact he)
  · rw [heq]
    refine renewed_join (renewed_setCache h fun e he => ?_) _ _
    exact PayloadCache.mem_get (by rw [hget]; exact he)

theorem renewed_afterResume (hsound : s.Sound settings) (h : s.Renewed settings i value) {index : ℕ}
    {waiting : Waiting} {flight : Flight} {result : Py Payload} (mono : ℚ)
    (hwaiting : s.waiting[index]? = some waiting)
    (hflight : s.flights[waiting.flight]? = some flight)
    (hresult : flight.result = some result) :
    (s.afterResume settings index mono waiting flight.obtained result).Renewed
      settings i value := by
  cases result with
  | error fault =>
      rcases afterResume_error_cases s index mono waiting flight.obtained fault with heq | heq
      · rw [heq]
        exact renewed_answer (renewed_dropWaiting h index) _ _ _ _
      · rw [heq]
        exact renewed_dropWaiting h index
  | ok payload =>
      have hmem := List.mem_of_getElem? hwaiting
      obtain ⟨-, found, hfound, hkey⟩ := hsound.keyed waiting hmem
      obtain rfl := Option.some.inj (hflight.symm.trans hfound)
      obtain ⟨n, hn⟩ := Option.isSome_iff_exists.mp (hsound.obtained _ _ _ hflight hresult)
      refine ⟨fun e he hsame => ?_, (renewed_dropWaiting h index).fetched⟩
      change i < Function.update s.storedAt _ _ _
      rw [hn, Option.getD_some, Function.update_apply]
      split
      · rename_i heq
        exact h.fetched _ _ hflight (.inr ⟨waiting, hmem, rfl⟩) (hkey.trans heq.symm) n hn
      · rename_i hne
        rcases PayloadCache.mem_set he with rfl | hold
        · exact absurd hsame.symm hne
        · exact h.cached e hold hsame

theorem sound_answer (h : s.Sound settings) (asked : Normalized) {started : ℕ}
    (hstarted : started ≤ s.handled) (result : LookupResult) (obtained : Option ℕ) :
    (s.answer asked started result obtained).Sound settings where
  handled_le := h.handled_le
  started_le answer hanswer := by
    rcases List.mem_append.mp hanswer with hold | hlast
    · exact h.started_le answer hold
    · rw [List.mem_singleton.mp hlast]
      exact hstarted
  keyed := h.keyed
  obtained := h.obtained

theorem sound_setCache (h : s.Sound settings) (cache : PayloadCache Payload) :
    (s.setCache cache).Sound settings := ⟨h.handled_le, h.started_le, h.keyed, h.obtained⟩

theorem sound_dropWaiting (h : s.Sound settings) (index : ℕ) :
    (s.dropWaiting index).Sound settings :=
  ⟨h.handled_le, h.started_le, fun waiting hwaiting =>
    h.keyed waiting (List.mem_of_mem_eraseIdx hwaiting),
    h.obtained⟩

theorem sound_join (h : s.Sound settings) (asked : Normalized) :
    (s.join (LiveBackend.cacheKey settings asked) asked).Sound settings := by
  unfold Serving.join
  cases hfound : s.flights.findIdx? fun flight =>
      decide (flight.key = LiveBackend.cacheKey settings asked) && flight.result.isNone with
  | some found =>
      obtain ⟨hlt, hopen, -⟩ := List.findIdx?_eq_some_iff_getElem.mp hfound
      refine ⟨h.handled_le, h.started_le, fun waiting hwaiting => ?_, h.obtained⟩
      rcases List.mem_append.mp hwaiting with hold | hlast
      · exact h.keyed waiting hold
      · rw [List.mem_singleton.mp hlast]
        rw [Bool.and_eq_true, decide_eq_true_iff] at hopen
        exact ⟨le_rfl, _, List.getElem?_eq_getElem hlt, hopen.1⟩
  | none =>
      refine ⟨h.handled_le, h.started_le, fun waiting hwaiting => ?_,
        fun index flight payload hflight hdone => ?_⟩
      · dsimp only
        rcases List.mem_append.mp hwaiting with hold | hlast
        · obtain ⟨hstarted, flight, hflight, hkey⟩ := h.keyed waiting hold
          refine ⟨hstarted, flight, ?_, hkey⟩
          rw [List.getElem?_append_left (List.getElem?_eq_some_iff.mp hflight).1]
          exact hflight
        · rw [List.mem_singleton.mp hlast]
          exact ⟨le_rfl, _, List.getElem?_concat_length, rfl⟩
      · dsimp only at hflight
        rw [List.getElem?_append] at hflight
        split at hflight
        · exact h.obtained index flight payload hflight hdone
        · rw [List.mem_singleton.mp (List.mem_of_getElem? hflight)] at hdone
          cases hdone

theorem sound_setFlight (h : s.Sound settings) {index : ℕ} {flight flight' : Flight}
    (hflight : s.flights[index]? = some flight) (hkey : flight'.key = flight.key)
    (hobtained : ∀ payload, flight'.result = some (.ok payload) → flight'.obtained.isSome = true) :
    (s.setFlight index flight').Sound settings where
  handled_le := h.handled_le
  started_le := h.started_le
  keyed waiting hwaiting := by
    obtain ⟨hstarted, found, hfound, hfoundKey⟩ := h.keyed waiting hwaiting
    refine ⟨hstarted, ?_⟩
    unfold Serving.setFlight
    dsimp only
    rw [List.getElem?_set]
    split
    · rename_i hindex
      rw [← hindex, hflight] at hfound
      rw [if_pos (List.getElem?_eq_some_iff.mp hflight).1]
      exact ⟨flight', rfl, hkey.trans (Option.some.inj hfound ▸ hfoundKey)⟩
    · exact ⟨found, hfound, hfoundKey⟩
  obtained other found payload hfound hdone := by
    unfold Serving.setFlight at hfound
    dsimp only at hfound
    rw [List.getElem?_set] at hfound
    split at hfound
    · split at hfound
      · cases hfound
        exact hobtained payload hdone
      · cases hfound
    · exact h.obtained other found payload hfound hdone

theorem sound_afterLookup (h : s.Sound settings) (asked : Normalized) (mono : ℚ) :
    (s.afterLookup rt settings asked mono).Sound settings := by
  rcases afterLookup_cases s asked mono with ⟨source, heq⟩ | ⟨payload, cache, -, heq⟩ |
    ⟨cache, -, heq⟩
  · rw [heq]
    exact sound_answer h _ le_rfl _ _
  · rw [heq]
    exact sound_answer (sound_setCache h _) _ le_rfl _ _
  · rw [heq]
    exact sound_join (sound_setCache h _) _

theorem sound_afterResume (h : s.Sound settings) {index : ℕ} {waiting : Waiting} (mono : ℚ)
    (hwaiting : s.waiting[index]? = some waiting) (obtained : Option ℕ) (result : Py Payload) :
    (s.afterResume settings index mono waiting obtained result).Sound settings := by
  have hstarted := (h.keyed waiting (List.mem_of_getElem? hwaiting)).1
  have hdropped := sound_dropWaiting h index
  cases result with
  | error fault =>
      rcases afterResume_error_cases s index mono waiting obtained fault with heq | heq
      · rw [heq]
        exact sound_answer hdropped _ hstarted _ _
      · rw [heq]
        exact hdropped
  | ok payload =>
      have hanswered := sound_answer (sound_setCache hdropped
        (s.cache.set (LiveBackend.cacheKey settings waiting.value) payload mono)) waiting.value
        hstarted ⟨payload, "opencti"⟩ obtained
      exact ⟨hanswered.handled_le, hanswered.started_le, hanswered.keyed, hanswered.obtained⟩

theorem serving_sound_step {a : ServingStep} (h : s.Sound settings)
    (hstep : (servingSystem rt settings).step s a s') : s'.Sound settings := by
  cases a with
  | change change =>
      obtain rfl := hstep
      refine ⟨h.handled_le.trans ?_, h.started_le, h.keyed, h.obtained⟩
      rw [List.length_append]
      exact Nat.le_add_right _ _
  | handle now =>
      obtain ⟨change, hchange, -, rfl⟩ := hstep
      refine ⟨(List.getElem?_eq_some_iff.mp hchange).1, fun answer hanswer => ?_,
        fun waiting hwaiting => ?_, h.obtained⟩
      · exact (h.started_le answer hanswer).trans (Nat.le_succ _)
      · obtain ⟨hstarted, hkeyed⟩ := h.keyed waiting hwaiting
        exact ⟨hstarted.trans (Nat.le_succ _), hkeyed⟩
  | lookup asked mono =>
      obtain rfl := hstep
      exact sound_afterLookup h asked mono
  | read index =>
      obtain ⟨flight, hflight, -, hopen, rfl⟩ := hstep
      exact sound_setFlight h hflight rfl fun payload hdone => by rfl
  | finish index client now =>
      obtain ⟨flight, hflight, -, hread, rfl⟩ := hstep
      refine sound_setFlight h hflight rfl fun payload hdone => hread ?_
      rw [Option.some.inj hdone]
      rfl
  | resume index mono =>
      obtain ⟨waiting, flight, result, hwaiting, -, -, rfl⟩ := hstep
      exact sound_afterResume h mono hwaiting _ _
  | swap set =>
      obtain rfl := hstep
      exact ⟨h.handled_le, h.started_le, h.keyed, h.obtained⟩
  | health connected activityLagS =>
      obtain rfl := hstep
      exact ⟨h.handled_le, h.started_le, h.keyed, h.obtained⟩

theorem renewed_handle {now : ℚ} (h : s.Renewed settings i value)
    (hstep : (servingSystem rt settings).step s (.handle now) s') :
      s'.Renewed settings i value := by
  obtain ⟨change, -, hfault, rfl⟩ := hstep
  refine ⟨fun e he => h.cached e ?_, h.fetched⟩
  unfold Serving.cache at he
  dsimp only at he
  rw [split_handled hfault] at he
  exact he

theorem renewed_step {a : ServingStep} (hsound : s.Sound settings) (hlt : i < s.handled)
    (h : s.Renewed settings i value) (hstep : (servingSystem rt settings).step s a s') :
    s'.Renewed settings i value := by
  cases a with
  | change change =>
      obtain rfl := hstep
      exact ⟨h.cached, h.fetched⟩
  | handle now => exact renewed_handle h hstep
  | lookup asked mono =>
      obtain rfl := hstep
      exact renewed_afterLookup h asked mono
  | read index =>
      obtain ⟨flight, hflight, -, hopen, rfl⟩ := hstep
      refine renewed_setFlight h hflight hopen rfl fun n hn => .inr ?_
      rw [← Option.some.inj hn]
      exact hlt.trans_le hsound.handled_le
  | finish index client now =>
      obtain ⟨flight, hflight, hopen, -, rfl⟩ := hstep
      exact renewed_setFlight h hflight hopen rfl fun n hn => .inl hn
  | resume index mono =>
      obtain ⟨waiting, flight, result, hwaiting, hflight, hresult, rfl⟩ := hstep
      exact renewed_afterResume hsound h mono hwaiting hflight hresult
  | swap set =>
      obtain rfl := hstep
      exact ⟨h.cached, h.fetched⟩
  | health connected activityLagS =>
      obtain rfl := hstep
      exact ⟨h.cached, h.fetched⟩

theorem fresh_append {changes : List Change} {answer : Answer}
    (h : answer.Fresh rt settings changes)
    (hstarted : answer.started ≤ changes.length) (later : List Change) :
    answer.Fresh rt settings (changes ++ later) := by
  intro i hi change hchange
  rw [List.getElem?_append_left (hi.trans_le hstarted)] at hchange
  exact h i hi change hchange

theorem fresh_of_renewed (h : s.AllRenewed rt settings) {answer : Answer}
    (hstarted : answer.started ≤ s.handled)
    (hobtained : ∀ i, s.Renewed settings i answer.value → ∀ n, answer.obtained = some n → i < n) :
    answer.Fresh rt settings s.changes := fun i hi change hchange hkey =>
  hobtained i (h i (hi.trans_le hstarted) change hchange answer.value hkey)

theorem answersFresh_append {answers : List Answer} {new : Answer}
    (h : ∀ answer ∈ answers, answer.Fresh rt settings s.changes)
    (hnew : new.Fresh rt settings s.changes) :
    ∀ answer ∈ answers ++ [new], answer.Fresh rt settings s.changes := by
  intro answer hanswer
  rcases List.mem_append.mp hanswer with hold | hlast
  · exact h answer hold
  · rw [List.mem_singleton.mp hlast]
    exact hnew

theorem fresh_of_none {changes : List Change} {answer : Answer} (h : answer.obtained = none) :
    answer.Fresh rt settings changes := by
  intro i _ change _ _ n hn
  rw [h] at hn
  cases hn

theorem answersFresh_afterLookup (h : s.AllRenewed rt settings)
    (hfresh : AnswersFresh rt settings s)
    (asked : Normalized) (mono : ℚ) : AnswersFresh rt settings
      (s.afterLookup rt settings asked mono) := by
  rcases afterLookup_cases s asked mono with ⟨source, heq⟩ | ⟨payload, cache, hget, heq⟩ |
    ⟨cache, -, heq⟩
  · rw [heq]
    exact answersFresh_append hfresh (fresh_of_none rfl)
  · rw [heq]
    obtain ⟨expiresAt, hentry, -⟩ := PayloadCache.get_fst_eq_some_iff.mp (congrArg Prod.fst hget)
    refine answersFresh_append hfresh (fresh_of_renewed h le_rfl fun i hi n hn => ?_)
    rw [← Option.some.inj hn]
    exact hi.cached _ (PayloadCache.mem_of_entry hentry) rfl
  · rw [heq]
    unfold Serving.join
    split <;> exact hfresh

theorem answersFresh_afterResume (hsound : s.Sound settings) (h : s.AllRenewed rt settings)
    (hfresh : AnswersFresh rt settings s) {index : ℕ} {waiting : Waiting} {flight : Flight}
    {result : Py Payload} (mono : ℚ) (hwaiting : s.waiting[index]? = some waiting)
    (hflight : s.flights[waiting.flight]? = some flight) :
    AnswersFresh rt settings (s.afterResume settings index mono waiting
      flight.obtained result) := by
  have hmem := List.mem_of_getElem? hwaiting
  obtain ⟨hstarted, found, hfound, hkey⟩ := hsound.keyed waiting hmem
  obtain rfl := Option.some.inj (hflight.symm.trans hfound)
  cases result with
  | error fault =>
      rcases afterResume_error_cases s index mono waiting flight.obtained fault with heq | heq
      · rw [heq]
        exact answersFresh_append hfresh (fresh_of_none rfl)
      · rw [heq]
        exact hfresh
  | ok payload =>
      refine answersFresh_append hfresh (fresh_of_renewed h hstarted fun i hi n hn => ?_)
      exact hi.fetched _ _ hflight (.inr ⟨waiting, hmem, rfl⟩) hkey n hn

theorem answersFresh_step {a : ServingStep} (hsound : s.Sound settings)
    (h : s.AllRenewed rt settings)
    (hfresh : AnswersFresh rt settings s) (hstep : (servingSystem rt settings).step s a s') :
    AnswersFresh rt settings s' := by
  cases a with
  | change change =>
      obtain rfl := hstep
      exact fun answer hanswer => fresh_append (hfresh answer hanswer)
        ((hsound.started_le answer hanswer).trans hsound.handled_le) [change]
  | handle now =>
      obtain ⟨change, -, -, rfl⟩ := hstep
      exact hfresh
  | lookup asked mono =>
      obtain rfl := hstep
      exact answersFresh_afterLookup h hfresh asked mono
  | read index =>
      obtain ⟨flight, -, -, -, rfl⟩ := hstep
      exact hfresh
  | finish index client now =>
      obtain ⟨flight, -, -, -, rfl⟩ := hstep
      exact hfresh
  | resume index mono =>
      obtain ⟨waiting, flight, result, hwaiting, hflight, -, rfl⟩ := hstep
      exact answersFresh_afterResume hsound h hfresh mono hwaiting hflight
  | swap set =>
      obtain rfl := hstep
      exact hfresh
  | health connected activityLagS =>
      obtain rfl := hstep
      exact hfresh

theorem history_afterLookup (asked : Normalized) (mono : ℚ) :
    (s.afterLookup rt settings asked mono).handled = s.handled ∧
      (s.afterLookup rt settings asked mono).changes = s.changes := by
  rcases afterLookup_cases s asked mono with ⟨source, heq⟩ | ⟨payload, cache, -, heq⟩ |
    ⟨cache, -, heq⟩
  · rw [heq]
    exact ⟨rfl, rfl⟩
  · rw [heq]
    exact ⟨rfl, rfl⟩
  · rw [heq]
    unfold Serving.join
    split <;> exact ⟨rfl, rfl⟩

theorem history_afterResume (index : ℕ) (mono : ℚ) (waiting : Waiting) (obtained : Option ℕ)
    (result : Py Payload) :
    (s.afterResume settings index mono waiting obtained result).handled = s.handled ∧
      (s.afterResume settings index mono waiting obtained result).changes = s.changes := by
  cases result with
  | ok payload => exact ⟨rfl, rfl⟩
  | error fault =>
      rcases afterResume_error_cases s index mono waiting obtained fault with heq | heq
      · rw [heq]
        exact ⟨rfl, rfl⟩
      · rw [heq]
        exact ⟨rfl, rfl⟩

theorem handled_step {a : ServingStep} (hsound : s.Sound settings)
    (hstep : (servingSystem rt settings).step s a s') (hi : i < s'.handled) {change : Change}
    (hchange : s'.changes[i]? = some change) :
    (i < s.handled ∧ s.changes[i]? = some change) ∨
      ((∃ now, a = .handle now) ∧ i = s.handled ∧ s.changes[s.handled]? = some change) := by
  cases a with
  | change new =>
      obtain rfl := hstep
      refine .inl ⟨hi, ?_⟩
      rwa [List.getElem?_append_left (lt_of_lt_of_le hi hsound.handled_le)] at hchange
  | handle now =>
      obtain ⟨_, -, -, rfl⟩ := hstep
      rcases Nat.lt_succ_iff_lt_or_eq.mp hi with hlt | rfl
      · exact .inl ⟨hlt, hchange⟩
      · exact .inr ⟨⟨now, rfl⟩, rfl, hchange⟩
  | lookup asked mono =>
      obtain rfl := hstep
      rw [(history_afterLookup asked mono).1] at hi
      rw [(history_afterLookup asked mono).2] at hchange
      exact .inl ⟨hi, hchange⟩
  | read index =>
      obtain ⟨flight, -, -, -, rfl⟩ := hstep
      exact .inl ⟨hi, hchange⟩
  | finish index client now =>
      obtain ⟨flight, -, -, -, rfl⟩ := hstep
      exact .inl ⟨hi, hchange⟩
  | resume index mono =>
      obtain ⟨waiting, flight, result, -, -, -, rfl⟩ := hstep
      rw [(history_afterResume index mono waiting _ result).1] at hi
      rw [(history_afterResume index mono waiting _ result).2] at hchange
      exact .inl ⟨hi, hchange⟩
  | swap set =>
      obtain rfl := hstep
      exact .inl ⟨hi, hchange⟩
  | health connected activityLagS =>
      obtain rfl := hstep
      exact .inl ⟨hi, hchange⟩

theorem allRenewed_step {a : ServingStep} (hsound : s.Sound settings) (h : s.AllRenewed rt settings)
    (holder : NothingOlder rt settings s a) (hstep : (servingSystem rt settings).step s a s') :
    s'.AllRenewed rt settings := by
  intro i hi change hchange value hkey
  rcases handled_step hsound hstep hi hchange with ⟨hlt, hbefore⟩ | ⟨⟨now, rfl⟩, rfl, hnew⟩
  · exact renewed_step hsound hlt (h i hlt change hbefore value hkey) hstep
  · exact renewed_handle (holder now rfl change hnew value hkey) hstep

end Step

/-- In every run in which no event finds something older than its change cached or
under way, no lookup started after an event returns a payload from before it. -/
theorem answers_fresh {trace : List ServingStep} {s : Serving}
    (hrun : Reaches (servingSystem rt settings) (NothingOlder rt settings) trace s) :
    AnswersFresh rt settings s := by
  refine (hrun.invariant (I := fun s => s.Sound settings ∧ s.AllRenewed rt settings ∧
    AnswersFresh rt settings s) ?_ ?_).2.2
  · rintro s ⟨hchanges, hhandled, -, hflights, hwaiting, hanswers⟩
    refine ⟨⟨by rw [hhandled]; exact Nat.zero_le _, ?_, ?_, ?_⟩, ?_, ?_⟩
    · simp [hanswers]
    · simp [hwaiting]
    · simp [hflights]
    · intro i hi
      rw [hhandled] at hi
      exact absurd hi (Nat.not_lt_zero i)
    · simp [AnswersFresh, hanswers]
  · exact fun _ _ _ ⟨hsound, hrenewed, hfresh⟩ holder hstep => ⟨serving_sound_step hsound hstep,
      allRenewed_step hsound hrenewed holder hstep, answersFresh_step hsound hrenewed hfresh hstep⟩

section Stale

variable {rt settings} {s s' : Serving} {change : Change} {mono : ℚ} {payload : Payload}

theorem route_of_contains {backend : SplitBackend} {value : Normalized}
    (h : backend.membership.contains rt value.value = true) :
    backend.route rt settings value = .live := by
  unfold SplitBackend.route
  rw [if_pos h, ite_self]

theorem afterLookup_cached {value : Normalized} (hlookupable : value.lookupable = true)
    (hroute : s.worker.split.route rt settings value = .live)
    (hcached : s.cache.fresh (LiveBackend.cacheKey settings value) mono payload) :
    (s.afterLookup rt settings value mono).answers = s.answers ++
      [⟨value, s.handled, ⟨payload, "payload_cache"⟩,
        some (s.storedAt (LiveBackend.cacheKey settings value))⟩] := by
  have hget := PayloadCache.get_fst_eq_some_iff.mpr hcached
  unfold Serving.afterLookup
  rw [hlookupable, hroute]
  simp only [Bool.not_true, Bool.false_eq_true, if_false]
  cases hpair : s.cache.get (LiveBackend.cacheKey settings value) mono with
  | mk found cache =>
      rw [hpair] at hget
      obtain rfl : found = some payload := hget
      rfl

/-- An event that finds an older payload in the cache leaves it there for the next
lookup. -/
theorem not_answersFresh_of_older (now : ℚ) {value : Normalized}
    (hlookupable : value.lookupable = true)
    (hchange : s.changes[s.handled]? = some change) (hkey : value.value ∈ change.keys rt settings)
    (hcached : s.cache.fresh (LiveBackend.cacheKey settings value) mono payload)
    (holder : s.storedAt (LiveBackend.cacheKey settings value) ≤ s.handled)
    (hfault : (({ change with now := now } : Change).handled rt settings s.consumer
      s.worker).fault = none)
    (hroute : (({ change with now := now } : Change).handled rt settings s.consumer
      s.worker).target.split.route rt settings value = .live) :
    ∃ s', (servingSystem rt settings).step s (.handle now) s' ∧
      ¬ AnswersFresh rt settings (s'.afterLookup rt settings value mono) := by
  refine ⟨_, ⟨change, hchange, hfault, rfl⟩, fun hfresh => ?_⟩
  have hsplit := split_handled hfault
  refine absurd (hfresh ⟨value, s.handled + 1, ⟨payload, "payload_cache"⟩,
    some (s.storedAt (LiveBackend.cacheKey settings value))⟩ ?_ s.handled
      (Nat.lt_succ_self _) change ?_ hkey
    _ rfl) holder.not_gt
  · rw [afterLookup_cached hlookupable hroute]
    · exact List.mem_append_right _ (List.mem_singleton_self _)
    · unfold Serving.cache
      dsimp only
      rw [hsplit]
      exact hcached
  · rw [(history_afterLookup value mono).2]
    exact hchange

end Stale

section CacheSample

def evilValue : Normalized := ⟨"evil.com", "evil.com", .domain, none⟩

def evilKey : Str := LiveBackend.cacheKey (sampleSettings 50000) evilValue

def sampleServing : Serving where
  changes := []
  handled := 0
  consumer := {}
  worker :=
    { split :=
        { membership :=
            MembershipSet.init (some ⟨"psm_", [fingerprint sampleRuntime "evil.com"]⟩) 1 true 50000
          live := ⟨PayloadCache.init 1048576 1024 86400 900⟩
          ready := true }
      reconciler := none }
  storedAt := fun _ => 0
  flights := []
  waiting := []
  answers := []

def awaiting (flight : Flight) : Serving :=
  { sampleServing with flights := [flight], waiting := [⟨evilValue, 0, 0⟩] }

def emptyReply : Client := fun _ => .ok (.obj [("stixCyberObservables", .obj [("edges", .arr [])])])

def missStored : Serving :=
  (awaiting ⟨evilKey, evilValue, some 0, some (.ok miss)⟩).afterResume (sampleSettings 50000) 0 0
    ⟨evilValue, 0, 0⟩ (some 0) (.ok miss)

theorem step_lookup (s : Serving) (value : Normalized) (mono : ℚ) :
    (servingSystem sampleRuntime (sampleSettings 50000)).step s (.lookup value mono)
      (s.afterLookup sampleRuntime (sampleSettings 50000) value mono) := rfl

theorem reaches_missStored : ∃ trace, Reaches (servingSystem sampleRuntime (sampleSettings 50000))
    (NothingOlder sampleRuntime (sampleSettings 50000)) trace missStored := by
  have hroute : sampleServing.worker.split.route sampleRuntime
    (sampleSettings 50000) evilValue = .live := by
    decide
  have hlookup : (servingSystem sampleRuntime (sampleSettings 50000)).step sampleServing
      (.lookup evilValue 0) (awaiting ⟨evilKey, evilValue, none, none⟩) := by
    change _ = sampleServing.afterLookup sampleRuntime (sampleSettings 50000) evilValue 0
    unfold Serving.afterLookup
    rw [hroute]
    rfl
  have hread : (servingSystem sampleRuntime (sampleSettings 50000)).step
      (awaiting ⟨evilKey, evilValue, none, none⟩) (.read 0)
      (awaiting ⟨evilKey, evilValue, some 0, none⟩) := ⟨_, rfl, rfl, rfl, rfl⟩
  have hfinish : (servingSystem sampleRuntime (sampleSettings 50000)).step
      (awaiting ⟨evilKey, evilValue, some 0, none⟩) (.finish 0 emptyReply 0)
      (awaiting ⟨evilKey, evilValue, some 0, some (.ok miss)⟩) := ⟨_, rfl, rfl, fun _ => rfl, rfl⟩
  have hresume : (servingSystem sampleRuntime (sampleSettings 50000)).step
      (awaiting ⟨evilKey, evilValue, some 0, some (.ok miss)⟩) (.resume 0 0) missStored :=
    ⟨_, _, _, rfl, rfl, rfl, rfl⟩
  have hstart : Reaches (servingSystem sampleRuntime (sampleSettings 50000))
      (NothingOlder sampleRuntime (sampleSettings 50000)) [] sampleServing :=
    .init ⟨rfl, rfl, rfl, rfl, rfl, rfl⟩
  exact ⟨_, (((hstart.step nofun hlookup).step nofun hread).step nofun hfinish).step nofun hresume⟩

theorem fresh_missStored : missStored.cache.fresh evilKey 1 miss :=
  ⟨0 + (86400 : ℤ), rfl, by norm_num⟩

theorem packed_missStored : missStored.worker.membership.Ok ∧
    missStored.worker.membership.contains sampleRuntime "evil.com" = true :=
  ⟨MembershipSet.ok_init _ _ (List.pairwise_singleton _ _) le_rfl, by decide⟩

def created (domains : List Str) : Serving :=
  { missStored with changes := [sampleChange .create "a" domains] }

theorem route_created (domains : List Str) (hdomains : domains ⊆ ["evil.com", "good.com"]) :
    ((sampleChange .create "a" domains).handled sampleRuntime (sampleSettings 50000)
      (created domains).consumer (created domains).worker).target.split.route sampleRuntime
        (sampleSettings 50000) evilValue = .live := by
  obtain ⟨hok, hcontains⟩ := packed_missStored
  refine route_of_contains ?_
  rw [split_handled (fault_sample 50000 .create "a" hdomains _ _)]
  by_cases hwritten :
      ∃ key ∈ (sampleChange .create "a" domains).keys sampleRuntime (sampleSettings 50000),
        fingerprint sampleRuntime key = fingerprint sampleRuntime "evil.com"
  · exact MembershipSet.contains_writeAll_of_mem hok true _ hwritten
  · push Not at hwritten
    exact (MembershipSet.contains_writeAll_of_not_mem hok true _ hwritten).trans hcontains

theorem nothingOlder_good : NothingOlder sampleRuntime (sampleSettings 50000) (created ["good.com"])
    (.handle 0) := by
  rintro now - change hchange value hkey
  obtain rfl := Option.some.inj hchange
  rw [Change.keys, sampleChange, keys_sampleObject, keysOf_good] at hkey
  refine ⟨fun e he hsame => ?_, fun index flight hflight hawaited => ?_⟩
  · obtain rfl : e = (evilKey, miss, (0 + (86400 : ℤ) : ℚ)) := List.mem_singleton.mp he
    rw [LiveBackend.cacheKey, Normalized.cacheKey, List.mem_singleton.mp hkey] at hsame
    cases htype : value.type <;> rw [htype] at hsame <;> exact absurd hsame (by decide)
  · rcases hawaited with hrunning | ⟨waiting, hwaiting, -⟩
    · rw [List.mem_singleton.mp (List.mem_of_getElem? hflight)] at hrunning
      cases hrunning
    · cases hwaiting

/-- The miss cached for a domain is fresh after the event of another. -/
theorem fresh_miss_after_other : ∃ s, AnswersFresh sampleRuntime (sampleSettings 50000) s ∧
    s.answers.map (fun answer => (answer.value, answer.started, answer.result.source,
      answer.obtained)) =
      [(evilValue, 0, "opencti".toList, some 0),
        (evilValue, 1, "payload_cache".toList, some 0)] := by
  obtain ⟨trace, hrun⟩ := reaches_missStored
  have hcreate : (servingSystem sampleRuntime (sampleSettings 50000)).step missStored
      (.change (sampleChange .create "a" ["good.com"])) (created ["good.com"]) := rfl
  have hone : ["good.com".toList] ⊆ ["evil.com", "good.com"] := by simp
  have hfault : (({ sampleChange .create "a" ["good.com"] with now := 0 } :
    Change).handled sampleRuntime
      (sampleSettings 50000) (created ["good.com"]).consumer
        (created ["good.com"]).worker).fault = none :=
    fault_sample 50000 .create "a" hone _ _
  have hsplit := split_handled hfault
  obtain ⟨s, hhandle, hhandled, hanswers, hstored, hcached, hroute⟩ : ∃ s : Serving,
      (servingSystem sampleRuntime (sampleSettings 50000)).step
        (created ["good.com"]) (.handle 0) s ∧
      s.handled = 1 ∧ s.answers = missStored.answers ∧
      s.storedAt (LiveBackend.cacheKey (sampleSettings 50000) evilValue) = 0 ∧
      s.cache.fresh evilKey 1 miss ∧
      s.worker.split.route sampleRuntime (sampleSettings 50000) evilValue = .live := by
    refine ⟨_, ⟨_, rfl, hfault, rfl⟩, rfl, rfl, rfl, ?_, route_created _ hone⟩
    unfold Serving.cache
    dsimp only
    rw [hsplit]
    exact fresh_missStored
  have hidle : NothingOlder sampleRuntime (sampleSettings 50000) s (.lookup evilValue 1) := nofun
  refine ⟨_, answers_fresh _ _
    (((hrun.step nofun hcreate).step nothingOlder_good hhandle).step hidle
      (step_lookup s evilValue 1)), ?_⟩
  rw [afterLookup_cached rfl hroute hcached, hanswers, hhandled, hstored]
  rfl

/-- The miss cached for a domain outlives the event of its indicator. -/
theorem stale_miss_after_create :
    ¬ ∀ (rt : Runtime) (settings : Settings) (trace : List ServingStep) (s : Serving),
      Reaches (servingSystem rt settings) anyStep trace s → AnswersFresh rt settings s := by
  intro hall
  obtain ⟨trace, hrun⟩ := reaches_missStored
  have hcreate : (servingSystem sampleRuntime (sampleSettings 50000)).step missStored
      (.change (sampleChange .create "a" ["evil.com"])) (created ["evil.com"]) := rfl
  have hone : ["evil.com".toList] ⊆ ["evil.com", "good.com"] := by simp
  have hkey : evilValue.value ∈ (sampleChange .create "a" ["evil.com"]).keys sampleRuntime
      (sampleSettings 50000) := by
    rw [Change.keys, sampleChange, keys_sampleObject, keysOf_evil]
    exact List.mem_singleton_self _
  obtain ⟨s, hhandle, hstale⟩ := not_answersFresh_of_older (s := created ["evil.com"]) 0
    rfl rfl hkey fresh_missStored le_rfl (fault_sample 50000 .create "a" hone _ _)
    (route_created _ hone)
  exact hstale (hall _ _ _ _ (((hrun.anyOf.step trivial hcreate).step trivial hhandle).step trivial
    (step_lookup s evilValue 1)))

end CacheSample

end OpenctiLookup
