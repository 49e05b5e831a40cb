import OpenctiLookup.Opencti.LegibleReply
import OpenctiLookup.Systems.CacheFreshness
import OpenctiLookup.Systems.UrlHosts

/-! What a cached payload is worth later. A payload is built at one instant and
served until its entry expires, while the mapper compares every `valid_until` with
the clock. -/
namespace OpenctiLookup
open Python Theory

variable {rt : Runtime} {settings : Settings} {start now : ℚ}

variable (rt start now) in
def Lapses (indicator : Json) : Prop :=
  ∃ validUntil, parseDt rt (indicator.member "valid_until") = some (.aware validUntil) ∧
    start < validUntil ∧ validUntil ≤ now

/-! ### The mapper at two instants -/

section Indicators

variable {indicator : Json}

theorem isExpired_of_not_lapses (hle : start ≤ now) (hlapse : ¬ Lapses rt start now indicator) :
    isExpired rt indicator now = isExpired rt indicator start := by
  cases indicator with
  | obj fields =>
      unfold isExpired
      rw [Json.get_obj, ok_bind, ok_bind]
      cases hparse : parseDt rt (Json.field fields "valid_until") with
      | none => rfl
      | some datetime =>
          cases datetime with
          | naive wall => rfl
          | aware validUntil =>
              have hiff : validUntil ≤ now ↔ validUntil ≤ start := by
                refine ⟨fun hnow => not_lt.mp fun hlt => ?_, fun hstart => hstart.trans hle⟩
                exact hlapse ⟨validUntil, hparse, hlt, hnow⟩
              simp only [hiff]
  | _ => rfl

theorem isExpired_mono (hle : start ≤ now) (h : isExpired rt indicator start = .ok true) :
    isExpired rt indicator now = .ok true := by
  rw [isExpired_of_not_lapses hle, h]
  rintro ⟨validUntil, hparse, hlt, -⟩
  cases indicator with
  | obj fields =>
      unfold isExpired at h
      rw [Json.get_obj, ok_bind] at h
      simp only [Json.member] at hparse
      rw [hparse] at h
      exact absurd (of_decide_eq_true (Except.ok.inj h)) (not_le.mpr hlt)
  | _ => cases h

theorem rank_of_not_lapses (hle : start ≤ now) (hlapse : ¬ Lapses rt start now indicator) :
    rank rt now indicator = rank rt start indicator := by
  unfold rank
  rw [isExpired_of_not_lapses hle hlapse]

theorem survives_of_policy (hpolicy : settings.hitPolicy ≠ .expiryAware) :
    survives rt settings now indicator = survives rt settings start indicator := by
  unfold survives passesPolicy
  cases hkind : settings.hitPolicy with
  | expiryAware => exact absurd hkind hpolicy
  | _ => rfl

variable (rt settings indicator) in
theorem survives_cases :
    (∀ now start, survives rt settings now indicator = survives rt settings start indicator) ∨
      ∀ now, survives rt settings now indicator = (do
        if ← isExpired rt indicator now then
          pure (decide (settings.minScore ≤ (← scoreOf rt indicator)))
        else pure false) := by
  by_cases hpolicy : settings.hitPolicy = .expiryAware
  · unfold survives passesPolicy
    rw [hpolicy]
    cases hrevoked : indicator.get "revoked" with
    | error fault => exact .inl fun _ _ => rfl
    | ok revoked =>
        cases htruthy : revoked.truthy with
        | false =>
            refine .inl fun now start => ?_
            simp only [ok_bind, htruthy, Bool.false_eq_true, if_false]
        | true =>
            refine .inr fun now => ?_
            simp only [ok_bind, htruthy, if_true]
  · exact .inl fun _ _ => survives_of_policy hpolicy

theorem survives_mono (hle : start ≤ now) (h : survives rt settings start indicator = .ok true) :
    survives rt settings now indicator = .ok true := by
  rcases survives_cases rt settings indicator with hsame | hreads
  · rw [hsame now start]
    exact h
  · rw [hreads] at h ⊢
    obtain ⟨expired, hexpired, h⟩ := bind_eq_ok_iff.mp h
    cases expired with
    | false => cases h
    | true =>
        rw [isExpired_mono hle hexpired]
        exact h

theorem survives_of_dismissed (hle : start ≤ now)
    (h : survives rt settings now indicator = .ok false) :
    survives rt settings start indicator = .ok false := by
  rcases survives_cases rt settings indicator with hsame | hreads
  · rw [hsame start now]
    exact h
  · rw [hreads] at h ⊢
    obtain ⟨later, hlater, h⟩ := bind_eq_ok_iff.mp h
    obtain ⟨expired, hexpired, -⟩ : Succeeds (isExpired rt indicator start) := by
      rw [succeeds_isExpired_iff, ← @succeeds_isExpired_iff rt now]
      exact ⟨later, hlater, trivial⟩
    rw [hexpired, ok_bind]
    cases expired with
    | false => rfl
    | true =>
        rw [isExpired_mono hle hexpired] at hlater
        cases hlater
        exact h

variable (rt settings start now) in
/-- An indicator whose validity ends in between and that is not dismissed at the end. -/
def Turns (indicator : Json) : Prop :=
  Lapses rt start now indicator ∧ survives rt settings now indicator ≠ .ok false

theorem survives_of_not_turns (hle : start ≤ now)
    (hturns : ¬ Turns rt settings start now indicator) :
    survives rt settings now indicator = survives rt settings start indicator := by
  by_cases hdismissed : survives rt settings now indicator = .ok false
  · rw [hdismissed, survives_of_dismissed hle hdismissed]
  · unfold survives passesPolicy
    rw [isExpired_of_not_lapses hle fun hlapses => hturns ⟨hlapses, hdismissed⟩]

theorem not_lapses_of_survives (hle : start ≤ now)
    (hturns : ¬ Turns rt settings start now indicator)
    (hsurvives : survives rt settings start indicator = .ok true) :
    ¬ Lapses rt start now indicator := by
  intro hlapses
  refine hturns ⟨hlapses, ?_⟩
  rw [survives_mono hle hsurvives]
  nofun

end Indicators

section Nodes

variable {node : Json}

theorem eq_of_candidates {found : List Json} (h : candidates node = .ok found) :
    found = node.indicators := by
  have hreturns : Returns (candidates node) fun indicators => found = indicators := ⟨found, h, rfl⟩
  exact (returns_candidates_iff.mp hreturns).2.2.2.2

theorem mem_of_selectIndicators {selected : List Json}
    (h : selectIndicators rt settings now node = .ok selected) {indicator : Json}
    (hmem : indicator ∈ selected) :
    indicator ∈ node.indicators ∧ survives rt settings now indicator = .ok true := by
  have hlegible := succeeds_selectIndicators_iff.mp ⟨selected, h, trivial⟩
  obtain ⟨found, hfound, hiff⟩ := (returns_selectIndicators_iff fun _ h => h).mpr hlegible
  cases hfound.symm.trans h
  exact (hiff indicator).mp hmem

variable (hle : start ≤ now)
  (hturns : ∀ indicator ∈ node.indicators, ¬ Turns rt settings start now indicator)
include hle hturns

theorem selectIndicators_of_not_turns :
    selectIndicators rt settings now node = selectIndicators rt settings start node := by
  unfold selectIndicators
  cases hcandidates : candidates node with
  | error fault => rfl
  | ok found =>
      obtain rfl := eq_of_candidates hcandidates
      have hfilter : filterPy (survives rt settings now) node.indicators =
          filterPy (survives rt settings start) node.indicators :=
        filterPy_congr fun indicator hmem => survives_of_not_turns hle (hturns indicator hmem)
      rw [ok_bind, ok_bind, hfilter]
      cases hsurvivors : filterPy (survives rt settings start) node.indicators with
      | error fault => rfl
      | ok survivors =>
          rw [ok_bind, ok_bind]
          refine congrArg (· >>= _) (mapPy_congr fun indicator hmem => ?_)
          obtain ⟨hindicator, hsurvives⟩ := mem_of_filterPy hsurvivors hmem
          rw [rank_of_not_lapses hle
            (not_lapses_of_survives hle (hturns indicator hindicator) hsurvives)]

theorem buildPayload_of_not_turns (value : Str) (kind : Json) (matchType : Str) :
    buildPayload rt settings now node value kind matchType =
      buildPayload rt settings start node value kind matchType := by
  unfold buildPayload
  rw [selectIndicators_of_not_turns hle hturns]
  cases hselected : selectIndicators rt settings start node with
  | error fault => rfl
  | ok survivors =>
      rw [ok_bind, ok_bind]
      cases survivors with
      | nil => rfl
      | cons primary rest =>
          obtain ⟨hmem, hsurvives⟩ := mem_of_selectIndicators hselected List.mem_cons_self
          have hlapses := not_lapses_of_survives hle (hturns primary hmem) hsurvives
          dsimp only
          unfold payloadOf
          rw [isExpired_of_not_lapses hle hlapses]

end Nodes

section Replies

variable {data : Json} {value : Str} {kind : IndicatorType} {matchType : Str}

def replyNode (data : Json) : Py (Option Json) := do
  let block := (← data.get "stixCyberObservables").orElse (.obj [])
  let edges := (← block.get "edges").orElse (.arr [])
  if !edges.truthy then pure none
  else pure (some ((← (← edges.head).get "node").orElse (.obj [])))

theorem readReply_eq : LiveBackend.readReply rt settings now data value kind matchType =
    replyNode data >>= fun node =>
      node.elim (pure none) fun node => node.get "entity_type" >>= fun entityType =>
        buildPayload rt settings now node value (entityType.orElse (.str kind.value))
          matchType := by
  unfold LiveBackend.readReply replyNode
  cases data.get "stixCyberObservables" with
  | error fault => rfl
  | ok block =>
      simp only [ok_bind]
      cases (block.orElse (.obj [])).get "edges" with
      | error fault => rfl
      | ok edges =>
          simp only [ok_bind]
          cases (edges.orElse (.arr [])).truthy with
          | false => rfl
          | true =>
              cases (edges.orElse (.arr [])).head with
              | error fault => rfl
              | ok edge =>
                  simp only [ok_bind]
                  cases edge.get "node" <;> rfl

theorem eq_arr_of_head {edges edge found : Json} {key : Str} (hhead : edges.head = .ok edge)
    (hget : edge.get key = .ok found) : ∃ rest, edges = .arr (edge :: rest) := by
  cases edges with
  | arr items =>
      cases items with
      | nil => cases hhead
      | cons first rest =>
          cases hhead
          exact ⟨rest, rfl⟩
  | str s =>
      cases s with
      | nil => cases hhead
      | cons c s =>
          cases hhead
          cases hget
  | _ => cases hhead

theorem replyNode_eq {node : Json} (h : replyNode data = .ok (some node)) :
    node = data.lookupNode := by
  obtain ⟨block, hblock, h⟩ := bind_eq_ok_iff.mp h
  obtain ⟨edges, hedges, h⟩ := bind_eq_ok_iff.mp h
  have hmember : block = data.member "stixCyberObservables" := by
    have hreturns : Returns (data.get "stixCyberObservables") fun found => block = found :=
      ⟨block, hblock, rfl⟩
    exact ((Json.returns_get_iff _).mp hreturns).2
  have hlookup : edges = data.lookupEdges := by
    have hreturns : Returns ((block.orElse (.obj [])).get "edges") fun found => edges = found :=
      ⟨edges, hedges, rfl⟩
    rw [((Json.returns_orElse_get_iff _).mp hreturns).2, hmember]
    rfl
  by_cases htruthy : edges.truthy = true
  · rw [Json.orElse, if_pos htruthy] at h
    dsimp only at h
    rw [htruthy, if_neg (by decide)] at h
    obtain ⟨edge, hedge, h⟩ := bind_eq_ok_iff.mp h
    obtain ⟨found, hfound, h⟩ := bind_eq_ok_iff.mp h
    cases h
    obtain ⟨rest, rfl⟩ := eq_arr_of_head hedge hfound
    have hreturns : Returns (edge.get "node") fun other => found = other := ⟨found, hfound, rfl⟩
    unfold Json.lookupNode
    rw [← hlookup, ((Json.returns_get_iff _).mp hreturns).2]
  · rw [Json.orElse, if_neg htruthy] at h
    cases h

theorem readReply_of_not_turns (hle : start ≤ now)
    (hturns : ∀ indicator ∈ data.lookupNode.indicators,
      ¬ Turns rt settings start now indicator) :
    LiveBackend.readReply rt settings now data value kind matchType =
      LiveBackend.readReply rt settings start data value kind matchType := by
  rw [readReply_eq, readReply_eq]
  cases hnode : replyNode data with
  | error fault => rfl
  | ok node =>
      cases node with
      | none => rfl
      | some node =>
          obtain rfl := replyNode_eq hnode
          simp only [ok_bind, Option.elim]
          refine congrArg _ (funext fun entityType => ?_)
          exact buildPayload_of_not_turns hle hturns _ _ _

theorem reports_readReply {reply : Option Payload}
    (h : LiveBackend.readReply rt settings now data value kind matchType = .ok reply) :
    Reports (HasHit rt settings now data) reply := by
  obtain ⟨fields, rfl⟩ : ∃ fields, data = .obj fields := by
    obtain ⟨block, hblock, -⟩ := bind_eq_ok_iff.mp h
    cases data with
    | obj fields => exact ⟨fields, rfl⟩
    | _ => cases hblock
  have hsame : (Json.obj fields).orElse (.obj []) = .obj fields := by
    cases fields <;> rfl
  have hreturns : Returns (LiveBackend.readReply rt settings now
      ((Json.obj fields).orElse (.obj [])) value kind matchType) fun _ => True :=
    ⟨reply, hsame.symm ▸ h, trivial⟩
  have hlegible := (returns_readReply_iff _ value kind matchType fun _ _ => trivial).mp hreturns
  obtain ⟨found, hfound, hreports⟩ :=
    (returns_readReply_iff _ value kind matchType fun _ h => h).mpr hlegible
  rw [hsame, h] at hfound
  cases hfound
  exact hreports

theorem hasHit_mono (hle : start ≤ now) (h : HasHit rt settings start data) :
    HasHit rt settings now data := by
  obtain ⟨indicator, hmem, hsurvives⟩ := h
  exact ⟨indicator, hmem, survives_mono hle hsurvives⟩

theorem hasHit_of_policy (hpolicy : settings.hitPolicy ≠ .expiryAware) :
    HasHit rt settings now data ↔ HasHit rt settings start data := by
  unfold HasHit NodeHits
  simp only [@survives_of_policy rt settings start now _ hpolicy]

end Replies

/-! ### A fetch at two instants -/

section Fetches

variable {client opencti : Client} {value : Normalized}

variable (rt settings now client) in
def Hit (value : Normalized) : Prop :=
  ∃ request ∈ asks rt settings value, ∃ data, client request = .ok data ∧
    HasHit rt settings now data

variable (rt settings client start now) in
def ReplyTurns (value : Normalized) : Prop :=
  ∃ request ∈ asks rt settings value, ∃ data, client request = .ok data ∧
    ∃ indicator ∈ data.lookupNode.indicators, Turns rt settings start now indicator

theorem request_mem_asks : LiveBackend.request settings value.value value.type ∈
    asks rt settings value := List.mem_cons_self

theorem fallback_mem_asks {host : Str}
    (h : LiveBackend.fallbackHost rt settings value = some host) :
    LiveBackend.request settings host .domain ∈ asks rt settings value := by
  unfold asks
  rw [h]
  exact List.mem_cons_of_mem _ (List.mem_singleton_self _)

theorem query_of_not_turns (hle : start ≤ now)
    (hturns : ¬ ReplyTurns rt settings start now client value) {text : Str}
    {kind : IndicatorType} (hask : LiveBackend.request settings text kind ∈ asks rt settings value)
    (matchType : Str) : LiveBackend.query rt settings client now text kind matchType =
      LiveBackend.query rt settings client start text kind matchType := by
  unfold LiveBackend.query
  cases hreply : client (LiveBackend.request settings text kind) with
  | error fault => rfl
  | ok data =>
      rw [ok_bind, ok_bind]
      refine readReply_of_not_turns hle fun indicator hmem hturn => hturns ?_
      exact ⟨_, hask, data, hreply, indicator, hmem, hturn⟩

theorem fetch_of_not_turns (hle : start ≤ now)
    (hturns : ¬ ReplyTurns rt settings start now client value) :
    LiveBackend.fetch rt settings client now value =
      LiveBackend.fetch rt settings client start value := by
  unfold LiveBackend.fetch
  rw [query_of_not_turns hle hturns request_mem_asks]
  cases hhost : LiveBackend.fallbackHost rt settings value with
  | none => rfl
  | some host =>
      dsimp only
      rw [query_of_not_turns hle hturns (fallback_mem_asks hhost)]

theorem reports_query {text matchType : Str} {kind : IndicatorType} {reply : Option Payload}
    (h : LiveBackend.query rt settings client now text kind matchType = .ok reply) :
    Reports (∃ data, client (LiveBackend.request settings text kind) = .ok data ∧
      HasHit rt settings now data) reply := by
  obtain ⟨data, hdata, hread⟩ := bind_eq_ok_iff.mp h
  have hiff : (∃ found, client (LiveBackend.request settings text kind) = .ok found ∧
      HasHit rt settings now found) ↔ HasHit rt settings now data := by
    simp [hdata]
  rw [hiff]
  exact reports_readReply hread

/-- A fetch that returns says found when one of its requests has a hit, and is the miss
otherwise. -/
theorem settles_fetch {payload : Payload}
    (h : LiveBackend.fetch rt settings client now value = .ok payload) :
    Settles (Hit rt settings now client value) payload := by
  unfold Hit asks
  rw [List.exists_mem_cons_iff]
  obtain ⟨exact, hexact, h⟩ := bind_eq_ok_iff.mp h
  have hreports := reports_query hexact
  cases exact with
  | some found =>
      cases h
      exact .inl ⟨.inl hreports.1, hreports.2⟩
  | none =>
      rw [or_iff_right hreports]
      cases hhost : LiveBackend.fallbackHost rt settings value with
      | none =>
          simp only [hhost] at h
          cases h
          exact .inr ⟨by simp, rfl⟩
      | some host =>
          simp only [hhost] at h
          obtain ⟨fallback, hfallback, h⟩ := bind_eq_ok_iff.mp h
          have hreports := reports_query hfallback
          simp only [Option.map_some, Option.toList_some, List.mem_singleton, exists_eq_left]
          cases fallback with
          | none =>
              cases h
              exact .inr ⟨hreports, rfl⟩
          | some found =>
              cases h
              exact .inl ⟨hreports.1, (found_fallback _ _).mpr hreports.2⟩

theorem found_fetch_iff {payload : Payload}
    (h : LiveBackend.fetch rt settings client now value = .ok payload) :
    payload.Found ↔ Hit rt settings now client value :=
  (settles_fetch h).found_iff

theorem hit_mono (hle : start ≤ now) (h : Hit rt settings start client value) :
    Hit rt settings now client value := by
  obtain ⟨request, hask, data, hdata, hhit⟩ := h
  exact ⟨request, hask, data, hdata, hasHit_mono hle hhit⟩

theorem hit_of_policy (hpolicy : settings.hitPolicy ≠ .expiryAware) :
    Hit rt settings now client value ↔ Hit rt settings start client value := by
  unfold Hit
  simp only [@hasHit_of_policy rt settings start now _ hpolicy]

theorem fetch_congr (h : ∀ request ∈ asks rt settings value, opencti request = client request) :
    LiveBackend.fetch rt settings opencti now value =
      LiveBackend.fetch rt settings client now value := by
  unfold LiveBackend.fetch LiveBackend.query
  rw [h _ request_mem_asks]
  cases hhost : LiveBackend.fallbackHost rt settings value with
  | none => rfl
  | some host =>
      dsimp only
      rw [h _ (fallback_mem_asks hhost)]

end Fetches

/-! ### Lookups over a run -/

variable (rt settings) in
structure Fetched where
  client : Client
  value : Normalized
  instant : ℚ
  payload : Payload
  returned : LiveBackend.fetch rt settings client instant value = .ok payload

variable (rt settings) in
/-- The live backend of a worker, on two clocks. -/
structure Lookups where
  backend : LiveBackend
  /-- The wall clock, which `valid_until` is compared with. -/
  now : ℚ
  /-- The monotonic clock, which entries expire by. -/
  mono : ℚ
  fetches : List (Fetched rt settings)
  /-- The fetch whose payload was stored last under a cache key. -/
  origin : Str → Option (Fetched rt settings)

variable (rt settings) in
inductive LookupsStep where
  | elapse (now mono : ℚ)
  | read (key : Str)
  | fetch (fetched : Fetched rt settings)
  /-- A lookup that awaited the fetch gets its turn. -/
  | store (fetched : Fetched rt settings)
  | degrade (degraded : Bool)
  | invalidate (key : Str)
  | clear

namespace Lookups

variable (s : Lookups rt settings)

def cache : PayloadCache Payload := s.backend.cache

def withCache (cache : PayloadCache Payload) : Lookups rt settings :=
  { s with backend := ⟨cache⟩ }

def stored (fetched : Fetched rt settings) : Lookups rt settings :=
  let key := LiveBackend.cacheKey settings fetched.value
  { s.withCache (s.cache.set key fetched.payload s.mono) with
    origin := Function.update s.origin key (some fetched) }

end Lookups

variable (rt settings) in
/-- The clocks do not go back. -/
def lookupsSystem : System (Lookups rt settings) (LookupsStep rt settings) where
  init s := s.cache.data = [] ∧ s.fetches = []
  step s a s' :=
    match a with
    | .elapse now mono => s.now ≤ now ∧ s.mono ≤ mono ∧ s' = { s with now := now, mono := mono }
    | .read key => s' = s.withCache (s.cache.get key s.mono).2
    | .fetch fetched =>
        fetched.instant = s.now ∧ s' = { s with fetches := s.fetches ++ [fetched] }
    | .store fetched => fetched ∈ s.fetches ∧ s' = s.stored fetched
    | .degrade degraded => s' = s.withCache (s.cache.setDegraded degraded)
    | .invalidate key => s' = s.withCache (s.cache.invalidate key)
    | .clear => s' = s.withCache s.cache.clear

section Run

variable {s s' : Lookups rt settings} {value : Normalized} {payload : Payload}

/-- Every entry is the payload of the fetch it came from. -/
structure Lookups.Sound (s : Lookups rt settings) : Prop where
  past : ∀ fetched ∈ s.fetches, fetched.instant ≤ s.now
  origin : ∀ e ∈ s.cache.data, ∃ fetched ∈ s.fetches, s.origin e.1 = some fetched ∧
    LiveBackend.cacheKey settings fetched.value = e.1 ∧ fetched.payload = e.2.1

theorem Lookups.Sound.withCache (h : s.Sound) {cache : PayloadCache Payload}
    (hsub : ∀ e ∈ cache.data, e ∈ s.cache.data) : (s.withCache cache).Sound where
  past := h.past
  origin e he := h.origin e (hsub e he)

theorem sound_stored (h : s.Sound) {fetched : Fetched rt settings} (hmem : fetched ∈ s.fetches) :
    (s.stored fetched).Sound where
  past := h.past
  origin e he := by
    rcases PayloadCache.mem_set_cases he with rfl | ⟨hold, hkey⟩
    · exact ⟨fetched, hmem, Function.update_self .., rfl, rfl⟩
    · obtain ⟨earlier, hearlier, horigin, hrest⟩ := h.origin e hold
      refine ⟨earlier, hearlier, ?_, hrest⟩
      unfold Lookups.stored
      dsimp only
      rw [Function.update_of_ne hkey]
      exact horigin

theorem lookups_sound_step {a : LookupsStep rt settings} (h : s.Sound)
    (hstep : (lookupsSystem rt settings).step s a s') : s'.Sound := by
  cases a with
  | elapse now mono =>
      obtain ⟨hnow, -, rfl⟩ := hstep
      exact ⟨fun fetched hmem => (h.past fetched hmem).trans hnow, h.origin⟩
  | read key =>
      obtain rfl := hstep
      exact h.withCache fun _ he => PayloadCache.mem_get he
  | fetch fetched =>
      obtain ⟨hinstant, rfl⟩ := hstep
      constructor
      · intro other hmem
        rcases List.mem_append.mp hmem with hold | hnew
        · exact h.past other hold
        · rw [List.mem_singleton.mp hnew]
          exact hinstant.le
      · intro e he
        obtain ⟨earlier, hearlier, hrest⟩ := h.origin e he
        exact ⟨earlier, List.mem_append_left _ hearlier, hrest⟩
  | store fetched =>
      obtain ⟨hmem, rfl⟩ := hstep
      exact sound_stored h hmem
  | degrade degraded =>
      obtain rfl := hstep
      exact h.withCache fun _ he => he
  | invalidate key =>
      obtain rfl := hstep
      exact h.withCache fun _ he => ((PayloadCache.mem_erase key s.cache.data).mp he).1
  | clear =>
      obtain rfl := hstep
      exact h.withCache fun _ he => absurd he List.not_mem_nil

theorem sound_of_run {trace : List (LookupsStep rt settings)}
    (hrun : Reaches (lookupsSystem rt settings) anyStep trace s) : s.Sound := by
  refine hrun.invariant (fun s hinit => ?_) fun _ _ _ h _ hstep => lookups_sound_step h hstep
  obtain ⟨hdata, hfetches⟩ := hinit
  constructor
  · rw [hfetches]
    exact nofun
  · rw [hdata]
    exact nofun

/-- A lookup that nothing interrupts is a run of steps. -/
theorem reaches_lookup {trace : List (LookupsStep rt settings)}
    (hrun : Reaches (lookupsSystem rt settings) anyStep trace s) {client : Client}
    {result : LookupResult} {backend : LiveBackend}
    (hlookup : LiveBackend.lookup rt settings client s.now s.mono s.backend value =
      .ok (result, backend)) :
    ∃ trace s', Reaches (lookupsSystem rt settings) anyStep trace s' ∧ s'.backend = backend ∧
      s'.now = s.now ∧ s'.mono = s.mono := by
  let key := LiveBackend.cacheKey settings value
  unfold LiveBackend.lookup at hlookup
  split at hlookup
  · cases hlookup
    exact ⟨trace, s, hrun, rfl, rfl, rfl⟩
  · have hread := hrun.step trivial
      (show (lookupsSystem rt settings).step s (.read key) _ from rfl)
    unfold Lookups.cache at hread
    cases hget : s.backend.cache.get key s.mono with
    | mk cached cache =>
        rw [hget] at hread
        simp only [key] at hget
        simp only [hget] at hlookup
        cases cached with
        | some cached =>
            cases hlookup
            exact ⟨_, _, hread, rfl, rfl, rfl⟩
        | none =>
            dsimp only at hlookup
            cases hfetch : LiveBackend.fetch rt settings client s.now value with
            | error fault =>
                rw [hfetch] at hlookup
                dsimp only at hlookup
                split at hlookup
                · cases hlookup
                  exact ⟨_, _, hread, rfl, rfl, rfl⟩
                · cases hlookup
            | ok fetched =>
                rw [hfetch] at hlookup
                cases hlookup
                have hdone := hread.step trivial (show (lookupsSystem rt settings).step _
                  (.fetch ⟨client, value, s.now, fetched, hfetch⟩) _ from ⟨rfl, rfl⟩)
                have hstored := hdone.step trivial (show (lookupsSystem rt settings).step _
                  (.store ⟨client, value, s.now, fetched, hfetch⟩) _ from
                    ⟨List.mem_append_right _ (List.mem_singleton_self _), rfl⟩)
                exact ⟨_, _, hstored, rfl, rfl, rfl⟩

theorem fetch_of_cacheKey {other : Normalized} (client : Client) (now : ℚ)
    (h : LiveBackend.cacheKey settings other = LiveBackend.cacheKey settings value) :
    LiveBackend.fetch rt settings client now other =
      LiveBackend.fetch rt settings client now value := by
  obtain ⟨htype, hvalue⟩ := Normalized.cacheKey_injective (List.append_cancel_left h)
  unfold LiveBackend.fetch LiveBackend.fallbackHost
  rw [htype, hvalue]

theorem fresh_of_lookup_cached {client : Client} {mono : ℚ} {backend backend' : LiveBackend}
    (h : LiveBackend.lookup rt settings client now mono backend value =
      .ok (⟨payload, "payload_cache"⟩, backend')) :
    backend.cache.fresh (LiveBackend.cacheKey settings value) mono payload := by
  unfold LiveBackend.lookup at h
  rw [← PayloadCache.get_fst_eq_some_iff]
  split at h
  · cases h
  · dsimp only at h
    split at h
    · rename_i cached cache hget
      cases h
      rw [hget]
    · split at h
      · cases h
      · split at h <;> cases h

/-- What the cache answers is what a fetch now would give if OpenCTI has not changed
and no indicator that counts now passed the end of its validity since. Whatever the
validity windows, found stays found, and the verdict stays the same under the
policies that do not look at them. -/
theorem cached_payload_current {trace : List (LookupsStep rt settings)}
    (hrun : Reaches (lookupsSystem rt settings) anyStep trace s) {client : Client}
    {backend : LiveBackend}
    (hlookup : LiveBackend.lookup rt settings client s.now s.mono s.backend value =
      .ok (⟨payload, "payload_cache"⟩, backend)) :
    ∃ fetched ∈ s.fetches, s.origin (LiveBackend.cacheKey settings value) = some fetched ∧
      fetched.payload = payload ∧
      ((∀ request ∈ asks rt settings value, client request = fetched.client request) →
        (¬ ReplyTurns rt settings fetched.instant s.now fetched.client value →
          LiveBackend.fetch rt settings client s.now value = .ok payload) ∧
        ∀ fresh, LiveBackend.fetch rt settings client s.now value = .ok fresh →
          (payload.Found → fresh.Found) ∧
          (settings.hitPolicy ≠ .expiryAware → (payload.Found ↔ fresh.Found))) := by
  have hsound := sound_of_run hrun
  obtain ⟨expiresAt, hentry, -⟩ := fresh_of_lookup_cached hlookup
  obtain ⟨fetched, hmem, horigin, hkey, hpayload⟩ :=
    hsound.origin _ (PayloadCache.mem_of_entry hentry)
  have hle := hsound.past fetched hmem
  have hreturned := fetched.returned
  rw [hpayload, fetch_of_cacheKey _ _ hkey] at hreturned
  refine ⟨fetched, hmem, horigin, hpayload, fun hsame => ?_⟩
  rw [fetch_congr hsame]
  constructor
  · intro hturns
    rw [fetch_of_not_turns hle hturns, hreturned]
  · intro fresh hfresh
    rw [found_fetch_iff hreturned, found_fetch_iff hfresh]
    exact ⟨hit_mono hle, fun hpolicy => (hit_of_policy hpolicy).symm⟩

end Run

section ValiditySample

def datedRuntime : Runtime :=
  { sampleRuntime with
    fromisoformat := fun s =>
      if s = "2030-01-01T00:00:00.000+00:00" then some (.aware 1893456000) else none }

def lastDay : Timestamp datedRuntime where
  text := "2030-01-01T00:00:00.000Z"
  instant := 1893456000
  nonempty := by decide
  parses := by decide

def datedReply : Client := fun _ =>
  .ok (.obj [("stixCyberObservables", .obj [("edges", .arr [.obj [("node",
    Observable.toJson
      { id := "observable", entityType := .domainName, value := "evil.com",
        indicators := [{ id := "indicator", validUntil := some lastDay }] })]])])])

theorem fetch_dated (now : ℚ) : ∃ payload : Payload,
    LiveBackend.fetch datedRuntime (sampleSettings 50000) datedReply now evilValue = .ok payload ∧
      payload.get "expired" = some (boolText (decide (1893456000 ≤ now))) := by
  exact ⟨_, rfl, rfl⟩

def minuteLater (fetched : Fetched datedRuntime (sampleSettings 50000)) :
    Lookups datedRuntime (sampleSettings 50000) :=
  { Lookups.stored
      ⟨⟨.init 1048576 1024 86400 900⟩, fetched.instant, 0, [fetched], fun _ => none⟩ fetched with
    now := fetched.instant + 60
    mono := 60 }

theorem reaches_minuteLater (fetched : Fetched datedRuntime (sampleSettings 50000)) :
    ∃ trace, Reaches (lookupsSystem datedRuntime (sampleSettings 50000)) anyStep trace
      (minuteLater fetched) := by
  have hstart : Reaches (lookupsSystem datedRuntime (sampleSettings 50000)) anyStep []
      ⟨⟨.init 1048576 1024 86400 900⟩, fetched.instant, 0, [], fun _ => none⟩ := .init ⟨rfl, rfl⟩
  have hfetched := hstart.step trivial
    (show (lookupsSystem datedRuntime (sampleSettings 50000)).step _ (.fetch fetched) _ from
      ⟨rfl, rfl⟩)
  have hstored := hfetched.step trivial
    (show (lookupsSystem datedRuntime (sampleSettings 50000)).step _ (.store fetched) _ from
      ⟨List.mem_singleton_self _, rfl⟩)
  have hlater := hstored.step trivial
    (show (lookupsSystem datedRuntime (sampleSettings 50000)).step _
      (.elapse (fetched.instant + 60) 60) _ from
        ⟨le_add_of_nonneg_right (by decide), show (0 : ℚ) ≤ 60 by decide, rfl⟩)
  exact ⟨_, hlater⟩

theorem lookup_minuteLater (fetched : Fetched datedRuntime (sampleSettings 50000))
    (hvalue : fetched.value = evilValue) (client : Client) :
    ∃ backend, LiveBackend.lookup datedRuntime (sampleSettings 50000) client
      (minuteLater fetched).now (minuteLater fetched).mono (minuteLater fetched).backend evilValue =
        .ok (⟨fetched.payload, "payload_cache"⟩, backend) := by
  obtain ⟨_, value, instant, payload, returned⟩ := fetched
  obtain rfl : value = evilValue := hvalue
  exact ⟨_, LiveBackend.lookup_of_fresh _ _ _ _ rfl ⟨0 + (86400 : ℤ), rfl, by
    show (60 : ℚ) < 0 + (86400 : ℤ)
    norm_num⟩⟩

theorem cached_payload_current_dated : ∃ fetched : Fetched datedRuntime (sampleSettings 50000),
    fetched.instant = 1893455000 ∧
      LiveBackend.fetch datedRuntime (sampleSettings 50000) datedReply (fetched.instant + 60)
        evilValue = .ok fetched.payload := by
  obtain ⟨payload, hfetch, -⟩ := fetch_dated 1893455000
  let before : Fetched datedRuntime (sampleSettings 50000) :=
    ⟨datedReply, evilValue, 1893455000, payload, hfetch⟩
  obtain ⟨trace, hrun⟩ := reaches_minuteLater before
  obtain ⟨backend, hlookup⟩ := lookup_minuteLater before rfl datedReply
  obtain ⟨fetched, hmem, -, -, hcurrent⟩ := cached_payload_current hrun hlookup
  obtain rfl := List.mem_singleton.mp hmem
  refine ⟨_, rfl, (hcurrent fun _ _ => rfl).1 ?_⟩
  rintro ⟨request, -, data, hdata, indicator, hindicator, ⟨validUntil, hparse, -, hle⟩, -⟩
  cases hdata
  obtain rfl := List.mem_singleton.mp hindicator
  obtain rfl : (1893456000 : ℚ) = validUntil := by cases hparse; rfl
  have hgt : ¬ (1893456000 : ℚ) ≤ 1893455000 + 60 := by norm_num
  exact hgt hle

/-- Ten seconds before the end of its validity an indicator is fetched, and it is
served as not expired fifty seconds after. -/
theorem cached_flag_outlives_validity : ¬ ∀ (rt : Runtime) (settings : Settings)
    (trace : List (LookupsStep rt settings)) (s : Lookups rt settings) (client : Client)
    (value : Normalized) (payload : Payload) (backend : LiveBackend)
    (fetched : Fetched rt settings), Reaches (lookupsSystem rt settings) anyStep trace s →
      LiveBackend.lookup rt settings client s.now s.mono s.backend value =
        .ok (⟨payload, "payload_cache"⟩, backend) →
      s.origin (LiveBackend.cacheKey settings value) = some fetched →
      (∀ request ∈ asks rt settings value, client request = fetched.client request) →
      LiveBackend.fetch rt settings client s.now value = .ok payload := by
  intro hall
  obtain ⟨payload, hfetch, hbefore⟩ := fetch_dated 1893455990
  let before : Fetched datedRuntime (sampleSettings 50000) :=
    ⟨datedReply, evilValue, 1893455990, payload, hfetch⟩
  obtain ⟨trace, hrun⟩ := reaches_minuteLater before
  obtain ⟨backend, hlookup⟩ := lookup_minuteLater before rfl datedReply
  have horigin : (minuteLater before).origin
      (LiveBackend.cacheKey (sampleSettings 50000) evilValue) = some before := by
    simp [minuteLater, Lookups.stored, Lookups.withCache, before]
  have hfresh := hall _ _ _ _ _ _ _ _ _ hrun hlookup horigin fun _ _ => rfl
  obtain ⟨current, hcurrent, hafter⟩ := fetch_dated (1893455990 + 60)
  cases hcurrent.symm.trans hfresh
  rw [hbefore, decide_eq_false (by norm_num), decide_eq_true (by norm_num)] at hafter
  exact absurd hafter (by decide)

end ValiditySample

end OpenctiLookup
