import OpenctiLookup.Obs.Metrics
import OpenctiLookup.Opencti.TypedPayload
import OpenctiLookup.Systems.Provenance

/-! What the counters of a worker add up to. The answers may come in any order and any of them
may be of the bulk endpoint, which counts nothing. -/
namespace OpenctiLookup
open Python Theory

/-- The labels `LOOKUPS` can have. -/
def knownSeries : Finset LookupLabels :=
  ((["false".toList, "true".toList].product
    (["skip".toList, "membership".toList, "payload_cache".toList, "opencti".toList,
      "degraded".toList].product
      [IndicatorType.ipv4, .ipv6, .domain, .url, .hashMd5, .hashSha1, .hashSha256, .unknown])).map
    fun labels => LookupLabels.mk labels.1 labels.2.1 labels.2.2.value).toFinset

def Metrics.after (answers : List Answer) : Metrics :=
  answers.foldl (fun metrics answer => metrics.observe answer.result answer.value.type) {}

section Payloads

variable {rt : Runtime} {settings : Settings} {client : Client} {now : ℚ} {payload : Payload}

theorem not_degraded_payloadOf {node primary kind : Json} {survivors : List Json}
    {value matchType : Str}
    (h : payloadOf rt settings now node primary survivors value kind matchType = .ok payload) :
    payload.get "degraded" = none := by
  unfold payloadOf at h
  iterate 16 obtain ⟨_, -, h⟩ := bind_eq_ok_iff.mp h
  cases kind with
  | str kind =>
      obtain ⟨kind, -, h⟩ := bind_eq_ok_iff.mp h
      obtain ⟨indicatorId, -, h⟩ := bind_eq_ok_iff.mp h
      cases h
      have habsent : ∀ {fields : List (Str × Option Str)},
          fields.map Prod.fst = Observable.payloadKeys →
          (Observable.present fields).get "degraded" = none := by
        intro fields hkeys
        rw [Payload.get, List.lookup_eq_none_iff]
        intro entry hentry
        obtain ⟨field, hfield, hsome⟩ := List.mem_filterMap.mp hentry
        obtain ⟨text, -, rfl⟩ := Option.map_eq_some_iff.mp hsome
        have hkey : field.1 ∈ Observable.payloadKeys := hkeys ▸ List.mem_map_of_mem hfield
        have hnone : ∀ key ∈ Observable.payloadKeys, ("degraded".toList != key) = true := by decide
        exact hnone field.1 hkey
      exact habsent rfl
  | _ => cases h

theorem not_degraded_query {text matchType : Str} {kind : IndicatorType}
    (h : LiveBackend.query rt settings client now text kind matchType = .ok (some payload)) :
    payload.get "degraded" = none := by
  unfold LiveBackend.query LiveBackend.readReply at h
  obtain ⟨data, -, h⟩ := bind_eq_ok_iff.mp h
  obtain ⟨block, -, h⟩ := bind_eq_ok_iff.mp h
  obtain ⟨edges, -, h⟩ := bind_eq_ok_iff.mp h
  dsimp only at h
  split at h
  · cases h
  · obtain ⟨edge, -, h⟩ := bind_eq_ok_iff.mp h
    obtain ⟨node, -, h⟩ := bind_eq_ok_iff.mp h
    obtain ⟨entityType, -, h⟩ := bind_eq_ok_iff.mp h
    unfold buildPayload at h
    obtain ⟨survivors, -, h⟩ := bind_eq_ok_iff.mp h
    cases survivors with
    | nil => cases h
    | cons primary survivors =>
        obtain ⟨built, hbuilt, h⟩ := bind_eq_ok_iff.mp h
        cases h
        exact not_degraded_payloadOf hbuilt

theorem not_degraded_fetch {value : Normalized}
    (h : LiveBackend.fetch rt settings client now value = .ok payload) :
    payload.get "degraded" = none := by
  unfold LiveBackend.fetch at h
  obtain ⟨exact, hexact, h⟩ := bind_eq_ok_iff.mp h
  cases exact with
  | some found =>
      cases h
      exact not_degraded_query hexact
  | none =>
      dsimp only at h
      split at h
      · cases h
        rfl
      · obtain ⟨byHost, hbyHost, h⟩ := bind_eq_ok_iff.mp h
        cases byHost with
        | none =>
            cases h
            rfl
        | some found =>
            cases h
            rw [Payload.get_set_ne _ (by decide), Payload.get_set_ne _ (by decide)]
            exact not_degraded_query hbyHost

end Payloads

section Answers

variable {rt : Runtime} {settings : Settings} {trace : List ServingStep} {s : Serving}
  {answers : List Answer}

theorem mem_knownSeries {result : LookupResult} (kind : IndicatorType)
    (hresult : result.payload.get "found" = some "false".toList ∨ result.payload.Found)
    (hsource : result.source ∈ ["skip".toList, "membership".toList, "payload_cache".toList,
      "opencti".toList, "degraded".toList]) : lookupLabels result kind ∈ knownSeries := by
  have hkind : kind ∈ [IndicatorType.ipv4, .ipv6, .domain, .url, .hashMd5, .hashSha1, .hashSha256,
      .unknown] := by
    cases kind <;> decide
  have hfound : (result.payload.get "found").getD "false" ∈ ["false".toList, "true".toList] := by
    rcases hresult with h | h
    · rw [h]
      exact List.mem_cons_self
    · rw [show result.payload.get "found" = some "true".toList from h]
      exact List.mem_cons_of_mem _ List.mem_cons_self
  rw [knownSeries, List.mem_toFinset]
  exact List.mem_map.mpr ⟨(_, _, kind), List.mem_product.mpr
    ⟨hfound, List.mem_product.mpr ⟨hsource, hkind⟩⟩, rfl⟩

theorem labelled_of_traced {flights : List Flight} {value : Normalized} {result : LookupResult}
    (h : Traced rt settings trace flights value result) :
    lookupLabels result value.type ∈ knownSeries ∧
      (saysDegraded result.payload = true ↔ result.source = "degraded".toList) := by
  cases h with
  | missed hsource =>
      have hcases : ∀ source ∈ ["skip".toList, "membership".toList],
          source ∈ ["skip".toList, "membership".toList, "payload_cache".toList, "opencti".toList,
            "degraded".toList] ∧ source ≠ "degraded".toList := by decide
      obtain ⟨hknown, hne⟩ := hcases _ hsource
      have hmiss : saysDegraded miss = false := by decide
      exact ⟨mem_knownSeries _ (.inl rfl) hknown, iff_of_false (by rw [hmiss]; nofun) hne⟩
  | degraded =>
      have hknown : "degraded".toList ∈ ["skip".toList, "membership".toList,
        "payload_cache".toList, "opencti".toList, "degraded".toList] := by decide
      exact ⟨mem_knownSeries _ (.inl rfl) hknown, iff_of_true (by decide) rfl⟩
  | @fetched payload source hsource hfetched =>
      obtain ⟨index, flight, client, now, -, -, -, -, hfetch⟩ := hfetched
      have hcases : ∀ source ∈ ["payload_cache".toList, "opencti".toList],
          source ∈ ["skip".toList, "membership".toList, "payload_cache".toList, "opencti".toList,
            "degraded".toList] ∧ source ≠ "degraded".toList := by decide
      obtain ⟨hknown, hne⟩ := hcases _ hsource
      have hfound : payload.get "found" = some "false".toList ∨ payload.Found :=
        (hit_of_fetch hfetch).imp (fun hmiss => by rw [hmiss]; rfl) And.left
      have hnot : saysDegraded payload = false := by
        rw [saysDegraded, not_degraded_fetch hfetch]
        rfl
      exact ⟨mem_knownSeries _ hfound hknown, iff_of_false (by rw [hnot]; nofun) hne⟩

theorem after_eq (answers : List Answer) (metrics : Metrics) :
    answers.foldl (fun metrics answer => metrics.observe answer.result answer.value.type) metrics =
      ⟨answers.foldl (fun tally answer => bump tally (lookupLabels answer.result answer.value.type))
          metrics.lookups,
        answers.foldl (fun tally answer => bump tally answer.result.source) metrics.latencies,
        metrics.degraded + answers.countP fun answer => saysDegraded answer.result.payload⟩ := by
  induction answers generalizing metrics with
  | nil => rfl
  | cons answer answers ih =>
      rw [List.foldl_cons, ih, List.foldl_cons, List.foldl_cons, List.countP_cons]
      unfold Metrics.observe
      dsimp only
      split
      · rw [Nat.add_assoc, Nat.add_comm 1]
      · rw [Nat.add_zero]

/-- In every run, whatever the order of lookups, fetches and events, and whichever of the answers
the lookup endpoint has given, the counters have no other labels than the eighty known ones, they
add up to the answers, those of a source to its latencies and those of the degraded source to
`DEGRADED`. -/
theorem lookups_accounted (hrun : Reaches (servingSystem rt settings) anyStep trace s)
    (hanswers : answers.Sublist s.answers) :
    let metrics := Metrics.after answers
    (∀ labels, metrics.lookups labels ≠ 0 → labels ∈ knownSeries) ∧
      ∑ labels ∈ knownSeries, metrics.lookups labels = answers.length ∧
      (∀ source, ∑ labels ∈ knownSeries with labels.source = source, metrics.lookups labels =
        metrics.latencies source) ∧
      ∑ labels ∈ knownSeries with labels.source = "degraded".toList, metrics.lookups labels =
        metrics.degraded := by
  have hlabelled := fun answer hanswer =>
    labelled_of_traced ((traced_run hrun).2.answered answer (hanswers.subset hanswer))
  have hknown := fun answer hanswer => (hlabelled answer hanswer).1
  have hlookups : ∀ labels, (Metrics.after answers).lookups labels =
      answers.countP fun answer =>
        decide (lookupLabels answer.result answer.value.type = labels) := by
    intro labels
    rw [Metrics.after, after_eq]
    exact (foldl_bump _ _ _ _).trans (Nat.zero_add _)
  dsimp only
  simp only [hlookups]
  refine ⟨fun labels hne => ?_, sum_countP hknown, fun source => ?_, ?_⟩
  · obtain ⟨answer, hanswer, hlabels⟩ := List.countP_pos_iff.mp (Nat.pos_of_ne_zero hne)
    exact of_decide_eq_true hlabels ▸ hknown answer hanswer
  · rw [sum_countP_filter hknown, Metrics.after, after_eq]
    dsimp only
    rw [foldl_bump, Nat.zero_add]
    rfl
  · rw [sum_countP_filter hknown, Metrics.after, after_eq]
    dsimp only
    rw [Nat.zero_add]
    refine List.countP_congr fun answer hanswer => ?_
    rw [decide_eq_true_iff, (hlabelled answer hanswer).2]
    rfl

end Answers

section LookupSample

variable {rt : Runtime} {settings : Settings} {now : ℚ}

def SplitBackend.lookups (rt : Runtime) (settings : Settings) (now : ℚ) :
    SplitBackend → List (Client × ℚ × Normalized) → Py (List LookupResult × SplitBackend)
  | split, [] => .ok ([], split)
  | split, (client, mono, value) :: rest => do
      let (result, split) ← split.lookup rt settings client now mono value
      let (results, split) ← SplitBackend.lookups rt settings now split rest
      pure (result :: results, split)

theorem lookups_uninterrupted {trace : List ServingStep} {s : Serving} {split : SplitBackend}
    {lookups : List (Client × ℚ × Normalized)} {results : List LookupResult}
    (hrun : Reaches (servingSystem rt settings) anyStep trace s)
    (hidle : ∀ flight ∈ s.flights, flight.result.isSome = true)
    (hlookups : s.worker.split.lookups rt settings now lookups = .ok (results, split)) :
    ∃ trace s', Reaches (servingSystem rt settings) anyStep trace s' ∧
      s'.answers.map Answer.result = s.answers.map Answer.result ++ results := by
  induction lookups generalizing trace s results with
  | nil =>
      cases hlookups
      exact ⟨trace, s, hrun, (List.append_nil _).symm⟩
  | cons lookup lookups ih =>
      obtain ⟨client, mono, value⟩ := lookup
      obtain ⟨⟨result, next⟩, hlookup, hlookups⟩ := bind_eq_ok_iff.mp hlookups
      obtain ⟨⟨others, last⟩, hothers, hlookups⟩ := bind_eq_ok_iff.mp hlookups
      cases hlookups
      obtain ⟨_, s', obtained, hnext, hdone, hsplit, hanswers⟩ :=
        lookup_uninterrupted hrun hidle hlookup
      rw [← hsplit] at hothers
      obtain ⟨trace, s'', hlast, hresults⟩ := ih hnext hdone hothers
      refine ⟨trace, s'', hlast, ?_⟩
      rw [hresults, hanswers, List.map_append, List.append_assoc]
      rfl

def downReply : Client := fun _ => .error (openctiError "unreachable")

def unlistedValue : Normalized := ⟨"good.com", "good.com", .domain, none⟩

/-- A domain while OpenCTI is down, when it is up, and from the cache, and one that is not in the
membership set. -/
def sampleLookups : List (Client × ℚ × Normalized) :=
  [(downReply, 0, evilValue), (hitReply, 1, evilValue), (downReply, 2, evilValue),
    (downReply, 3, unlistedValue)]

/-- The counters after the four of them. -/
theorem lookups_accounted_degraded : ∃ answers : List Answer,
    answers.map (fun answer => answer.result.source) =
      ["degraded".toList, "opencti".toList, "payload_cache".toList, "membership".toList] ∧
    ∑ labels ∈ knownSeries, (Metrics.after answers).lookups labels = 4 ∧
    ∑ labels ∈ knownSeries with labels.source = "degraded".toList,
      (Metrics.after answers).lookups labels = 1 := by
  have hstart : Reaches (servingSystem sampleRuntime (sampleSettings 50000)) anyStep []
      sampleServing := .init ⟨rfl, rfl, rfl, rfl, rfl, rfl⟩
  have hanswered : (sampleServing.worker.split.lookups sampleRuntime (sampleSettings 50000) 0
      sampleLookups).toOption.map (fun answered => (answered.1.map LookupResult.source,
        answered.1.countP fun result => saysDegraded result.payload)) =
      some (["degraded".toList, "opencti".toList, "payload_cache".toList,
        "membership".toList], 1) := by
    decide +kernel
  cases hlookups : sampleServing.worker.split.lookups sampleRuntime (sampleSettings 50000) 0
      sampleLookups with
  | error fault =>
      rw [hlookups] at hanswered
      cases hanswered
  | ok answered =>
      obtain ⟨results, split⟩ := answered
      rw [hlookups] at hanswered
      obtain ⟨hsources, hdegraded⟩ := Prod.mk.inj (Option.some.inj hanswered)
      obtain ⟨trace, s, hrun, hresults⟩ := lookups_uninterrupted hstart nofun hlookups
      have hanswers : s.answers.map Answer.result = results := hresults
      rw [← hanswers, List.map_map] at hsources
      rw [← hanswers, List.countP_map] at hdegraded
      have hlength : s.answers.length = 4 := by simpa using congrArg List.length hsources
      obtain ⟨-, hsum, -, hcount⟩ := lookups_accounted hrun (List.Sublist.refl s.answers)
      refine ⟨s.answers, hsources, hsum.trans hlength, hcount.trans ?_⟩
      rw [Metrics.after, after_eq]
      exact (Nat.zero_add _).trans hdegraded

example : knownSeries.card = 80 := by decide +kernel

end LookupSample

end OpenctiLookup
