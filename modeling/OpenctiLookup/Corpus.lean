import OpenctiLookup.Bootstrap

/-! The corpus behind the bootstrap pages. However OpenCTI cuts it into pages,
`build_membership` gathers the membership keys of its values in order, up to the
entry ceiling. -/
namespace OpenctiLookup
open Python Theory

variable (rt : Runtime) (settings : Settings)

/-- The texts among some values: null and empty ones are left out, and anything
else is no text. -/
def textsOf : List Json → Py (List Str)
  | [] => .ok []
  | value :: rest =>
      if !value.truthy then textsOf rest
      else
        match value with
        | .str raw => do pure (raw :: (← textsOf rest))
        | _ => .error (.raised .attributeError)

def edgeTexts : List Json → Py (List Str)
  | [] => .ok []
  | edge :: rest => do
      let texts ← textsOf (← nodeValues settings ((← edge.get "node").orElse (.obj [])))
      let more ← edgeTexts rest
      pure (texts ++ more)

def pageTexts (data : Json) : Py (List Str × Option Json) := do
  let block := (← data.get (pageRoot settings.membershipSource)).orElse (.obj [])
  let edges ← ((← block.get "edges").orElse (.arr [])).iter
  let texts ← edgeTexts settings edges
  let next ← nextCursor block
  pure (texts, next)

/-- OpenCTI hands out a corpus, from a cursor on, cut into pages in any way. -/
inductive Serves (client : BootstrapClient) : Json → List Str → Prop
  | last {cursor : Json} {texts : List Str} :
      (client.page cursor >>= pageTexts settings) = .ok (texts, none) →
      Serves client cursor texts
  | more {cursor next : Json} {texts rest : List Str} :
      (client.page cursor >>= pageTexts settings) = .ok (texts, some next) →
      Serves client next rest → Serves client cursor (texts ++ rest)

/-- What loading some raw values does to the list gathered so far. -/
def gather (limit : Option ℕ) : List Str → List Str → Py (List Str × Bool)
  | [], values => .ok (values, false)
  | raw :: rest, values => do
      match ← norm rt settings raw with
      | none => gather limit rest values
      | some key =>
          if limit.any (· ≤ (values ++ [key]).length) then pure (values ++ [key], true)
          else gather limit rest (values ++ [key])

section Gather

variable {rt settings} {limit : Option ℕ}

theorem gather_append (raws raws' values : List Str) :
    gather rt settings limit (raws ++ raws') values =
      (gather rt settings limit raws values >>= fun p =>
        if p.2 then .ok (p.1, true) else gather rt settings limit raws' p.1) := by
  induction raws generalizing values with
  | nil => rfl
  | cons raw raws ih =>
      rw [List.cons_append, gather, gather]
      cases norm rt settings raw with
      | error fault => rfl
      | ok key =>
          simp only [ok_bind]
          cases key with
          | none => exact ih values
          | some key =>
              dsimp only
              split
              · rfl
              · exact ih _

theorem gather_cons (raw : Str) (raws values : List Str) :
    gather rt settings limit (raw :: raws) values =
      (settings.normalize rt raw >>= fun parsed =>
        if !parsed.lookupable then gather rt settings limit raws values
        else if limit.any (· ≤ (values ++ [parsed.value]).length) then
          pure (values ++ [parsed.value], true)
        else gather rt settings limit raws (values ++ [parsed.value])) := by
  rw [gather, norm]
  cases settings.normalize rt raw with
  | error fault => rfl
  | ok parsed =>
      simp only [ok_bind, pure, Except.pure]
      cases parsed.lookupable <;> rfl

theorem loadValues_of_textsOf {jsons : List Json} {texts : List Str}
    (h : textsOf jsons = .ok texts) (values : List Str) :
    loadValues rt settings limit jsons values = gather rt settings limit texts values := by
  induction jsons generalizing texts values with
  | nil =>
      cases h
      rfl
  | cons json jsons ih =>
      unfold textsOf at h
      unfold loadValues
      by_cases hfalsy : (!json.truthy) = true
      · rw [if_pos hfalsy] at h ⊢
        exact ih h values
      · rw [if_neg hfalsy] at h ⊢
        cases json with
        | str raw =>
            obtain ⟨more, htexts, hmore⟩ := bind_eq_ok_iff.mp h
            cases hmore
            rw [gather_cons]
            simp only [ih htexts]
        | null => cases h
        | bool b => cases h
        | int n => cases h
        | float q => cases h
        | arr items => cases h
        | obj fields => cases h

theorem loadEdges_of_edgeTexts {edges : List Json} {texts : List Str}
    (h : edgeTexts settings edges = .ok texts) (values : List Str) :
    loadEdges rt settings limit edges values = gather rt settings limit texts values := by
  induction edges generalizing texts values with
  | nil =>
      cases h
      rfl
  | cons edge edges ih =>
      unfold edgeTexts at h
      obtain ⟨node, hnode, h⟩ := bind_eq_ok_iff.mp h
      obtain ⟨jsons, hjsons, h⟩ := bind_eq_ok_iff.mp h
      obtain ⟨first, hfirst, h⟩ := bind_eq_ok_iff.mp h
      obtain ⟨more, hmore, h⟩ := bind_eq_ok_iff.mp h
      cases h
      simp only [loadEdges, hnode, hjsons, ok_bind, loadValues_of_textsOf hfirst, gather_append,
        ih hmore]
      rfl

theorem readPage_of_pageTexts {data : Json} {texts : List Str} {next : Option Json}
    (h : pageTexts settings data = .ok (texts, next)) (values : List Str) :
    readPage rt settings limit data values =
      (gather rt settings limit texts values >>= fun p =>
        if p.2 then .ok (.done p.1 true)
        else .ok (match next with
          | none => .done p.1 false
          | some cursor => .more p.1 cursor)) := by
  unfold pageTexts at h
  obtain ⟨block, hblock, h⟩ := bind_eq_ok_iff.mp h
  obtain ⟨edgesField, hedgesField, h⟩ := bind_eq_ok_iff.mp h
  obtain ⟨edges, hedges, h⟩ := bind_eq_ok_iff.mp h
  obtain ⟨texts', htexts, h⟩ := bind_eq_ok_iff.mp h
  obtain ⟨next', hnext, h⟩ := bind_eq_ok_iff.mp h
  cases h
  simp only [readPage, hblock, hedgesField, hedges, hnext, ok_bind, loadEdges_of_edgeTexts htexts]
  cases next <;> rfl

theorem readPages_of_serves {client : BootstrapClient} {cursor : Json} {corpus : List Str}
    (h : Serves settings client cursor corpus) (values : List Str) :
    client.readPages rt settings limit cursor values =
      some (gather rt settings limit corpus values) := by
  induction h generalizing values with
  | @last cursor texts hpage =>
      obtain ⟨data, hdata, hpage⟩ := bind_eq_ok_iff.mp hpage
      rw [BootstrapClient.readPages, hdata, ok_bind, readPage_of_pageTexts hpage]
      cases gather rt settings limit texts values with
      | error fault => rfl
      | ok p => rcases p with ⟨gathered, _ | _⟩ <;> rfl
  | @more cursor next texts rest hpage _ ih =>
      obtain ⟨data, hdata, hpage⟩ := bind_eq_ok_iff.mp hpage
      rw [BootstrapClient.readPages, hdata, ok_bind, readPage_of_pageTexts hpage, gather_append]
      cases gather rt settings limit texts values with
      | error fault => rfl
      | ok p =>
          rcases p with ⟨gathered, _ | _⟩
          · exact ih gathered
          · rfl

theorem iterValues_of_serves {client : BootstrapClient} {corpus : List Str}
    (h : Serves settings client .null corpus) :
    iterValues rt settings client limit = gather rt settings limit corpus [] := by
  rw [iterValues, readPages_of_serves h, Option.getD_some]

/-- A load that ends has gathered the corpus' keys in order, up to the limit. -/
theorem gather_eq_ok {raws values gathered : List Str} {full : Bool}
    (h : gather rt settings limit raws values = .ok (gathered, full))
    (hroom : ∀ most, limit = some most → values.length < most) :
    gathered =
      values ++ MembershipSet.seenValues limit (keysOf rt settings raws) values.length := by
  induction raws generalizing values with
  | nil =>
      cases h
      cases limit <;> simp [keysOf, MembershipSet.seenValues]
  | cons raw raws ih =>
      rw [gather] at h
      obtain ⟨key, hkey, h⟩ := bind_eq_ok_iff.mp h
      cases key with
      | none =>
          rw [keysOf_cons_none hkey]
          exact ih h hroom
      | some key =>
          rw [keysOf_cons_some hkey]
          dsimp only at h
          cases limit with
          | none =>
              rw [if_neg (by simp)] at h
              rw [ih h (by simp)]
              simp [MembershipSet.seenValues]
          | some most =>
              have hlt := hroom most rfl
              by_cases hstop : (some most).any (· ≤ (values ++ [key]).length) = true
              · rw [if_pos hstop] at h
                cases h
                have hle : most ≤ values.length + 1 := by simpa using hstop
                have hone : most - values.length = 1 := by omega
                simp [MembershipSet.seenValues, hone]
              · rw [if_neg hstop] at h
                have hmore : values.length + 1 < most := by simpa using hstop
                rw [ih h (by simpa using hmore)]
                have hsub : most - values.length = most - (values.length + 1) + 1 := by omega
                simp [MembershipSet.seenValues, hsub]

theorem room_of_gather {raws values gathered : List Str}
    (h : gather rt settings limit raws values = .ok (gathered, false))
    (hroom : ∀ most, limit = some most → values.length < most) :
    ∀ most, limit = some most → gathered.length < most := by
  induction raws generalizing values with
  | nil =>
      cases h
      exact hroom
  | cons raw raws ih =>
      rw [gather] at h
      obtain ⟨key, -, h⟩ := bind_eq_ok_iff.mp h
      cases key with
      | none => exact ih h hroom
      | some key =>
          dsimp only at h
          split at h
          · cases h
          · rename_i hmore
            refine ih h fun most hmost => ?_
            simpa [hmost] using hmore

theorem gather_eq_keysOf {raws gathered : List Str} (hroom : ∀ most, limit = some most → 0 < most)
    (h : gather rt settings limit raws [] = .ok (gathered, false)) :
    MembershipSet.seenValues limit (keysOf rt settings raws) 0 = keysOf rt settings raws := by
  have hgathered := gather_eq_ok h hroom
  have hleft := room_of_gather h hroom
  rw [List.nil_append, List.length_nil] at hgathered
  rw [hgathered] at hleft
  cases limit with
  | none => rfl
  | some most =>
      have hlt := hleft most rfl
      simp only [MembershipSet.seenValues, Nat.sub_zero, List.length_take] at hlt ⊢
      exact List.take_of_length_le (by omega)

theorem gather_total {raws : List Str} (h : ∀ raw ∈ raws, ∃ key, norm rt settings raw = .ok key)
    (values : List Str) : ∃ p, gather rt settings limit raws values = .ok p := by
  induction raws generalizing values with
  | nil => exact ⟨_, rfl⟩
  | cons raw raws ih =>
      obtain ⟨key, hkey⟩ := h raw List.mem_cons_self
      have ih := ih fun raw hraw => h raw (List.mem_cons_of_mem _ hraw)
      rw [gather, hkey, ok_bind]
      cases key with
      | none => exact ih values
      | some key =>
          dsimp only
          split
          · exact ⟨_, rfl⟩
          · exact ih _

theorem maxEntriesOf_pos {budgetBytes most : ℕ} (h : maxEntriesOf budgetBytes = some most) :
    0 < most := by
  unfold maxEntriesOf at h
  split at h
  · cases h
  · rename_i hpositive
    cases h
    exact Nat.pos_of_ne_zero hpositive

theorem buildMembership_fresh {client : BootstrapClient} {name : Option Str}
    {segments segments' : Segments} {set : MembershipSet} {report : BootstrapReport}
    (h : buildMembership rt settings client limit name segments = .ok (set, report, segments')) :
    set.Ok ∧ set.Fresh ∧ set.overlayMax = settings.membershipOverlayMax := by
  obtain ⟨values, truncated, -, hbuild⟩ := buildMembership_eq_ok h
  obtain ⟨hok, hfresh, -, hmax⟩ := MembershipSet.build_spec hbuild
  exact ⟨hok, hfresh, hmax⟩

theorem packed_buildMembership {client : BootstrapClient} {corpus : List Str}
    (hserves : Serves settings client .null corpus) {name : Option Str}
    {segments segments' : Segments}
    {set : MembershipSet} {report : BootstrapReport}
    (hroom : ∀ most, limit = some most → 0 < most)
    (h : buildMembership rt settings client limit name segments = .ok (set, report, segments')) :
    ∀ fp, fp ∈ set.packed ↔
      ∃ key ∈ MembershipSet.seenValues limit (keysOf rt settings corpus) 0,
        fingerprint rt key = fp := by
  obtain ⟨values, truncated, hvalues, hbuild⟩ := buildMembership_eq_ok h
  obtain ⟨-, -, hpacked, -⟩ := MembershipSet.build_spec hbuild
  intro fp
  rw [iterValues_of_serves hserves] at hvalues
  have hgathered := gather_eq_ok hvalues hroom
  rw [hpacked, MembershipSet.mem_packedArray, hgathered, List.nil_append, List.length_nil,
    MembershipSet.seenValues_seenValues]

theorem packed_eq_nil_iff {client : BootstrapClient} {corpus : List Str}
    (hserves : Serves settings client .null corpus) {name : Option Str}
    {segments segments' : Segments} {set : MembershipSet} {report : BootstrapReport}
    (hroom : ∀ most, limit = some most → 0 < most)
    (h : buildMembership rt settings client limit name segments = .ok (set, report, segments')) :
    set.packed = [] ↔ keysOf rt settings corpus = [] := by
  have hpacked := packed_buildMembership hserves hroom h
  have hseen : MembershipSet.seenValues limit (keysOf rt settings corpus) 0 = [] ↔
      keysOf rt settings corpus = [] := by
    cases limit with
    | none => exact Iff.rfl
    | some most =>
        have hpositive := hroom most rfl
        simp [MembershipSet.seenValues]
        omega
  rw [← hseen, List.eq_nil_iff_forall_not_mem, List.eq_nil_iff_forall_not_mem]
  constructor
  · intro hnone key hkey
    exact hnone _ ((hpacked _).mpr ⟨key, hkey, rfl⟩)
  · intro hnone fp hfp
    obtain ⟨key, hkey, -⟩ := (hpacked fp).mp hfp
    exact hnone key hkey

/-- An OpenCTI that answers every bootstrap query, with a corpus whose values
all normalize. -/
structure Healthy (rt : Runtime) (settings : Settings) (client : BootstrapClient)
    (corpus : List Str) : Prop where
  indicators : ∃ n, countIndicators rt client = .ok n
  observables : ∃ n, countObservables rt client = .ok n
  serves : Serves settings client .null corpus
  normalizes : ∀ raw ∈ corpus, ∃ key, norm rt settings raw = .ok key

theorem packedArray_eq_nil_iff {keys : List Str} (hroom : ∀ most, limit = some most → 0 < most) :
    MembershipSet.packedArray rt (MembershipSet.seenValues limit keys 0) limit =
      [] ↔ keys = [] := by
  rw [MembershipSet.packedArray, unique_eq_nil_iff, MembershipSet.flatten_buildBlocks]
  cases limit with
  | none => simp [MembershipSet.seenValues]
  | some most =>
      have hpositive := hroom most rfl
      simp [MembershipSet.seenValues]
      omega

/-- With a healthy OpenCTI only a taken segment name stops a build, and only of
a corpus with something to look up. -/
theorem buildMembership_healthy {client : BootstrapClient} {corpus : List Str}
    (h : Healthy rt settings client corpus) (hroom : ∀ most, limit = some most → 0 < most)
    (name : Str) (segments : Segments) :
    (∃ built, buildMembership rt settings client limit (some name) segments = .ok built) ↔
      keysOf rt settings corpus = [] ∨ ∀ segment ∈ segments, segment.name ≠ name := by
  obtain ⟨indicators, hindicators⟩ := h.indicators
  obtain ⟨observables, hobservables⟩ := h.observables
  obtain ⟨⟨values, truncated⟩, hvalues⟩ := @gather_total rt settings limit _ h.normalizes []
  have hgathered := gather_eq_ok hvalues hroom
  rw [List.nil_append, List.length_nil] at hgathered
  have hnil := @packedArray_eq_nil_iff rt limit (keysOf rt settings corpus) hroom
  rw [← hgathered] at hnil
  have hbuild : (∃ built, buildMembership rt settings client limit
    (some name) segments = .ok built) ↔
      ∃ built, MembershipSet.build rt values (some name) settings.membershipOverlayMax limit
        segments = .ok built := by
    unfold buildMembership
    rw [hindicators, ok_bind, hobservables, ok_bind, iterValues_of_serves h.serves,
      hvalues, ok_bind]
    simp only [bind_eq_ok_iff]
    exact ⟨fun ⟨_, built, hbuilt, _⟩ => ⟨built, hbuilt⟩, fun ⟨built, hbuilt⟩ =>
      ⟨_, built, hbuilt, rfl⟩⟩
  rw [hbuild]
  by_cases hempty : MembershipSet.packedArray rt values limit = []
  · rw [MembershipSet.build_empty hempty]
    exact ⟨fun _ => .inl (hnil.mp hempty), fun _ => ⟨_, rfl⟩⟩
  · constructor
    · rintro ⟨⟨set, segments'⟩, hbuilt⟩
      exact .inr ((MembershipSet.build_named_iff hempty).mp hbuilt).1
    · rintro (hkeys | hfree)
      · exact absurd (hnil.mpr hkeys) hempty
      · exact ⟨_, (MembershipSet.build_named_iff hempty).mpr ⟨hfree, rfl, rfl⟩⟩

end Gather

section OnePage

def BootstrapClient.onePage (corpus : List Str) : BootstrapClient where
  countIndicators := .ok (.obj [("indicators",
    .obj [("pageInfo", .obj [("globalCount", .int 0)])])])
  countObservables :=
    .ok (.obj [("stixCyberObservables",
      .obj [("pageInfo", .obj [("globalCount", .int corpus.length)])])])
  page _ := .ok (.obj [("stixCyberObservables",
    .obj [("pageInfo", .obj [("endCursor", .null), ("hasNextPage", .bool false)]),
      ("edges", .arr (corpus.map fun value => .obj
        [("node", .obj [("observable_value", .str value)])]))])])

variable {settings}

theorem edgeTexts_onePage (hsource : settings.membershipSource = .observables) (corpus : List Str) :
    edgeTexts settings
      (corpus.map fun value => .obj [("node", .obj [("observable_value", .str value)])]) =
        .ok (corpus.filter fun value => !value.isEmpty) := by
  induction corpus with
  | nil => rfl
  | cons value corpus ih =>
      rw [List.map_cons, edgeTexts, ih]
      simp only [Json.get_obj, Json.field_cons_self, Json.orElse, Json.truthy, ok_bind, nodeValues,
        hsource]
      cases value <;> rfl

theorem serves_onePage (hsource : settings.membershipSource = .observables) (corpus : List Str) :
    Serves settings (.onePage corpus) .null (corpus.filter fun value => !value.isEmpty) := by
  have hedges := edgeTexts_onePage hsource corpus
  have hiter := Json.iter_orElse_arr (corpus.map fun value =>
    Json.obj [("node", .obj [("observable_value", .str value)])])
  refine .last (bind_eq_ok_iff.mpr ⟨_, rfl, ?_⟩)
  unfold pageTexts pageRoot
  rw [hsource]
  refine bind_eq_ok_iff.mpr ⟨_, rfl, bind_eq_ok_iff.mpr ⟨_, rfl, bind_eq_ok_iff.mpr ⟨_, hiter, ?_⟩⟩⟩
  refine bind_eq_ok_iff.mpr ⟨_, hedges, bind_eq_ok_iff.mpr ⟨none, rfl, rfl⟩⟩

theorem healthy_onePage {rt : Runtime} (hsource : settings.membershipSource = .observables)
    {corpus : List Str} (hnorm : ∀ raw ∈ corpus, ∃ key, norm rt settings raw = .ok key) :
    Healthy rt settings (.onePage corpus) (corpus.filter fun value => !value.isEmpty) where
  indicators := ⟨_, rfl⟩
  observables := by cases corpus <;> exact ⟨_, rfl⟩
  serves := serves_onePage hsource corpus
  normalizes raw hraw := hnorm raw (List.mem_filter.mp hraw).1

end OnePage

end OpenctiLookup
