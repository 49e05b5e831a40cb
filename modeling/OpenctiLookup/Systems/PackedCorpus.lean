import OpenctiLookup.Corpus
import OpenctiLookup.Systems.MarkerLoop

/-! What a build packs of a corpus, however OpenCTI cuts it into pages: the fingerprints
of its first keys, up to the ceiling. A build comes to an end when `normalize` does on
every value it still asks for. -/
namespace OpenctiLookup
open Python Theory

variable (rt : Runtime) (settings : Settings) (limit : Option ℕ)

/-- The fingerprints of the first keys of a corpus, sorted, each once. -/
def firstFingerprints (corpus : List Str) : List Word :=
  unique ((MembershipSet.seenValues limit (keysOf rt settings corpus) 0).map (fingerprint rt))

/-- A build returns, and these are the words it has packed. -/
def PacksFirst (client : BootstrapClient) (name : Option Str) (segments : Segments)
    (corpus : List Str) : Prop :=
  ∃ set report segments',
    buildMembership rt settings client limit name segments = .ok (set, report, segments') ∧
      set.packed = firstFingerprints rt settings limit corpus

/-- OpenCTI answers both counts and hands out the corpus. -/
structure HandsOut (client : BootstrapClient) (corpus : List Str) : Prop where
  indicators : ∃ n, countIndicators rt client = .ok n
  observables : ∃ n, countObservables rt client = .ok n
  serves : Serves settings client .null corpus

def GoesOn (loaded : ℕ) : Prop := ∀ most, limit = some most → loaded < max most 1

/-- Every value that loading comes to leaves the marker loop of `_defang`. -/
def LoadsLevel (corpus : List Str) : Prop :=
  ∀ before raw after, corpus = before ++ raw :: after →
    GoesOn limit (keysOf rt settings before).length → StaysLevel rt raw

def FreeName (name : Option Str) (segments : Segments) : Prop :=
  ∀ wanted, name = some wanted → ∀ segment ∈ segments, segment.name ≠ wanted

variable {rt settings limit}

theorem norm_returns_iff {raw : Str} :
    (∃ key, norm rt settings raw = .ok key) ↔ StaysLevel rt raw := by
  rw [← @normalize_returns_iff rt raw settings.skipPrivateIps settings.skipTlds]
  constructor
  · rintro ⟨key, hkey⟩
    obtain ⟨parsed, hparsed, -⟩ := norm_eq_ok_iff.mp hkey
    exact ⟨parsed, hparsed⟩
  · rintro ⟨parsed, hparsed⟩
    exact ⟨_, norm_eq_ok_iff.mpr ⟨parsed, hparsed, rfl⟩⟩

theorem goesOn_zero : GoesOn limit 0 := fun most _ => by omega

theorem packedArray_eq (values : List Str) :
    MembershipSet.packedArray rt values limit =
      unique ((MembershipSet.seenValues limit values 0).map (fingerprint rt)) := by
  rw [MembershipSet.packedArray, MembershipSet.flatten_buildBlocks]
  rfl

/-- Loading goes through exactly when every value it comes to normalizes. The induction is
on the corpus, with the keys gathered so far. -/
theorem gather_returns_iff {corpus values : List Str} (hroom : GoesOn limit values.length) :
    (∃ loaded, gather rt settings limit corpus values = .ok loaded) ↔
      ∀ before raw after, corpus = before ++ raw :: after →
        GoesOn limit (values.length + (keysOf rt settings before).length) →
          ∃ key, norm rt settings raw = .ok key := by
  induction corpus generalizing values with
  | nil => simp [gather]
  | cons raw rest ih =>
      have hsplit : ∀ keys : List Str, (∀ before, keysOf rt settings (raw :: before) =
          keys ++ keysOf rt settings before) → (∃ key, norm rt settings raw = .ok key) →
          ((∀ before found after, raw :: rest = before ++ found :: after →
            GoesOn limit (values.length + (keysOf rt settings before).length) →
              ∃ key, norm rt settings found = .ok key) ↔
          ∀ before found after, rest = before ++ found :: after →
            GoesOn limit ((values ++ keys).length + (keysOf rt settings before).length) →
              ∃ key, norm rt settings found = .ok key) := by
        intro keys hkeys hraw
        constructor
        · intro h before found after heq hgoes
          apply h (raw :: before) found after (by rw [heq]; rfl)
          rwa [hkeys, List.length_append, ← Nat.add_assoc, ← List.length_append]
        · intro h before found after heq hgoes
          cases before with
          | nil =>
              obtain ⟨rfl, -⟩ := List.cons.inj heq
              exact hraw
          | cons head before =>
              obtain ⟨rfl, hrest⟩ := List.cons.inj heq
              apply h before found after hrest
              rwa [hkeys, List.length_append, ← Nat.add_assoc, ← List.length_append] at hgoes
      rw [gather]
      cases hnorm : norm rt settings raw with
      | error fault =>
          apply iff_of_false
          · rintro ⟨loaded, hloaded⟩
            cases hloaded
          · intro h
            obtain ⟨key, hkey⟩ := h [] raw rest rfl hroom
            rw [hnorm] at hkey
            cases hkey
      | ok key =>
          rw [ok_bind]
          cases key with
          | none =>
              rw [hsplit [] (fun before => keysOf_cons_none hnorm before) ⟨_, hnorm⟩,
                List.append_nil]
              exact ih hroom
          | some key =>
              rw [hsplit [key] (fun before => keysOf_cons_some hnorm before) ⟨_, hnorm⟩]
              dsimp only
              by_cases hfull : limit.any (· ≤ (values ++ [key]).length) = true
              · rw [if_pos hfull]
                apply iff_of_true ⟨_, rfl⟩
                intro before found after heq hgoes
                cases limit with
                | none => simp at hfull
                | some most =>
                    have hle : most ≤ (values ++ [key]).length := by simpa using hfull
                    have hlt := hgoes most rfl
                    rw [List.length_append, List.length_singleton] at hle hlt
                    omega
              · rw [if_neg hfull]
                apply ih
                intro most hmost
                subst hmost
                have hlt : values.length + 1 < most := by simpa using hfull
                rw [List.length_append, List.length_singleton]
                omega

theorem packedArray_of_gather {corpus values : List Str} {full : Bool}
    (h : gather rt settings limit corpus [] = .ok (values, full)) :
    MembershipSet.packedArray rt values limit = firstFingerprints rt settings limit corpus := by
  rw [packedArray_eq, firstFingerprints]
  by_cases hzero : limit = some 0
  · subst hzero
    simp [MembershipSet.seenValues]
  · have hroom : ∀ most, limit = some most → ([] : List Str).length < most := by
      rintro most rfl
      exact Nat.pos_of_ne_zero fun h => hzero (by rw [h])
    have hgathered := gather_eq_ok h hroom
    rw [List.nil_append, List.length_nil] at hgathered
    rw [hgathered, MembershipSet.seenValues_seenValues]

theorem build_returns {name : Option Str} {segments : Segments} (hfree : FreeName name segments)
    (values : List Str) (overlayMax : ℤ) :
    ∃ set segments',
      MembershipSet.build rt values name overlayMax limit segments = .ok (set, segments') := by
  by_cases hempty : MembershipSet.packedArray rt values limit = []
  · exact ⟨_, _, MembershipSet.build_empty hempty⟩
  · cases name with
    | none =>
        unfold MembershipSet.build
        rw [if_neg (by simpa using hempty)]
        exact ⟨_, _, rfl⟩
    | some name =>
        exact ⟨_, _, (MembershipSet.build_named_iff hempty).mpr ⟨hfree name rfl, rfl, rfl⟩⟩

theorem packed_eq_firstFingerprints {client : BootstrapClient} {corpus : List Str}
    {name : Option Str} {segments segments' : Segments} {set : MembershipSet}
    {report : BootstrapReport} (hserves : Serves settings client .null corpus)
    (h : buildMembership rt settings client limit name segments = .ok (set, report, segments')) :
    set.packed = firstFingerprints rt settings limit corpus := by
  obtain ⟨values, truncated, hvalues, hbuild⟩ := buildMembership_eq_ok h
  rw [iterValues_of_serves hserves] at hvalues
  obtain ⟨-, -, hpacked, -⟩ := MembershipSet.build_spec hbuild
  rw [hpacked, packedArray_of_gather hvalues]

theorem packed_eq_of_serves {client client' : BootstrapClient} {corpus : List Str}
    {name name' : Option Str} {segments segments' left left' : Segments}
    {set set' : MembershipSet} {report report' : BootstrapReport}
    (hserves : Serves settings client .null corpus)
    (hserves' : Serves settings client' .null corpus)
    (h : buildMembership rt settings client limit name segments = .ok (set, report, left))
    (h' : buildMembership rt settings client' limit name' segments' = .ok (set', report', left')) :
    set.packed = set'.packed := by
  rw [packed_eq_firstFingerprints hserves h, packed_eq_firstFingerprints hserves' h']

theorem membership_packs_first_iff {client : BootstrapClient} {corpus : List Str}
    (hands : HandsOut rt settings client corpus) {name : Option Str} {segments : Segments}
    (hfree : FreeName name segments) :
    PacksFirst rt settings limit client name segments corpus ↔
      LoadsLevel rt settings limit corpus := by
  have hgather := @gather_returns_iff rt settings limit corpus [] goesOn_zero
  simp only [List.length_nil, Nat.zero_add, norm_returns_iff] at hgather
  rw [LoadsLevel, ← hgather]
  constructor
  · rintro ⟨set, report, segments', hbuilt, -⟩
    obtain ⟨values, truncated, hvalues, -⟩ := buildMembership_eq_ok hbuilt
    rw [iterValues_of_serves hands.serves] at hvalues
    exact ⟨_, hvalues⟩
  · rintro ⟨⟨values, truncated⟩, hvalues⟩
    obtain ⟨indicators, hindicators⟩ := hands.indicators
    obtain ⟨observables, hobservables⟩ := hands.observables
    obtain ⟨set, segments', hbuild⟩ :=
      @build_returns rt limit name segments hfree values settings.membershipOverlayMax
    have hbuilt : buildMembership rt settings client limit name segments =
        .ok (set, ⟨observables, values.length, set.count, truncated⟩, segments') := by
      unfold buildMembership
      rw [hindicators, ok_bind, hobservables, ok_bind, iterValues_of_serves hands.serves, hvalues,
        ok_bind]
      dsimp only
      rw [hbuild]
      rfl
    exact ⟨set, _, segments', hbuilt, packed_eq_firstFingerprints hands.serves hbuilt⟩

section Sample

theorem handsOut_onePage (overlayMax : ℤ) {corpus : List Str}
    (hnonempty : ∀ value ∈ corpus, value ≠ []) :
    HandsOut sampleRuntime (sampleSettings overlayMax) (.onePage corpus) corpus where
  indicators := ⟨_, rfl⟩
  observables := by cases corpus <;> exact ⟨_, rfl⟩
  serves := by
    have hserves := @serves_onePage (sampleSettings overlayMax) rfl corpus
    rwa [List.filter_eq_self.mpr fun value hvalue => by simpa using hnonempty value hvalue]
      at hserves

def samplePage (endCursor : Json) (nodes : List Json) : Json :=
  .obj [("stixCyberObservables",
    .obj [("pageInfo", .obj [("endCursor", endCursor), ("hasNextPage", .bool true)]),
      ("edges", .arr (nodes.map fun node => .obj [("node", node)]))])]

def sampleNode (value : Json) : Json := .obj [("observable_value", value)]

def threePages : BootstrapClient where
  countIndicators := (BootstrapClient.onePage []).countIndicators
  countObservables := (BootstrapClient.onePage []).countObservables
  page cursor :=
    match cursor with
    | .str ['b'] => .ok (samplePage (.str "c") [])
    | .str ['c'] =>
        .ok (samplePage .null [sampleNode (.str "evil.com"), sampleNode (.str "late.com")])
    | _ => .ok (samplePage (.str "b")
        [sampleNode (.str "good.com"), .null, sampleNode .null, sampleNode (.str ""),
          sampleNode (.str "evilserver")])

def threePagesCorpus : List Str := ["good.com", "evilserver", "evil.com", "late.com"]

theorem handsOut_threePages :
    HandsOut sampleRuntime (sampleSettings 50000) threePages threePagesCorpus where
  indicators := ⟨_, rfl⟩
  observables := ⟨_, rfl⟩
  serves := by
    have hlast : Serves (sampleSettings 50000) threePages (.str "c") ["evil.com", "late.com"] :=
      .last rfl
    have hempty := @Serves.more _ _ (.str "b") _ [] _ rfl hlast
    exact @Serves.more _ _ .null _ ["good.com", "evilserver"] _ rfl hempty

/-- Of three pages, the first two keys are packed. -/
theorem membership_packs_threePages :
    PacksFirst sampleRuntime (sampleSettings 50000) (some 2) threePages none []
        threePagesCorpus ∧
      firstFingerprints sampleRuntime (sampleSettings 50000) (some 2) threePagesCorpus =
        [fingerprint sampleRuntime "evil.com", fingerprint sampleRuntime "good.com"] := by
  refine ⟨(membership_packs_first_iff handsOut_threePages (by simp [FreeName])).mpr ?_,
    by decide +kernel⟩
  intro before raw after heq _
  have hraw : raw ∈ threePagesCorpus := by
    rw [heq]
    exact List.mem_append_right _ List.mem_cons_self
  have hahead : ∀ raw ∈ threePagesCorpus, ahead (stripChars stripSet (strip raw)) ≤ 2 := by decide
  exact staysLevel_of_ahead (hahead raw hraw)

/-- A value whose marker loop runs for ever stops the build. -/
theorem dotted_value_stops_build :
    ¬ ∀ (rt : Runtime) (settings : Settings) (limit : Option ℕ) (client : BootstrapClient)
      (corpus : List Str) (name : Option Str) (segments : Segments),
      HandsOut rt settings client corpus → FreeName name segments →
        PacksFirst rt settings limit client name segments corpus := by
  intro hall
  have hands := @handsOut_onePage 50000 ["\u0130\u0130\u0130[.]a"] (by simp)
  obtain ⟨set, report, segments', hbuilt, -⟩ :=
    hall _ _ none _ _ none [] hands (by simp [FreeName])
  obtain ⟨values, truncated, hvalues, -⟩ := buildMembership_eq_ok hbuilt
  rw [iterValues_of_serves hands.serves] at hvalues
  obtain ⟨key, hkey, -⟩ := bind_eq_ok_iff.mp hvalues
  obtain ⟨cleaned, hcleaned⟩ := returns_of_staysLevel (norm_returns_iff.mp ⟨key, hkey⟩)
  rw [defang_three_dotted] at hcleaned
  cases hcleaned

end Sample

end OpenctiLookup
