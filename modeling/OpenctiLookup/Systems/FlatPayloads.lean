import OpenctiLookup.Systems.LabelField
import OpenctiLookup.Systems.Provenance

/-! The shape of what is answered. Whatever JSON OpenCTI sends, an answer is a flat record of
texts under known names, and the length of those that come from the indicator is bounded. -/
namespace OpenctiLookup
open Python Theory

def maxJoinedLen : ℕ := maxLabels * (maxLabelLen + 1)

/-- How long the text under a name is at most. What OpenCTI is asked for, the type and the
links are not cut. -/
def fieldLimits : List (Str × ℕ) :=
  [("found", 5), ("match_type", 8), ("score", maxTextLen), ("confidence", maxTextLen),
    ("detection", maxTextLen), ("expired", 5), ("revoked", maxTextLen), ("valid_from", maxTextLen),
    ("valid_until", maxTextLen), ("indicator_name", maxNameLen), ("pattern_type", 32),
    ("description", maxTextLen), ("marking", maxLabelLen), ("observable_score", maxTextLen),
    ("created_by", maxNameLen), ("kill_chain", maxJoinedLen), ("labels", maxJoinedLen)]

def hitKeys : List Str := Observable.payloadKeys ++ ["matched_value".toList]

/-- The text is as long as its name allows, and not empty but under `marking`. -/
def Fits (entry : Str × Str) : Prop :=
  ∀ limit, fieldLimits.lookup entry.1 = some limit →
    entry.2.length ≤ limit ∧ (entry.1 ≠ "marking".toList → entry.2 ≠ [])

/-- A hit that the pipeline rules can read. -/
structure FlatHit (payload : Payload) : Prop where
  nodup : (payload.map Prod.fst).Nodup
  known : ∀ entry ∈ payload, entry.1 ∈ hitKeys
  fits : ∀ entry ∈ payload, Fits entry

section Texts

variable {rt : Runtime} {text : Str} {limit : ℕ}

theorem fits_of_unbounded {key : Str} (hkey : fieldLimits.lookup key = none) (text : Str) :
    Fits (key, text) := by
  intro limit hlimit
  rw [hkey] at hlimit
  cases hlimit

theorem fits_of_length {key : Str} (hkey : fieldLimits.lookup key = some limit)
    (hlength : text.length ≤ limit) (hne : text ≠ []) : Fits (key, text) := by
  intro limit' hlimit
  rw [hkey] at hlimit
  cases hlimit
  exact ⟨hlength, fun _ => hne⟩

theorem boolText_bounded (b : Bool) : (boolText b).length ≤ 5 ∧ boolText b ≠ [] := by
  cases b <;> decide

theorem boundedText_bounded {value : Json} (h : boundedText rt value limit = some text)
    (hlimit : 5 ≤ limit) : text.length ≤ limit ∧ text ≠ [] := by
  have hstrip : ∀ s : Str, (if (strip s).isEmpty then none else some ((strip s).take limit)) =
      some text → text.length ≤ limit ∧ text ≠ [] := by
    intro s hs
    split at hs
    · cases hs
    · rename_i hne
      obtain rfl := Option.some.inj hs
      refine ⟨List.length_take_le _ _, ?_⟩
      rw [Ne, List.take_eq_nil_iff, not_or]
      exact ⟨by omega, fun hnil => hne (by rw [hnil]; rfl)⟩
  cases value with
  | null => cases h
  | bool b =>
      obtain rfl := Option.some.inj h
      have hbool := boolText_bounded b
      exact ⟨hbool.1.trans hlimit, hbool.2⟩
  | int n => exact hstrip _ h
  | float q => exact hstrip _ h
  | str s => exact hstrip _ h
  | arr items => exact hstrip _ h
  | obj entries => exact hstrip _ h

theorem firstDefinition_bounded {markings : List Json} {found : Option Str}
    (h : firstDefinition rt markings = .ok found) : ∀ text ∈ found, text.length ≤ maxLabelLen := by
  induction markings with
  | nil =>
      cases h
      intro text htext
      cases htext
  | cons marking rest ih =>
      unfold firstDefinition at h
      obtain ⟨definition, -, h⟩ := bind_eq_ok_iff.mp h
      split at h
      · cases h
        intro text htext
        rw [← Option.mem_some_iff.mp htext]
        exact List.length_take_le _ _
      · exact ih h

theorem marking_bounded {node primary : Json} {found : Option Str}
    (h : marking rt node primary = .ok found) : ∀ text ∈ found, text.length ≤ maxLabelLen := by
  unfold marking at h
  obtain ⟨own, -, h⟩ := bind_eq_ok_iff.mp h
  obtain ⟨markings, -, h⟩ := bind_eq_ok_iff.mp h
  obtain ⟨first, hfirst, h⟩ := bind_eq_ok_iff.mp h
  cases first with
  | some text =>
      cases h
      exact firstDefinition_bounded hfirst
  | none =>
      obtain ⟨field, -, h⟩ := bind_eq_ok_iff.mp h
      obtain ⟨markings, -, h⟩ := bind_eq_ok_iff.mp h
      exact firstDefinition_bounded h

theorem joined_bounded {parts : List Str} (hcount : parts.length ≤ maxLabels)
    (hlength : ∀ part ∈ parts, part.length ≤ maxLabelLen) (h : joined parts = some text) :
    text.length ≤ maxJoinedLen ∧ text ≠ [] := by
  unfold joined at h
  dsimp only at h
  split at h
  · cases h
  · rename_i hne
    obtain rfl := Option.some.inj h
    refine ⟨?_, fun hnil => hne (by rw [hnil]; rfl)⟩
    have hjoin := length_join_le ',' hlength
    exact hjoin.trans (Nat.mul_le_mul_right _ hcount)

end Texts

section Reads

variable {rt : Runtime} {settings : Settings} {now : ℚ}

theorem read_bounded {source : Json} {key : Str} {limit : ℕ} {found : Option Str}
    (h : (do pure (boundedText rt (← source.get key) limit) : Py (Option Str)) = .ok found)
    (hlimit : 5 ≤ limit) : ∀ text ∈ found, text.length ≤ limit ∧ text ≠ [] := by
  obtain ⟨value, -, h⟩ := bind_eq_ok_iff.mp h
  cases h
  intro text htext
  exact boundedText_bounded (Option.mem_def.mp htext) hlimit

theorem mapPy_bounded {α : Type} {f : α → Py Str} {xs : List α} {texts : List Str} {n : ℕ}
    (hf : ∀ x text, f x = .ok text → text.length ≤ n) (h : mapPy f xs = .ok texts) :
    ∀ text ∈ texts, text.length ≤ n := by
  induction xs generalizing texts with
  | nil =>
      cases h
      intro text htext
      cases htext
  | cons x xs ih =>
      unfold mapPy at h
      obtain ⟨first, hfirst, h⟩ := bind_eq_ok_iff.mp h
      obtain ⟨rest, hrest, h⟩ := bind_eq_ok_iff.mp h
      cases h
      exact List.forall_mem_cons.mpr ⟨hf x first hfirst, ih hrest⟩

theorem phaseNames_bounded {primary : Json} {names : List Str}
    (h : phaseNames rt primary = .ok names) : ∀ name ∈ names, name.length ≤ maxLabelLen := by
  unfold phaseNames at h
  obtain ⟨field, -, h⟩ := bind_eq_ok_iff.mp h
  obtain ⟨phases, -, h⟩ := bind_eq_ok_iff.mp h
  obtain ⟨named, -, h⟩ := bind_eq_ok_iff.mp h
  refine mapPy_bounded (fun phase text htext => ?_) h
  obtain ⟨name, -, htext⟩ := bind_eq_ok_iff.mp htext
  cases htext
  exact List.length_take_le _ _

theorem labelText_bounded {label : Json} {text : Str} (h : labelText rt label = some text) :
    text.length ≤ maxLabelLen := by
  unfold labelText at h
  split at h
  · split at h
    · cases h
      exact List.length_take_le _ _
    · cases h
  · cases h

theorem labelsFrom_bounded {survivors : List Json} {labels : List Str}
    (h : labelsFrom rt survivors [] = .ok labels) :
    labels.length ≤ maxLabels ∧ ∀ label ∈ labels, label.length ≤ maxLabelLen := by
  have hunion := @labelsFrom_texts rt survivors [] labels (by decide) h
  rw [List.nil_append] at hunion
  rw [hunion]
  refine ⟨List.length_take_le _ _, fun label hlabel => ?_⟩
  have hmem : label ∈ labelTexts rt survivors :=
    List.mem_eraseDups.mp (List.mem_of_mem_take hlabel)
  obtain ⟨indicator, -, hlabels⟩ := List.mem_flatMap.mp hmem
  obtain ⟨source, -, htext⟩ := List.mem_filterMap.mp hlabels
  exact labelText_bounded htext

def AllFit (fields : List (Str × Option Str)) : Prop :=
  ∀ field ∈ fields, ∀ text ∈ field.2, Fits (field.1, text)

theorem allFit_cons {key : Str} {value : Option Str} {fields : List (Str × Option Str)}
    (hvalue : ∀ text ∈ value, Fits (key, text)) (hfields : AllFit fields) :
    AllFit ((key, value) :: fields) := List.forall_mem_cons.mpr ⟨hvalue, hfields⟩

theorem fits_bounded {key : Str} {value : Option Str} {limit : ℕ}
    (hkey : fieldLimits.lookup key = some limit)
    (hvalue : ∀ text ∈ value, text.length ≤ limit ∧ text ≠ []) :
    ∀ text ∈ value, Fits (key, text) := fun text htext =>
  fits_of_length hkey (hvalue text htext).1 (hvalue text htext).2

theorem flatHit_present {fields : List (Str × Option Str)}
    (hkeys : fields.map Prod.fst = Observable.payloadKeys) (hfit : AllFit fields) :
    FlatHit (Observable.present fields) where
  nodup := Observable.nodup_present (hkeys ▸ Observable.nodup_payloadKeys)
  known entry hentry := List.mem_append_left _ (hkeys ▸ mem_keys_of_mem_present hentry)
  fits entry hentry := by
    obtain ⟨field, hfield, hsome⟩ := List.mem_filterMap.mp hentry
    obtain ⟨text, htext, rfl⟩ := Option.map_eq_some_iff.mp hsome
    exact hfit field hfield text htext

theorem flatHit_payloadOf {node primary kind : Json} {survivors : List Json}
    {value matchType : Str} {payload : Payload}
    (hmatch : matchType.length ≤ 8 ∧ matchType ≠ [])
    (h : payloadOf rt settings now node primary survivors value kind matchType = .ok payload) :
    FlatHit payload := by
  unfold payloadOf at h
  obtain ⟨expired, -, h⟩ := bind_eq_ok_iff.mp h
  obtain ⟨score, hscore, h⟩ := bind_eq_ok_iff.mp h
  obtain ⟨confidence, hconfidence, h⟩ := bind_eq_ok_iff.mp h
  obtain ⟨detection, hdetection, h⟩ := bind_eq_ok_iff.mp h
  obtain ⟨revoked, hrevoked, h⟩ := bind_eq_ok_iff.mp h
  obtain ⟨validFrom, hvalidFrom, h⟩ := bind_eq_ok_iff.mp h
  obtain ⟨validUntil, hvalidUntil, h⟩ := bind_eq_ok_iff.mp h
  obtain ⟨name, hname, h⟩ := bind_eq_ok_iff.mp h
  obtain ⟨patternType, hpatternType, h⟩ := bind_eq_ok_iff.mp h
  obtain ⟨description, hdescription, h⟩ := bind_eq_ok_iff.mp h
  obtain ⟨definition, hdefinition, h⟩ := bind_eq_ok_iff.mp h
  obtain ⟨observableScore, hobservableScore, h⟩ := bind_eq_ok_iff.mp h
  obtain ⟨creator, -, h⟩ := bind_eq_ok_iff.mp h
  obtain ⟨createdBy, -, h⟩ := bind_eq_ok_iff.mp h
  obtain ⟨phases, hphases, h⟩ := bind_eq_ok_iff.mp h
  obtain ⟨labels, hlabels, h⟩ := bind_eq_ok_iff.mp h
  cases kind with
  | str kind =>
      obtain ⟨_, hkind, h⟩ := bind_eq_ok_iff.mp h
      cases hkind
      obtain ⟨indicatorId, -, h⟩ := bind_eq_ok_iff.mp h
      cases h
      have hcreatedBy : ∀ text ∈ boundedText rt createdBy maxNameLen,
          text.length ≤ maxNameLen ∧ text ≠ [] := fun text htext =>
        boundedText_bounded (Option.mem_def.mp htext) (by decide)
      have hflag : ∀ flag : Option Str,
          (∀ text ∈ flag, text.length ≤ maxTextLen ∧ text ≠ []) →
          ∀ text ∈ some (flag.getD "false"), text.length ≤ maxTextLen ∧ text ≠ [] := by
        intro flag hread text htext
        cases flag with
        | none =>
            cases htext
            decide
        | some value => exact hread text htext
      have hjoined : ∀ parts : List Str, parts.length ≤ maxLabels →
          (∀ part ∈ parts, part.length ≤ maxLabelLen) →
          ∀ text ∈ joined parts, text.length ≤ maxJoinedLen ∧ text ≠ [] :=
        fun parts hcount hlength text htext =>
          joined_bounded hcount hlength (Option.mem_def.mp htext)
      have hfree : ∀ {key : Str}, fieldLimits.lookup key = none → ∀ value : Option Str,
          ∀ text ∈ value, Fits (key, text) := fun hkey value text _ => fits_of_unbounded hkey text
      have hmarking : ∀ text ∈ definition, Fits ("marking", text) := by
        intro text htext limit hlimit
        cases hlimit
        exact ⟨marking_bounded hdefinition text htext, fun hne => absurd rfl hne⟩
      apply flatHit_present rfl
      apply allFit_cons (fits_bounded rfl fun text htext => by cases htext; decide)
      apply allFit_cons (hfree rfl _)
      apply allFit_cons (hfree rfl _)
      apply allFit_cons (fits_bounded rfl fun text htext => by cases htext; exact hmatch)
      apply allFit_cons (fits_bounded rfl (read_bounded hscore (by decide)))
      apply allFit_cons (fits_bounded rfl (read_bounded hconfidence (by decide)))
      apply allFit_cons (fits_bounded rfl (hflag _ (read_bounded hdetection (by decide))))
      apply allFit_cons (fits_bounded rfl fun text htext => by
        cases htext; exact boolText_bounded expired)
      apply allFit_cons (fits_bounded rfl (hflag _ (read_bounded hrevoked (by decide))))
      apply allFit_cons (fits_bounded rfl (read_bounded hvalidFrom (by decide)))
      apply allFit_cons (fits_bounded rfl (read_bounded hvalidUntil (by decide)))
      apply allFit_cons (fits_bounded rfl (read_bounded hname (by decide)))
      apply allFit_cons (hfree rfl _)
      apply allFit_cons (fits_bounded rfl (read_bounded hpatternType (by decide)))
      apply allFit_cons (fits_bounded rfl (read_bounded hdescription (by decide)))
      apply allFit_cons hmarking
      apply allFit_cons (fits_bounded rfl (read_bounded hobservableScore (by decide)))
      apply allFit_cons (fits_bounded rfl hcreatedBy)
      apply allFit_cons (fits_bounded rfl (hjoined _ (List.length_take_le _ _) fun part hpart =>
        phaseNames_bounded hphases part (List.mem_of_mem_take hpart)))
      have hlabelled := labelsFrom_bounded hlabels
      apply allFit_cons (fits_bounded rfl (hjoined _ hlabelled.1 hlabelled.2))
      apply allFit_cons (hfree rfl _)
      apply allFit_cons (hfree rfl _)
      exact fun field hfield => absurd hfield List.not_mem_nil
  | _ => cases h

end Reads

section Answers

variable {rt : Runtime} {settings : Settings} {client : Client} {now : ℚ} {payload : Payload}

theorem keys_set (key value : Str) :
    (payload.set key value).map Prod.fst =
      if key ∈ payload.map Prod.fst then payload.map Prod.fst
      else payload.map Prod.fst ++ [key] := by
  unfold Payload.set
  by_cases hkey : key ∈ payload.map Prod.fst
  · have hany : (payload.any fun entry => entry.1 = key) = true := by
      obtain ⟨entry, hentry, rfl⟩ := List.mem_map.mp hkey
      exact List.any_eq_true.mpr ⟨entry, hentry, decide_eq_true rfl⟩
    rw [if_pos hany, if_pos hkey, List.map_map]
    apply List.map_congr_left
    intro entry _
    by_cases hentry : entry.1 = key
    · simp [hentry]
    · simp [hentry]
  · have hnone : ¬ (payload.any fun entry => entry.1 = key) = true := by
      intro hany
      obtain ⟨entry, hentry, heq⟩ := List.any_eq_true.mp hany
      exact hkey (List.mem_map.mpr ⟨entry, hentry, of_decide_eq_true heq⟩)
    rw [if_neg hnone, if_neg hkey, List.map_append]
    rfl

theorem mem_of_mem_set {key value : Str} {entry : Str × Str} (h : entry ∈ payload.set key value) :
    entry ∈ payload ∨ entry = (key, value) := by
  unfold Payload.set at h
  split at h
  · obtain ⟨old, hold, rfl⟩ := List.mem_map.mp h
    split
    · exact .inr rfl
    · exact .inl hold
  · exact (List.mem_append.mp h).imp_right List.mem_singleton.mp

theorem flatHit_set (h : FlatHit payload) {key : Str} (hknown : key ∈ hitKeys)
    (hfree : fieldLimits.lookup key = none) (value : Str) : FlatHit (payload.set key value) where
  nodup := by
    rw [keys_set]
    split
    · exact h.nodup
    · next hkey =>
        rw [List.nodup_append]
        refine ⟨h.nodup, List.nodup_singleton key, fun other hother fresh hfresh => ?_⟩
        rw [List.mem_singleton.mp hfresh]
        exact ne_of_mem_of_not_mem hother hkey
  known entry hentry := by
    rcases mem_of_mem_set hentry with hold | rfl
    · exact h.known entry hold
    · exact hknown
  fits entry hentry := by
    rcases mem_of_mem_set hentry with hold | rfl
    · exact h.fits entry hold
    · exact fits_of_unbounded hfree value

theorem flatHit_query {text matchType : Str} {kind : IndicatorType}
    (hmatch : matchType.length ≤ 8 ∧ matchType ≠ [])
    (h : LiveBackend.query rt settings client now text kind matchType = .ok (some payload)) :
    FlatHit payload := by
  unfold LiveBackend.query LiveBackend.readReply at h
  obtain ⟨data, -, h⟩ := bind_eq_ok_iff.mp h
  obtain ⟨block, -, h⟩ := bind_eq_ok_iff.mp h
  obtain ⟨edges, -, h⟩ := bind_eq_ok_iff.mp h
  dsimp only at h
  split at h
  · cases h
  · obtain ⟨edge, -, h⟩ := bind_eq_ok_iff.mp h
    obtain ⟨node, -, h⟩ := bind_eq_ok_iff.mp h
    obtain ⟨entityType, -, h⟩ := bind_eq_ok_iff.mp h
    unfold buildPayload at h
    obtain ⟨survivors, -, h⟩ := bind_eq_ok_iff.mp h
    cases survivors with
    | nil => cases h
    | cons primary survivors =>
        obtain ⟨built, hbuilt, h⟩ := bind_eq_ok_iff.mp h
        cases h
        exact flatHit_payloadOf hmatch hbuilt

theorem flatHit_fetch {value : Normalized}
    (h : LiveBackend.fetch rt settings client now value = .ok payload) :
    payload = miss ∨ FlatHit payload := by
  unfold LiveBackend.fetch at h
  obtain ⟨exact, hexact, h⟩ := bind_eq_ok_iff.mp h
  cases exact with
  | some found =>
      cases h
      exact .inr (flatHit_query (by decide) hexact)
  | none =>
      dsimp only at h
      split at h
      · cases h
        exact .inl rfl
      · next host hhost =>
          obtain ⟨byHost, hbyHost, h⟩ := bind_eq_ok_iff.mp h
          cases byHost with
          | none =>
              cases h
              exact .inl rfl
          | some found =>
              cases h
              have hflat : FlatHit found := flatHit_query (by decide) hbyHost
              have hvalue : FlatHit (found.set "value" value.value) :=
                flatHit_set hflat (by decide) rfl _
              exact .inr (flatHit_set hvalue (by decide) rfl host)

variable {trace : List ServingStep} {s : Serving}

/-- In every run, and whatever JSON OpenCTI sends, a lookup is answered with one of the two
fixed misses or with a hit whose names are distinct and known, and whose texts are no longer
than their names allow. -/
theorem answers_flat (hrun : Reaches (servingSystem rt settings) anyStep trace s)
    {answer : Answer} (hanswer : answer ∈ s.answers) :
    answer.result.payload = miss ∨ answer.result.payload = degradedPayload ∨
      answer.result.payload.Found ∧ FlatHit answer.result.payload := by
  obtain ⟨value, started, result, obtained⟩ := answer
  cases (traced_run hrun).2.answered _ hanswer with
  | missed => exact .inl rfl
  | degraded => exact .inr (.inl rfl)
  | fetched _ h =>
      obtain ⟨index, flight, client, now, hflight, hkey, hdone, hmem, hfetch⟩ := h
      rcases hit_of_fetch hfetch with hmiss | ⟨hfound, -⟩
      · exact .inl hmiss
      · rcases flatHit_fetch hfetch with hmiss | hflat
        · exact .inl hmiss
        · exact .inr (.inr ⟨hfound, hflat⟩)

theorem answers_flat_found : ∃ s : Serving, ∃ answer ∈ s.answers,
    answer.result.payload.Found ∧ FlatHit answer.result.payload := by
  obtain ⟨trace, s, answer, hrun, hmem, hfound⟩ := reaches_found
  obtain ⟨hmiss, hdegraded⟩ := hfound.not_missed
  exact ⟨s, answer, hmem,
    ((answers_flat hrun hmem).resolve_left hmiss).resolve_left hdegraded⟩

end Answers

end OpenctiLookup
