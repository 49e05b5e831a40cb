import OpenctiLookup.Python.TextLemmas
import OpenctiLookup.Opencti.Events
import OpenctiLookup.Systems.BestIndicator
import OpenctiLookup.Theory.FirstSeen

/-! The labels field read back: the text between its commas, beside the labels of the
surviving indicators. A label reaches the union before it is known whether anything is left
of it, and the union is joined without regard to commas in it. -/
namespace OpenctiLookup
open Python Theory

variable (rt : Runtime)

def labelText (label : Json) : Option Str :=
  match (label.orElse (.obj [])).get "value" with
  | .ok value => if value.truthy then some ((strip (rt.strOf value)).take maxLabelLen) else none
  | .error _ => none

def labelsOf (indicator : Json) : List Json :=
  (do ((← indicator.get "objectLabel").orElse (.arr [])).iter : Py (List Json)).toOption.getD []

def labelTexts (indicators : List Json) : List Str :=
  indicators.flatMap fun indicator => (labelsOf indicator).filterMap (labelText rt)

def firstLabels (indicators : List Json) : List Str :=
  (((labelTexts rt indicators).filter fun text => !text.isEmpty).eraseDups).take maxLabels

/-- The labels field, split at its commas, gives back those labels; without any there is no
field. -/
def LabelsReadBack (indicators : List Json) (payload : Payload) : Prop :=
  match payload.get "labels" with
  | some text => split ',' text = firstLabels rt indicators
  | none => firstLabels rt indicators = []

/-- Of the first distinct texts, blank or not, none has a comma, and none but a single one
is blank. -/
structure PlainLabels (indicators : List Json) : Prop where
  comma : ∀ text ∈ (labelTexts rt indicators).eraseDups.take maxLabels, ',' ∉ text
  blank : [] ∈ (labelTexts rt indicators).eraseDups.take maxLabels →
    (labelTexts rt indicators).eraseDups.take maxLabels = [[]]

theorem nodup_firstLabels (indicators : List Json) : (firstLabels rt indicators).Nodup :=
  (FirstSeen.nodup_eraseDups _).sublist (List.take_sublist _ _)

theorem length_firstLabels_le (indicators : List Json) :
    (firstLabels rt indicators).length ≤ maxLabels := List.length_take_le _ _

variable {rt}

section Union

variable {labels indicators : List Json} {seen read union : List Str} {full : Bool}

theorem addLabels_step {label : Json} {seen' : List Str}
    (h : addLabels rt (label :: labels) seen = .ok (seen', full)) :
    ∃ next, next = (labelText rt label).elim seen (FirstSeen.enlist seen) ∧
      if maxLabels ≤ next.length then seen' = next ∧ full = true
      else addLabels rt labels next = .ok (seen', full) := by
  unfold addLabels at h
  obtain ⟨value, hvalue, h⟩ := bind_eq_ok_iff.mp h
  refine ⟨_, rfl, ?_⟩
  have hnext : (if (value.truthy && !seen.contains ((strip (rt.strOf value)).take maxLabelLen)) then
      seen ++ [(strip (rt.strOf value)).take maxLabelLen] else seen) =
      (labelText rt label).elim seen (FirstSeen.enlist seen) := by
    unfold labelText
    rw [hvalue]
    dsimp only
    cases value.truthy with
    | false => rfl
    | true =>
        rw [if_pos rfl, Option.elim_some, FirstSeen.enlist]
        by_cases hmem : (strip (rt.strOf value)).take maxLabelLen ∈ seen <;> simp [hmem]
  dsimp only at h
  rw [hnext] at h
  split at h
  · next hfull =>
      cases h
      rw [if_pos hfull]
      exact ⟨rfl, rfl⟩
  · next hmore =>
      rw [if_neg hmore]
      exact h

/-- The inner loop collects the texts in order until it is full. The induction is on the
labels, with the texts read so far. -/
theorem addLabels_eq (hroom : read.eraseDups.length < maxLabels)
    (h : addLabels rt labels read.eraseDups = .ok (union, full)) :
    union = (read ++ labels.filterMap (labelText rt)).eraseDups.take maxLabels ∧
      (full = true ↔ maxLabels ≤ union.length) := by
  induction labels generalizing read with
  | nil =>
      cases h
      rw [List.filterMap_nil, List.append_nil, List.take_of_length_le hroom.le]
      exact ⟨rfl, by simp [hroom]⟩
  | cons label labels ih =>
      obtain ⟨next, hnext, h⟩ := addLabels_step h
      have hread : next = (read ++ (labelText rt label).toList).eraseDups := by
        rw [hnext]
        cases labelText rt label with
        | none => simp
        | some text => exact FirstSeen.enlist_eraseDups read text
      have htexts : read ++ (label :: labels).filterMap (labelText rt) =
          (read ++ (labelText rt label).toList) ++ labels.filterMap (labelText rt) := by
        rw [List.append_assoc, List.filterMap_cons]
        cases labelText rt label <;> rfl
      rw [htexts]
      by_cases hfull : maxLabels ≤ next.length
      · rw [if_pos hfull] at h
        obtain ⟨rfl, rfl⟩ := h
        have hle : union.length ≤ maxLabels := by
          rw [hnext]
          cases labelText rt label with
          | none => exact hroom.le
          | some text => exact (FirstSeen.length_enlist_le _ _).trans hroom
        rw [hread] at hfull hle ⊢
        rw [FirstSeen.take_eraseDups_append hfull, List.take_of_length_le hle]
        exact ⟨rfl, by simp [hfull]⟩
      · rw [if_neg hfull, hread] at h
        rw [hread] at hfull
        exact ih (not_le.mp hfull) h

theorem labelsFrom_texts (hroom : read.eraseDups.length < maxLabels)
    (h : labelsFrom rt indicators read.eraseDups = .ok union) :
    union = (read ++ labelTexts rt indicators).eraseDups.take maxLabels := by
  induction indicators generalizing read with
  | nil =>
      cases h
      rw [labelTexts, List.flatMap_nil, List.append_nil, List.take_of_length_le hroom.le]
  | cons indicator indicators ih =>
      unfold labelsFrom at h
      obtain ⟨field, hfield, h⟩ := bind_eq_ok_iff.mp h
      obtain ⟨labels, hlabels, h⟩ := bind_eq_ok_iff.mp h
      obtain ⟨⟨next, full⟩, hnext, h⟩ := bind_eq_ok_iff.mp h
      have hof : labelsOf indicator = labels := by
        rw [labelsOf, hfield, ok_bind, hlabels]
        rfl
      have htexts : labelTexts rt (indicator :: indicators) =
          labels.filterMap (labelText rt) ++ labelTexts rt indicators := by
        rw [labelTexts, List.flatMap_cons, hof]
        rfl
      obtain ⟨hunion, hfull⟩ := addLabels_eq hroom hnext
      rw [htexts, ← List.append_assoc]
      dsimp only at h
      cases full with
      | true =>
          cases h
          have hlong := hfull.mp rfl
          rw [hunion, List.length_take] at hlong
          rw [FirstSeen.take_eraseDups_append (by omega), ← hunion]
      | false =>
          have hshort : next.length < maxLabels := not_le.mp fun hle => by simpa using hfull.mpr hle
          have hwhole : next = (read ++ labels.filterMap (labelText rt)).eraseDups := by
            rw [hunion, List.length_take] at hshort
            rw [hunion, List.take_of_length_le (by omega)]
          rw [hwhole] at h hshort
          exact ih hshort h

end Union

section Field

variable {settings : Settings} {now : ℚ} {node primary : Json} {survivors : List Json}
  {value matchType : Str} {kind : Json} {payload : Payload}

theorem labels_payloadOf
    (h : payloadOf rt settings now node primary survivors value kind matchType = .ok payload) :
    ∃ labels, labelsFrom rt survivors [] = .ok labels ∧ payload.get "labels" = joined labels := by
  unfold payloadOf at h
  -- What is read before the labels.
  iterate 15 obtain ⟨_, -, h⟩ := bind_eq_ok_iff.mp h
  obtain ⟨labels, hlabels, h⟩ := bind_eq_ok_iff.mp h
  refine ⟨labels, hlabels, ?_⟩
  cases kind with
  | str kind =>
      obtain ⟨kind, -, h⟩ := bind_eq_ok_iff.mp h
      obtain ⟨indicatorId, -, h⟩ := bind_eq_ok_iff.mp h
      cases h
      have hplace : ∀ {fields : List (Str × Option Str)},
          fields.map Prod.fst = Observable.payloadKeys →
          fields[19]? = some ("labels".toList, joined labels) →
          (Observable.present fields).get "labels" = joined labels := fun hkeys hn =>
        Observable.get_present (hkeys ▸ Observable.nodup_payloadKeys) (List.mem_of_getElem? hn)
      exact hplace rfl rfl
  | _ => cases h

theorem labels_buildPayload (hselect : selectIndicators rt settings now node = .ok survivors)
    (h : buildPayload rt settings now node value kind matchType = .ok (some payload)) :
    payload.get "labels" = joined ((labelTexts rt survivors).eraseDups.take maxLabels) := by
  unfold buildPayload at h
  rw [hselect, ok_bind] at h
  cases survivors with
  | nil => cases h
  | cons primary rest =>
      obtain ⟨found, hfound, h⟩ := bind_eq_ok_iff.mp h
      cases h
      obtain ⟨labels, hlabels, hget⟩ := labels_payloadOf hfound
      rw [hget, @labelsFrom_texts rt _ [] labels (by decide) hlabels, List.nil_append]

theorem joined_eq (parts : List Str) :
    joined parts = if parts = [] ∨ parts = [[]] then none else some (join [','] parts) := by
  have hcomma : ",".toList = [','] := rfl
  rw [joined, hcomma]
  rcases parts with _ | ⟨first, _ | ⟨second, rest⟩⟩
  · rfl
  · cases first <;> simp [join_singleton]
  · rw [join_cons_cons]
    simp

theorem firstLabels_eq
    (hblank : [] ∉ (labelTexts rt survivors).eraseDups.take maxLabels) :
    firstLabels rt survivors = (labelTexts rt survivors).eraseDups.take maxLabels := by
  rw [firstLabels, FirstSeen.eraseDups_filter]
  apply FirstSeen.take_filter_of_take
  intro text htext
  cases text with
  | nil => exact absurd htext hblank
  | cons c text => rfl

theorem firstLabels_blank
    (h : (labelTexts rt survivors).eraseDups.take maxLabels = [] ∨
      (labelTexts rt survivors).eraseDups.take maxLabels = [[]]) :
    firstLabels rt survivors = [] := by
  have hall : (labelTexts rt survivors).eraseDups.length ≤ maxLabels := by
    by_contra hlong
    have hlength : ((labelTexts rt survivors).eraseDups.take maxLabels).length = maxLabels :=
      List.length_take_of_le (not_le.mp hlong).le
    rcases h with h | h <;> rw [h] at hlength <;> cases hlength
  rw [List.take_of_length_le hall] at h
  rw [firstLabels, FirstSeen.eraseDups_filter]
  rcases h with h | h <;> rw [h] <;> rfl

theorem labels_read_back_iff (hselect : selectIndicators rt settings now node = .ok survivors)
    (h : buildPayload rt settings now node value kind matchType = .ok (some payload)) :
    LabelsReadBack rt survivors payload ↔ PlainLabels rt survivors := by
  rw [LabelsReadBack, labels_buildPayload hselect h, joined_eq]
  by_cases hnone : (labelTexts rt survivors).eraseDups.take maxLabels = [] ∨
      (labelTexts rt survivors).eraseDups.take maxLabels = [[]]
  · rw [if_pos hnone]
    apply iff_of_true (firstLabels_blank hnone)
    constructor
    · rcases hnone with hnone | hnone <;> rw [hnone] <;> simp
    · intro hmem
      exact hnone.resolve_left (List.ne_nil_of_mem hmem)
  · rw [if_neg hnone]
    dsimp only
    have hne := (not_or.mp hnone).1
    constructor
    · intro hsplit
      -- A part of the field has no comma, and none of the first labels is blank.
      have hblank : [] ∉ (labelTexts rt survivors).eraseDups.take maxLabels := by
        intro hmem
        have hpart : [] ∈ firstLabels rt survivors := by
          rw [← hsplit, split_join_flatMap hne]
          exact List.mem_flatMap_of_mem hmem (List.mem_singleton_self _)
        have hfilter := List.mem_of_mem_take hpart
        rw [List.mem_eraseDups, List.mem_filter] at hfilter
        cases hfilter.2
      refine ⟨fun text htext => ?_, fun hmem => absurd hmem hblank⟩
      rw [← firstLabels_eq hblank, ← hsplit] at htext
      exact sep_not_mem_of_mem_split htext
    · intro hplain
      have hblank : [] ∉ (labelTexts rt survivors).eraseDups.take maxLabels := fun hmem =>
        hnone (.inr (hplain.blank hmem))
      rw [firstLabels_eq hblank]
      exact split_join hne hplain.comma

end Field

section Sample

def labelledIndicator (labels : List Str) : Json :=
  .obj [("objectLabel", .arr (labels.map fun label => .obj [("value", .str label)]))]

def labelledNode (labels : List Str) : Json :=
  .obj [("indicators", .obj [("edges", .arr [.obj [("node", labelledIndicator labels)]])])]

theorem select_labelledNode (labels : List Str) :
    selectIndicators sampleRuntime (sampleSettings 50000) 0 (labelledNode labels) =
      .ok [labelledIndicator labels] := rfl

/-- Two labels come back. -/
theorem labels_read_back_two :
    ∃ payload, buildPayload sampleRuntime (sampleSettings 50000) 0 (labelledNode ["x", " y"])
        "1.2.3.4" (.str "IPv4-Addr") "exact" = .ok (some payload) ∧
      LabelsReadBack sampleRuntime [labelledIndicator ["x", " y"]] payload := by
  have hbuild : buildPayload sampleRuntime (sampleSettings 50000) 0 (labelledNode ["x", " y"])
    "1.2.3.4" (.str "IPv4-Addr") "exact" = .ok (some _) := rfl
  refine ⟨_, hbuild, (labels_read_back_iff (select_labelledNode _) hbuild).mpr ⟨?_, ?_⟩⟩
  · decide
  · intro hmem
    exact absurd hmem (by decide)

/-- A label with a comma comes back as two. -/
theorem comma_label_splits :
    ¬ ∀ (rt : Runtime) (settings : Settings) (now : ℚ) (node : Json) (value : Str) (kind : Json)
      (matchType : Str) (survivors : List Json) (payload : Payload),
      selectIndicators rt settings now node = .ok survivors →
      buildPayload rt settings now node value kind matchType = .ok (some payload) →
        LabelsReadBack rt survivors payload := by
  intro hall
  have hbuild : buildPayload sampleRuntime (sampleSettings 50000) 0 (labelledNode ["a,b"])
    "1.2.3.4" (.str "IPv4-Addr") "exact" = .ok (some _) := rfl
  have hread := hall _ _ _ _ _ _ _ _ _ (select_labelledNode _) hbuild
  have hsplit : split ',' "a,b" =
    firstLabels sampleRuntime [labelledIndicator ["a,b"]] := hread
  exact absurd hsplit (by decide)

end Sample

end OpenctiLookup
