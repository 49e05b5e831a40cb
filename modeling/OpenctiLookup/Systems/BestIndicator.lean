import Mathlib.Data.Char
import OpenctiLookup.Opencti.TypedPayload

/-! The verdict on an observable: a hit when an indicator survives the policy and the
minimum score, and then the fields of the best one. -/
namespace OpenctiLookup
open Python

section Order

theorem strLe_total (s t : Str) : strLe s t = true ∨ strLe t s = true := by
  induction s generalizing t with
  | nil => exact .inl rfl
  | cons c s ih =>
      cases t with
      | nil => exact .inr rfl
      | cons d t =>
          simp only [strLe]
          by_cases hcd : c = d
          · subst hcd
            simpa using ih t
          · simp only [if_neg hcd, if_neg (Ne.symm hcd), decide_eq_true_eq]
            exact lt_or_gt_of_ne hcd

theorem strLe_trans {s t u : Str} (hst : strLe s t = true) (htu : strLe t u = true) :
    strLe s u = true := by
  induction s generalizing t u with
  | nil => rfl
  | cons c s ih =>
      cases t with
      | nil => cases hst
      | cons d t =>
          cases u with
          | nil => cases htu
          | cons e u =>
              simp only [strLe] at hst htu ⊢
              by_cases hcd : c = d
              · subst hcd
                rw [if_pos rfl] at hst
                by_cases hce : c = e
                · rw [if_pos hce] at htu ⊢
                  exact ih hst htu
                · rwa [if_neg hce] at htu ⊢
              · rw [if_neg hcd, decide_eq_true_eq] at hst
                by_cases hde : d = e
                · subst hde
                  simpa [hcd] using hst
                · rw [if_neg hde, decide_eq_true_eq] at htu
                  have hlt := hst.trans htu
                  simpa [hlt.ne] using hlt

namespace Rank

theorem le_total (a b : Rank) : a.le b = true ∨ b.le a = true := by
  unfold Rank.le
  by_cases hexpired : a.expired = b.expired
  · rw [if_pos hexpired, if_pos hexpired.symm]
    by_cases hscore : a.negScore = b.negScore
    · rw [if_pos hscore, if_pos hscore.symm]
      exact strLe_total _ _
    · rw [if_neg hscore, if_neg (Ne.symm hscore), decide_eq_true_eq, decide_eq_true_eq]
      omega
  · rw [if_neg hexpired, if_neg (Ne.symm hexpired)]
    cases hone : a.expired <;> cases htwo : b.expired <;> simp_all

theorem le_trans {a b c : Rank} (hab : a.le b = true) (hbc : b.le c = true) : a.le c = true := by
  unfold Rank.le at *
  by_cases hexpired : a.expired = b.expired
  · rw [if_pos hexpired] at hab
    rw [hexpired]
    by_cases hnext : b.expired = c.expired
    · rw [if_pos hnext] at hbc ⊢
      by_cases hscore : a.negScore = b.negScore
      · rw [if_pos hscore] at hab
        rw [hscore]
        by_cases hmore : b.negScore = c.negScore
        · rw [if_pos hmore] at hbc ⊢
          exact strLe_trans hab hbc
        · rwa [if_neg hmore] at hbc ⊢
      · rw [if_neg hscore, decide_eq_true_eq] at hab
        by_cases hmore : b.negScore = c.negScore
        · rw [if_neg (hmore ▸ hscore), decide_eq_true_eq]
          omega
        · rw [if_neg hmore, decide_eq_true_eq] at hbc
          rw [if_neg (by omega), decide_eq_true_eq]
          omega
    · rwa [if_neg hnext] at hbc ⊢
  · rw [if_neg hexpired] at hab
    by_cases hnext : b.expired = c.expired
    · rwa [if_neg (hnext ▸ hexpired)]
    · rw [if_neg hnext] at hbc
      cases hone : a.expired <;> cases htwo : b.expired <;> simp_all

theorem le_iff_of_expired {a b : Rank} (h : a.le b = true) :
    (b.expired = false → a.expired = false) ∧
      (a.expired = b.expired → a.negScore ≤ b.negScore) := by
  unfold Rank.le at h
  by_cases hexpired : a.expired = b.expired
  · rw [if_pos hexpired] at h
    refine ⟨fun hlive => hexpired.trans hlive, fun _ => ?_⟩
    by_cases hscore : a.negScore = b.negScore
    · exact hscore.le
    · rw [if_neg hscore, decide_eq_true_eq] at h
      exact h.le
  · rw [if_neg hexpired] at h
    exact ⟨fun _ => by simpa using h, fun hsame => absurd hsame hexpired⟩

end Rank

end Order

section Verdict

variable {rt : Runtime} (settings : Settings) (now : ℚ) (observable : Observable rt)

namespace Observable

def survivors : List (Indicator rt) :=
  observable.indicators.filter fun indicator => indicator.survives settings now

/-- Those of them that are not expired, or all when all are. -/
def contenders : List (Indicator rt) :=
  if (observable.survivors settings now).all (Indicator.expired now) then
    observable.survivors settings now
  else (observable.survivors settings now).filter fun indicator => !indicator.expired now

variable {settings now observable} {primary : Indicator rt} {asked shown matchType kind : Str}

theorem ranked_perm : (observable.ranked settings now).Perm (observable.survivors settings now) :=
  List.perm_insertionSort _ _

theorem rank_le_of_head (h : (observable.ranked settings now).head? = some primary)
    {other : Indicator rt} (hother : other ∈ observable.survivors settings now) :
    (primary.rankOf now).le (other.rankOf now) = true := by
  let front := fun a b : Indicator rt => (a.rankOf now).le (b.rankOf now) = true
  have : Std.Total front := ⟨fun a b => Rank.le_total _ _⟩
  have : IsTrans (Indicator rt) front := ⟨fun a b c => Rank.le_trans⟩
  have hsorted := List.pairwise_insertionSort front (observable.survivors settings now)
  change (observable.ranked settings now).Pairwise front at hsorted
  have hmem := ranked_perm.mem_iff.mpr hother
  cases hranked : observable.ranked settings now with
  | nil => simp [hranked] at h
  | cons best rest =>
      rw [hranked] at h hsorted hmem
      obtain rfl : best = primary := Option.some.inj h
      rcases List.mem_cons.mp hmem with rfl | hmem
      · exact (Rank.le_total _ _).elim (fun hle => hle) fun hle => hle
      · exact (List.pairwise_cons.mp hsorted).1 other hmem

/-- It is expired only when all are, and has the highest score of the contenders. -/
theorem best_of_head (h : (observable.ranked settings now).head? = some primary) :
    (observable.survivors settings now).all (Indicator.expired now) = primary.expired now ∧
      primary ∈ observable.contenders settings now ∧
        ∀ other ∈ observable.contenders settings now,
          other.score.getD 0 ≤ primary.score.getD 0 := by
  have hmem : primary ∈ observable.survivors settings now :=
    ranked_perm.mem_iff.mp (List.mem_of_head? h)
  have hfront : ∀ other ∈ observable.survivors settings now,
      (other.expired now = false → primary.expired now = false) ∧
        (primary.expired now = other.expired now →
          other.score.getD 0 ≤ primary.score.getD 0) := by
    intro other hother
    obtain ⟨hlive, hscore⟩ := Rank.le_iff_of_expired (rank_le_of_head h hother)
    refine ⟨hlive, fun hsame => ?_⟩
    have hle := hscore hsame
    simp only [Indicator.rankOf] at hle
    omega
  have hall : (observable.survivors settings now).all (Indicator.expired now) =
      primary.expired now := by
    rw [Bool.eq_iff_iff, List.all_eq_true]
    refine ⟨fun hevery => hevery primary hmem, fun hexpired other hother => ?_⟩
    by_contra hlive
    have := (hfront other hother).1 (by simpa using hlive)
    rw [this] at hexpired
    cases hexpired
  refine ⟨hall, ?_, ?_⟩
  · unfold contenders
    rw [hall]
    cases hexpired : primary.expired now <;> simp [hmem, hexpired]
  · intro other hother
    unfold contenders at hother
    rw [hall] at hother
    cases hexpired : primary.expired now with
    | true =>
        rw [hexpired, if_pos rfl] at hother
        rw [hexpired] at hall
        apply (hfront other hother).2
        rw [hexpired, List.all_eq_true.mp hall other hother]
    | false =>
        rw [hexpired, if_neg (by simp)] at hother
        obtain ⟨hother, hlive⟩ := List.mem_filter.mp hother
        apply (hfront other hother).2
        rw [hexpired]
        simpa using hlive.symm

theorem get_present {fields : List (Str × Option Str)} (hkeys : (fields.map Prod.fst).Nodup)
    {key : Str} {text : Option Str} (hmem : (key, text) ∈ fields) :
    (present fields).get key = text := by
  induction fields with
  | nil => cases hmem
  | cons entry fields ih =>
      rw [List.map_cons, List.nodup_cons] at hkeys
      obtain ⟨other, value⟩ := entry
      have hcons : present ((other, value) :: fields) =
          (value.map fun text => (other, text)).toList ++ present fields := by
        cases value <;> rfl
      rw [hcons, Payload.get, List.lookup_append]
      rcases List.mem_cons.mp hmem with heq | hrest
      · cases heq
        cases text with
        | some value => simp
        | none =>
            simp only [Option.map_none, Option.toList_none, List.lookup_nil, Option.none_or]
            rw [List.lookup_eq_none_iff]
            intro e he
            rw [bne_iff_ne]
            rintro rfl
            exact hkeys.1 (mem_keys_of_mem_present he)
      · have hne : key ≠ other := by
          rintro rfl
          exact hkeys.1 (List.mem_map.mpr ⟨(key, text), hrest, rfl⟩)
        have hskip : ((value.map fun text => (other, text)).toList).lookup key = none := by
          cases value with
          | none => rfl
          | some value => simp [List.lookup_cons, beq_eq_false_iff_ne.mpr hne]
        rw [hskip, Option.none_or]
        exact ih hkeys.2 hrest

theorem keys_fieldsAs :
    (observable.fieldsAs settings now primary asked shown matchType kind).map Prod.fst =
      payloadKeys := rfl

theorem nodup_payloadKeys : payloadKeys.Nodup := by decide

theorem nodup_present {fields : List (Str × Option Str)} (hkeys : (fields.map Prod.fst).Nodup) :
    ((present fields).map Prod.fst).Nodup := by
  apply List.Nodup.sublist _ hkeys
  induction fields with
  | nil => exact .slnil
  | cons entry fields ih =>
      have ih := ih (List.nodup_cons.mp hkeys).2
      obtain ⟨key, text⟩ := entry
      cases text with
      | none => exact .cons _ ih
      | some text => exact .cons_cons _ ih

end Observable

/-- What the payload says, with the id, score and validity of the indicator it is built
from. -/
structure Reported (primary : Indicator rt) (payload : Payload) : Prop where
  keys : (payload.map Prod.fst).Nodup
  found : payload.get "found" = some "true".toList
  expired : payload.get "expired" =
    some (boolText ((observable.survivors settings now).all (Indicator.expired now)))
  count : payload.get "indicator_count" =
    some (decimal (observable.survivors settings now).length)
  score : payload.get "score" = boundedText rt (.ofOption .int primary.score) maxTextLen
  validFrom : payload.get "valid_from" =
    boundedText rt (.ofOption (fun t => .str t.text) primary.validFrom) maxTextLen
  validUntil : payload.get "valid_until" =
    boundedText rt (.ofOption (fun t => .str t.text) primary.validUntil) maxTextLen
  id : payload.get "opencti_url" = if primary.id.isEmpty then none
    else some (settings.openctiUrl ++ "/dashboard/observations/indicators/" ++ primary.id)

/-- `build_payload` makes a payload of the observable. -/
def IsHit (value kind matchType : Str) : Prop :=
  ∃ payload, buildPayload rt settings now observable.toJson value (.str kind) matchType =
    .ok (some payload)

variable {settings now observable} {value kind matchType : Str} {primary : Indicator rt}

theorem reported_present (h : (observable.ranked settings now).head? = some primary) :
    Reported settings now observable primary
      (Observable.present
        (observable.fieldsAs settings now primary value value matchType kind)) := by
  have hkeys : ((observable.fieldsAs settings now primary value value matchType kind).map
      Prod.fst).Nodup := by
    rw [Observable.keys_fieldsAs]
    exact Observable.nodup_payloadKeys
  have hget : ∀ {key : Str} {text : Option Str} (n : ℕ),
      (observable.fieldsAs settings now primary value value matchType kind)[n]? =
        some (key, text) →
      (Observable.present (observable.fieldsAs settings now primary value value matchType
        kind)).get key = text := fun n hn =>
    Observable.get_present hkeys (List.mem_of_getElem? hn)
  have hexpired := hget 7 rfl
  have hcount := hget 12 rfl
  rw [← (Observable.best_of_head h).1] at hexpired
  rw [Observable.ranked_perm.length_eq] at hcount
  exact ⟨Observable.nodup_present hkeys, hget 0 rfl, hexpired, hcount, hget 4 rfl, hget 9 rfl,
    hget 10 rfl, hget 21 rfl⟩

theorem isHit_iff : IsHit settings now observable value kind matchType ↔
    ∃ indicator ∈ observable.indicators, indicator.survives settings now = true := by
  unfold IsHit
  rw [Observable.buildPayload_kind]
  cases hranked : observable.ranked settings now with
  | nil =>
      have hempty : observable.survivors settings now = [] := by
        rw [← List.length_eq_zero_iff, ← Observable.ranked_perm.length_eq, hranked]
        rfl
      apply iff_of_false
      · rintro ⟨payload, hpayload⟩
        cases hpayload
      · rintro ⟨indicator, hmem, hsurvives⟩
        have hin : indicator ∈ observable.survivors settings now :=
          List.mem_filter.mpr ⟨hmem, hsurvives⟩
        rw [hempty] at hin
        cases hin
  | cons primary rest =>
      apply iff_of_true ⟨_, rfl⟩
      have hin : primary ∈ observable.survivors settings now :=
        Observable.ranked_perm.mem_iff.mp (by simp [hranked])
      exact ⟨primary, (List.mem_filter.mp hin).1, (List.mem_filter.mp hin).2⟩

theorem isHit_mono {other : Settings} (h : IsHit settings now observable value kind matchType)
    (hmono : ∀ indicator : Indicator rt, indicator.survives settings now = true →
      indicator.survives other now = true) : IsHit other now observable value kind matchType := by
  rw [isHit_iff] at h ⊢
  obtain ⟨indicator, hmem, hsurvives⟩ := h
  exact ⟨indicator, hmem, hmono indicator hsurvives⟩

/-- A miss exactly when no indicator passes the policy with the minimum score; else the
payload of a best one. A stricter policy or a higher minimum score makes no hit. -/
theorem build_payload_reports (settings : Settings) (now : ℚ) (observable : Observable rt)
    (value kind matchType : Str) :
    (buildPayload rt settings now observable.toJson value (.str kind) matchType = .ok none ↔
      ∀ indicator ∈ observable.indicators, ¬ (indicator.passes settings now = true ∧
        settings.minScore ≤ indicator.score.getD 0)) ∧
    ((∃ indicator ∈ observable.indicators, indicator.passes settings now = true ∧
        settings.minScore ≤ indicator.score.getD 0) →
      ∃ payload, buildPayload rt settings now observable.toJson value (.str kind) matchType =
        .ok (some payload) ∧
          ∃ primary ∈ observable.contenders settings now,
            (∀ other ∈ observable.contenders settings now,
              other.score.getD 0 ≤ primary.score.getD 0) ∧
            Reported settings now observable primary payload) ∧
    (IsHit { settings with hitPolicy := .liveOnly } now observable value kind matchType →
      IsHit { settings with hitPolicy := .expiryAware } now observable value kind matchType) ∧
    (IsHit { settings with hitPolicy := .expiryAware } now observable value kind matchType →
      IsHit { settings with hitPolicy := .all } now observable value kind matchType) ∧
    ∀ higher, settings.minScore ≤ higher →
      IsHit { settings with minScore := higher } now observable value kind matchType →
        IsHit settings now observable value kind matchType := by
  have hsurvives : ∀ indicator : Indicator rt, indicator.survives settings now = true ↔
      indicator.passes settings now = true ∧ settings.minScore ≤ indicator.score.getD 0 := by
    intro indicator
    rw [Indicator.survives, Bool.and_eq_true, decide_eq_true_eq]
  have hhit : IsHit settings now observable value kind matchType ↔
      ∃ indicator ∈ observable.indicators, indicator.passes settings now = true ∧
        settings.minScore ≤ indicator.score.getD 0 := by
    rw [isHit_iff]
    simp only [hsurvives]
  have hbuilt := observable.buildPayload_kind settings now value matchType kind
  refine ⟨?_, ?_, ?_, ?_, ?_⟩
  · have hnone : ¬ IsHit settings now observable value kind matchType ↔
        ∀ indicator ∈ observable.indicators, ¬ (indicator.passes settings now = true ∧
          settings.minScore ≤ indicator.score.getD 0) := by
      rw [hhit]
      simp only [not_exists, not_and]
    rw [← hnone, IsHit, hbuilt]
    cases (observable.ranked settings now).head? with
    | none => simp
    | some primary => simp
  · intro hsome
    obtain ⟨payload, hpayload⟩ := hhit.mpr hsome
    refine ⟨payload, hpayload, ?_⟩
    rw [hbuilt] at hpayload
    obtain ⟨primary, hhead, rfl⟩ := Option.map_eq_some_iff.mp (Except.ok.inj hpayload)
    obtain ⟨-, hmem, hbest⟩ := Observable.best_of_head hhead
    exact ⟨primary, hmem, hbest, reported_present hhead⟩
  · refine fun h => isHit_mono h fun indicator => ?_
    simp only [Indicator.survives, Indicator.passes, Bool.and_eq_true, Bool.or_eq_true]
    exact fun hpass => ⟨.inl hpass.1, hpass.2⟩
  · refine fun h => isHit_mono h fun indicator => ?_
    simp only [Indicator.survives, Indicator.passes, Bool.and_eq_true]
    exact fun hpass => ⟨trivial, hpass.2⟩
  · refine fun higher hle h => isHit_mono h fun indicator => ?_
    simp only [Indicator.survives, Indicator.passes, Bool.and_eq_true, decide_eq_true_eq]
    exact fun hpass => ⟨hpass.1, hle.trans hpass.2⟩

end Verdict

end OpenctiLookup
