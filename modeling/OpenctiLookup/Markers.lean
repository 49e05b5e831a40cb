import OpenctiLookup.Defang
import OpenctiLookup.Python.FindLemmas

/-! The marker loop of `_defang`, one replacement at a time. A replacement cuts the text
at the marker when the lower case in front of it is no longer than the text, and behind
the whole marker when it is ahead of the text by as much. -/
namespace OpenctiLookup
open Python

def cutMarker (marker : Str × Str) (out : Str) (idx : ℕ) : Str :=
  out.take idx ++ marker.2 ++ out.drop (idx + marker.1.length)

section Found

variable {rt : Runtime} {marker : Str × Str} {out front found back : Str} {idx : ℕ}

/-- The first occurrence of a marker in a text, in any letter case. -/
structure Found (rt : Runtime) (marker out front found back : Str) : Prop where
  split : out = front ++ found ++ back
  spells : Spells rt found marker
  first : ¬ marker <:+: view rt front ++ marker.dropLast

theorem marker_chars : ∀ marker ∈ defangMarkers, isascii marker.1 = true ∧ 'i' ∉ marker.1 ∧
    marker.1 ≠ [] ∧ marker.1.head? ≠ some '\u0080' := by decide

theorem found_of_find (hmem : marker ∈ defangMarkers)
    (h : find marker.1 (rt.lower out) = some idx) :
    ∃ front found back, Found rt marker.1 out front found back ∧
      idx = front.length + ahead front := by
  obtain ⟨hascii, hi, hne, hhead⟩ := marker_chars marker hmem
  rw [find_lower rt hascii] at h
  obtain ⟨before, after, hview, rfl, hfirst⟩ := (find_eq_some_iff hne).mp h
  rw [List.append_assoc] at hview
  have hinside : ∀ c, (marker.1 ++ after).head? = some c → c ≠ '\u0080' := by
    rintro c hc rfl
    rw [List.head?_append_of_ne_nil _ hne] at hc
    exact hhead hc
  obtain ⟨front, rest, rfl, rfl, hrest⟩ := view_split rt hinside hview
  obtain ⟨found, back, rfl, hspells, -⟩ := spells_of_view hi hrest
  exact ⟨front, found, back, ⟨(List.append_assoc _ _ _).symm, hspells, hfirst⟩,
    length_view rt front⟩

theorem find_of_found (hmem : marker ∈ defangMarkers)
    (h : Found rt marker.1 out front found back) :
    find marker.1 (rt.lower out) = some (front.length + ahead front) := by
  obtain ⟨hascii, -, hne, -⟩ := marker_chars marker hmem
  rw [find_lower rt hascii, find_eq_some_iff hne]
  refine ⟨view rt front, view rt back, ?_, length_view rt front, h.first⟩
  rw [h.split, view_append, view_append, h.spells.view_eq]

theorem Found.length_eq (h : Found rt marker.1 out front found back) :
    found.length = marker.1.length := List.Forall₂.length_eq h.spells

/-- The lower case is less than a marker ahead: what is left of the marker no longer
spells it. -/
theorem cutMarker_of_lt (h : Found rt marker.1 out front found back)
    (hlt : ahead front < marker.1.length) :
    cutMarker marker out (front.length + ahead front) =
      front ++ found.take (ahead front) ++ marker.2 ++ back.drop (ahead front) := by
  have hlength := h.length_eq
  have htake : out.take (front.length + ahead front) = front ++ found.take (ahead front) := by
    rw [h.split, List.append_assoc, List.take_length_add_append, List.take_append_of_le_length]
    omega
  have hdrop : out.drop (front.length + ahead front + marker.1.length) =
      back.drop (ahead front) := by
    rw [h.split, ← hlength, show front.length + ahead front + found.length =
      (front ++ found).length + ahead front by rw [List.length_append]; omega,
      List.drop_length_add_append]
  rw [cutMarker, htake, hdrop]

theorem cutMarker_of_le (h : Found rt marker.1 out front found back)
    (hle : marker.1.length ≤ ahead front) :
    ∃ rest, cutMarker marker out (front.length + ahead front) = front ++ found ++ rest := by
  have hlength := h.length_eq
  have htake : out.take (front.length + ahead front) =
      front ++ found ++ back.take (ahead front - marker.1.length) := by
    rw [h.split, ← hlength, show front.length + ahead front =
      (front ++ found).length + (ahead front - found.length) by
        rw [List.length_append]; omega, List.take_length_add_append]
  rw [cutMarker, htake, List.append_assoc, List.append_assoc]
  exact ⟨_, rfl⟩

theorem ahead_take_iff (h : Found rt marker.1 out front found back) :
    ahead (out.take (front.length + ahead front)) < marker.1.length ↔
      ahead front < marker.1.length := by
  have hstarts : ahead (out.take (front.length + ahead front)) =
      ahead front + ahead ((found ++ back).take (ahead front)) := by
    rw [h.split, List.append_assoc, List.take_length_add_append, ahead_append]
  rw [hstarts]
  constructor
  · intro hlt
    omega
  · intro hlt
    have hfound : (found ++ back).take (ahead front) <+: found := by
      rw [List.take_append_of_le_length (by rw [h.length_eq]; omega)]
      exact List.take_prefix _ _
    have hnone : ahead ((found ++ back).take (ahead front)) ≤ ahead found :=
      hfound.sublist.count_le _
    rw [h.spells.ahead_eq] at hnone
    omega

end Found

section Loop

variable {rt : Runtime} {marker : Str × Str} {out text front found back : Str}

theorem repl_chars : ∀ marker ∈ defangMarkers,
    isascii marker.2 = true ∧ marker.2.map asciiLower = marker.2 := by decide

theorem view_repl (hmem : marker ∈ defangMarkers) : view rt marker.2 = marker.2 := by
  rw [view_of_isascii rt (repl_chars marker hmem).1, (repl_chars marker hmem).2]

/-- No marker ends inside its replacement. The schemes have a `t` where their markers
have an `x`, and nothing else is replaced by a text with the marker's last character. -/
theorem repl_ends : ∀ marker ∈ defangMarkers, ∀ c ∈ marker.1.getLast?.toList,
    c ∉ marker.2 ∨ 't' ∉ marker.1 ∧ (partition 't' marker.2).2.1 = true ∧
      c ∉ (partition 't' marker.2).1 ∧ ¬ marker.1 <:+: (partition 't' marker.2).2.2 := by decide

/-- A replacement in front of which there is no marker makes none up to its own end. -/
theorem not_infix_repl (hmem : marker ∈ defangMarkers) {before : Str}
    (hfirst : ¬ marker.1 <:+: before ++ marker.1.dropLast) {k : ℕ} (hk : k < marker.1.length) :
    ¬ marker.1 <:+: before ++ marker.1.take k ++ marker.2 := by
  obtain ⟨c, hc⟩ : ∃ c, marker.1.getLast? = some c :=
    ⟨_, List.getLast?_eq_some_getLast (marker_chars marker hmem).2.2.1⟩
  have hends := repl_ends marker hmem c (by simp [hc])
  have hwhole : marker.1.dropLast ++ [c] = marker.1 :=
    List.dropLast_append_getLast? c (by simp [hc])
  have hshort : ∀ right : Str, c ∉ right → ¬ marker.1 <:+: before ++ marker.1.take k ++ right := by
    intro right hright hin
    rw [← hwhole] at hin
    have hleft := infix_of_infix_append_last hright hin
    rw [hwhole] at hleft
    apply hfirst
    apply hleft.trans
    have hstarts : marker.1.take k <+: marker.1.dropLast := by
      rw [List.dropLast_eq_take]
      exact List.take_prefix_take_left (by omega)
    exact ((List.prefix_append_right_inj before).mpr hstarts).isInfix
  rcases hends with hends | ⟨ht, hfound, hleft, hright⟩
  · exact hshort marker.2 hends
  · rcases partition_eq 't' marker.2 with ⟨-, heq⟩ | ⟨left, right, hrepl, -, heq⟩
    · rw [heq] at hfound
      cases hfound
    · rw [heq] at hleft hright
      rw [hrepl, ← List.append_assoc]
      intro hin
      rcases infix_of_infix_append_cons ht hin with hin | hin
      · exact hshort left hleft hin
      · exact hright hin

theorem behind_lt (hmem : marker ∈ defangMarkers) (h : Found rt marker.1 out front found back)
    (hlt : ahead front < marker.1.length) {front' found' back' : Str}
    (hnext : Found rt marker.1 (cutMarker marker out (front.length + ahead front))
      front' found' back') : (view rt back').length < (view rt back).length := by
  have hview : view rt front ++ marker.1.take (ahead front) ++ marker.2 ++
      view rt (back.drop (ahead front)) = view rt front' ++ marker.1 ++ view rt back' := by
    have hsplit := congrArg (view rt) hnext.split
    rw [cutMarker_of_lt h hlt] at hsplit
    simpa [view_append, hnext.spells.view_eq, (h.spells.take _).view_eq, view_repl hmem]
      using hsplit
  have hdrop : (view rt (back.drop (ahead front))).length ≤ (view rt back).length := by
    have hwhole := congrArg (fun s => (view rt s).length) (List.take_append_drop (ahead front) back)
    simp only [view_append, List.length_append] at hwhole
    omega
  refine lt_of_lt_of_le ?_ hdrop
  by_contra hle
  rw [not_lt] at hle
  apply not_infix_repl hmem h.first hlt
  -- The next marker would end inside of what was just written.
  have hshort : view rt front' ++ marker.1 <+:
      view rt front ++ marker.1.take (ahead front) ++ marker.2 := by
    refine List.prefix_of_prefix_length_le ⟨_, rfl⟩ ⟨_, hview⟩ ?_
    have hlengths := congrArg List.length hview
    simp only [List.length_append] at hlengths ⊢
    omega
  exact (List.suffix_append _ _).isInfix.trans hshort.isInfix

theorem replaceMarker_none (h : find marker.1 (rt.lower out) = none) :
    rt.replaceMarker marker.1 marker.2 out = some out := by
  rw [Runtime.replaceMarker, h]

theorem replaceMarker_some {idx : ℕ} (h : find marker.1 (rt.lower out) = some idx) :
    rt.replaceMarker marker.1 marker.2 out =
      rt.replaceMarker marker.1 marker.2 (cutMarker marker out idx) := by
  rw [Runtime.replaceMarker, h]
  rfl

/-- The loop of a marker ends when at each of its replacements the lower case is less
than the marker ahead. The induction is on the text behind the marker. -/
theorem replaceMarker_returns (hmem : marker ∈ defangMarkers) (P : Str → Prop)
    (hstep : ∀ out idx, find marker.1 (rt.lower out) = some idx → P out →
      ahead (out.take idx) < marker.1.length ∧ P (cutMarker marker out idx)) (hout : P out) :
    ∃ text, rt.replaceMarker marker.1 marker.2 out = some text ∧
      find marker.1 (rt.lower text) = none ∧ P text := by
  have hmeasure : ∀ n out, P out →
      (∀ front found back, Found rt marker.1 out front found back → (view rt back).length < n) →
      ∃ text, rt.replaceMarker marker.1 marker.2 out = some text ∧
        find marker.1 (rt.lower text) = none ∧ P text := by
    intro n
    induction n with
    | zero =>
        intro out hout hbehind
        cases hfind : find marker.1 (rt.lower out) with
        | none => exact ⟨out, replaceMarker_none hfind, hfind, hout⟩
        | some idx =>
            obtain ⟨front, found, back, hfound, -⟩ := found_of_find hmem hfind
            exact absurd (hbehind _ _ _ hfound) (by omega)
    | succ n ih =>
        intro out hout hbehind
        cases hfind : find marker.1 (rt.lower out) with
        | none => exact ⟨out, replaceMarker_none hfind, hfind, hout⟩
        | some idx =>
            obtain ⟨front, found, back, hfound, rfl⟩ := found_of_find hmem hfind
            obtain ⟨hguard, hnext⟩ := hstep _ _ hfind hout
            have hlt := (ahead_take_iff hfound).mp hguard
            rw [replaceMarker_some hfind]
            apply ih _ hnext
            intro front' found' back' hfound'
            have hless := behind_lt hmem hfound hlt hfound'
            have hback := hbehind _ _ _ hfound
            omega
  apply hmeasure ((view rt out).length + 1) out hout
  intro front found back hfound
  have hlength := congrArg (fun s => (view rt s).length) hfound.split
  simp only [view_append, List.length_append] at hlength
  omega

theorem replaceMarker_diverges (hmem : marker ∈ defangMarkers)
    (h : Found rt marker.1 out front found back) (hle : marker.1.length ≤ ahead front) :
    rt.replaceMarker marker.1 marker.2 out = none := by
  rw [Option.eq_none_iff_forall_ne_some]
  intro text htext
  have hstays := replaceMarker_invariant
    (fun out => ∃ back, Found rt marker.1 out front found back) ?_ htext ⟨back, h⟩
  · obtain ⟨⟨back', hfound⟩, hnone⟩ := hstays
    rw [find_of_found hmem hfound] at hnone
    cases hnone
  · rintro out idx hfind ⟨back', hfound⟩
    rw [find_of_found hmem hfound] at hfind
    obtain rfl := Option.some.inj hfind
    obtain ⟨rest, hrest⟩ := cutMarker_of_le hfound hle
    exact ⟨rest, hrest, h.spells, h.first⟩

end Loop

section Lists

variable {rt : Runtime} {raw : Str}

theorem find_of_unmarked {out : Str} (hnone : ¬ defangMarkers.any
    (fun marker => isIn marker.1 (rt.lower out)) = true) :
    ∀ marker ∈ defangMarkers, find marker.1 (rt.lower out) = none := by
  intro marker hmem
  rw [List.any_eq_true] at hnone
  rw [← Option.isNone_iff_eq_none, ← Option.isSome_eq_false_iff, ← Bool.not_eq_true]
  exact fun hin => hnone ⟨marker, hmem, hin⟩

theorem replaceMarkers_of_none {markers : List (Str × Str)} {out : Str}
    (h : ∀ marker ∈ markers, find marker.1 (rt.lower out) = none) :
    replaceMarkers rt markers out = some out := by
  induction markers with
  | nil => rfl
  | cons marker rest ih =>
      have hhere : rt.replaceMarker marker.1 marker.2 out = some out :=
        replaceMarker_none (h marker List.mem_cons_self)
      rw [replaceMarkers, hhere]
      exact ih fun other hother => h other (List.mem_cons_of_mem _ hother)

theorem defang_eq : defang rt raw =
    (replaceMarkers rt defangMarkers (stripChars stripSet (strip raw))).map
      (stripChars stripSet) := by
  unfold defang
  extract_lets out lowered replaced
  apply congrArg
  by_cases hany : defangMarkers.any (fun marker => isIn marker.1 lowered) = true
  · exact if_pos hany
  · exact (if_neg hany).trans (replaceMarkers_of_none (find_of_unmarked hany)).symm

end Lists

end OpenctiLookup
