import Mathlib.Data.List.Infix
import OpenctiLookup.Markers

/-! The marker loop on ASCII text, where a text and its lower case have the same places.
It ends, works on either side of a separator by itself, and shortens what it changes. -/
namespace OpenctiLookup
open Python

section Ascii

variable {rt : Runtime} {s t : Str}

@[simp] theorem isascii_append : isascii (s ++ t) = true ↔ isascii s = true ∧ isascii t = true := by
  simp [isascii]

@[simp] theorem isascii_cons {c : Char} :
    isascii (c :: s) = true ↔ isAscii c = true ∧ isascii s = true := by
  simp [isascii]

theorem ahead_of_isascii (h : isascii s = true) : ahead s = 0 := by
  apply List.count_eq_zero_of_not_mem
  intro hmem
  exact absurd (List.all_eq_true.mp h _ hmem) (by decide)

theorem spells_of_map (h : isascii s = true) : Spells rt s (s.map asciiLower) := by
  induction s with
  | nil => exact .nil
  | cons c s ih =>
      rw [isascii_cons] at h
      have hhead : view rt [c] = [asciiLower c] := view_of_isascii rt (by simpa [isascii] using h.1)
      exact .cons (by simpa [view] using hhead) (ih h.2)

theorem map_of_spells {found marker : Str} (h : Spells rt found marker)
    (hascii : isascii found = true) : found.map asciiLower = marker := by
  rw [← view_of_isascii rt hascii, h.view_eq]

end Ascii

section Steps

variable {rt : Runtime} {marker : Str × Str} {out text front found back : Str}

theorem isascii_cut (hmem : marker ∈ defangMarkers) (h : isascii (front ++ found ++ back) = true) :
    isascii (front ++ marker.2 ++ back) = true := by
  simp only [isascii_append] at h ⊢
  exact ⟨⟨h.1.1, (repl_chars marker hmem).1⟩, h.2⟩

theorem replaceMarker_found (hmem : marker ∈ defangMarkers) (hascii : isascii out = true)
    (h : Found rt marker.1 out front found back) :
    rt.replaceMarker marker.1 marker.2 out =
      rt.replaceMarker marker.1 marker.2 (front ++ marker.2 ++ back) := by
  have hlevel : ahead front = 0 := by
    rw [h.split, isascii_append, isascii_append] at hascii
    exact ahead_of_isascii hascii.1.1
  have hpos : 0 < marker.1.length := List.length_pos_iff.mpr (marker_chars marker hmem).2.2.1
  rw [replaceMarker_some (find_of_found hmem h), cutMarker_of_lt h (by omega), hlevel]
  simp

theorem replaceMarker_absent (hmem : marker ∈ defangMarkers) (hascii : isascii out = true)
    (h : ¬ marker.1 <:+: out.map asciiLower) :
    rt.replaceMarker marker.1 marker.2 out = some out := by
  apply replaceMarker_none
  rw [find_lower rt (marker_chars marker hmem).1, find_eq_none_iff, view_of_isascii rt hascii]
  exact h

/-- What holds of a text without the marker and is kept by each replacement holds of the
result. -/
theorem replaceMarker_induction (hmem : marker ∈ defangMarkers) {motive : Str → Str → Prop}
    (done : ∀ out, isascii out = true → ¬ marker.1 <:+: out.map asciiLower → motive out out)
    (step : ∀ front found back text, isascii (front ++ found ++ back) = true →
      Found rt marker.1 (front ++ found ++ back) front found back →
        motive (front ++ marker.2 ++ back) text → motive (front ++ found ++ back) text)
    (hascii : isascii out = true) (h : rt.replaceMarker marker.1 marker.2 out = some text) :
    motive out text := by
  refine Runtime.replaceMarker.partial_correctness rt marker.1 marker.2
    (fun out text => isascii out = true → motive out text) ?_ out text h hascii
  intro replaceMarker ih out text h hascii
  split at h
  · rename_i hnone
    cases h
    apply done out hascii
    rwa [find_lower rt (marker_chars marker hmem).1, find_eq_none_iff,
      view_of_isascii rt hascii] at hnone
  · rename_i idx hfind
    obtain ⟨front, found, back, hfound, rfl⟩ := found_of_find hmem hfind
    obtain rfl := hfound.split
    have hcut := isascii_cut hmem hascii
    have hlevel : ahead front = 0 := by
      simp only [isascii_append] at hascii
      exact ahead_of_isascii hascii.1.1
    have hpos : 0 < marker.1.length := List.length_pos_iff.mpr (marker_chars marker hmem).2.2.1
    have hnext := cutMarker_of_lt hfound (by omega)
    rw [cutMarker, hlevel, List.take_zero, List.append_nil, List.drop_zero] at hnext
    rw [hlevel, hnext] at h
    exact step front found back text hascii hfound (ih _ _ h hcut)

variable (rt) in
theorem replaceMarker_ascii (hmem : marker ∈ defangMarkers) (hascii : isascii out = true) :
    ∃ text, rt.replaceMarker marker.1 marker.2 out = some text ∧ isascii text = true := by
  have hstep : ∀ out idx, find marker.1 (rt.lower out) = some idx → isascii out = true →
      ahead (out.take idx) < marker.1.length ∧ isascii (cutMarker marker out idx) = true := by
    intro out idx _ hascii
    have htake : isascii (out.take idx) = true := List.all_eq_true.mpr fun c hc =>
      List.all_eq_true.mp hascii c (List.mem_of_mem_take hc)
    have hdrop : isascii (out.drop (idx + marker.1.length)) = true := List.all_eq_true.mpr
      fun c hc => List.all_eq_true.mp hascii c (List.mem_of_mem_drop hc)
    have hpos : 0 < marker.1.length := List.length_pos_iff.mpr (marker_chars marker hmem).2.2.1
    rw [ahead_of_isascii htake, cutMarker]
    exact ⟨hpos, by simp [htake, hdrop, (repl_chars marker hmem).1]⟩
  obtain ⟨text, htext, -, htextAscii⟩ :=
    replaceMarker_returns hmem (fun out => isascii out = true) hstep hascii
  exact ⟨text, htext, htextAscii⟩

theorem Found.append_right (h : Found rt marker.1 out front found back) (rest : Str) :
    Found rt marker.1 (out ++ rest) front found (back ++ rest) :=
  ⟨by rw [h.split, List.append_assoc], h.spells, h.first⟩

theorem Found.append_left (h : Found rt marker.1 out front found back) (left : Str)
    (hfirst : ¬ marker.1 <:+: view rt left ++ (view rt front ++ marker.1.dropLast)) :
    Found rt marker.1 (left ++ out) (left ++ front) found back :=
  ⟨by rw [h.split]; simp, h.spells, by rwa [view_append, List.append_assoc]⟩

end Steps

section Frame

variable {rt : Runtime} {marker : Str × Str} {left left' right right' front : Str} {c : Char}

/-- On either side of a character the marker does not have, the loop works by itself. -/
theorem replaceMarker_separated (hmem : marker ∈ defangMarkers) (hc : isAscii c = true)
    (hsep : asciiLower c ∉ marker.1) (hleft : isascii left = true) (hright : isascii right = true)
    (hleft' : rt.replaceMarker marker.1 marker.2 left = some left')
    (hright' : rt.replaceMarker marker.1 marker.2 right = some right') :
    rt.replaceMarker marker.1 marker.2 (left ++ c :: right) = some (left' ++ c :: right') := by
  have hbehind : ∀ left right right', isascii left = true → ¬ marker.1 <:+: left.map asciiLower →
      isascii right = true → rt.replaceMarker marker.1 marker.2 right = some right' →
        rt.replaceMarker marker.1 marker.2 (left ++ c :: right) = some (left ++ c :: right') := by
    intro left right right' hleft hnone hright hright'
    refine replaceMarker_induction hmem (motive := fun right right' =>
      rt.replaceMarker marker.1 marker.2 (left ++ c :: right) = some (left ++ c :: right'))
      (fun right hascii hnone' => ?_) (fun front found back text hascii hfound ih => ?_)
      hright hright'
    · apply replaceMarker_absent hmem (by simp [hleft, hc, hascii])
      rw [List.map_append, List.map_cons]
      intro hin
      rcases infix_of_infix_append_cons hsep hin with hin | hin
      · exact hnone hin
      · exact hnone' hin
    · have hwhole := hfound.append_left (left ++ [c]) fun hin => by
        rw [view_of_isascii rt (by simpa [isascii] using ⟨List.all_eq_true.mp hleft, hc⟩),
          List.map_append, List.append_assoc] at hin
        rcases infix_of_infix_append_cons hsep hin with hin | hin
        · exact hnone hin
        · exact hfound.first hin
      rw [List.append_assoc] at hwhole
      rw [← List.singleton_append,
        replaceMarker_found hmem (by simpa [hleft, hc] using hascii) hwhole]
      simpa using ih
  refine replaceMarker_induction hmem (motive := fun left left' =>
    rt.replaceMarker marker.1 marker.2 (left ++ c :: right) = some (left' ++ c :: right'))
    (fun left hascii hnone => hbehind left right right' hascii hnone hright hright')
    (fun front found back text hascii hfound ih => ?_) hleft hleft'
  rw [replaceMarker_found hmem (isascii_append.mpr ⟨hascii, isascii_cons.mpr ⟨hc, hright⟩⟩)
    (hfound.append_right _)]
  simpa using ih

def Clear (marker front : Str) : Prop :=
  ∀ rest ∈ (front.map asciiLower).tails, rest ≠ [] → ¬ rest <+: marker ∧ ¬ marker <+: rest

instance (marker front : Str) : Decidable (Clear marker front) :=
  inferInstanceAs (Decidable (∀ rest ∈ (front.map asciiLower).tails, _))

theorem clear_of_head {marker : Str} (hne : marker ≠ [])
    (h : ∀ c, marker.head? = some c → c ∉ front.map asciiLower) : Clear marker front := by
  intro rest hrest hne'
  obtain ⟨c, rest, rfl⟩ := List.exists_cons_of_ne_nil hne'
  obtain ⟨d, marker, rfl⟩ := List.exists_cons_of_ne_nil hne
  have hcd : c ≠ d := by
    rintro rfl
    exact h c rfl (((List.mem_tails _ _).mp hrest).subset List.mem_cons_self)
  constructor
  · intro hstarts
    exact hcd (List.cons_prefix_cons.mp hstarts).1
  · intro hstarts
    exact hcd (List.cons_prefix_cons.mp hstarts).1.symm

theorem Clear.behind {marker rest : Str} (hclear : Clear marker front)
    (h : marker <:+: front.map asciiLower ++ rest) : marker <:+: rest := by
  obtain ⟨start, hstarts, hsuffix⟩ := List.infix_iff_prefix_suffix.mp h
  rcases List.suffix_or_suffix_of_suffix hsuffix (List.suffix_append _ rest) with hin | hin
  · exact hstarts.isInfix.trans hin.isInfix
  · obtain ⟨piece, rfl⟩ := hin
    by_cases hne : piece = []
    · rw [hne] at hstarts
      exact hstarts.isInfix
    · have hpiece := List.suffix_append_self_iff.mp hsuffix
      have hnot := hclear piece ((List.mem_tails _ _).mpr hpiece) hne
      rcases List.prefix_or_prefix_of_prefix hstarts (List.prefix_append piece rest) with hin | hin
      · exact absurd hin hnot.2
      · exact absurd hin hnot.1

theorem Clear.append {marker : Str} (hleft : Clear marker left) (hright : Clear marker right) :
    Clear marker (left ++ right) := by
  intro rest hrest hne
  rw [List.map_append, List.mem_tails] at hrest
  rcases List.suffix_or_suffix_of_suffix hrest (List.suffix_append _ (right.map asciiLower)) with
    hin | ⟨piece, rfl⟩
  · exact hright rest ((List.mem_tails _ _).mpr hin) hne
  · have hpiece := List.suffix_append_self_iff.mp hrest
    by_cases hnil : piece = []
    · rw [hnil, List.nil_append] at hne ⊢
      exact hright _ ((List.mem_tails _ _).mpr List.suffix_rfl) hne
    · -- What starts in the left part is no start of the marker, and the marker none of it.
      have hnot := hleft piece ((List.mem_tails _ _).mpr hpiece) hnil
      refine ⟨fun hstarts => hnot.1 ((List.prefix_append _ _).trans hstarts), fun hstarts => ?_⟩
      rcases List.prefix_or_prefix_of_prefix hstarts (List.prefix_append piece _) with hin | hin
      · exact hnot.2 hin
      · exact hnot.1 hin

/-- A marker that is not in a text does not start there, when what follows has none of its
characters. -/
theorem clear_of_absent {marker : Str} (hright : right ≠ [])
    (hfree : ∀ c ∈ right.map asciiLower, c ∉ marker) (habsent : ¬ marker <:+: left.map asciiLower) :
    Clear marker (left ++ right) := by
  intro rest hrest hne
  rw [List.map_append, List.mem_tails] at hrest
  constructor
  · intro hstarts
    have hlast := List.getLast_mem hne
    have hend : rest.getLast hne ∈ right.map asciiLower := by
      have hlasts := hrest.getLast hne
      rw [hlasts, List.getLast_append_of_right_ne_nil _ _ (by simpa using hright)]
      exact List.getLast_mem _
    exact hfree _ hend (hstarts.subset hlast)
  · intro hstarts
    apply habsent
    apply infix_of_last (hstarts.isInfix.trans hrest.isInfix)
    exact fun c hc hmem => hfree c hmem (List.mem_of_getLast? hc)

theorem replaceMarker_clear (hmem : marker ∈ defangMarkers) (hclear : Clear marker.1 front)
    (hfront : isascii front = true) (hright : isascii right = true)
    (hright' : rt.replaceMarker marker.1 marker.2 right = some right') :
    rt.replaceMarker marker.1 marker.2 (front ++ right) = some (front ++ right') := by
  refine replaceMarker_induction hmem (motive := fun right right' =>
    rt.replaceMarker marker.1 marker.2 (front ++ right) = some (front ++ right'))
    (fun right hascii hnone => ?_) (fun before found back text hascii hfound ih => ?_)
    hright hright'
  · apply replaceMarker_absent hmem (isascii_append.mpr ⟨hfront, hascii⟩)
    rw [List.map_append]
    exact fun hin => hnone (hclear.behind hin)
  · have hwhole := hfound.append_left front fun hin => by
      rw [view_of_isascii rt hfront] at hin
      exact hfound.first (hclear.behind hin)
    rw [replaceMarker_found hmem (isascii_append.mpr ⟨hfront, hascii⟩) hwhole]
    simpa using ih

theorem replaceMarker_here (hmem : marker ∈ defangMarkers) (hfound : isascii left = true)
    (hspells : left.map asciiLower = marker.1) (hrepl : Clear marker.1 marker.2)
    (hright : isascii right = true)
    (hright' : rt.replaceMarker marker.1 marker.2 right = some right') :
    rt.replaceMarker marker.1 marker.2 (left ++ right) = some (marker.2 ++ right') := by
  have hhere : Found rt marker.1 (left ++ right) [] left right :=
    ⟨rfl, hspells ▸ spells_of_map hfound, not_infix_dropLast (marker_chars marker hmem).2.2.1⟩
  rw [replaceMarker_found hmem (isascii_append.mpr ⟨hfound, hright⟩) hhere]
  exact replaceMarker_clear hmem hrepl (repl_chars marker hmem).1 hright hright'

end Frame

section Weight

variable {rt : Runtime} {marker : Str × Str} {out text : Str}

/-- What each replacement makes less of: characters, an `x` counting twice. -/
def weight (s : Str) : ℕ := s.length + (s.map asciiLower).count 'x'

theorem weight_append (s t : Str) : weight (s ++ t) = weight s + weight t := by
  simp only [weight, List.length_append, List.map_append, List.count_append]
  omega

theorem weight_repl : ∀ marker ∈ defangMarkers,
    weight marker.2 < marker.1.length + marker.1.count 'x' := by decide

theorem weight_replaceMarker (hmem : marker ∈ defangMarkers) (hascii : isascii out = true)
    (h : rt.replaceMarker marker.1 marker.2 out = some text) :
    weight text ≤ weight out ∧
      (marker.1 <:+: out.map asciiLower → weight text < weight out) := by
  refine replaceMarker_induction hmem (motive := fun out text => weight text ≤ weight out ∧
      (marker.1 <:+: out.map asciiLower → weight text < weight out))
    (fun out _ hnone => ⟨le_rfl, fun hin => absurd hin hnone⟩)
    (fun front found back text hascii hfound ih => ?_) hascii h
  have hless : weight (front ++ marker.2 ++ back) < weight (front ++ found ++ back) := by
    simp only [isascii_append] at hascii
    have hrepl := weight_repl marker hmem
    have hfoundWeight : weight found = marker.1.length + marker.1.count 'x' := by
      rw [weight, map_of_spells hfound.spells hascii.1.2, hfound.length_eq]
    simp only [weight_append]
    omega
  exact ⟨by omega, fun _ => by omega⟩

end Weight

section Lists

variable {rt : Runtime} {markers : List (Str × Str)} {left left' right right' front out text : Str}
variable {c : Char}

theorem replaceMarkers_cons {marker : Str × Str} {rest : List (Str × Str)} :
    replaceMarkers rt (marker :: rest) out =
      (rt.replaceMarker marker.1 marker.2 out).bind (replaceMarkers rt rest) := rfl

variable (rt) in
theorem replaceMarkers_ascii (hsub : markers ⊆ defangMarkers) (hascii : isascii out = true) :
    ∃ text, replaceMarkers rt markers out = some text ∧ isascii text = true := by
  induction markers generalizing out with
  | nil => exact ⟨out, rfl, hascii⟩
  | cons marker rest ih =>
      obtain ⟨next, hnext, hnextAscii⟩ := replaceMarker_ascii rt (hsub List.mem_cons_self) hascii
      obtain ⟨text, htext, htextAscii⟩ := ih (fun _ h => hsub (List.mem_cons_of_mem _ h)) hnextAscii
      exact ⟨text, by rw [replaceMarkers_cons, hnext]; exact htext, htextAscii⟩

theorem isascii_replaceMarkers (hsub : markers ⊆ defangMarkers) (hascii : isascii out = true)
    (h : replaceMarkers rt markers out = some text) : isascii text = true := by
  obtain ⟨other, hother, hotherAscii⟩ := replaceMarkers_ascii rt hsub hascii
  rw [h] at hother
  exact Option.some.inj hother ▸ hotherAscii

theorem replaceMarkers_absent (hsub : markers ⊆ defangMarkers) (hascii : isascii out = true)
    (h : ∀ marker ∈ markers, ¬ marker.1 <:+: out.map asciiLower) :
    replaceMarkers rt markers out = some out := by
  induction markers with
  | nil => rfl
  | cons marker rest ih =>
      rw [replaceMarkers_cons, replaceMarker_absent (hsub List.mem_cons_self) hascii
        (h marker List.mem_cons_self)]
      exact ih (fun _ hmem => hsub (List.mem_cons_of_mem _ hmem))
        fun other hother => h other (List.mem_cons_of_mem _ hother)

theorem replaceMarkers_nil : replaceMarkers rt defangMarkers [] = some [] :=
  replaceMarkers_absent (List.Subset.refl _) rfl (by decide)

theorem weight_replaceMarkers (hsub : markers ⊆ defangMarkers) (hascii : isascii out = true)
    (h : replaceMarkers rt markers out = some text) :
    weight text ≤ weight out ∧
      ((∃ marker ∈ markers, marker.1 <:+: out.map asciiLower) → weight text < weight out) := by
  induction markers generalizing out with
  | nil =>
      cases h
      exact ⟨le_rfl, fun ⟨_, hmem, _⟩ => nomatch hmem⟩
  | cons marker rest ih =>
      have hmem := hsub List.mem_cons_self
      have hrest : rest ⊆ defangMarkers := fun _ h => hsub (List.mem_cons_of_mem _ h)
      obtain ⟨next, hnext, hnextAscii⟩ := replaceMarker_ascii rt hmem hascii
      rw [replaceMarkers_cons, hnext] at h
      obtain ⟨hle, hlt⟩ := weight_replaceMarker hmem hascii hnext
      obtain ⟨hle', hlt'⟩ := ih hrest hnextAscii h
      refine ⟨hle'.trans hle, ?_⟩
      rintro ⟨other, hother, hin⟩
      by_cases hhere : marker.1 <:+: out.map asciiLower
      · exact hle'.trans_lt (hlt hhere)
      · -- The first of them leaves the text alone, so the other is still in it.
        rw [replaceMarker_absent hmem hascii hhere] at hnext
        cases hnext
        rcases List.mem_cons.mp hother with rfl | hother
        · exact absurd hin hhere
        · exact hlt' ⟨other, hother, hin⟩

theorem replaceMarkers_separated (hsub : markers ⊆ defangMarkers) (hc : isAscii c = true)
    (hsep : ∀ marker ∈ markers, asciiLower c ∉ marker.1) (hleft : isascii left = true)
    (hright : isascii right = true) (hleft' : replaceMarkers rt markers left = some left')
    (hright' : replaceMarkers rt markers right = some right') :
    replaceMarkers rt markers (left ++ c :: right) = some (left' ++ c :: right') := by
  induction markers generalizing left right with
  | nil =>
      cases hleft'
      cases hright'
      rfl
  | cons marker rest ih =>
      have hmem := hsub List.mem_cons_self
      obtain ⟨leftNext, hleftNext, hleftAscii⟩ := replaceMarker_ascii rt hmem hleft
      obtain ⟨rightNext, hrightNext, hrightAscii⟩ := replaceMarker_ascii rt hmem hright
      rw [replaceMarkers_cons, hleftNext] at hleft'
      rw [replaceMarkers_cons, hrightNext] at hright'
      rw [replaceMarkers_cons, replaceMarker_separated hmem hc (hsep marker List.mem_cons_self)
        hleft hright hleftNext hrightNext]
      exact ih (fun _ h => hsub (List.mem_cons_of_mem _ h))
        (fun other hother => hsep other (List.mem_cons_of_mem _ hother)) hleftAscii hrightAscii
        hleft' hright'

theorem replaceMarkers_clear (hsub : markers ⊆ defangMarkers)
    (hclear : ∀ marker ∈ markers, Clear marker.1 front) (hfront : isascii front = true)
    (hright : isascii right = true) (hright' : replaceMarkers rt markers right = some right') :
    replaceMarkers rt markers (front ++ right) = some (front ++ right') := by
  induction markers generalizing right with
  | nil =>
      cases hright'
      rfl
  | cons marker rest ih =>
      have hmem := hsub List.mem_cons_self
      obtain ⟨next, hnext, hnextAscii⟩ := replaceMarker_ascii rt hmem hright
      rw [replaceMarkers_cons, hnext] at hright'
      rw [replaceMarkers_cons, replaceMarker_clear hmem (hclear marker List.mem_cons_self) hfront
        hright hnext]
      exact ih (fun _ h => hsub (List.mem_cons_of_mem _ h))
        (fun other hother => hclear other (List.mem_cons_of_mem _ hother)) hnextAscii hright'

end Lists

end OpenctiLookup
