import OpenctiLookup.Indicators
import OpenctiLookup.Python.RegexLemmas
import OpenctiLookup.Python.TextLemmas

/-! Values `_defang` has nothing to do on, and the branch of `normalize` they take
after it. -/
namespace OpenctiLookup
open Python

section Undefanged

variable (rt : Runtime)

/-- No end to strip, and no marker to replace. -/
structure Undefanged (s : Str) : Prop where
  trimmed : Trimmed isSpace s
  unwrapped : Trimmed stripSet.contains s
  unmarked : ∀ marker ∈ defangMarkers, isIn marker.1 (rt.lower s) = false

variable {rt} {s : Str}

theorem defang_of_undefanged (h : Undefanged rt s) : defang rt s = some s := by
  have hclean : stripChars stripSet (strip s) = s := by
    rw [strip, stripBy_of_trimmed h.trimmed, stripChars, stripBy_of_trimmed h.unwrapped]
  have hnone : ¬ defangMarkers.any (fun marker => isIn marker.1 (rt.lower s)) = true := by
    rw [List.any_eq_true]
    rintro ⟨marker, hmem, hin⟩
    exact Bool.noConfusion ((h.unmarked marker hmem).symm.trans hin)
  unfold defang
  rw [hclean]
  extract_lets out lowered replaced
  have hreplaced : replaced = some s := if_neg hnone
  rw [hreplaced, Option.map_some, stripChars, stripBy_of_trimmed h.unwrapped]

theorem normalize_of_undefanged (h : Undefanged rt s) (hne : s ≠ []) (skipPrivate : Bool)
    (skipTlds : List Str) :
    normalize rt skipPrivate skipTlds s = .ok (classify rt skipPrivate skipTlds s s) := by
  unfold normalize
  rw [strip, stripBy_of_trimmed h.trimmed, if_neg (by simpa using hne), defang_of_undefanged h]

def isPlain (c : Char) : Bool := !isSpace c && !stripSet.contains c && c != '\x7b' && c != '\x7d'

theorem undefanged_of_plain (hplain : ∀ c ∈ s, isPlain c = true)
    (hunmarked : ∀ marker ∈ ["hxxps".toList, "hxxp".toList, "fxp".toList],
      isIn marker (rt.lower s) = false)
    (hlower : ∀ c ∈ rt.lower s, isPlain c = true) : Undefanged rt s := by
  have hall : ∀ c ∈ s, isSpace c = false ∧ stripSet.contains c = false := by
    intro c hc
    have hc := hplain c hc
    simp only [isPlain, Bool.and_eq_true, Bool.not_eq_true'] at hc
    exact hc.1.1
  refine ⟨trimmed_of_all fun c hc => (hall c hc).1, trimmed_of_all fun c hc => (hall c hc).2, ?_⟩
  intro marker hmem
  have hsplit : marker.1 ∈ ["hxxps".toList, "hxxp".toList, "fxp".toList] ∨
      ∃ c ∈ marker.1, isPlain c = false := by
    have hall : ∀ marker ∈ defangMarkers, (["hxxps".toList, "hxxp".toList, "fxp".toList].contains
        marker.1 || marker.1.any fun c => !isPlain c) = true := List.all_eq_true.mp rfl
    simpa using hall marker hmem
  rcases hsplit with hscheme | ⟨c, hc, hnot⟩
  · exact hunmarked _ hscheme
  · refine isIn_eq_false_of_not_mem hc fun hin => ?_
    rw [hlower c hin] at hnot
    cases hnot

end Undefanged

section Defanged

variable {rt : Runtime} {raw cleaned s : Str}

theorem trimmed_of_defang (h : defang rt raw = some cleaned) :
    Trimmed stripSet.contains cleaned := by
  unfold defang at h
  obtain ⟨text, -, rfl⟩ := Option.map_eq_some_iff.mp h
  exact trimmed_stripBy

theorem stripChars_brackets (h : Trimmed stripSet.contains s) : stripChars "[]" s = s := by
  have hsub : ∀ c, stripSet.contains c = false → "[]".toList.contains c = false := by
    intro c hc
    rw [← Bool.not_eq_true, List.contains_iff_mem] at hc ⊢
    exact fun hmem => hc ((by decide : "[]".toList ⊆ stripSet) hmem)
  exact stripBy_of_trimmed ⟨fun c hc => hsub c (h.1 c hc), fun c hc => hsub c (h.2 c hc)⟩

/-- The text ends in nothing `_defang` strips. -/
def EndsPlain (s : Str) : Prop :=
  ∀ c, s.getLast? = some c → isSpace c = false ∧ stripSet.contains c = false

/-- No marker of `_defang` is left in the lower case. -/
def Unmarked (rt : Runtime) (s : Str) : Prop :=
  ∀ marker ∈ defangMarkers, isIn marker.1 (rt.lower s) = false

theorem unmarked_iff : Unmarked rt s ↔
    ∀ marker ∈ defangMarkers, ¬ marker.1 <:+: s.flatMap (lowerMask rt) := by
  have hascii : ∀ marker ∈ defangMarkers, isascii marker.1 = true := List.all_eq_true.mp rfl
  refine forall₂_congr fun marker hmem => ?_
  rw [← isIn_lower_iff rt (hascii marker hmem), Bool.not_eq_true]

theorem undefanged_of_ends (hhead : ∀ c, s.head? = some c → isPlain c = true) (hends : EndsPlain s)
    (hunmarked : Unmarked rt s) : Undefanged rt s := by
  have hstart : ∀ c, s.head? = some c → isSpace c = false ∧ stripSet.contains c = false := by
    intro c hc
    have hc := hhead c hc
    simp only [isPlain, Bool.and_eq_true, Bool.not_eq_true'] at hc
    exact hc.1.1
  exact ⟨⟨fun c hc => (hstart c hc).1, fun c hc => (hends c hc).1⟩,
    ⟨fun c hc => (hstart c hc).2, fun c hc => (hends c hc).2⟩, hunmarked⟩

end Defanged

section Replaced

variable {rt : Runtime} {raw cleaned out text : Str}

theorem replaceMarker_invariant {marker repl : Str} (P : Str → Prop)
    (hstep : ∀ out idx, find marker (rt.lower out) = some idx → P out →
      P (out.take idx ++ repl ++ out.drop (idx + marker.length)))
    (h : rt.replaceMarker marker repl out = some text) (hout : P out) :
    P text ∧ find marker (rt.lower text) = none := by
  refine Runtime.replaceMarker.partial_correctness rt marker repl
    (fun out text => P out → P text ∧ find marker (rt.lower text) = none) ?_ out text h hout
  intro replaceMarker ih out text h hout
  split at h
  · rename_i hnone
    cases h
    exact ⟨hout, hnone⟩
  · rename_i idx hfound
    exact ih _ _ h (hstep out idx hfound hout)

theorem replaceMarkers_invariant {markers : List (Str × Str)} (P : Str → Prop)
    (hstep : ∀ marker ∈ markers, ∀ out idx, P out →
      P (out.take idx ++ marker.2 ++ out.drop (idx + marker.1.length)))
    (h : replaceMarkers rt markers out = some text) (hout : P out) : P text := by
  induction markers generalizing out with
  | nil =>
      cases h
      exact hout
  | cons marker rest ih =>
      obtain ⟨replaced, hreplaced, hrest⟩ := Option.bind_eq_some_iff.mp h
      exact ih (fun other hother => hstep other (List.mem_cons_of_mem _ hother)) hrest
        (replaceMarker_invariant P (fun out idx _ => hstep marker List.mem_cons_self out idx)
          hreplaced hout).1

theorem replaceMarkers_append (first second : List (Str × Str)) (out : Str) :
    replaceMarkers rt (first ++ second) out =
      (replaceMarkers rt first out).bind (replaceMarkers rt second) := by
  induction first generalizing out with
  | nil => rfl
  | cons marker first ih =>
      rw [List.cons_append, replaceMarkers, replaceMarkers, Option.bind_assoc]
      exact congrArg _ (funext ih)

theorem infix_flatMap (f : Char → Str) {part whole : Str} (h : part <:+: whole) :
    part.flatMap f <:+: whole.flatMap f := by
  obtain ⟨before, after, rfl⟩ := h
  exact ⟨before.flatMap f, after.flatMap f, by simp⟩

theorem replaced_of_defang (h : defang rt raw = some cleaned) :
    ∃ text, cleaned = stripChars stripSet text ∧
      (replaceMarkers rt defangMarkers (stripChars stripSet (strip raw)) = some text ∨
        text = stripChars stripSet (strip raw) ∧ Unmarked rt text) := by
  unfold defang at h
  obtain ⟨text, hreplaced, rfl⟩ := Option.map_eq_some_iff.mp h
  refine ⟨text, rfl, ?_⟩
  split at hreplaced
  · exact .inl hreplaced
  · rename_i hnone
    cases hreplaced
    refine .inr ⟨rfl, fun marker hmem => ?_⟩
    rw [← Bool.not_eq_true]
    exact fun hin => hnone (List.any_eq_true.mpr ⟨marker, hmem, hin⟩)

theorem forall_of_replaceMarkers {p : Char → Prop} (hrepl : ∀ c ∈ ".:/@htpsf".toList, p c)
    {markers : List (Str × Str)} (hsub : markers ⊆ defangMarkers) (hout : ∀ c ∈ out, p c)
    (h : replaceMarkers rt markers out = some text) : ∀ c ∈ text, p c := by
  have hmarkers : ∀ marker ∈ defangMarkers, marker.2 ⊆ ".:/@htpsf".toList := by decide
  refine replaceMarkers_invariant (fun out => ∀ c ∈ out, p c)
    (fun marker hmem out idx hout c hc => ?_) h hout
  rcases List.mem_append.mp hc with hc | hc
  · rcases List.mem_append.mp hc with hc | hc
    · exact hout c (List.mem_of_mem_take hc)
    · exact hrepl c (hmarkers marker (hsub hmem) hc)
  · exact hout c (List.mem_of_mem_drop hc)

theorem forall_of_defang {p : Char → Prop} (hrepl : ∀ c ∈ ".:/@htpsf".toList, p c)
    (hraw : ∀ c ∈ strip raw, p c) (h : defang rt raw = some cleaned) : ∀ c ∈ cleaned, p c := by
  have hout : ∀ c ∈ stripChars stripSet (strip raw), p c := fun c hc =>
    hraw c (stripBy_subset _ _ hc)
  obtain ⟨text, rfl, hreplaced | ⟨rfl, -⟩⟩ := replaced_of_defang h
  · have htext := forall_of_replaceMarkers hrepl (List.Subset.refl _) hout hreplaced
    exact fun c hc => htext c (stripBy_subset _ _ hc)
  · exact fun c hc => hout c (stripBy_subset _ _ hc)

/-- No spelling of a scheme that `_defang` replaces is left: what the last marker is
replaced by is in none of the two before it. -/
theorem no_scheme_of_defang (h : defang rt raw = some cleaned) :
    ∀ marker ∈ ["hxxps".toList, "hxxp".toList, "fxp".toList],
      ¬ marker <:+: cleaned.flatMap (lowerMask rt) := by
  have hview : ∀ {marker s : Str}, isascii marker = true →
      (find marker (rt.lower s) = none ↔ ¬ marker <:+: s.flatMap (lowerMask rt)) := by
    intro marker s hascii
    rw [← isIn_lower_iff rt hascii, isIn, Bool.not_eq_true, Option.isSome_eq_false_iff,
      Option.isNone_iff_eq_none]
  have hshort : ∀ {s : Str}, ¬ "hxxp".toList <:+: s → ¬ "hxxps".toList <:+: s := by
    intro s hs hin
    exact hs (List.IsInfix.trans ⟨[], ['s'], rfl⟩ hin)
  obtain ⟨text, rfl, hreplaced⟩ := replaced_of_defang h
  have htext : ¬ "hxxp".toList <:+: text.flatMap (lowerMask rt) ∧
      ¬ "fxp".toList <:+: text.flatMap (lowerMask rt) := by
    rcases hreplaced with hreplaced | ⟨-, hunmarked⟩
    · have hlast : defangMarkers = defangMarkers.take 9 ++
          [("hxxp".toList, "http".toList), ("fxp".toList, "ftp".toList)] := rfl
      rw [hlast, replaceMarkers_append] at hreplaced
      obtain ⟨first, -, hreplaced⟩ := Option.bind_eq_some_iff.mp hreplaced
      obtain ⟨second, hsecond, hreplaced⟩ := Option.bind_eq_some_iff.mp hreplaced
      obtain ⟨third, hthird, hreplaced⟩ := Option.bind_eq_some_iff.mp hreplaced
      cases hreplaced
      have hhttp := (replaceMarker_invariant (fun _ => True) (fun _ _ _ _ => trivial) hsecond
        trivial).2
      have hftp := replaceMarker_invariant
        (fun out => ¬ "hxxp".toList <:+: out.flatMap (lowerMask rt))
        (fun out idx _ hout hin => hout ?_) hthird ((hview rfl).mp hhttp)
      · exact ⟨hftp.1, (hview rfl).mp hftp.2⟩
      · have htake : (out.take idx).flatMap (lowerMask rt) <:+: out.flatMap (lowerMask rt) :=
          infix_flatMap _ (List.take_prefix idx out).isInfix
        have hdrop : (out.drop (idx + "fxp".toList.length)).flatMap (lowerMask rt) <:+:
            out.flatMap (lowerMask rt) := infix_flatMap _ (List.drop_suffix _ out).isInfix
        rw [List.append_assoc, List.flatMap_append] at hin
        rcases infix_of_infix_append_cons (c := 'f') (by decide) hin with hin | hin
        · exact hin.trans htake
        · exact (@infix_of_infix_append _ ['t', 'p'] _ _ (by decide) hin).trans hdrop
    · exact ⟨unmarked_iff.mp hunmarked ("hxxp", "http") (by decide),
        unmarked_iff.mp hunmarked ("fxp", "ftp") (by decide)⟩
  have hsub : (stripChars stripSet text).flatMap (lowerMask rt) <:+: text.flatMap (lowerMask rt)  :=
    infix_flatMap _ (stripBy_within _ text)
  intro marker hmarker hin
  have hin := hin.trans hsub
  simp only [List.mem_cons, List.not_mem_nil, or_false] at hmarker
  rcases hmarker with rfl | rfl | rfl
  · exact hshort htext.1 hin
  · exact htext.1 hin
  · exact htext.2 hin

end Replaced

section Addresses

variable {rt : Runtime} {s : Str}

theorem dot_of_dottedQuad (h : (dottedQuadPattern rt).isMatch s = true) : '.' ∈ s := by
  obtain ⟨next, hnext⟩ := Regex.isMatch_iff.mp h
  obtain ⟨start, hstart, hnext⟩ := Regex.mem_ends_seq.mp hnext
  obtain ⟨first, hfirst, hnext⟩ := Regex.mem_ends_seq.mp hnext
  obtain ⟨last, hlast, -⟩ := Regex.mem_ends_seq.mp hnext
  obtain ⟨three, hthree, -⟩ := List.mem_flatMap.mp hlast
  obtain ⟨two, htwo, -⟩ := List.mem_flatMap.mp hthree
  obtain ⟨dot, hdot, -⟩ := Regex.mem_ends_seq.mp htwo
  obtain ⟨c, rest, hafter, haccepts, -⟩ := Regex.mem_ends_cls.mp hdot
  have hstays : start = ⟨[], s⟩ := by
    rw [Regex.ends] at hstart
    split at hstart
    · exact List.mem_singleton.mp hstart
    · cases hstart
  have honly : (octetPattern rt).Only fun _ => True := fun _ _ => trivial
  obtain ⟨consumed, hreads, -⟩ := Regex.reads_of_mem_ends honly hfirst
  have hs : s = consumed ++ c :: rest := by
    rw [← hafter, ← hreads.after, hstays]
  rw [hs, beq_iff_eq.mp haccepts]
  exact List.mem_append_right _ List.mem_cons_self

theorem parseV6_of_no_colon (h : ':' ∉ s) : IpAddress.parseV6 s = none := by
  have hint : ∀ t : Str, ':' ∉ t → IpAddress.parseV6Int t = none := by
    intro t ht
    unfold IpAddress.parseV6Int
    rw [split_of_not_mem ht]
    rfl
  have hhead : ':' ∉ (partition '%' s).1 := by
    intro hmem
    by_cases hpercent : '%' ∈ s
    · obtain ⟨first, rest, rfl, hfirst⟩ := List.eq_append_cons_of_mem hpercent
      rw [partition_append hfirst] at hmem
      exact h (List.mem_append_left _ hmem)
    · rw [partition_of_not_mem hpercent] at hmem
      exact h hmem
  unfold IpAddress.parseV6
  cases hpartition : partition '%' s with
  | mk addr rest =>
      rw [hpartition] at hhead
      dsimp only
      rw [hint addr hhead]
      split
      · rfl
      · split <;> rfl

theorem parse_of_no_separator (hdot : '.' ∉ s) (hcolon : ':' ∉ s) : IpAddress.parse s = none := by
  unfold IpAddress.parse IpAddress.parseV4
  rw [split_of_not_mem hdot, parseV6_of_no_colon hcolon]
  split <;> rfl

end Addresses

section Digests

variable {rt : Runtime} {s : Str} {kind : IndicatorType}

/-- A file digest: hexadecimal, of the length of its algorithm. -/
structure IsDigest (kind : IndicatorType) (s : Str) : Prop where
  length : hashByLength s.length = some kind
  hex : ∀ c ∈ s, (hexDigitValue c).isSome = true

theorem IsDigest.ne_nil (h : IsDigest kind s) : s ≠ [] := by
  rintro rfl
  cases h.length

theorem IsDigest.lower_eq (h : IsDigest kind s) : rt.lower s = s.map asciiLower := by
  have hascii : ∀ c ∈ hexDigits, isAscii c = true := List.all_eq_true.mp rfl
  exact lower_of_isascii rt (List.all_eq_true.mpr fun c hc => hascii c (mem_hexDigits (h.hex c hc)))

theorem IsDigest.undefanged (h : IsDigest kind s) : Undefanged rt s := by
  have hplain : ∀ c ∈ hexDigits, isPlain c = true := List.all_eq_true.mp rfl
  have hlower : ∀ c ∈ rt.lower s, c ∈ lowerHexDigits := by
    rw [h.lower_eq]
    intro c hc
    obtain ⟨d, hd, rfl⟩ := List.mem_map.mp hc
    exact asciiLower_hexDigits (mem_hexDigits (h.hex d hd))
  refine undefanged_of_plain (fun c hc => hplain c (mem_hexDigits (h.hex c hc)))
    (fun marker hmarker => ?_) fun c hc => hplain c (lowerHexDigits_subset (hlower c hc))
  have hx : 'x' ∈ marker := by
    revert marker
    decide
  refine isIn_eq_false_of_not_mem hx fun hin => ?_
  exact absurd (hlower 'x' hin) (by decide)

theorem normalize_digest (h : IsDigest kind s) (skipPrivate : Bool) (skipTlds : List Str) :
    normalize rt skipPrivate skipTlds s = .ok ⟨s, rt.lower s, kind, none⟩ := by
  have hmem : ∀ c ∈ s, c ∈ hexDigits := fun c hc => mem_hexDigits (h.hex c hc)
  have hseparator : ∀ c, c ∉ hexDigits → c ∉ s := fun c hc hin => hc (hmem c hin)
  have hdot := hseparator '.' (by decide)
  have hbrackets : stripChars "[]" s = s := by
    refine stripBy_of_trimmed (trimmed_of_all fun c hc => ?_)
    have hother : ∀ c ∈ hexDigits, ("[]".toList.contains c == false) = true :=
      List.all_eq_true.mp rfl
    exact beq_iff_eq.mp (hother c (hmem c hc))
  have hunpad : unpadQuad rt s = s := by
    unfold unpadQuad
    rw [if_neg]
    rw [Bool.and_eq_true]
    exact fun hquad => hdot (dot_of_dottedQuad hquad.1)
  have hmatch : hexPattern.isMatch s = true := by
    cases s with
    | nil => exact absurd rfl h.ne_nil
    | cons c rest => exact Regex.isMatch_class h.hex
  rw [normalize_of_undefanged h.undefanged h.ne_nil, classify, if_neg (by simpa using h.ne_nil),
    hbrackets, hunpad, parse_of_no_separator hdot (hseparator ':' (by decide))]
  dsimp only
  unfold classifyText
  rw [h.length]
  dsimp only
  rw [if_pos hmatch]

theorem IsDigest.lower (h : IsDigest kind s) : IsDigest kind (rt.lower s) := by
  rw [h.lower_eq]
  refine ⟨by rw [List.length_map, h.length], fun c hc => ?_⟩
  obtain ⟨d, hd, rfl⟩ := List.mem_map.mp hc
  exact hexDigitValue_of_mem _
    (lowerHexDigits_subset (asciiLower_hexDigits (mem_hexDigits (h.hex d hd))))

end Digests

end OpenctiLookup
