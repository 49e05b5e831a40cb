import OpenctiLookup.UrlText

/-! The spellings that `_defang` undoes: schemes, colons and dots that are written so that
nothing follows them, and what stands around a value. -/
namespace OpenctiLookup
open Python

section Rewrites

variable {rt : Runtime} {markers : List (Str × Str)} {marker : Str × Str}
variable {front front' next next' left found right : Str}

/-- In front of any text, the markers make the one of the other. -/
structure Rewrites (rt : Runtime) (markers : List (Str × Str)) (front front' : Str) : Prop where
  ascii : isascii front = true
  step : ∀ right right', isascii right = true → replaceMarkers rt markers right = some right' →
    replaceMarkers rt markers (front ++ right) = some (front' ++ right')

theorem Rewrites.nil : Rewrites rt markers [] [] := ⟨rfl, fun _ _ _ h => h⟩

theorem Rewrites.append (hfirst : Rewrites rt markers front front')
    (hnext : Rewrites rt markers next next') :
    Rewrites rt markers (front ++ next) (front' ++ next') where
  ascii := isascii_append.mpr ⟨hfirst.ascii, hnext.ascii⟩
  step right right' hascii h := by
    rw [List.append_assoc, List.append_assoc]
    exact hfirst.step _ _ (isascii_append.mpr ⟨hnext.ascii, hascii⟩) (hnext.step _ _ hascii h)

theorem Rewrites.trans {before after : List (Str × Str)} (hsub : before ⊆ defangMarkers)
    (hfirst : Rewrites rt before front next) (hnext : Rewrites rt after next front') :
    Rewrites rt (before ++ after) front front' where
  ascii := hfirst.ascii
  step right right' hascii h := by
    rw [replaceMarkers_append] at h ⊢
    obtain ⟨middle, hmiddle, hright⟩ := Option.bind_eq_some_iff.mp h
    rw [hfirst.step _ _ hascii hmiddle, Option.bind_some]
    exact hnext.step _ _ (isascii_replaceMarkers hsub hascii hmiddle) hright

theorem Rewrites.clear (hsub : markers ⊆ defangMarkers) (hascii : isascii front = true)
    (hclear : ∀ marker ∈ markers, Clear marker.1 front) : Rewrites rt markers front front :=
  ⟨hascii, fun _ _ hright h => replaceMarkers_clear hsub hclear hascii hright h⟩

variable (left found right) in
/-- One of the markers is found, and the text is clear of the others. -/
theorem Rewrites.once {before after : List (Str × Str)} (hsub : markers ⊆ defangMarkers)
    (hsplit : markers = before ++ marker :: after)
    (hascii : isascii (left ++ found ++ right) = true)
    (hspells : found.map asciiLower = marker.1)
    (hbefore : ∀ other ∈ before, Clear other.1 (left ++ found ++ right))
    (hleft : Clear marker.1 left) (hrepl : Clear marker.1 marker.2) (hright : Clear marker.1 right)
    (hafter : ∀ other ∈ after, Clear other.1 (left ++ marker.2 ++ right)) :
    Rewrites rt markers (left ++ found ++ right) (left ++ marker.2 ++ right) := by
  subst hsplit
  have hmem : marker ∈ defangMarkers := hsub (by simp)
  have hsubBefore : before ⊆ defangMarkers := fun _ h => hsub (List.mem_append_left _ h)
  have hsubAfter : after ⊆ defangMarkers := fun _ h => hsub (by simp [h])
  simp only [isascii_append] at hascii
  obtain ⟨⟨hleftAscii, hfoundAscii⟩, hrightAscii⟩ := hascii
  have hhere : Rewrites rt [marker] (left ++ found ++ right) (left ++ marker.2 ++ right) := by
    refine ⟨by simp [hleftAscii, hfoundAscii, hrightAscii], fun tail tail' htail h => ?_⟩
    obtain ⟨text, htext, heq⟩ := Option.bind_eq_some_iff.mp h
    cases heq
    have hbehind := replaceMarker_clear hmem hright hrightAscii htail htext
    have hfound := replaceMarker_here hmem hfoundAscii hspells hrepl
      (isascii_append.mpr ⟨hrightAscii, htail⟩) hbehind
    have hwhole := replaceMarker_clear hmem hleft hleftAscii
      (isascii_append.mpr ⟨hfoundAscii, isascii_append.mpr ⟨hrightAscii, htail⟩⟩) hfound
    simp only [List.append_assoc]
    rw [replaceMarkers_cons, hwhole]
    rfl
  have hwhole : isascii (left ++ marker.2 ++ right) = true := by
    simp [hleftAscii, (repl_chars marker hmem).1, hrightAscii]
  refine (Rewrites.clear hsubBefore hhere.ascii hbefore).trans hsubBefore ?_
  exact hhere.trans (fun _ h => List.mem_singleton.mp h ▸ hmem)
    (.clear hsubAfter hwhole hafter)

end Rewrites

section Dots

variable {rt : Runtime} {label dot text : Str} {labels : List Str} {marker : Str × Str}

def dotSpellings : List Str := [".", "[.]", "(.)", "\x7b.\x7d"]

/-- The labels with a dot between them, each in one spelling or another. -/
inductive Dotted : List Str → Str → Prop
  | last {label : Str} : Dotted [label] label
  | dot {label dot text : Str} {labels : List Str} : dot ∈ dotSpellings → Dotted labels text →
      Dotted (label :: labels) (label ++ dot ++ text)

/-- A label of a host, with no marker in it. -/
structure IsLabel (label : Str) : Prop where
  chars : ∀ c ∈ label, isHostChar c = true ∧ c ≠ '.'
  markless : ∀ marker ∈ defangMarkers, ¬ marker.1 <:+: label.map asciiLower

theorem clear_labelled (h : IsLabel label) (hdot : dot ∈ dotSpellings)
    (hmem : marker ∈ defangMarkers) (hother : marker.1 ≠ dot) : Clear marker.1 (label ++ dot) := by
  have hdots : ∀ dot ∈ dotSpellings, dot ≠ [] ∧
      ∀ marker ∈ defangMarkers, marker.1 ≠ dot → Clear marker.1 dot := by decide
  have hkinds : ∀ dot ∈ dotSpellings, ∀ marker ∈ defangMarkers, marker.1 ≠ [] ∧
      ((∀ d ∈ marker.1.head?, d ∈ openers) ∨ ∀ d ∈ dot.map asciiLower, d ∉ marker.1) := by decide
  obtain ⟨hdotNe, hclear⟩ := hdots dot hdot
  obtain ⟨hmarkerNe, hhead | hfree⟩ := hkinds dot hdot marker hmem
  · refine Clear.append (clear_of_head hmarkerNe fun c hc hin => ?_) (hclear marker hmem hother)
    obtain ⟨d, hd, rfl⟩ := List.mem_map.mp hin
    exact not_opener_asciiLower (isHostChar_cases (h.chars d hd).1).2.2.2.1 (hhead _ hc)
  · exact clear_of_absent hdotNe hfree (h.markless marker hmem)

/-- A label keeps its dot, as a plain one. -/
theorem rewrites_labelled (h : IsLabel label) (hdot : dot ∈ dotSpellings) :
    Rewrites rt defangMarkers (label ++ dot) (label ++ ['.']) := by
  have hplain : ∀ marker ∈ defangMarkers, marker.1 ≠ ['.'] := by decide
  have hascii : ∀ dot ∈ dotSpellings, isascii (label ++ dot) = true := by
    have hdots : ∀ dot ∈ dotSpellings, isascii dot = true := by decide
    intro dot hdot
    exact isascii_append.mpr ⟨isascii_of_host fun c hc => (h.chars c hc).1, hdots dot hdot⟩
  have hcases : dot = ['.'] ∨ ∃ before marker after, defangMarkers = before ++ marker :: after ∧
      marker.1 = dot ∧ marker.2 = ['.'] ∧ Clear marker.1 marker.2 ∧
        (∀ d ∈ marker.1.head?, d ∈ openers) ∧ ∀ other ∈ before, other.1 ≠ dot := by
    simp only [dotSpellings, List.mem_cons, List.not_mem_nil, or_false] at hdot
    rcases hdot with rfl | rfl | rfl | rfl
    · exact .inl rfl
    · exact .inr ⟨[], _, defangMarkers.drop 1, rfl, by decide⟩
    · exact .inr ⟨defangMarkers.take 1, _, defangMarkers.drop 2, rfl, by decide⟩
    · exact .inr ⟨defangMarkers.take 2, _, defangMarkers.drop 3, rfl, by decide⟩
  rcases hcases with rfl | ⟨before, marker, after, hsplit, hfound, hrepl, hclear, hhead, hbefore⟩
  · exact .clear (List.Subset.refl _) (hascii _ hdot) fun marker hmem =>
      clear_labelled h hdot hmem (hplain marker hmem)
  · have hsub : before ++ marker :: after ⊆ defangMarkers := hsplit ▸ List.Subset.refl _
    have hclearPlain : ∀ other ∈ defangMarkers, Clear other.1 (label ++ ['.']) :=
      fun other hmem => clear_labelled h (by decide) hmem (hplain other hmem)
    have hleft : Clear marker.1 label := by
      refine clear_of_head (marker_chars marker (hsub (by simp))).2.2.1 fun d hd hin => ?_
      obtain ⟨e, he, rfl⟩ := List.mem_map.mp hin
      exact not_opener_asciiLower (isHostChar_cases (h.chars e he).1).2.2.2.1 (hhead _ hd)
    have hlower : dot.map asciiLower = marker.1 := by
      have hdots : ∀ dot ∈ dotSpellings, dot.map asciiLower = dot := by decide
      rw [hfound, hdots dot hdot]
    have hwhole : Rewrites rt defangMarkers (label ++ dot ++ []) (label ++ marker.2 ++ []) := by
      refine .once label dot [] (List.Subset.refl _) hsplit (by simpa using hascii dot hdot) hlower
        (fun other hother => ?_) hleft hclear (by simp [Clear]) fun other hother => ?_
      · rw [List.append_nil]
        exact clear_labelled h hdot (hsub (List.mem_append_left _ hother)) (hbefore other hother)
      · rw [List.append_nil, hrepl]
        exact hclearPlain other (hsub (by simp [hother]))
    rwa [hrepl, List.append_nil, List.append_nil] at hwhole

variable (rt) in
theorem Dotted.rewrites (h : Dotted labels text) (hlabels : ∀ label ∈ labels, IsLabel label) :
    ∃ front front' last, text = front ++ last ∧ join "." labels = front' ++ last ∧
      last ∈ labels ∧ Rewrites rt defangMarkers front front' := by
  induction h with
  | @last label =>
      exact ⟨[], [], label, rfl, join_singleton _ _, List.mem_singleton_self _, .nil⟩
  | @dot label dot text labels hdot htext ih =>
      obtain ⟨front, front', last, rfl, hjoin, hlast, hrewrites⟩ :=
        ih fun label hlabel => hlabels label (List.mem_cons_of_mem _ hlabel)
      refine ⟨label ++ dot ++ front, label ++ ['.'] ++ front', last, by simp, ?_,
        List.mem_cons_of_mem _ hlast,
        (rewrites_labelled (hlabels label List.mem_cons_self) hdot).append hrewrites⟩
      have hne : labels ≠ [] := List.ne_nil_of_mem hlast
      obtain ⟨second, rest, rfl⟩ := List.exists_cons_of_ne_nil hne
      change join ['.'] (label :: second :: rest) = _
      rw [join_cons_cons]
      change join ['.'] (second :: rest) = _ at hjoin
      rw [hjoin]
      simp

theorem dotted_join (hne : labels ≠ []) : Dotted labels (join "." labels) := by
  induction labels with
  | nil => exact absurd rfl hne
  | cons label labels ih =>
      cases labels with
      | nil =>
          rw [join_singleton]
          exact .last
      | cons second rest =>
          have hdotted : Dotted (label :: second :: rest)
              (label ++ ['.'] ++ join "." (second :: rest)) :=
            .dot (by decide) (ih (List.cons_ne_nil _ _))
          change Dotted _ (join ['.'] (label :: second :: rest))
          rw [join_cons_cons]
          simpa using hdotted

end Dots

section Schemes

variable {rt : Runtime} {scheme spelled colon front other : Str} {marker : Str}

def schemeSpellings : List (Str × Str) := [("hxxp", "http"), ("hxxps", "https"), ("fxp", "ftp")]

def colonSpellings : List Str := [":", "[:]"]

def SchemeSpelled (scheme spelled : Str) : Prop :=
  spelled.map asciiLower = scheme ∨ (spelled.map asciiLower, scheme) ∈ schemeSpellings

theorem clear_congr (h : front.map asciiLower = other.map asciiLower) :
    Clear marker front ↔ Clear marker other := by
  rw [Clear, Clear, h]

theorem SchemeSpelled.lower (hscheme : scheme ∈ webSchemes) (h : SchemeSpelled scheme spelled) :
    spelled.map asciiLower ∈ webSchemes ++ schemeSpellings.map Prod.fst := by
  rcases h with rfl | hspelling
  · exact List.mem_append_left _ hscheme
  · exact List.mem_append_right _ (List.mem_map_of_mem hspelling)

theorem isascii_of_lower (h : isascii (front.map asciiLower) = true) : isascii front = true := by
  refine List.all_eq_true.mpr fun c hc => ?_
  have hlower := List.all_eq_true.mp h _ (List.mem_map_of_mem hc)
  rcases asciiLower_cases c with ⟨-, heq⟩ | ⟨hupper, -⟩
  · rwa [heq] at hlower
  · exact isAscii_of_isSchemeChar (by simp [isSchemeChar, isAsciiAlpha, hupper])

variable (rt) in
/-- The first markers take the brackets off the colon. -/
theorem rewrites_colon
    (hscheme : spelled.map asciiLower ∈ webSchemes ++ schemeSpellings.map Prod.fst)
    (hcolon : colon ∈ colonSpellings) :
    Rewrites rt (defangMarkers.take 8) (spelled ++ colon ++ "//".toList)
      (spelled ++ [':'] ++ "//".toList) := by
  have htable : ∀ lowered ∈ webSchemes ++ schemeSpellings.map Prod.fst,
      lowered.map asciiLower = lowered ∧ isascii lowered = true ∧ Clear "[:]" lowered ∧
        (∀ marker ∈ defangMarkers.take 8, Clear marker.1 (lowered ++ [':'] ++ "//".toList)) ∧
        ∀ marker ∈ defangMarkers.take 4,
          Clear marker.1 (lowered ++ "[:]".toList ++ "//".toList) := by
    decide
  obtain ⟨hlower, hascii, hleft, hplain, hbracketed⟩ := htable _ hscheme
  have hspelled := isascii_of_lower hascii
  have hsame : ∀ rest : Str,
      (spelled ++ rest).map asciiLower = (spelled.map asciiLower ++ rest).map asciiLower := by
    intro rest
    rw [List.map_append, List.map_append, hlower]
  have hclear : ∀ marker ∈ defangMarkers.take 8,
      Clear marker.1 (spelled ++ [':'] ++ "//".toList) := by
    intro marker hmem
    rw [List.append_assoc, clear_congr (hsame _), ← List.append_assoc]
    exact hplain marker hmem
  simp only [colonSpellings, List.mem_cons, List.not_mem_nil, or_false] at hcolon
  rcases hcolon with rfl | rfl
  · exact .clear (List.take_subset _ _) (by simp [hspelled]; decide) hclear
  · have hsplit : defangMarkers.take 8 = defangMarkers.take 4 ++
        ("[:]".toList, ":".toList) :: (defangMarkers.drop 5).take 3 := rfl
    refine .once spelled "[:]" "//" (List.take_subset _ _) hsplit (by simp [hspelled]; decide)
      (by decide) (fun marker hmem => ?_) ?_ (by decide) (by decide) fun marker hmem => ?_
    · rw [List.append_assoc, clear_congr (hsame _), ← List.append_assoc]
      exact hbracketed marker hmem
    · rwa [clear_congr (by rw [hlower] : spelled.map asciiLower = _)]
    · exact hclear marker (by revert marker; decide)

variable (rt) in
/-- The last markers take the scheme for the one it stands for. -/
theorem rewrites_scheme (hscheme : scheme ∈ webSchemes) (h : SchemeSpelled scheme spelled) :
    ∃ read, read.map asciiLower = scheme ∧
      Rewrites rt (defangMarkers.drop 8) (spelled ++ "://".toList) (read ++ "://".toList) := by
  have hspelled : isascii spelled = true := by
    have htable : ∀ lowered ∈ webSchemes ++ schemeSpellings.map Prod.fst,
        isascii lowered = true := by decide
    exact isascii_of_lower (htable _ (h.lower hscheme))
  have hascii : isascii (spelled ++ "://".toList) = true := by
    simp [hspelled]
    decide
  rcases h with rfl | hspelling
  · exact ⟨spelled, rfl, .clear (List.drop_subset _ _) hascii fun marker hmem =>
      clear_scheme hscheme marker (List.mem_of_mem_drop hmem)⟩
  · have htable : ∀ spelling ∈ schemeSpellings, spelling.2.map asciiLower = spelling.2 ∧
        ∃ before ∈ (defangMarkers.drop 8).inits, ∃ after ∈ (defangMarkers.drop 8).tails,
          defangMarkers.drop 8 = before ++ spelling :: after ∧
            Clear spelling.1 spelling.2 ∧ Clear spelling.1 "://" ∧
            (∀ other ∈ before, Clear other.1 (spelling.1 ++ "://".toList)) ∧
            ∀ other ∈ after, Clear other.1 (spelling.2 ++ "://".toList) := by decide
    obtain ⟨hlower, before, -, after, -, hsplit, hrepl, hright, hbefore, hafter⟩ :=
      htable _ hspelling
    dsimp only at hlower hsplit hrepl hright hbefore hafter
    have hsame : (spelled ++ "://".toList).map asciiLower =
        (spelled.map asciiLower ++ "://".toList).map asciiLower := by
      rw [List.map_append, List.map_append, map_asciiLower_of_lower]
    refine ⟨scheme, hlower, ?_⟩
    refine .once [] spelled "://" (List.drop_subset _ _) hsplit hascii rfl
      (fun other hother => ?_) (by simp [Clear]) hrepl hright hafter
    rw [List.nil_append, clear_congr hsame]
    exact hbefore other hother

variable (rt) in
theorem rewrites_front (hscheme : scheme ∈ webSchemes) (h : SchemeSpelled scheme spelled)
    (hcolon : colon ∈ colonSpellings) :
    ∃ read, read.map asciiLower = scheme ∧ Rewrites rt defangMarkers
      (spelled ++ colon ++ "//".toList) (read ++ "://".toList) := by
  obtain ⟨read, hread, hrewrites⟩ := rewrites_scheme rt hscheme h
  have hfirst := rewrites_colon rt (h.lower hscheme) hcolon
  have hslashes : spelled ++ [':'] ++ "//".toList = spelled ++ "://".toList := by simp
  rw [hslashes] at hfirst
  have hall := hfirst.trans (List.take_subset _ _) hrewrites
  rw [List.take_append_drop] at hall
  exact ⟨read, hread, hall⟩

end Schemes

section Wrapped

variable {before core after : Str} {first : Char}

/-- What is around a value is stripped, and the end of the value with it. -/
theorem strips_wrapped (hprint : ∀ c ∈ core, isPrintable c = true)
    (hhead : core.head? = some first) (hfirst : stripSet.contains first = false)
    (hbefore : ∀ c ∈ before, c ∈ stripSet) (hafter : ∀ c ∈ after, c ∈ stripSet) :
    stripChars stripSet (strip (before ++ core ++ after)) = rstripChars stripSet core := by
  obtain ⟨rest, rfl⟩ := List.head?_eq_some_iff.mp hhead
  obtain ⟨kept, hkept⟩ : ∃ kept, rstripChars stripSet (first :: rest) = first :: kept :=
    ⟨_, rdropWhile_append_cons hfirst [] rest⟩
  obtain ⟨tail, htail, hstripped⟩ : ∃ tail, first :: rest = first :: kept ++ tail ∧
      ∀ c ∈ tail, c ∈ stripSet := by
    refine ⟨(first :: rest).rtakeWhile stripSet.contains, ?_, fun c hc => ?_⟩
    · rw [← hkept]
      exact List.rdropWhile_append_rtakeWhile.symm
    · exact List.contains_iff_mem.mp (List.mem_rtakeWhile_imp hc)
  have hspaces : Trimmed isSpace (first :: kept) := by
    refine trimmed_of_all fun c hc => not_space_of_isPrintable (hprint c ?_)
    rw [htail]
    exact List.mem_append_left _ hc
  have htrimmed : Trimmed stripSet.contains (first :: kept) := by
    constructor
    · intro c hc
      cases hc
      exact hfirst
    · intro c hc
      have hne : rstripChars stripSet (first :: rest) ≠ [] := by simp [hkept]
      have hlast := List.rdropWhile_last_not stripSet.contains _ hne
      rw [← hkept, List.getLast?_eq_some_getLast hne] at hc
      cases hc
      exact (Bool.not_eq_true _).mp hlast
  have hout : (before.dropWhile isSpace).dropWhile stripSet.contains = [] := by
    rw [List.dropWhile_eq_nil_iff]
    intro c hc
    exact List.contains_iff_mem.mpr (hbefore c ((List.dropWhile_suffix _).subset hc))
  have hout' : ((tail ++ after).rdropWhile isSpace).rdropWhile stripSet.contains = [] := by
    rw [List.rdropWhile_eq_nil_iff]
    intro c hc
    have hmem := (List.rdropWhile_prefix _ _).subset hc
    exact List.contains_iff_mem.mpr ((List.mem_append.mp hmem).elim (hstripped c) (hafter c))
  rw [hkept, htail, List.append_assoc, List.append_assoc, ← List.append_assoc, strip,
    stripBy_wrapped hspaces (List.cons_ne_nil _ _), stripChars,
    stripBy_wrapped htrimmed (List.cons_ne_nil _ _), hout, hout', List.nil_append, List.append_nil]

end Wrapped

section Names

variable {rt : Runtime} {label text before after : Str} {labels : List Str}

/-- Two or more labels of letters, digits and hyphens. -/
structure HostLabels (labels : List Str) : Prop where
  two : 2 ≤ labels.length
  label : ∀ label ∈ labels, label ≠ [] ∧ ∀ c ∈ label, isHostChar c = true ∧ c ≠ '.'

theorem HostLabels.ne_nil (h : HostLabels labels) : labels ≠ [] :=
  List.ne_nil_of_length_pos (Nat.zero_lt_of_lt h.two)

theorem HostLabels.isHost (h : HostLabels labels) : IsHost (join "." labels) :=
  ⟨labels, h.two, rfl, h.label⟩

theorem Dotted.head (h : Dotted labels text)
    (hlabels : ∀ label ∈ labels, label ≠ [] ∧ ∀ c ∈ label, isHostChar c = true) :
    ∃ first, text.head? = some first ∧ isHostChar first = true := by
  have hhead : ∀ label ∈ labels, ∀ rest : Str, ∃ first, (label ++ rest).head? = some first ∧
      isHostChar first = true := by
    intro label hlabel rest
    obtain ⟨hne, hchars⟩ := hlabels label hlabel
    obtain ⟨first, label, rfl⟩ := List.exists_cons_of_ne_nil hne
    exact ⟨first, rfl, hchars first List.mem_cons_self⟩
  cases h with
  | last => simpa using hhead text (List.mem_singleton_self _) []
  | @dot label dot text =>
      rw [List.append_assoc]
      exact hhead label List.mem_cons_self _

theorem Dotted.join_ne_nil (h : Dotted labels text)
    (hlabels : ∀ label ∈ labels, label ≠ [] ∧ ∀ c ∈ label, isHostChar c = true) :
    join "." labels ≠ [] := by
  have hne : labels ≠ [] := by cases h <;> exact List.cons_ne_nil _ _
  obtain ⟨first, hfirst, -⟩ := (dotted_join hne).head hlabels
  intro hnil
  rw [hnil] at hfirst
  cases hfirst

theorem Dotted.printable (h : Dotted labels text)
    (hlabels : ∀ label ∈ labels, ∀ c ∈ label, isHostChar c = true) :
    ∀ c ∈ text, isPrintable c = true := by
  have hdots : ∀ dot ∈ dotSpellings, ∀ c ∈ dot, isPrintable c = true := by decide
  induction h with
  | @last label =>
      exact fun c hc => (isHostChar_cases (hlabels label (List.mem_singleton_self _) c hc)).2.1
  | @dot label dot text labels hdot htext ih =>
      intro c hc
      rcases List.mem_append.mp hc with hc | hc
      · rcases List.mem_append.mp hc with hc | hc
        · exact (isHostChar_cases (hlabels label List.mem_cons_self c hc)).2.1
        · exact hdots dot hdot c hc
      · exact ih (fun label hlabel => hlabels label (List.mem_cons_of_mem _ hlabel)) c hc

variable (rt) in
theorem replaceMarkers_dots (h : IsLabel label) (dots : ℕ) :
    replaceMarkers rt defangMarkers (label ++ List.replicate dots '.') =
      some (label ++ List.replicate dots '.') := by
  have hascii : isascii label = true := isascii_of_host fun c hc => (h.chars c hc).1
  have hdot : isAscii '.' = true := rfl
  cases dots with
  | zero =>
      rw [List.replicate_zero, List.append_nil]
      exact replaceMarkers_absent (List.Subset.refl _) hascii h.markless
  | succ dots =>
      have hplain : ∀ marker ∈ defangMarkers, marker.1 ≠ ['.'] := by decide
      have hheads : ∀ marker ∈ defangMarkers, marker.1 ≠ [] ∧ marker.1.head? ≠ some '.' := by decide
      have hclear : ∀ marker ∈ defangMarkers, Clear marker.1 (List.replicate dots '.') := by
        refine fun marker hmem => clear_of_head (hheads marker hmem).1 fun c hc hin => ?_
        obtain ⟨d, hd, rfl⟩ := List.mem_map.mp hin
        rw [List.eq_of_mem_replicate hd] at hc
        exact (hheads marker hmem).2 hc
      have hrest := replaceMarkers_clear (List.Subset.refl _) hclear (by simp [isascii, hdot]) rfl
        (@replaceMarkers_nil rt)
      rw [List.append_nil] at hrest
      have hall := replaceMarkers_clear (List.Subset.refl _) (fun marker hmem =>
        clear_labelled h (by decide) hmem (hplain marker hmem)) (isascii_append.mpr ⟨hascii, rfl⟩)
        (by simp [isascii, hdot]) hrest
      simpa [List.replicate_succ] using hall

theorem rstrip_labelled (hne : label ≠ []) (hchars : ∀ c ∈ label, isHostChar c = true)
    (front : Str) (dots : ℕ) :
    rstripChars stripSet (front ++ (label ++ List.replicate dots '.')) =
      front ++ (label ++ List.replicate dots '.') := by
  rw [rstripChars_eq_self_iff]
  intro c hc
  rw [List.getLast?_append_of_ne_nil _ (by simp [hne])] at hc
  rcases List.mem_append.mp (List.mem_of_getLast? hc) with hmem | hmem
  · exact (isHostChar_cases (hchars _ hmem)).2.2.1
  · rw [List.eq_of_mem_replicate hmem]
    decide

variable (rt) in
/-- A name, or an address, in any spelling. -/
theorem defang_dotted (h : Dotted labels text)
    (hlabels : ∀ label ∈ labels, label ≠ [] ∧ IsLabel label)
    (hbefore : ∀ c ∈ before, c ∈ stripSet) (hafter : ∀ c ∈ after, c ∈ stripSet) (dots : ℕ) :
    defang rt (before ++ (text ++ List.replicate dots '.') ++ after) =
      some (join "." labels ++ List.replicate dots '.') := by
  have hchars : ∀ label ∈ labels, label ≠ [] ∧ ∀ c ∈ label, isHostChar c = true := by
    intro label hlabel
    obtain ⟨hne, hlabel⟩ := hlabels label hlabel
    exact ⟨hne, fun c hc => (hlabel.chars c hc).1⟩
  have hprint : ∀ c ∈ text ++ List.replicate dots '.', isPrintable c = true := by
    intro c hc
    rcases List.mem_append.mp hc with hc | hc
    · exact h.printable (fun label hlabel => (hchars label hlabel).2) c hc
    · rw [List.eq_of_mem_replicate hc]
      rfl
  obtain ⟨first, hfirst, hfirstChar⟩ := h.head hchars
  obtain ⟨front, front', last, htext, hjoin, hlast, hrewrites⟩ :=
    h.rewrites rt fun label hlabel => (hlabels label hlabel).2
  have hlastAscii : isascii (last ++ List.replicate dots '.') = true :=
    isascii_append.mpr ⟨isascii_of_host (hchars last hlast).2,
      List.all_eq_true.mpr fun c hc => by rw [List.eq_of_mem_replicate hc]; rfl⟩
  have hreplaced := hrewrites.step _ _ hlastAscii
    (replaceMarkers_dots rt (hlabels last hlast).2 dots)
  have hcleaned : stripChars stripSet (front' ++ (last ++ List.replicate dots '.')) =
      front' ++ (last ++ List.replicate dots '.') := by
    rw [stripChars_of_head, rstrip_labelled (hchars last hlast).1 (hchars last hlast).2]
    obtain ⟨c, hc, hchar⟩ := (dotted_join (List.ne_nil_of_mem hlast)).head hchars
    intro d hd
    rw [← List.append_assoc, ← hjoin, List.head?_append, hc] at hd
    cases hd
    exact (isHostChar_cases hchar).2.2.1
  rw [defang_eq, strips_wrapped hprint (by rw [List.head?_append, hfirst]; rfl)
    (isHostChar_cases hfirstChar).2.2.1 hbefore hafter, htext, List.append_assoc,
    rstrip_labelled (hchars last hlast).1 (hchars last hlast).2, hreplaced, Option.map_some,
    hcleaned, hjoin, List.append_assoc]

end Names

section Letters

variable {c : Char} {label : Str} {labels names : List Str}

theorem isHostChar_asciiLower (c : Char) : isHostChar (asciiLower c) = isHostChar c := by
  rcases asciiLower_cases c with ⟨-, heq⟩ | ⟨hupper, hlower⟩
  · rw [heq]
  · simp [isHostChar, isAsciiAlpha, hupper, hlower]

theorem map_asciiLower_join (labels : List Str) :
    (join "." labels).map asciiLower = join "." (labels.map (List.map asciiLower)) := by
  induction labels with
  | nil => rfl
  | cons label labels ih =>
      cases labels with
      | nil => rw [join_singleton, List.map_cons, List.map_nil, join_singleton]
      | cons second rest =>
          change (join ['.'] (label :: second :: rest)).map asciiLower = _
          rw [join_cons_cons, List.map_append, List.map_cons]
          change _ ++ '.' :: (join "." (second :: rest)).map asciiLower = _
          rw [ih]
          exact (join_cons_cons _ _ _).symm

theorem infix_join (h : label ∈ labels) : label <:+: join "." labels := by
  induction labels with
  | nil => cases h
  | cons first labels ih =>
      cases labels with
      | nil =>
          rw [List.mem_singleton.mp h, join_singleton]
      | cons second rest =>
          change _ <:+: join ['.'] (first :: second :: rest)
          rw [join_cons_cons]
          rcases List.mem_cons.mp h with rfl | h
          · exact (List.prefix_append _ _).isInfix
          · have hsuffix : join ['.'] (second :: rest) <:+
                first ++ '.' :: join ['.'] (second :: rest) := ⟨first ++ ['.'], by simp⟩
            exact (ih h).trans hsuffix.isInfix

theorem HostLabels.of_lower (h : HostLabels names)
    (hsame : labels.map (List.map asciiLower) = names.map (List.map asciiLower)) :
    HostLabels labels := by
  constructor
  · have hlength := congrArg List.length hsame
    simp only [List.length_map] at hlength
    exact hlength ▸ h.two
  · intro label hlabel
    have hmem := List.mem_map_of_mem hlabel (f := List.map asciiLower)
    rw [hsame] at hmem
    obtain ⟨name, hname, heq⟩ := List.mem_map.mp hmem
    obtain ⟨hne, hchars⟩ := h.label name hname
    constructor
    · rintro rfl
      exact hne (List.map_eq_nil_iff.mp heq)
    · intro c hc
      obtain ⟨d, hd, hdc⟩ := List.mem_map.mp (heq ▸ List.mem_map_of_mem hc)
      obtain ⟨hhost, hdot⟩ := hchars d hd
      constructor
      · rw [← isHostChar_asciiLower, ← hdc, isHostChar_asciiLower, hhost]
      · rintro rfl
        exact hdot (eq_of_asciiLower rfl hdc)

theorem HostLabels.isLabel (h : HostLabels labels) (hmarkless : ∀ marker ∈ defangMarkers,
    ¬ marker.1 <:+: (join "." labels).map asciiLower) :
    ∀ label ∈ labels, label ≠ [] ∧ IsLabel label := by
  intro label hlabel
  obtain ⟨hne, hchars⟩ := h.label label hlabel
  refine ⟨hne, hchars, fun marker hmem hin => hmarkless marker hmem (hin.trans ?_)⟩
  obtain ⟨before, after, heq⟩ := infix_join hlabel
  rw [← heq, List.map_append, List.map_append]
  exact List.infix_append _ _ _

end Letters

section Urls

variable {rt : Runtime} {scheme spelled front last body path tail : Str} {port : Option ℕ}
variable {query fragment : Option Str}

theorem SchemeSpelled.chars (hscheme : scheme ∈ webSchemes) (h : SchemeSpelled scheme spelled) :
    spelled ≠ [] ∧ ∀ c ∈ spelled, isHostChar c = true := by
  have htable : ∀ lowered ∈ webSchemes ++ schemeSpellings.map Prod.fst,
      lowered ≠ [] ∧ ∀ c ∈ lowered, isHostChar c = true := by decide
  obtain ⟨hne, hchars⟩ := htable _ (h.lower hscheme)
  refine ⟨fun hnil => hne (List.map_eq_nil_iff.mpr hnil), fun c hc => ?_⟩
  rw [← isHostChar_asciiLower]
  exact hchars _ (List.mem_map_of_mem hc)

theorem default_port_le {p : ℕ} (h : some (decimal p) = defaultPort scheme) : p ≤ 65535 := by
  have hread : ∀ text : Str, some (decimal p) = some text → p = asciiInt text := by
    intro text htext
    rw [← Option.some.inj htext, asciiInt_decimal]
  unfold defaultPort at h
  split at h
  · rw [hread _ h]
    decide
  · split at h
    · rw [hread _ h]
      decide
    · split at h
      · rw [hread _ h]
        decide
      · cases h

theorem location_default (host : Str)
    (h : ∀ p, port = some p → some (decimal p) = defaultPort scheme) :
    location scheme host port = host := by
  cases port with
  | none => rfl
  | some p => exact if_pos (h p rfl)

theorem hostPort_append (front last : Str) (port : Option ℕ) :
    hostPort (front ++ last) port = front ++ hostPort last port := by
  cases port with
  | none => rfl
  | some p => exact List.append_assoc _ _ _

theorem partition_queryPart (query : Option Str) (h : '?' ∉ path) :
    (partition '?' (path ++ queryPart query)).1 = path ∧
      (partition '?' (path ++ queryPart query)).2.2 = query.getD [] := by
  cases query with
  | none =>
      rw [queryPart, List.append_nil, partition_of_not_mem h]
      exact ⟨rfl, rfl⟩
  | some text =>
      rw [queryPart, partition_append h]
      exact ⟨rfl, rfl⟩

theorem partition_fragmentPart (h : '#' ∉ body) :
    (partition '#' (body ++ fragmentPart fragment)).1 = body := by
  cases fragment with
  | none => rw [fragmentPart, List.append_nil, partition_of_not_mem h]
  | some text => rw [fragmentPart, partition_append h]

theorem printable_fragmentPart (h : ∀ text ∈ fragment, ∀ c ∈ text, isPrintable c = true) :
    ∀ c ∈ fragmentPart fragment, isPrintable c = true := by
  cases fragment with
  | none => exact nofun
  | some text => exact List.forall_mem_cons.mpr ⟨rfl, h text rfl⟩

theorem rstrip_fragmentPart (h : ∀ c, tail.getLast? = some c → stripSet.contains c = false) :
    rstripChars stripSet (tail ++ fragmentPart fragment) =
      tail ++ fragmentPart (fragment.map (rstripChars stripSet)) := by
  cases fragment with
  | none =>
      rw [fragmentPart, List.append_nil, Option.map_none, fragmentPart, List.append_nil,
        rstripChars_eq_self_iff]
      exact h
  | some text => exact rstrip_append_cons rfl tail text

theorem ending_of_hostPort (hne : last ≠ []) (hchars : ∀ c ∈ last, isHostChar c = true)
    (hbody : ∀ c, body.getLast? = some c → stripSet.contains c = false) (port : Option ℕ)
    (front : Str) : ∀ c, (front ++ (hostPort last port ++ body)).getLast? = some c →
      stripSet.contains c = false := by
  intro c hc
  by_cases hempty : body = []
  · have hport : hostPort last port ≠ [] := by
      cases port with
      | none => exact hne
      | some p => exact List.append_ne_nil_of_left_ne_nil hne _
    rw [hempty, List.append_nil, List.getLast?_append_of_ne_nil _ hport] at hc
    exact (isPrintable_of_hostPort hchars c (List.mem_of_getLast? hc)).2.1
  · rw [← List.append_assoc, List.getLast?_append_of_ne_nil _ hempty] at hc
    exact hbody c hc

variable (rt) in
theorem replaceMarkers_tail (hlast : IsLabel last) (hbody : isascii body = true)
    (hnone : ∀ marker ∈ defangMarkers, ¬ marker.1 <:+: (last ++ body).map asciiLower)
    (port : Option ℕ) : replaceMarkers rt defangMarkers (hostPort last port ++ body) =
      some (hostPort last port ++ body) := by
  have hascii : isascii last = true := isascii_of_host fun c hc => (hlast.chars c hc).1
  cases port with
  | none =>
      exact replaceMarkers_absent (List.Subset.refl _) (isascii_append.mpr ⟨hascii, hbody⟩) hnone
  | some p =>
      have hheads : ∀ marker ∈ defangMarkers, marker.1 ≠ [] ∧
          ∀ c ∈ "0123456789".toList, marker.1.head? ≠ some (asciiLower c) := by decide
      have hdigits : isascii (decimal p) = true :=
        List.all_eq_true.mpr fun _ hc => isAscii_of_isAsciiDigit (isAsciiDigit_decimal hc)
      have hclear : ∀ marker ∈ defangMarkers, Clear marker.1 (decimal p) := by
        refine fun marker hmem => clear_of_head (hheads marker hmem).1 fun c hc hin => ?_
        obtain ⟨d, hd, rfl⟩ := List.mem_map.mp hin
        exact (hheads marker hmem).2 d (mem_digits (isAsciiDigit_decimal hd)) hc
      have hkept : replaceMarkers rt defangMarkers body = some body := by
        refine replaceMarkers_absent (List.Subset.refl _) hbody fun marker hmem hin => ?_
        refine hnone marker hmem (hin.trans ?_)
        rw [List.map_append]
        exact (List.suffix_append _ _).isInfix
      have hbehind := replaceMarkers_clear (List.Subset.refl _) hclear hdigits hbody hkept
      have hall := replaceMarkers_delimited (c := ':') (List.Subset.refl _) (by decide) hascii
        (fun d hd => (isHostChar_cases (hlast.chars d hd).1).2.2.2.1)
        (isascii_append.mpr ⟨hdigits, hbody⟩)
        (replaceMarkers_absent (List.Subset.refl _) hascii hlast.markless) hbehind
      simpa [hostPort] using hall

theorem replaceMarkers_fragmentPart (hascii : isascii tail = true)
    (htail : replaceMarkers rt defangMarkers tail = some tail)
    (hfragment : ∀ text ∈ fragment, ∀ c ∈ text, isPrintable c = true) :
    ∃ fragment' : Option Str, (∀ text ∈ fragment', ∀ c ∈ text, isPrintable c = true) ∧
      replaceMarkers rt defangMarkers (tail ++ fragmentPart fragment) =
        some (tail ++ fragmentPart fragment') := by
  cases fragment with
  | none => exact ⟨none, nofun, by rw [fragmentPart, List.append_nil, htail]⟩
  | some text =>
      have hprint := hfragment text rfl
      have hmark : ∀ marker ∈ defangMarkers, asciiLower '#' ∉ marker.1 := by decide
      obtain ⟨text', htext', -⟩ := replaceMarkers_ascii rt (List.Subset.refl defangMarkers)
        (isascii_of_printable hprint)
      refine ⟨some text', ?_, replaceMarkers_separated (List.Subset.refl _) rfl hmark hascii
        (isascii_of_printable hprint) htail htext'⟩
      intro other hother
      cases hother
      exact forall_of_replaceMarkers (by decide) (List.Subset.refl _) hprint htext'

end Urls

end OpenctiLookup
