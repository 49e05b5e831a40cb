import OpenctiLookup.Opencti.Events
import OpenctiLookup.UrlText

/-! Path and query of a URL. They are kept as they are, but `_defang` runs over the whole
text before it is known to be a URL, and a marker in them is replaced like any other. -/
namespace OpenctiLookup
open Python

/-- A URL of printable ASCII with a path and a query. -/
structure QueryUrl (scheme host : Str) (port : Option ℕ) (path query : Str) : Prop where
  scheme : scheme.map asciiLower ∈ webSchemes
  host : IsHost host
  port : ∀ p, port = some p → p ≤ 65535
  path_head : path.head? = some '/'
  path_chars : ∀ c ∈ path, isUrlChar c = true ∧ c ≠ '?'
  query_ne : query ≠ []
  query_chars : ∀ c ∈ query, isUrlChar c = true

def queryUrl (scheme host : Str) (port : Option ℕ) (path query : Str) : Str :=
  urlOf scheme (hostPort host port) (path ++ '?' :: query)

/-- Normalized to a URL with this path and query, and a scheme and host of its own. -/
def KeepsBytes (rt : Runtime) (skipPrivate : Bool) (skipTlds : List Str) (scheme host : Str)
    (port : Option ℕ) (path query : Str) : Prop :=
  ∃ value, normalize rt skipPrivate skipTlds (queryUrl scheme host port path query) = .ok value ∧
    value.type = .url ∧ ∃ host', '/' ∉ host' ∧ value.value = urlOf (scheme.map asciiLower)
      (location (scheme.map asciiLower) host' port) (path ++ '?' :: query)

/-- No marker is in the text, in any letter case. -/
def Markless (s : Str) : Prop := ∀ marker ∈ defangMarkers, ¬ marker.1 <:+: s.map asciiLower

section Claim

variable {rt : Runtime} {skipPrivate : Bool} {skipTlds : List Str}
variable {scheme host path query text text' s : Str} {port : Option ℕ}

theorem replaced_eq_iff (hascii : isascii s = true)
    (h : replaceMarkers rt defangMarkers s = some text) : text = s ↔ Markless s := by
  constructor
  · rintro rfl marker hmem hin
    have hlt := (weight_replaceMarkers (List.Subset.refl _) hascii h).2 ⟨marker, hmem, hin⟩
    omega
  · intro hnone
    rw [replaceMarkers_absent (List.Subset.refl _) hascii hnone] at h
    exact (Option.some.inj h).symm

/-- So do the strips around it, when there is nothing to strip either. -/
theorem stripped_eq_iff (hascii : isascii s = true)
    (h : replaceMarkers rt defangMarkers (rstripChars stripSet s) = some text) :
    rstripChars stripSet text = s ↔
      Markless s ∧ ∀ c, s.getLast? = some c → stripSet.contains c = false := by
  have hstarts : ∀ s : Str, rstripChars stripSet s <+: s := fun s => List.rdropWhile_prefix _ s
  have hweight : ∀ s : Str, weight (rstripChars stripSet s) ≤ weight s := by
    intro s
    obtain ⟨rest, hrest⟩ := hstarts s
    have hsum := weight_append (rstripChars stripSet s) rest
    rw [hrest] at hsum
    omega
  have hrstrip : isascii (rstripChars stripSet s) = true := List.all_eq_true.mpr fun c hc =>
    List.all_eq_true.mp hascii c ((hstarts s).subset hc)
  constructor
  · intro heq
    have hle := (weight_replaceMarkers (List.Subset.refl _) hrstrip h).1
    have htext := hweight text
    have hs := hweight s
    rw [heq] at htext
    have hkept : rstripChars stripSet s = s := by
      obtain ⟨rest, hrest⟩ := hstarts s
      have hsum := weight_append (rstripChars stripSet s) rest
      have hrestWeight : rest.length ≤ weight rest := Nat.le_add_right _ _
      rw [hrest] at hsum
      have hnil : rest = [] := List.length_eq_zero_iff.mp (by omega)
      rw [hnil, List.append_nil] at hrest
      exact hrest
    refine ⟨fun marker hmem hin => ?_, rstripChars_eq_self_iff.mp hkept⟩
    have hlt := (weight_replaceMarkers (List.Subset.refl _) hrstrip h).2
      ⟨marker, hmem, hkept.symm ▸ hin⟩
    omega
  · rintro ⟨hnone, hlast⟩
    have hkept := rstripChars_eq_self_iff.mpr hlast
    rw [hkept] at h
    rw [(replaced_eq_iff hascii h).mpr hnone, hkept]

theorem markless_slash {tail : Str} : Markless ('/' :: tail) ↔ Markless tail := by
  have hhead : ∀ marker ∈ defangMarkers, ¬ marker.1 = [] ∧ marker.1.head? ≠ some '/' := by decide
  refine forall₂_congr fun marker hmem => not_congr ?_
  obtain ⟨hne, hslash⟩ := hhead marker hmem
  obtain ⟨c, mark, hmark⟩ := List.exists_cons_of_ne_nil hne
  rw [List.map_cons, List.infix_cons_iff, or_iff_right]
  intro hstarts
  rw [hmark] at hstarts hslash
  exact hslash (congrArg some (List.cons_prefix_cons.mp hstarts).1)

/-- What `_defang` makes of the text: only the host, the path and the query may change. -/
theorem defang_queryUrl {tail : Str} (h : QueryUrl scheme host port ('/' :: tail) query)
    (hhost : replaceMarkers rt defangMarkers host = some text)
    (htail : replaceMarkers rt defangMarkers tail = some text')
    (hquery : replaceMarkers rt defangMarkers (rstripChars stripSet query) = some s) :
    defang rt (queryUrl scheme host port ('/' :: tail) query) =
      some (urlOf scheme (hostPort text port) ('/' :: text' ++ '?' :: rstripChars stripSet s)) := by
  have hprint : ∀ s : Str, (∀ c ∈ s, isUrlChar c = true) → ∀ c ∈ s, isPrintable c = true :=
    fun s hs c hc => (isUrlChar_iff.mp (hs c hc)).1
  have htailPrint := hprint tail fun c hc => (h.path_chars c (List.mem_cons_of_mem _ hc)).1
  have hqueryPrint : ∀ c ∈ rstripChars stripSet query, isPrintable c = true := fun c hc =>
    hprint _ h.query_chars c (mem_of_mem_rstripChars hc)
  have hmark : ∀ marker ∈ defangMarkers, asciiLower '?' ∉ marker.1 := by decide
  have hright : replaceMarkers rt defangMarkers (rstripChars stripSet (tail ++ '?' :: query)) =
      some (text' ++ '?' :: s) := by
    rw [rstrip_append_cons rfl]
    exact replaceMarkers_separated (List.Subset.refl _) rfl hmark
      (isascii_of_printable htailPrint) (isascii_of_printable hqueryPrint) htail hquery
  have hscheme := isScheme_of_lower h.scheme
  have hhead : ∀ rest c, (scheme ++ "://".toList ++ rest).head? = some c →
      stripSet.contains c = false := by
    intro rest c hc
    rw [List.append_assoc] at hc
    exact hscheme.head_kept hc
  have hfront : ∀ c ∈ scheme ++ "://".toList, isPrintable c = true := by
    intro c hc
    rcases List.mem_append.mp hc with hc | hc
    · exact isPrintable_of_isSchemeChar (hscheme.chars c hc)
    · exact (by decide : ∀ c ∈ "://".toList, isPrintable c = true) c hc
  have hdefang := defang_slashed _ (hostPort host port) (tail ++ '?' :: query)
    (clear_scheme h.scheme)
    (fun c hc => (List.mem_append.mp hc).elim (hfront c) fun hc =>
      (isPrintable_of_hostPort h.host.chars c hc).1)
    (fun c hc => (isPrintable_of_hostPort h.host.chars c hc).2.2)
    (fun c hc => by
      rcases List.mem_append.mp hc with hc | hc
      · exact htailPrint c hc
      · rcases List.mem_cons.mp hc with rfl | hc
        · rfl
        · exact hprint _ h.query_chars c hc)
    (hhead _) (hhead _) (hostPort_replaced h.host.chars hhost) hright
  rw [rstrip_append_cons rfl] at hdefang
  simpa [queryUrl, urlOf] using hdefang

/-- What the text is read as. -/
theorem normalize_queryUrl (h : QueryUrl scheme host port path query) :
    ∃ host' tail tail' query' : Str, path = '/' :: tail ∧ (∀ c ∈ host', isHostChar c = true) ∧
      replaceMarkers rt defangMarkers tail = some tail' ∧
      replaceMarkers rt defangMarkers (rstripChars stripSet query) = some query' ∧ '?' ∉ tail' ∧
      normalize rt skipPrivate skipTlds (queryUrl scheme host port path query) =
        .ok ⟨queryUrl scheme host port path query, urlunsplit ⟨scheme.map asciiLower,
          location (scheme.map asciiLower) (host'.map asciiLower) port, '/' :: tail',
          rstripChars stripSet query', []⟩, .url, skipOf skipTlds (host'.map asciiLower)⟩ := by
  obtain ⟨tail, rfl⟩ := List.head?_eq_some_iff.mp h.path_head
  have htailChars : ∀ c ∈ tail, isUrlChar c = true ∧ c ≠ '?' := fun c hc =>
    h.path_chars c (List.mem_cons_of_mem _ hc)
  have hqueryChars : ∀ c ∈ rstripChars stripSet query, isUrlChar c = true := fun c hc =>
    h.query_chars c (mem_of_mem_rstripChars hc)
  have hascii : ∀ s : Str, (∀ c ∈ s, isUrlChar c = true) → isascii s = true := fun s hs =>
    isascii_of_printable fun c hc => (isUrlChar_iff.mp (hs c hc)).1
  obtain ⟨host', hhost', -⟩ := replaceMarkers_ascii rt (List.Subset.refl defangMarkers)
    (isascii_of_host h.host.chars)
  obtain ⟨tail', htail', -⟩ := replaceMarkers_ascii rt (List.Subset.refl defangMarkers)
    (hascii tail fun c hc => (htailChars c hc).1)
  obtain ⟨query', hquery', -⟩ := replaceMarkers_ascii rt (List.Subset.refl defangMarkers)
    (hascii _ hqueryChars)
  obtain ⟨hhostChars, hhostNe⟩ := host_replaced (List.Subset.refl _) h.host.chars hhost'
  have htailChars' : ∀ c ∈ tail', isUrlChar c = true ∧ c ≠ '?' :=
    forall_of_replaceMarkers (by decide) (List.Subset.refl _) htailChars htail'
  have hqueryChars' : ∀ c ∈ rstripChars stripSet query', isUrlChar c = true := fun c hc =>
    forall_of_replaceMarkers (p := fun c => isUrlChar c = true) (by decide) (List.Subset.refl _)
      hqueryChars hquery' c (mem_of_mem_rstripChars hc)
  have hquestion : '?' ∉ '/' :: tail' := by
    simp only [List.mem_cons, not_or]
    exact ⟨by decide, fun hmem => (htailChars' _ hmem).2 rfl⟩
  have hrest : ∀ c ∈ '/' :: tail' ++ '?' :: rstripChars stripSet query', isUrlChar c = true := by
    simp only [List.mem_append, List.mem_cons]
    rintro c ((rfl | hc) | rfl | hc)
    · rfl
    · exact (htailChars' c hc).1
    · rfl
    · exact hqueryChars' c hc
  refine ⟨host', tail, tail', query', rfl, hhostChars, htail', hquery',
    fun hmem => hquestion (List.mem_cons_of_mem _ hmem), ?_⟩
  rw [normalize_urlOf (isScheme_of_lower h.scheme) hhostChars (hhostNe h.host.ne_nil) h.port
    (fun c hc => by cases hc; decide) (fun c hc => (isUrlChar_iff.mp (hrest c hc)).1)
    (defang_queryUrl h hhost' htail' hquery'),
    partition_of_not_mem fun hmem => (isUrlChar_iff.mp (hrest _ hmem)).2 rfl]
  dsimp only
  rw [partition_append hquestion]

theorem rest_of_urlOf {host host' query' tail tail' : Str} (hhost : '/' ∉ host)
    (hhost' : '/' ∉ host') (htail : '?' ∉ tail) (htail' : '?' ∉ tail')
    (h : urlOf scheme (location scheme host' port) ('/' :: tail' ++ queryText query') =
      urlOf scheme (location scheme host port) ('/' :: tail ++ '?' :: query)) :
    tail' = tail ∧ query' = query := by
  have hlocation : ∀ host : Str, '/' ∉ host → '/' ∉ location scheme host port := by
    intro host hhost hmem
    rcases mem_location hmem with hmem | hmem | hmem
    · exact hhost hmem
    · cases hmem
    · cases hmem
  have hrest := List.append_cancel_left h
  simp only [List.cons.injEq, true_and] at hrest
  obtain ⟨-, hbehind⟩ := append_cons_inj (hlocation _ hhost') (hlocation _ hhost) hrest
  change tail' ++ queryText query' = tail ++ '?' :: query at hbehind
  by_cases hquery : query' = []
  · rw [queryText, if_pos hquery, List.append_nil] at hbehind
    exact absurd (hbehind ▸ List.mem_append_right _ List.mem_cons_self) htail'
  · rw [queryText, if_neg hquery] at hbehind
    exact append_cons_inj htail' htail hbehind

theorem kept_iff_same (h : QueryUrl scheme host port path query) :
    ∃ tail tail' query' : Str, path = '/' :: tail ∧
      replaceMarkers rt defangMarkers tail = some tail' ∧
      replaceMarkers rt defangMarkers (rstripChars stripSet query) = some query' ∧
      (KeepsBytes rt skipPrivate skipTlds scheme host port path query ↔
        tail' = tail ∧ rstripChars stripSet query' = query) := by
  obtain ⟨host', tail, tail', query', rfl, hhost', htail', hquery', hquestion', hnorm⟩ :=
    @normalize_queryUrl rt skipPrivate skipTlds _ _ _ _ _ h
  have hquestion : '?' ∉ tail := fun hmem => (h.path_chars _ (List.mem_cons_of_mem _ hmem)).2 rfl
  have hschemeNe : scheme.map asciiLower ≠ [] := by
    have hne : ∀ scheme ∈ webSchemes, scheme ≠ [] := by decide
    exact hne _ h.scheme
  have hslash : '/' ∉ host'.map asciiLower := by
    intro hmem
    obtain ⟨c, hc, heq⟩ := List.mem_map.mp hmem
    have hchar := hhost' c hc
    rw [eq_of_asciiLower rfl heq] at hchar
    cases hchar
  refine ⟨tail, tail', query', rfl, htail', hquery', ?_⟩
  constructor
  · rintro ⟨value, hvalue, -, kept, hkept, heq⟩
    cases hnorm.symm.trans hvalue
    rw [urlunsplit_urlOf hschemeNe (.inr rfl)] at heq
    exact rest_of_urlOf hkept hslash hquestion hquestion' heq
  · rintro ⟨htail, hquery⟩
    refine ⟨_, hnorm, rfl, host'.map asciiLower, hslash, ?_⟩
    rw [urlunsplit_urlOf hschemeNe (.inr rfl), htail, hquery, queryText, if_neg h.query_ne]

/-- Path and query are kept byte for byte exactly when no marker is in them and the query
does not end in a character that is stripped. -/
theorem bytes_kept_iff (h : QueryUrl scheme host port path query) :
    KeepsBytes rt skipPrivate skipTlds scheme host port path query ↔
      Markless path ∧ Markless query ∧
        ∀ c, query.getLast? = some c → stripSet.contains c = false := by
  obtain ⟨tail, tail', query', rfl, htail, hquery, hkept⟩ :=
    @kept_iff_same rt skipPrivate skipTlds _ _ _ _ _ h
  have hascii : ∀ s : Str, (∀ c ∈ s, isUrlChar c = true) → isascii s = true := fun s hs =>
    isascii_of_printable fun c hc => (isUrlChar_iff.mp (hs c hc)).1
  have htailAscii := hascii tail fun c hc => (h.path_chars c (List.mem_cons_of_mem _ hc)).1
  rw [hkept, markless_slash, replaced_eq_iff htailAscii htail,
    stripped_eq_iff (hascii query h.query_chars) hquery]

end Claim

section Sample

theorem queryUrl_evil {query : Str} (hne : query ≠ []) (h : ∀ c ∈ query, isUrlChar c = true) :
    QueryUrl "http" "evil.com" none "/x" query :=
  ⟨by decide, ⟨["evil", "com"], by decide, by decide, by decide⟩, nofun, rfl, by decide, hne, h⟩

theorem bytes_kept_evil : KeepsBytes sampleRuntime true [] "http" "evil.com" none "/x" "y=1" :=
  (bytes_kept_iff (queryUrl_evil (by decide) (by decide))).mpr
    ⟨by unfold Markless; decide, by unfold Markless; decide, by decide⟩

/-- The brackets of a regular expression in the query are lost. -/
theorem marker_lost : ¬ ∀ (rt : Runtime) (skipPrivate : Bool) (skipTlds : List Str)
    (scheme host : Str) (port : Option ℕ) (path query : Str),
    QueryUrl scheme host port path query →
      KeepsBytes rt skipPrivate skipTlds scheme host port path query := by
  intro hall
  have hurl : QueryUrl "http" "evil.com" none "/x" "y=a[.]b" :=
    queryUrl_evil (by decide) (by decide)
  obtain ⟨tail, tail', query', -, -, hquery, hkept⟩ :=
    @kept_iff_same sampleRuntime true [] _ _ _ _ _ hurl
  have hsame := (hkept.mp (hall sampleRuntime true [] _ _ _ _ _ hurl)).2
  have hmarkless := ((stripped_eq_iff (by decide) hquery).mp hsame).1
  exact hmarkless ("[.]", ".") (by decide) ⟨"y=a", "b", rfl⟩

end Sample

end OpenctiLookup
