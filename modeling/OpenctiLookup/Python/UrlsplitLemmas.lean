import OpenctiLookup.Python.TextLemmas
import OpenctiLookup.Python.Urlsplit

/-! What `urlsplit` returns, and that a URL is split into the parts `urlunsplit` writes
it from. -/
namespace OpenctiLookup.Python

section Urlsplit

variable {rt : Runtime} {url : Str} {parts : SplitResult}

/-- What `urlsplit` returns reads back: the scheme is one, and path and query end
where the next part would begin. -/
structure SplitResult.WellFormed (parts : SplitResult) : Prop where
  scheme_chars : ∀ c ∈ parts.scheme, isSchemeChar c = true
  scheme_lower : parts.scheme.map asciiLower = parts.scheme
  scheme_head : ∀ c, parts.scheme.head? = some c → isAsciiAlpha c = true
  path_start : parts.netloc ≠ [] → parts.path = [] ∨ parts.path.head? = some '/'
  path_chars : ∀ c ∈ parts.path, c ∉ "?#\t\r\n".toList
  query_chars : ∀ c ∈ parts.query, c ∉ "#\t\r\n".toList

def schemeText (scheme : Str) : Str := if scheme = [] then [] else scheme ++ [':']

def queryText (query : Str) : Str := if query = [] then [] else '?' :: query

theorem mem_queryText {query : Str} {c : Char} (h : c ∈ queryText query) : c = '?' ∨ c ∈ query := by
  unfold queryText at h
  split at h
  · cases h
  · exact List.mem_cons.mp h

theorem mem_schemeText {scheme : Str} {c : Char} (h : c ∈ schemeText scheme) :
    c ∈ scheme ∨ c = ':' := by
  unfold schemeText at h
  split at h
  · cases h
  · exact (List.mem_append.mp h).imp_right List.mem_singleton.mp

theorem toNat_of_isAsciiAlpha {c : Char} (h : isAsciiAlpha c = true) : 32 < c.toNat := by
  simp only [isAsciiAlpha, isAsciiLower, isAsciiUpper, Bool.or_eq_true, Bool.and_eq_true,
    decide_eq_true_iff] at h
  rcases h with h | h
  · exact lt_of_lt_of_le (by decide) h.1
  · exact lt_of_lt_of_le (by decide) h.1

theorem urlunsplit_eq {scheme netloc path query : Str}
    (hpath : path = [] ∨ path.head? = some '/') :
    urlunsplit ⟨scheme, netloc, path, query, []⟩ =
      schemeText scheme ++ '/' :: '/' :: (netloc ++ (path ++ queryText query)) := by
  have hstart : (if path.isEmpty || startsWith "/" path then path else '/' :: path) = path := by
    refine if_pos ?_
    rcases hpath with rfl | hhead
    · rfl
    · obtain ⟨rest, rfl⟩ := List.head?_eq_some_iff.mp hhead
      rfl
  unfold urlunsplit schemeText queryText
  dsimp only
  rw [hstart]
  by_cases hscheme : scheme = [] <;> by_cases hquery : query = [] <;> simp [hscheme, hquery]

theorem cleanUrl_of_clean (hhead : ∀ c, url.head? = some c → 32 < c.toNat)
    (hchars : ∀ c ∈ url, c ∉ "\t\r\n".toList) : cleanUrl url = url := by
  unfold cleanUrl
  have hdrop : (url.dropWhile fun c => decide (c.toNat ≤ 32)) = url := by
    cases url with
    | nil => rfl
    | cons c rest =>
        refine List.dropWhile_cons_of_neg ?_
        have := hhead c rfl
        simpa using this
  rw [hdrop, List.filter_eq_self]
  intro c hc
  have := hchars c hc
  simp only [String.reduceToList, List.mem_cons, List.not_mem_nil, or_false, not_or] at this
  simp [this.1, this.2.1, this.2.2]

theorem span_append {p : Char → Bool} {left right : Str} (hleft : ∀ c ∈ left, p c = true)
    (hright : ∀ c, right.head? = some c → p c = false) :
    (left ++ right).span p = (left, right) := by
  rw [List.span_eq_takeWhile_dropWhile, List.takeWhile_append_of_pos hleft,
    List.dropWhile_append_of_pos hleft]
  cases right with
  | nil => simp
  | cons c rest =>
      have hc : ¬ p c = true := by simp [hright c rfl]
      rw [List.takeWhile_cons_of_neg hc, List.dropWhile_cons_of_neg hc, List.append_nil]

variable {scheme netloc path query : Str}

theorem splitScheme_schemeText (hchars : ∀ c ∈ scheme, isSchemeChar c = true)
    (hlower : scheme.map asciiLower = scheme)
    (hhead : ∀ c, scheme.head? = some c → isAsciiAlpha c = true) (rest : Str) :
    splitScheme (schemeText scheme ++ '/' :: rest) = (scheme, '/' :: rest) := by
  unfold splitScheme schemeText
  cases scheme with
  | nil =>
      rw [if_pos rfl, List.nil_append]
      rcases partition_eq ':' ('/' :: rest) with ⟨-, heq⟩ | ⟨left, right, hleft, -, heq⟩
      · rw [heq]
        rfl
      · rw [heq]
        dsimp only
        cases left with
        | nil => exact absurd (List.cons.inj hleft).1 (by decide)
        | cons c left =>
            obtain rfl : '/' = c := (List.cons.inj hleft).1
            rfl
  | cons c scheme =>
      have hcolon : ':' ∉ c :: scheme := fun hmem => absurd (hchars ':' hmem) (by decide)
      rw [if_neg (List.cons_ne_nil _ _), List.append_assoc, List.singleton_append,
        partition_append hcolon]
      dsimp only
      rw [if_pos, hlower]
      rw [List.head?_cons, Option.map_some, Option.getD_some, hhead c rfl,
        List.all_eq_true.mpr hchars]
      rfl

theorem splitNetloc_append (hnetloc : ∀ c ∈ netloc, c ∉ "/?#".toList)
    (hpath : path = [] ∨ path.head? = some '/') :
    splitNetloc (netloc ++ (path ++ queryText query)) = (netloc, path ++ queryText query) := by
  refine span_append (fun c hc => ?_) fun c hc => ?_
  · have := hnetloc c hc
    simp only [String.reduceToList, List.mem_cons, List.not_mem_nil, or_false, not_or] at this
    simp [this.1, this.2.1, this.2.2]
  · rcases hpath with rfl | hhead
    · unfold queryText at hc
      split at hc
      · cases hc
      · cases hc
        rfl
    · rw [List.head?_append, hhead] at hc
      cases hc
      rfl

def locate (url : Str) : Str × Str :=
  if startsWith "//" url then splitNetloc (url.drop 2) else ([], url)

/-- What `urlsplit` checks of a network location. -/
def checkLocation (rt : Runtime) (netloc : Str) : Bool :=
  (netloc.contains '[' == netloc.contains ']') &&
    (!netloc.contains '[' || checkBracketedNetloc netloc) && checkNetloc rt netloc

theorem urlsplit_eq (rt : Runtime) (url : Str) :
    urlsplit rt url =
      if checkLocation rt (locate (splitScheme (cleanUrl url)).2).1 = true then
        some ⟨(splitScheme (cleanUrl url)).1, (locate (splitScheme (cleanUrl url)).2).1,
          (partition '?' (partition '#' (locate (splitScheme (cleanUrl url)).2).2).1).1,
          (partition '?' (partition '#' (locate (splitScheme (cleanUrl url)).2).2).1).2.2,
          (partition '#' (locate (splitScheme (cleanUrl url)).2).2).2.2⟩
      else none := by
  unfold urlsplit locate checkLocation
  generalize splitScheme (cleanUrl url) = schemed
  obtain ⟨scheme, rest⟩ := schemed
  dsimp only
  generalize (if startsWith "//" rest = true then splitNetloc (rest.drop 2) else ([], rest)) =
    located
  obtain ⟨netloc, after⟩ := located
  dsimp only
  by_cases hsame : netloc.contains '[' = netloc.contains ']'
  · rw [if_neg (not_not_intro hsame), beq_iff_eq.mpr hsame, Bool.true_and]
    cases hbracket : netloc.contains '[' with
    | false =>
        rw [if_neg fun h => Bool.noConfusion h.1, Bool.not_false, Bool.true_or, Bool.true_and]
        cases checkNetloc rt netloc <;> rfl
    | true =>
        rw [Bool.not_true, Bool.false_or]
        cases checkBracketedNetloc netloc with
        | false => rw [if_pos ⟨rfl, rfl⟩]; rfl
        | true =>
            rw [if_neg fun h => Bool.noConfusion h.2, Bool.true_and]
            cases checkNetloc rt netloc <;> rfl
  · rw [if_pos hsame, beq_eq_false_iff_ne.mpr hsame]
    rfl

theorem netloc_of_urlsplit (h : urlsplit rt url = some parts) :
    parts.netloc = (locate (splitScheme (cleanUrl url)).2).1 ∧
      checkLocation rt parts.netloc = true := by
  rw [urlsplit_eq] at h
  split at h
  · rename_i hcheck
    cases h
    exact ⟨rfl, hcheck⟩
  · cases h

theorem locate_slashes (hnetloc : ∀ c ∈ netloc, c ∉ "/?#".toList)
    (hpath : path = [] ∨ path.head? = some '/') :
    locate ('/' :: '/' :: (netloc ++ (path ++ queryText query))) =
      (netloc, path ++ queryText query) := by
  have hslashes : startsWith "//" ('/' :: '/' :: (netloc ++ (path ++ queryText query))) = true :=
    rfl
  rw [locate, if_pos hslashes]
  exact splitNetloc_append hnetloc hpath

section Written

variable (hparts : (SplitResult.mk scheme netloc path query []).WellFormed)

include hparts

theorem partition_fragment_written :
    partition '#' (path ++ queryText query) = (path ++ queryText query, false, []) := by
  apply partition_of_not_mem
  intro hmem
  rcases List.mem_append.mp hmem with hmem | hmem
  · exact absurd (hparts.path_chars '#' hmem) (by decide)
  · rcases mem_queryText hmem with hmark | hmem
    · cases hmark
    · exact absurd (hparts.query_chars '#' hmem) (by decide)

theorem partition_query_written :
    partition '?' (path ++ queryText query) = (path, !query.isEmpty, query) := by
  have hmark : '?' ∉ path := fun hmem => absurd (hparts.path_chars '?' hmem) (by decide)
  unfold queryText
  cases query with
  | nil =>
      rw [if_pos rfl, List.append_nil, partition_of_not_mem hmark]
      rfl
  | cons c query =>
      rw [if_neg (List.cons_ne_nil _ _), partition_append hmark]
      rfl

theorem not_mem_written (hnetloc : ∀ c ∈ netloc, c ∉ "/?#[]\t\r\n".toList) {c : Char}
    (hbad : c ∈ "\t\r\n".toList) :
    c ∉ schemeText scheme ++ '/' :: '/' :: (netloc ++ (path ++ queryText query)) := by
  have hblank : "\t\r\n".toList ⊆ "/?#[]\t\r\n".toList := by decide
  have hblank' : "\t\r\n".toList ⊆ "?#\t\r\n".toList := by decide
  have hblank'' : "\t\r\n".toList ⊆ "#\t\r\n".toList := by decide
  have hscheme : ∀ c ∈ "\t\r\n".toList,
      isSchemeChar c = false ∧ c ≠ ':' ∧ c ≠ '/' ∧ c ≠ '?' :=
    List.all_iff_forall_prop.mp (by decide)
  obtain ⟨hchar, hcolon, hslash, hmark⟩ := hscheme c hbad
  intro hc
  rcases List.mem_append.mp hc with hc | hc
  · rcases mem_schemeText hc with hc | hc
    · simp [hparts.scheme_chars c hc] at hchar
    · exact hcolon hc
  · simp only [List.mem_cons, List.mem_append] at hc
    rcases hc with hc | hc | hc | hc | hc
    · exact hslash hc
    · exact hslash hc
    · exact hnetloc c hc (hblank hbad)
    · exact hparts.path_chars c hc (hblank' hbad)
    · rcases mem_queryText hc with hc | hc
      · exact hmark hc
      · exact hparts.query_chars c hc (hblank'' hbad)

theorem cleanUrl_written (hpath : path = [] ∨ path.head? = some '/')
    (hnetloc : ∀ c ∈ netloc, c ∉ "/?#[]\t\r\n".toList) :
    cleanUrl (urlunsplit ⟨scheme, netloc, path, query, []⟩) =
      urlunsplit ⟨scheme, netloc, path, query, []⟩ := by
  rw [urlunsplit_eq hpath]
  refine cleanUrl_of_clean (fun c hc => ?_) fun c hc hbad => not_mem_written hparts hnetloc hbad hc
  unfold schemeText at hc
  split at hc
  · cases hc
    decide
  · rename_i hscheme
    rw [List.append_assoc, List.head?_append_of_ne_nil _ hscheme] at hc
    exact toNat_of_isAsciiAlpha (hparts.scheme_head c hc)

end Written

theorem urlsplit_urlunsplit (hparts : (SplitResult.mk scheme netloc path query []).WellFormed)
    (hne : netloc ≠ []) (hnetloc : ∀ c ∈ netloc, c ∉ "/?#[]\t\r\n".toList)
    (hcheck : checkNetloc rt netloc = true) :
    urlsplit rt (urlunsplit ⟨scheme, netloc, path, query, []⟩) =
      some ⟨scheme, netloc, path, query, []⟩ := by
  have hpath : path = [] ∨ path.head? = some '/' := hparts.path_start hne
  have hends : "/?#".toList ⊆ "/?#[]\t\r\n".toList := by decide
  have hdelims : "[]".toList ⊆ "/?#[]\t\r\n".toList := by decide
  have hbracket : ∀ c ∈ "[]".toList, netloc.contains c = false := by
    intro c hc
    rw [← Bool.not_eq_true, List.contains_iff_mem]
    intro hmem
    exact hnetloc c hmem (hdelims hc)
  have hnetloc' : ∀ c ∈ netloc, c ∉ "/?#".toList := fun c hc hbad => hnetloc c hc (hends hbad)
  have hlocation : checkLocation rt netloc = true := by
    rw [checkLocation, hbracket '[' (by decide), hbracket ']' (by decide), hcheck]
    rfl
  rw [urlsplit_eq, cleanUrl_written hparts hpath hnetloc, urlunsplit_eq hpath,
    splitScheme_schemeText hparts.scheme_chars hparts.scheme_lower hparts.scheme_head,
    locate_slashes hnetloc' hpath, partition_fragment_written hparts,
    partition_query_written hparts, if_pos hlocation]

theorem asciiLower_schemeChar {c : Char} (h : isSchemeChar c = true) :
    isSchemeChar (asciiLower c) = true ∧ (isAsciiAlpha c = true →
      isAsciiAlpha (asciiLower c) = true) := by
  rcases asciiLower_cases c with ⟨-, heq⟩ | ⟨-, hlower⟩
  · rw [heq]
    exact ⟨h, id⟩
  · simp [isSchemeChar, isAsciiAlpha, hlower]

theorem not_mem_cleanUrl {c : Char} (h : c ∈ cleanUrl url) : c ∉ "\t\r\n".toList := by
  have hkept := (List.mem_filter.mp h).2
  simp only [Bool.and_eq_true, bne_iff_ne] at hkept
  simp [hkept.1.1, hkept.1.2, hkept.2]

theorem splitScheme_spec (url : Str) :
    ((splitScheme url).1 = [] ∧ (splitScheme url).2 = url) ∨
      ∃ scheme rest, url = scheme ++ ':' :: rest ∧
        splitScheme url = (scheme.map asciiLower, rest) ∧ scheme.all isSchemeChar = true ∧
          ∃ c, scheme.head? = some c ∧ isAsciiAlpha c = true := by
  unfold splitScheme
  rcases partition_eq ':' url with ⟨-, heq⟩ | ⟨scheme, rest, hurl, -, heq⟩
  · rw [heq]
    exact .inl ⟨rfl, rfl⟩
  · rw [heq]
    dsimp only
    split
    · rename_i h
      rw [Bool.true_and, Bool.and_eq_true] at h
      refine .inr ⟨scheme, rest, hurl, rfl, h.2, ?_⟩
      cases hhead : scheme.head? with
      | none =>
          rw [hhead] at h
          exact absurd h.1 (by decide)
      | some c =>
          rw [hhead] at h
          exact ⟨c, rfl, h.1⟩
    · exact .inl ⟨rfl, rfl⟩

theorem splitNetloc_spec (url : Str) :
    (splitNetloc url).1 ++ (splitNetloc url).2 = url ∧
      (∀ c ∈ (splitNetloc url).1, c ∉ "/?#".toList) ∧
        ∀ c, (splitNetloc url).2.head? = some c → c ∈ "/?#".toList := by
  unfold splitNetloc
  rw [List.span_eq_takeWhile_dropWhile]
  refine ⟨List.takeWhile_append_dropWhile, fun c hc => ?_, fun c hc => ?_⟩
  · have := List.mem_takeWhile_imp hc
    simp only [Bool.and_eq_true, bne_iff_ne] at this
    simp [this.1.1, this.1.2, this.2]
  · have hnot := List.head?_dropWhile_not (fun c => c != '/' && c != '?' && c != '#') url
    rw [hc] at hnot
    simp only [Bool.and_eq_false_iff, bne_eq_false_iff_eq] at hnot
    simpa [or_assoc] using hnot

theorem mem_locate {c : Char} (h : c ∈ (locate url).1 ∨ c ∈ (locate url).2) : c ∈ url := by
  unfold locate at h
  split at h
  · have hwhole := (splitNetloc_spec (url.drop 2)).1
    refine List.mem_of_mem_drop (i := 2) (hwhole ▸ ?_)
    exact List.mem_append.mpr h
  · exact h.resolve_left List.not_mem_nil

theorem wellFormed_scheme (url : Str) :
    (∀ c ∈ (splitScheme url).1, isSchemeChar c = true) ∧
      (splitScheme url).1.map asciiLower = (splitScheme url).1 ∧
        ∀ c, (splitScheme url).1.head? = some c → isAsciiAlpha c = true := by
  rcases splitScheme_spec url with ⟨heq, -⟩ | ⟨scheme, rest, -, heq, hchars, c, hhead, halpha⟩
  · rw [heq]
    exact ⟨fun c hc => (nomatch hc), rfl, fun c hc => (nomatch hc)⟩
  · rw [heq]
    have hlowered : ∀ d ∈ scheme, isSchemeChar d = true := List.all_eq_true.mp hchars
    refine ⟨fun d hd => ?_, ?_, fun d hd => ?_⟩
    · obtain ⟨e, he, rfl⟩ := List.mem_map.mp hd
      exact (asciiLower_schemeChar (hlowered e he)).1
    · rw [List.map_map]
      exact List.map_congr_left fun d _ => asciiLower_idem d
    · dsimp only at hd
      rw [List.head?_map, hhead] at hd
      cases hd
      exact (asciiLower_schemeChar (hlowered c (List.mem_of_head? hhead))).2 halpha

theorem path_start_of_locate (hne : (locate url).1 ≠ []) {path : Str}
    (hpath : path <+: (locate url).2) (hmark : '?' ∉ path) (hhash : '#' ∉ path) :
    path = [] ∨ path.head? = some '/' := by
  cases path with
  | nil => exact .inl rfl
  | cons c path =>
      obtain ⟨rest, hrest⟩ := hpath
      unfold locate at hne hrest
      split at hne
      · rename_i hslashes
        rw [if_pos hslashes] at hrest
        have hdelim := (splitNetloc_spec (url.drop 2)).2.2 c (by rw [← hrest]; rfl)
        simp only [String.reduceToList, List.mem_cons, List.not_mem_nil, or_false] at hdelim
        rcases hdelim with rfl | rfl | rfl
        · exact .inr rfl
        · exact absurd List.mem_cons_self hmark
        · exact absurd List.mem_cons_self hhash
      · exact absurd rfl hne

/-- Whatever `urlsplit` accepts is well formed, and its location ends at a delimiter. -/
theorem wellFormed_of_urlsplit (h : urlsplit rt url = some parts) :
    parts.WellFormed ∧ ∀ c ∈ parts.netloc, c ∉ "/?#\t\r\n".toList := by
  rw [urlsplit_eq] at h
  split at h
  swap
  · cases h
  cases h
  have hscheme := wellFormed_scheme (cleanUrl url)
  have hkeep : ∀ c ∈ (splitScheme (cleanUrl url)).2, c ∉ "\t\r\n".toList := by
    intro c hc
    rcases splitScheme_spec (cleanUrl url) with ⟨-, heq⟩ | ⟨scheme, rest, hurl, heq, -⟩
    · rw [heq] at hc
      exact not_mem_cleanUrl hc
    · rw [heq] at hc
      refine @not_mem_cleanUrl url c ?_
      rw [hurl]
      exact List.mem_append_right _ (List.mem_cons_of_mem _ hc)
  generalize (splitScheme (cleanUrl url)).2 = rest at hkeep ⊢
  have hpath : (partition '?' (partition '#' (locate rest).2).1).1 <+: (locate rest).2 :=
    partition_fst_start.trans partition_fst_start
  have hquery : (partition '?' (partition '#' (locate rest).2).1).2.2 <:+
      (partition '#' (locate rest).2).1 :=
    partition_snd_suffix
  have hhash : '#' ∉ (partition '#' (locate rest).2).1 := not_mem_partition_fst
  have hmark : '?' ∉ (partition '?' (partition '#' (locate rest).2).1).1 := not_mem_partition_fst
  have hlocated : ∀ c, c ∈ (locate rest).1 ∨ c ∈ (locate rest).2 → c ∉ "\t\r\n".toList :=
    fun c hc => hkeep c (mem_locate hc)
  have hnetloc : ∀ c ∈ (locate rest).1, c ∉ "/?#".toList := by
    unfold locate
    split
    · exact (splitNetloc_spec _).2.1
    · exact fun c hc => nomatch hc
  refine ⟨⟨hscheme.1, hscheme.2.1, hscheme.2.2, fun hne => ?_, fun c hc => ?_, fun c hc => ?_⟩,
    fun c hc => ?_⟩
  · exact path_start_of_locate hne hpath hmark fun hmem =>
      hhash (partition_fst_start.subset hmem)
  · have hblank := hlocated c (.inr (hpath.subset hc))
    have hhere : c ≠ '?' ∧ c ≠ '#' := by
      constructor
      · rintro rfl
        exact hmark hc
      · rintro rfl
        exact hhash (partition_fst_start.subset hc)
    simp_all
  · have hblank := hlocated c (.inr (partition_fst_start.subset (hquery.subset hc)))
    have hhere : c ≠ '#' := by
      rintro rfl
      exact hhash (hquery.subset hc)
    simp_all
  · have hblank := hlocated c (.inl hc)
    have hdelim := hnetloc c hc
    simp_all

end Urlsplit

end OpenctiLookup.Python
