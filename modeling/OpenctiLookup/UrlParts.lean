import OpenctiLookup.Classify
import OpenctiLookup.Python.UrlsplitLemmas

/-! The parts `_normalize_url` takes a text apart into, and when the URL it writes from
them is taken apart into the same ones. -/
namespace OpenctiLookup
open Python

section Location

variable {rt : Runtime} {scheme host : Str} {port : Option ℕ}

/-- The network location `_normalize_url` writes. -/
def location (scheme host : Str) (port : Option ℕ) : Str :=
  match port with
  | some p => if some (decimal p) = defaultPort scheme then host else host ++ ":" ++ decimal p
  | none => host

def writtenPort (scheme : Str) (port : Option ℕ) : Option ℕ :=
  port.filter fun p => some (decimal p) ≠ defaultPort scheme

def hostPort (host : Str) : Option ℕ → Str
  | some p => host ++ ':' :: decimal p
  | none => host

theorem location_eq : location scheme host port = hostPort host (writtenPort scheme port) := by
  cases port with
  | none => rfl
  | some p =>
      unfold location writtenPort
      dsimp only
      by_cases hdefault : some (decimal p) = defaultPort scheme
      · rw [if_pos hdefault, Option.filter_some_neg (by simpa using hdefault), hostPort]
      · rw [if_neg hdefault, Option.filter_some_pos (by simpa using hdefault), hostPort]
        simp

theorem location_writtenPort :
    location scheme host (writtenPort scheme port) = location scheme host port := by
  have htwice : writtenPort scheme (writtenPort scheme port) = writtenPort scheme port := by
    unfold writtenPort
    rw [Option.filter_filter]
    simp
  rw [location_eq, location_eq, htwice]

theorem mem_hostPort {c : Char} (h : c ∈ hostPort host port) :
    c ∈ host ∨ c = ':' ∨ isAsciiDigit c = true := by
  unfold hostPort at h
  split at h
  · rcases List.mem_append.mp h with h | h
    · exact .inl h
    · exact .inr ((List.mem_cons.mp h).imp_right isAsciiDigit_decimal)
  · exact .inl h

theorem mem_location {c : Char} (h : c ∈ location scheme host port) :
    c ∈ host ∨ c = ':' ∨ isAsciiDigit c = true :=
  mem_hostPort (location_eq ▸ h)

theorem host_prefix_location : host <+: location scheme host port := by
  rw [location_eq]
  unfold hostPort
  split
  · exact List.prefix_append _ _
  · exact List.prefix_rfl

def readName (rt : Runtime) (host : Str) : Str :=
  let (name, found, zone) := partition '%' host
  rt.lower name ++ (if found then "%" else "") ++ zone

theorem rpartition_of_not_mem {sep : Char} {s : Str} (h : sep ∉ s) :
    rpartition sep s = ([], false, s) := by
  rw [rpartition, partition_of_not_mem (by simpa using h)]
  rfl

theorem rpartition_append {sep : Char} {text : Str} (h : sep ∉ text) (before : Str) :
    rpartition sep (before ++ sep :: text) = (before, true, text) := by
  have hreverse : (before ++ sep :: text).reverse = text.reverse ++ sep :: before.reverse := by
    simp
  rw [rpartition, hreverse, partition_append (by simpa using h)]
  simp

theorem hostinfo_hostPort (parts : SplitResult) (hnetloc : parts.netloc = hostPort host port)
    (hhost : ∀ c ∈ host, c ∉ "@:[]".toList) :
    parts.hostinfo = (host, port.map decimal) := by
  have hfree : ∀ c ∈ "@[]".toList, c ∉ parts.netloc := by
    have hother : ∀ c ∈ "@[]".toList, c ∈ "@:[]".toList ∧ c ≠ ':' ∧ isAsciiDigit c = false :=
      List.all_iff_forall_prop.mp (by decide)
    intro c hc hmem
    obtain ⟨hdelim, hcolon, hdigit⟩ := hother c hc
    rcases mem_hostPort (hnetloc ▸ hmem) with hmem | hmem | hmem
    · exact hhost c hmem hdelim
    · exact hcolon hmem
    · simp [hmem] at hdigit
  have hcolon : ':' ∉ host := fun hmem => hhost ':' hmem (by decide)
  unfold SplitResult.hostinfo
  rw [rpartition_of_not_mem (hfree '@' (by decide))]
  dsimp only
  rw [partition_of_not_mem (hfree '[' (by decide))]
  dsimp only
  rw [if_neg (by decide), hnetloc]
  cases port with
  | none =>
      rw [hostPort, partition_of_not_mem hcolon]
      rfl
  | some p =>
      rw [hostPort, partition_append hcolon]
      dsimp only
      rw [if_neg (by simp [decimal_ne_nil])]
      rfl

theorem hostname_hostPort (parts : SplitResult) (hnetloc : parts.netloc = hostPort host port)
    (hhost : ∀ c ∈ host, c ∉ "@:[]".toList) (hne : host ≠ []) :
    parts.hostname rt = some (readName rt host) := by
  unfold SplitResult.hostname
  rw [hostinfo_hostPort parts hnetloc hhost]
  dsimp only
  rw [if_neg (by simpa using hne)]
  rfl

theorem port_hostPort (parts : SplitResult) (hnetloc : parts.netloc = hostPort host port)
    (hhost : ∀ c ∈ host, c ∉ "@:[]".toList) (hport : ∀ p, port = some p → p ≤ 65535) :
    parts.port = some port := by
  have hdigits : ∀ p, (decimal p).all isAsciiDigit = true := fun p =>
    List.all_eq_true.mpr fun c hc => isAsciiDigit_decimal hc
  unfold SplitResult.port
  rw [hostinfo_hostPort parts hnetloc hhost]
  cases port with
  | none => rfl
  | some p =>
      have hle := hport p rfl
      dsimp only [Option.map_some]
      rw [hdigits, asciiInt_decimal, if_pos (by simpa using hle)]

variable (rt) in
theorem hostname_location (parts : SplitResult) (hnetloc : parts.netloc = location scheme host port)
    (hhost : ∀ c ∈ host, c ∉ "@:[]".toList) (hne : host ≠ []) :
    parts.hostname rt = some (readName rt host) :=
  hostname_hostPort parts (hnetloc.trans location_eq) hhost hne

theorem port_location (parts : SplitResult) (hnetloc : parts.netloc = location scheme host port)
    (hhost : ∀ c ∈ host, c ∉ "@:[]".toList) (hport : ∀ p, port = some p → p ≤ 65535) :
    parts.port = some (writtenPort scheme port) :=
  port_hostPort parts (hnetloc.trans location_eq) hhost fun p hp =>
    hport p (Option.filter_eq_some_iff.mp hp).1

end Location

section Reads

variable {rt : Runtime} {raw url host hostname : Str} {parts : SplitResult} {port : Option ℕ}

/-- What `_normalize_url` hands to `urlsplit`. -/
def candidate (raw : Str) : Str := if isIn "://" raw then raw else "http://" ++ raw

/-- `_normalize_url` gets these parts, this hostname and this port out of a text. -/
structure UrlReads (rt : Runtime) (raw : Str) (parts : SplitResult) (hostname : Str)
    (port : Option ℕ) : Prop where
  split : urlsplit rt (candidate raw) = some parts
  hostname : parts.hostname rt = some hostname
  port : parts.port = some port

theorem isAscii_of_isSchemeChar {c : Char} (h : isSchemeChar c = true) : isAscii c = true := by
  simp only [isSchemeChar, isAsciiAlpha, isAsciiLower, isAsciiUpper, isAsciiDigit, Bool.or_eq_true,
    Bool.and_eq_true, decide_eq_true_iff, beq_iff_eq] at h
  rcases h with (((((h | h) | h) | rfl) | rfl) | rfl)
  · exact isAscii_of_le h.2 (by decide)
  · exact isAscii_of_le h.2 (by decide)
  · exact isAscii_of_le h.2 (by decide)
  · decide
  · decide
  · decide

theorem isascii_scheme (h : parts.WellFormed) : isascii parts.scheme = true :=
  List.all_eq_true.mpr fun c hc => isAscii_of_isSchemeChar (h.scheme_chars c hc)

theorem lower_scheme (h : parts.WellFormed) : rt.lower parts.scheme = parts.scheme := by
  rw [lower_of_isascii rt (isascii_scheme h), h.scheme_lower]

theorem normalizeUrl_eq_some_iff :
    normalizeUrl rt raw = some (url, host) ↔
      ∃ parts hostname port, UrlReads rt raw parts hostname port ∧
        host = toPunycode rt hostname ∧
          url = urlunsplit ⟨parts.scheme, location parts.scheme host port, parts.path,
            parts.query, []⟩ := by
  unfold normalizeUrl
  constructor
  · intro h
    obtain ⟨parts, hsplit, h⟩ := Option.bind_eq_some_iff.mp h
    obtain ⟨hostname, hhostname, h⟩ := Option.bind_eq_some_iff.mp h
    obtain ⟨port, hport, h⟩ := Option.bind_eq_some_iff.mp h
    obtain ⟨rfl, rfl⟩ := Prod.mk.inj (Option.some.inj h)
    refine ⟨parts, hostname, port, ⟨hsplit, hhostname, hport⟩, rfl, ?_⟩
    rw [lower_scheme (wellFormed_of_urlsplit hsplit).1]
    rfl
  · rintro ⟨parts, hostname, port, ⟨hsplit, hhostname, hport⟩, rfl, rfl⟩
    refine Option.bind_eq_some_iff.mpr ⟨parts, hsplit, ?_⟩
    refine Option.bind_eq_some_iff.mpr ⟨hostname, hhostname, ?_⟩
    refine Option.bind_eq_some_iff.mpr ⟨port, hport, ?_⟩
    rw [lower_scheme (wellFormed_of_urlsplit hsplit).1]
    rfl

/-- A URL that is read back as it was written, in terms of the parts it is written from:
there is a `://` in it, it ends in nothing to strip, holds no marker, and its host has no
delimiter in it. A host IDNA refuses is the same when it is read again. -/
structure UrlSettled (rt : Runtime) (parts : SplitResult) (hostname : Str) (port : Option ℕ) :
    Prop where
  separator : parts.scheme ≠ [] ∨ isIn "://" parts.path = true ∨ isIn "://" parts.query = true
  ending : EndsPlain (location parts.scheme (toPunycode rt hostname) port ++ parts.path ++
    parts.query)
  unmarked : ∀ text ∈ [parts.scheme,
    location parts.scheme (toPunycode rt hostname) port ++ parts.path, parts.query],
      Unmarked rt text
  host_ne : toPunycode rt hostname ≠ []
  delimited : ∀ c ∈ toPunycode rt hostname, c ∉ "/?#@:[]\t\r\n".toList
  refused : isascii hostname = false → rt.idna hostname = none →
    checkNetloc rt (location parts.scheme (toPunycode rt hostname) port) = true ∧
      toPunycode rt (readName rt (toPunycode rt hostname)) = toPunycode rt hostname

/-- The host written from these parts ends where it should, and its location is accepted. -/
structure HostWritten (rt : Runtime) (parts : SplitResult) (hostname : Str) (port : Option ℕ) :
    Prop where
  host_ne : toPunycode rt hostname ≠ []
  delimited : ∀ c ∈ toPunycode rt hostname, c ∉ "/?#@:[]\t\r\n".toList
  refused : isascii hostname = false → rt.idna hostname = none →
    checkNetloc rt (location parts.scheme (toPunycode rt hostname) port) = true

theorem UrlSettled.written (h : UrlSettled rt parts hostname port) :
    HostWritten rt parts hostname port :=
  ⟨h.host_ne, h.delimited, fun hascii hnone => (h.refused hascii hnone).1⟩

theorem map_asciiLower_of_lower {s : Str} :
    (s.map asciiLower).map asciiLower = s.map asciiLower := by
  rw [List.map_map]
  exact List.map_congr_left fun c _ => asciiLower_idem c

theorem isascii_map_asciiLower {s : Str} (h : isascii s = true) :
    isascii (s.map asciiLower) = true := by
  refine List.all_eq_true.mpr fun d hd => ?_
  obtain ⟨c, hc, rfl⟩ := List.mem_map.mp hd
  exact isAscii_asciiLower (List.all_eq_true.mp h c hc)

theorem readName_of_lower (hascii : isascii host = true) (hlower : host.map asciiLower = host) :
    readName rt host = host := by
  unfold readName
  rcases partition_eq '%' host with ⟨-, heq⟩ | ⟨name, zone, rfl, -, heq⟩
  · rw [heq]
    dsimp only
    rw [lower_of_isascii rt hascii, hlower]
    simp
  · rw [heq]
    dsimp only
    have hname : isascii name = true :=
      List.all_eq_true.mpr fun c hc => List.all_eq_true.mp hascii c (List.mem_append_left _ hc)
    rw [List.map_append] at hlower
    rw [lower_of_isascii rt hname, (List.append_inj hlower (by simp)).1]
    simp

theorem toPunycode_ascii (h : isascii hostname = false → rt.idna hostname ≠ none) :
    isascii (toPunycode rt hostname) = true ∧
      (toPunycode rt hostname).map asciiLower = toPunycode rt hostname := by
  unfold toPunycode
  by_cases hascii : isascii hostname = true
  · rw [if_pos hascii, lower_of_isascii rt hascii]
    exact ⟨isascii_map_asciiLower hascii, map_asciiLower_of_lower⟩
  · rw [if_neg hascii]
    cases hidna : rt.idna hostname with
    | none => exact absurd hidna (h ((Bool.not_eq_true _).mp hascii))
    | some encoded =>
        have hencoded := rt.idna_ascii hostname encoded hidna
        dsimp only
        rw [lower_of_isascii rt hencoded]
        exact ⟨isascii_map_asciiLower hencoded, map_asciiLower_of_lower⟩

theorem toPunycode_readName (h : isascii hostname = false → rt.idna hostname = none →
      toPunycode rt (readName rt (toPunycode rt hostname)) = toPunycode rt hostname) :
    toPunycode rt (readName rt (toPunycode rt hostname)) = toPunycode rt hostname := by
  by_cases hrefused : isascii hostname = false ∧ rt.idna hostname = none
  · exact h hrefused.1 hrefused.2
  · obtain ⟨hascii, hlower⟩ := @toPunycode_ascii rt hostname fun hascii hnone =>
      hrefused ⟨hascii, hnone⟩
    generalize toPunycode rt hostname = host at hascii hlower ⊢
    rw [readName_of_lower hascii hlower, toPunycode, if_pos hascii, lower_of_isascii rt hascii,
      hlower]

theorem relocated (h : parts.WellFormed) (hstart : parts.netloc ≠ []) (netloc : Str) :
    (SplitResult.mk parts.scheme netloc parts.path parts.query []).WellFormed :=
  ⟨h.scheme_chars, h.scheme_lower, h.scheme_head, fun _ => h.path_start hstart, h.path_chars,
    h.query_chars⟩

theorem netloc_ne_nil (h : parts.hostname rt = some hostname) : parts.netloc ≠ [] := by
  intro hnil
  unfold SplitResult.hostname SplitResult.hostinfo at h
  rw [hnil] at h
  cases h

theorem port_le (h : parts.port = some port) {p : ℕ} (hp : port = some p) : p ≤ 65535 := by
  unfold SplitResult.port at h
  split at h
  · cases h
    cases hp
  · split at h
    · rename_i hok
      cases h
      cases hp
      rw [Bool.and_eq_true, decide_eq_true_iff] at hok
      exact hok.2
    · cases h

theorem location_ne_nil (h : HostWritten rt parts hostname port) :
    location parts.scheme (toPunycode rt hostname) port ≠ [] := fun hnil =>
  h.host_ne (List.prefix_nil.mp (hnil ▸ host_prefix_location))

theorem checkNetloc_location (h : HostWritten rt parts hostname port) :
    checkNetloc rt (location parts.scheme (toPunycode rt hostname) port) = true := by
  by_cases hrefused : isascii hostname = false ∧ rt.idna hostname = none
  · exact h.refused hrefused.1 hrefused.2
  · have hascii := (@toPunycode_ascii rt hostname fun hascii hnone => hrefused ⟨hascii, hnone⟩).1
    refine if_pos (List.all_eq_true.mpr fun c hc => ?_)
    rcases mem_location hc with hc | rfl | hc
    · exact List.all_eq_true.mp hascii c hc
    · rfl
    · exact isAscii_of_isSchemeChar (by simp [isSchemeChar, hc])

theorem not_mem_location {scheme : Str} (h : ∀ c ∈ host, c ∉ "/?#@:[]\t\r\n".toList) :
    ∀ c ∈ location scheme host port, c ∉ "/?#[]\t\r\n".toList := by
  have hother : ∀ c ∈ "/?#[]\t\r\n".toList,
      c ∈ "/?#@:[]\t\r\n".toList ∧ c ≠ ':' ∧ isAsciiDigit c = false :=
    List.all_iff_forall_prop.mp (by decide)
  intro c hc hbad
  obtain ⟨hdelim, hcolon, hdigit⟩ := hother c hbad
  rcases mem_location hc with hc | hc | hc
  · exact h c hc hdelim
  · exact hcolon hc
  · simp [hc] at hdigit

theorem urlsplit_written (hreads : UrlReads rt raw parts hostname port)
    (h : HostWritten rt parts hostname port) :
    urlsplit rt (urlunsplit ⟨parts.scheme, location parts.scheme (toPunycode rt hostname) port,
        parts.path, parts.query, []⟩) =
      some ⟨parts.scheme, location parts.scheme (toPunycode rt hostname) port, parts.path,
        parts.query, []⟩ :=
  urlsplit_urlunsplit
    (relocated (wellFormed_of_urlsplit hreads.split).1 (netloc_ne_nil hreads.hostname) _)
    (location_ne_nil h) (not_mem_location h.delimited) (checkNetloc_location h)

theorem HostWritten.delims (h : HostWritten rt parts hostname port) :
    ∀ c ∈ toPunycode rt hostname, c ∉ "@:[]".toList := by
  intro c hc hbad
  exact h.delimited c hc ((by decide : "@:[]".toList ⊆ "/?#@:[]\t\r\n".toList) hbad)

theorem candidate_of_settled (hwell : parts.WellFormed) (hstart : parts.netloc ≠ [])
    (h : UrlSettled rt parts hostname port)
    (hurl : url = urlunsplit ⟨parts.scheme,
      location parts.scheme (toPunycode rt hostname) port, parts.path, parts.query, []⟩) :
    candidate url = url := by
  refine if_pos (isIn_iff.mpr ?_)
  rw [hurl, urlunsplit_eq (hwell.path_start hstart)]
  rcases h.separator with hscheme | hpath | hquery
  · rw [schemeText, if_neg hscheme]
    exact ⟨parts.scheme, location parts.scheme (toPunycode rt hostname) port ++
      (parts.path ++ queryText parts.query), by simp⟩
  · obtain ⟨before, after, hwithin⟩ := isIn_iff.mp hpath
    rw [← hwithin]
    refine ⟨schemeText parts.scheme ++ '/' :: '/' ::
      (location parts.scheme (toPunycode rt hostname) port ++ before),
      after ++ queryText parts.query, by simp⟩
  · obtain ⟨before, after, hwithin⟩ := isIn_iff.mp hquery
    have hne : parts.query ≠ [] := by
      rintro hnil
      rw [hnil] at hquery
      cases hquery
    rw [queryText, if_neg hne, ← hwithin]
    exact ⟨schemeText parts.scheme ++ '/' :: '/' ::
      (location parts.scheme (toPunycode rt hostname) port ++ parts.path ++ '?' :: before),
      after, by simp⟩

theorem normalizeUrl_of_settled (hreads : UrlReads rt raw parts hostname port)
    (h : UrlSettled rt parts hostname port)
    (hurl : url = urlunsplit ⟨parts.scheme,
      location parts.scheme (toPunycode rt hostname) port, parts.path, parts.query, []⟩) :
    normalizeUrl rt url = some (url, toPunycode rt hostname) := by
  have hwell := (wellFormed_of_urlsplit hreads.split).1
  have hstart := netloc_ne_nil hreads.hostname
  have hdelims := h.written.delims
  have hsplit : urlsplit rt url = some ⟨parts.scheme,
      location parts.scheme (toPunycode rt hostname) port, parts.path, parts.query, []⟩ := by
    rw [hurl]
    exact urlsplit_written hreads h.written
  have hcandidate : candidate url = url := candidate_of_settled hwell hstart h hurl
  refine normalizeUrl_eq_some_iff.mpr ⟨_, _, writtenPort parts.scheme port,
    ⟨hcandidate.symm ▸ hsplit, hostname_location _ _ rfl hdelims h.host_ne,
      port_location _ rfl hdelims fun p => port_le hreads.port⟩,
    (toPunycode_readName fun hascii hnone => (h.refused hascii hnone).2).symm, ?_⟩
  rw [hurl, location_writtenPort]

theorem getLast_queryText (text query : Str) :
    (text ++ queryText query).getLast? = (text ++ query).getLast? := by
  unfold queryText
  by_cases hquery : query = []
  · rw [if_pos hquery, hquery]
  · rw [if_neg hquery, List.getLast?_append_of_ne_nil _ (List.cons_ne_nil _ _),
      List.getLast?_append_of_ne_nil _ hquery, List.getLast?_cons_of_ne_nil hquery]

section Marks

variable {marker : Str}

theorem infix_behind (hmark : '?' ∉ marker) {text query : Str}
    (hin : marker <:+: (text ++ queryText query).flatMap (lowerMask rt)) :
    marker <:+: text.flatMap (lowerMask rt) ∨ marker <:+: query.flatMap (lowerMask rt) := by
  rw [List.flatMap_append] at hin
  unfold queryText at hin
  split at hin
  · rw [List.flatMap_nil, List.append_nil] at hin
    exact .inl hin
  · exact infix_of_infix_append_cons hmark hin

theorem infix_schemed (hne : marker ≠ []) (hcolon : ':' ∉ marker) (hslash : '/' ∉ marker)
    {scheme text : Str}
    (hin : marker <:+: (schemeText scheme ++ '/' :: '/' :: text).flatMap (lowerMask rt)) :
    marker <:+: scheme.flatMap (lowerMask rt) ∨ marker <:+: text.flatMap (lowerMask rt) := by
  have hnil : ¬ marker <:+: [] := fun hin => hne (List.infix_nil.mp hin)
  rw [List.flatMap_append] at hin
  rcases infix_of_infix_append_cons hslash hin with hin | hin
  · unfold schemeText at hin
    split at hin
    · exact absurd hin hnil
    · rw [List.flatMap_append] at hin
      rcases infix_of_infix_append_cons hcolon hin with hin | hin
      · exact .inl hin
      · exact absurd hin hnil
  · rcases @infix_of_infix_append_cons _ [] _ _ hslash hin with hin | hin
    · exact absurd hin hnil
    · exact .inr hin

theorem infix_bracketed (hwell : parts.WellFormed) (hopen : marker.head? = some '[') {text : Str}
    (hin : marker <:+: (schemeText parts.scheme ++ '/' :: '/' :: text).flatMap (lowerMask rt)) :
    marker <:+: text.flatMap (lowerMask rt) := by
  obtain ⟨rest, rfl⟩ := List.head?_eq_some_iff.mp hopen
  have hfree : '[' ∉ (schemeText parts.scheme).flatMap (lowerMask rt) ++ ['/', '/'] := by
    rw [List.mem_append]
    rintro (hin | hin)
    · unfold schemeText at hin
      split at hin
      · cases hin
      · rw [List.flatMap_append, flatMap_lowerMask_of_isascii rt (isascii_scheme hwell),
          hwell.scheme_lower, List.mem_append] at hin
        rcases hin with hin | hin
        · exact absurd (hwell.scheme_chars '[' hin) (by decide)
        · cases List.mem_singleton.mp hin
    · revert hin
      decide
  rw [List.flatMap_append] at hin
  refine infix_of_infix_append hfree ?_
  rw [List.append_assoc]
  exact hin

end Marks

theorem unmarked_of_settled (hwell : parts.WellFormed) {netloc : Str}
    (hstart : parts.path = [] ∨ parts.path.head? = some '/')
    (h : ∀ text ∈ [parts.scheme, netloc ++ parts.path, parts.query], Unmarked rt text) :
    Unmarked rt (urlunsplit ⟨parts.scheme, netloc, parts.path, parts.query, []⟩) := by
  refine unmarked_iff.mpr fun marker hmem => ?_
  have hshape : ∀ marker ∈ defangMarkers, '?' ∉ marker.1 ∧ marker.1 ≠ [] ∧
      ((':' ∉ marker.1 ∧ '/' ∉ marker.1) ∨ marker.1.head? = some '[') := by decide
  obtain ⟨hmark, hne, hdelim⟩ := hshape marker hmem
  have hpiece : ∀ text ∈ [parts.scheme, netloc ++ parts.path, parts.query],
      ¬ marker.1 <:+: text.flatMap (lowerMask rt) :=
    fun text htext => unmarked_iff.mp (h text htext) marker hmem
  have hbehind : ¬ marker.1 <:+:
      (netloc ++ parts.path ++ queryText parts.query).flatMap (lowerMask rt) := by
    intro hin
    rcases infix_behind hmark hin with hin | hin
    · exact hpiece _ (by simp) hin
    · exact hpiece _ (by simp) hin
  rw [urlunsplit_eq hstart, ← List.append_assoc netloc]
  intro hin
  rcases hdelim with ⟨hcolon, hslash⟩ | hopen
  · rcases infix_schemed hne hcolon hslash hin with hin | hin
    · exact hpiece _ (by simp) hin
    · exact hbehind hin
  · exact hbehind (infix_bracketed hwell hopen hin)

theorem end_of_isAsciiAlpha {c : Char} (h : isAsciiAlpha c = true) :
    isSpace c = false ∧ stripSet.contains c = false := by
  have hlower : ∀ n, 97 ≤ n → n ≤ 122 → isSpace (Char.ofNat n) = false ∧
      stripSet.contains (Char.ofNat n) = false := by
    intro n hlo hhi
    interval_cases n <;> decide
  have hupper : ∀ n, 65 ≤ n → n ≤ 90 → isSpace (Char.ofNat n) = false ∧
      stripSet.contains (Char.ofNat n) = false := by
    intro n hlo hhi
    interval_cases n <;> decide
  rw [← Char.ofNat_toNat c]
  rw [isAsciiAlpha, Bool.or_eq_true, isAsciiLower, isAsciiUpper, Bool.and_eq_true, Bool.and_eq_true,
    decide_eq_true_iff, decide_eq_true_iff, decide_eq_true_iff, decide_eq_true_iff] at h
  rcases h with h | h
  · exact hlower c.toNat h.1 h.2
  · exact hupper c.toNat h.1 h.2

/-- A settled URL is one `_defang` leaves alone. -/
theorem undefanged_of_settled (hreads : UrlReads rt raw parts hostname port)
    (h : UrlSettled rt parts hostname port) :
    Undefanged rt (urlunsplit ⟨parts.scheme,
      location parts.scheme (toPunycode rt hostname) port, parts.path, parts.query, []⟩) := by
  have hwell := (wellFormed_of_urlsplit hreads.split).1
  have hstart := hwell.path_start (netloc_ne_nil hreads.hostname)
  have hne := location_ne_nil h.written
  have hhead : ∀ c, (urlunsplit ⟨parts.scheme, location parts.scheme (toPunycode rt hostname) port,
      parts.path, parts.query, []⟩).head? = some c →
        isSpace c = false ∧ stripSet.contains c = false := by
    intro c hc
    rw [urlunsplit_eq hstart] at hc
    unfold schemeText at hc
    split at hc
    · cases hc
      decide
    · rename_i hscheme
      rw [List.append_assoc, List.head?_append_of_ne_nil _ hscheme] at hc
      exact end_of_isAsciiAlpha (hwell.scheme_head c hc)
  have hlast : ∀ c, (urlunsplit ⟨parts.scheme, location parts.scheme (toPunycode rt hostname) port,
      parts.path, parts.query, []⟩).getLast? = some c →
        isSpace c = false ∧ stripSet.contains c = false := by
    intro c hc
    rw [urlunsplit_eq hstart, List.getLast?_append_of_ne_nil _ (List.cons_ne_nil _ _),
      List.getLast?_cons_of_ne_nil (List.cons_ne_nil _ _),
      List.getLast?_cons_of_ne_nil (by simp [hne]), ← List.append_assoc, getLast_queryText] at hc
    exact h.ending c hc
  exact ⟨⟨fun c hc => (hhead c hc).1, fun c hc => (hlast c hc).1⟩,
    ⟨fun c hc => (hhead c hc).2, fun c hc => (hlast c hc).2⟩,
    unmarked_of_settled hwell hstart h.unmarked⟩

end Reads

section Urls

variable {rt : Runtime} {raw hostname : Str} {parts : SplitResult} {port : Option ℕ}

/-- The URL `_normalize_url` writes from the parts it reads. -/
def urlText (rt : Runtime) (parts : SplitResult) (hostname : Str) (port : Option ℕ) : Str :=
  urlunsplit ⟨parts.scheme, location parts.scheme (toPunycode rt hostname) port, parts.path,
    parts.query, []⟩

theorem normalize_url (hreads : UrlReads rt raw parts hostname port)
    (hsettled : UrlSettled rt parts hostname port) {skipTlds : List Str}
    (htld : lastLabel (toPunycode rt hostname) ∉ skipTlds) (skipPrivate : Bool) :
    normalize rt skipPrivate skipTlds (urlText rt parts hostname port) =
      .ok ⟨urlText rt parts hostname port, urlText rt parts hostname port, .url, none⟩ := by
  have hundefanged : Undefanged rt (urlText rt parts hostname port) :=
    undefanged_of_settled hreads hsettled
  have hslash : '/' ∈ urlText rt parts hostname port := by
    rw [urlText, urlunsplit_eq ((wellFormed_of_urlsplit hreads.split).1.path_start
      (netloc_ne_nil hreads.hostname))]
    simp
  have hnormalize : normalizeUrl rt (urlText rt parts hostname port) =
      some (urlText rt parts hostname port, toPunycode rt hostname) :=
    normalizeUrl_of_settled hreads hsettled rfl
  generalize urlText rt parts hostname port = text at *
  rw [normalize_of_undefanged hundefanged (List.ne_nil_of_mem hslash),
    classify_of_slash hundefanged.unwrapped hslash, hnormalize]
  dsimp only
  rw [skipOf, if_neg htld]

end Urls

end OpenctiLookup
