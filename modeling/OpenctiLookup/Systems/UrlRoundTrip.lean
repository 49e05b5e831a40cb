import OpenctiLookup.Opencti.Events
import OpenctiLookup.Python.LowerLaws
import OpenctiLookup.UrlParts

/-! A normalized URL and what it is split into when it is read again. The host and the
port come back unless the host has a delimiter in it: a bracketed address loses its
brackets when the location is written. -/
namespace OpenctiLookup
open Python

def effectivePort (scheme : Str) (port : Option ℕ) : Option Str :=
  (port.map decimal).or (defaultPort scheme)

section Reads

variable {rt : Runtime} {raw url hostname host : Str} {parts again : SplitResult}
variable {port : Option ℕ}

/-- The URL has the host of the text it was read from, in lower case and encoded, and its
port. -/
def ReadsBack (rt : Runtime) (parts : SplitResult) (hostname : Str) (port : Option ℕ) (url : Str) :
    Prop :=
  urlHostname rt url = some (toPunycode rt hostname) ∧
    ∃ again, urlsplit rt url = some again ∧ again.hostname rt = some (toPunycode rt hostname) ∧
      ∃ port', again.port = some port' ∧
        effectivePort again.scheme port' = effectivePort parts.scheme port

theorem effectivePort_writtenPort (scheme : Str) (port : Option ℕ) :
    effectivePort scheme (writtenPort scheme port) = effectivePort scheme port := by
  unfold effectivePort writtenPort
  cases port with
  | none => rfl
  | some p =>
      by_cases hdefault : some (decimal p) = defaultPort scheme
      · rw [Option.filter_some_neg (by simpa using hdefault)]
        simp [← hdefault]
      · rw [Option.filter_some_pos (by simpa using hdefault)]

theorem readName_of_lowered (h : ∀ c ∈ host, Lowered rt c) : readName rt host = host := by
  unfold readName
  rcases partition_eq '%' host with ⟨-, heq⟩ | ⟨name, zone, rfl, -, heq⟩
  · rw [heq]
    simp [lower_of_lowered h]
  · rw [heq]
    have hname : rt.lower name = name :=
      lower_of_lowered fun c hc => h c (List.mem_append_left _ hc)
    simp [hname]

theorem lowered_toPunycode (laws : LowerLaws rt) (hostname : Str) :
    ∀ c ∈ toPunycode rt hostname, Lowered rt c := by
  intro c hc
  unfold toPunycode at hc
  split at hc
  · exact laws.lowered_lower hc
  · split at hc
    · exact laws.lowered_lower hc
    · exact laws.lowered_lower hc

theorem readsBack_of_written (laws : LowerLaws rt) (hreads : UrlReads rt raw parts hostname port)
    (h : HostWritten rt parts hostname port) :
    ReadsBack rt parts hostname port (urlText rt parts hostname port) := by
  have hsplit : urlsplit rt (urlText rt parts hostname port) = _ := urlsplit_written hreads h
  have hhostname := hostname_location rt
    ⟨parts.scheme, location parts.scheme (toPunycode rt hostname) port, parts.path, parts.query, []⟩
    rfl h.delims h.host_ne
  rw [readName_of_lowered (lowered_toPunycode laws hostname)] at hhostname
  refine ⟨?_, _, hsplit, hhostname, writtenPort parts.scheme port, ?_, ?_⟩
  · rw [urlHostname, hsplit]
    exact hhostname
  · exact port_location _ rfl h.delims fun p => port_le hreads.port
  · exact effectivePort_writtenPort _ _

theorem ReadsBack.unique {parts' : SplitResult} {hostname' : Str} {port' : Option ℕ}
    (h : ReadsBack rt parts hostname port url) (h' : ReadsBack rt parts' hostname' port' url) :
    toPunycode rt hostname = toPunycode rt hostname' ∧
      effectivePort parts.scheme port = effectivePort parts'.scheme port' := by
  obtain ⟨hhost, again, hsplit, -, found, hport, heffective⟩ := h
  obtain ⟨hhost', again', hsplit', -, found', hport', heffective'⟩ := h'
  cases hsplit.symm.trans hsplit'
  cases hport.symm.trans hport'
  exact ⟨Option.some.inj (hhost.symm.trans hhost'), heffective.symm.trans heffective'⟩

end Reads

section Delimiters

variable {rt : Runtime} {s : Str} {c : Char} {parts : SplitResult} {hostname : Str}

theorem rpartition_snd (sep : Char) (s : Str) :
    sep ∉ (rpartition sep s).2.2 ∧ (rpartition sep s).2.2 ⊆ s := by
  unfold rpartition
  rcases partition_eq sep s.reverse with ⟨hnot, heq⟩ | ⟨left, right, hs, hnot, heq⟩
  · rw [heq]
    exact ⟨by simpa using hnot, fun c hc => hc⟩
  · rw [heq]
    refine ⟨by simpa using hnot, fun c hc => ?_⟩
    have hmem : c ∈ s.reverse := hs ▸ List.mem_append_left _ (List.mem_reverse.mp hc)
    exact List.mem_reverse.mp hmem

theorem hostinfo_spec (parts : SplitResult) :
    parts.hostinfo.1 ⊆ parts.netloc ∧ '@' ∉ parts.hostinfo.1 ∧
      ('[' ∈ parts.netloc ∧ ']' ∉ parts.hostinfo.1 ∨
        ':' ∉ parts.hostinfo.1 ∧ '[' ∉ parts.hostinfo.1) := by
  obtain ⟨hat, hsub⟩ := rpartition_snd '@' parts.netloc
  unfold SplitResult.hostinfo
  generalize (rpartition '@' parts.netloc).2.2 = hostAndPort at hat hsub ⊢
  dsimp only
  rcases partition_eq '[' hostAndPort with ⟨hnot, heq⟩ | ⟨before, bracketed, rfl, -, heq⟩
  · rw [heq]
    have hhost : (partition ':' hostAndPort).1 ⊆ hostAndPort := partition_fst_start.subset
    exact ⟨fun c hc => hsub (hhost hc), fun hin => hat (hhost hin),
      .inr ⟨not_mem_partition_fst, fun hin => hnot (hhost hin)⟩⟩
  · rw [heq]
    have hhost : (partition ']' bracketed).1 ⊆ before ++ '[' :: bracketed := fun c hc =>
      List.mem_append_right _ (List.mem_cons_of_mem _ (partition_fst_start.subset hc))
    exact ⟨fun c hc => hsub (hhost hc), fun hin => hat (hhost hin),
      .inl ⟨hsub (by simp), not_mem_partition_fst⟩⟩

theorem mem_of_mem_readName (laws : LowerLaws rt) (hascii : isAscii c = true)
    (hletter : isAsciiAlpha c = false) (h : c ∈ readName rt s) : c ∈ s := by
  unfold readName at h
  rcases partition_eq '%' s with ⟨-, heq⟩ | ⟨name, zone, rfl, -, heq⟩
  · rw [heq] at h
    simp only [Bool.false_eq_true, if_false, String.toList_empty, List.append_nil] at h
    exact laws.mem_of_mem_lower hascii hletter h
  · rw [heq] at h
    simp only [if_true, List.mem_append] at h
    rcases h with (h | h) | h
    · exact List.mem_append_left _ (laws.mem_of_mem_lower hascii hletter h)
    · change c ∈ ['%'] at h
      simp [List.mem_singleton.mp h]
    · exact List.mem_append_right _ (List.mem_cons_of_mem _ h)

theorem hostname_eq_some_iff : parts.hostname rt = some hostname ↔
    parts.hostinfo.1 ≠ [] ∧ readName rt parts.hostinfo.1 = hostname := by
  unfold SplitResult.hostname
  dsimp only
  by_cases hempty : parts.hostinfo.1 = []
  · simp [hempty]
  · rw [if_neg (by simpa using hempty)]
    simp [hempty, readName]

theorem readName_ne_nil (h : s ≠ []) : readName rt s ≠ [] := by
  unfold readName
  rcases partition_eq '%' s with ⟨-, heq⟩ | ⟨name, zone, rfl, -, heq⟩
  · rw [heq]
    simpa using lower_ne_nil h
  · rw [heq]
    simp

end Delimiters

section Necessary

variable {rt : Runtime} {raw hostname : Str} {parts again : SplitResult} {port : Option ℕ}

/-- What `urlsplit` does not take out of a text. -/
def isKept (c : Char) : Bool := c != '\t' && c != '\r' && c != '\n'

theorem filter_schemeText (hwell : parts.WellFormed) :
    (schemeText parts.scheme).filter isKept = schemeText parts.scheme := by
  rw [List.filter_eq_self]
  intro c hc
  have hchar : isSchemeChar c = true ∨ c = ':' := (mem_schemeText hc).imp_left
    (hwell.scheme_chars c)
  by_contra hnot
  simp only [isKept, Bool.and_eq_true, bne_iff_ne, not_and_or, not_not] at hnot
  rcases hnot with (rfl | rfl) | rfl <;> revert hchar <;> decide

theorem cleanUrl_schemeText (hwell : parts.WellFormed) (rest : Str) :
    cleanUrl (schemeText parts.scheme ++ '/' :: '/' :: rest) =
      schemeText parts.scheme ++ '/' :: '/' :: rest.filter isKept := by
  have hhead : (schemeText parts.scheme ++ '/' :: '/' :: rest).dropWhile
      (fun c => decide (c.toNat ≤ 32)) = schemeText parts.scheme ++ '/' :: '/' :: rest := by
    unfold schemeText
    split
    · rfl
    · rename_i hne
      obtain ⟨c, scheme, hscheme⟩ := List.exists_cons_of_ne_nil hne
      have hc := toNat_of_isAsciiAlpha (hwell.scheme_head c (by rw [hscheme]; rfl))
      rw [hscheme]
      exact List.dropWhile_cons_of_neg (by simpa using hc)
  have hfilter : ∀ s : Str, s.filter (fun c => c != '\t' && c != '\r' && c != '\n') =
      s.filter isKept := fun _ => rfl
  rw [cleanUrl, hhead, hfilter, List.filter_append, filter_schemeText hwell]
  rfl

theorem splitNetloc_within {left right : Str}
    (hright : ∀ c, right.head? = some c → c ∈ "/?#".toList) :
    (splitNetloc (left ++ right)).1 ⊆ left := by
  have hnone : right.takeWhile (fun c => c != '/' && c != '?' && c != '#') = [] := by
    cases right with
    | nil => rfl
    | cons c right =>
        have hc := hright c rfl
        apply List.takeWhile_cons_of_neg
        revert hc
        simp only [String.reduceToList, List.mem_cons, List.not_mem_nil, or_false]
        rintro (rfl | rfl | rfl) <;> decide
  rw [splitNetloc, List.span_eq_takeWhile_dropWhile, List.takeWhile_append, hnone,
    List.append_nil]
  dsimp only
  split
  · exact fun c hc => hc
  · exact (List.takeWhile_prefix _).subset

theorem netloc_again (hreads : UrlReads rt raw parts hostname port)
    (hagain : urlsplit rt (urlText rt parts hostname port) = some again) :
    again.netloc ⊆ location parts.scheme (toPunycode rt hostname) port := by
  have hwell := (wellFormed_of_urlsplit hreads.split).1
  have hstart := hwell.path_start (netloc_ne_nil hreads.hostname)
  have hrest : ∀ c, ((parts.path ++ queryText parts.query).filter isKept).head? = some c →
      c ∈ "/?#".toList := by
    intro c hc
    rcases hstart with hpath | hpath
    · rw [hpath, List.nil_append, queryText] at hc
      split at hc
      · cases hc
      · cases hc
        decide
    · obtain ⟨rest, hrest⟩ := List.head?_eq_some_iff.mp hpath
      rw [hrest] at hc
      cases hc
      decide
  rw [(netloc_of_urlsplit hagain).1, urlText, urlunsplit_eq hstart, cleanUrl_schemeText hwell,
    splitScheme_schemeText hwell.scheme_chars hwell.scheme_lower hwell.scheme_head,
    List.filter_append]
  exact fun c hc => (List.mem_filter.mp (splitNetloc_within hrest hc)).1

theorem netloc_eq_again (hreads : UrlReads rt raw parts hostname port)
    (hagain : urlsplit rt (urlText rt parts hostname port) = some again)
    (hdelimited : ∀ c ∈ location parts.scheme (toPunycode rt hostname) port,
      c ∉ "/?#[]\t\r\n".toList) :
    again.netloc = location parts.scheme (toPunycode rt hostname) port := by
  have hwell := (wellFormed_of_urlsplit hreads.split).1
  have hstart := hwell.path_start (netloc_ne_nil hreads.hostname)
  have hparts := relocated hwell (netloc_ne_nil hreads.hostname)
    (location parts.scheme (toPunycode rt hostname) port)
  have hends : "/?#".toList ⊆ "/?#[]\t\r\n".toList := by decide
  rw [(netloc_of_urlsplit hagain).1, urlText, cleanUrl_written hparts hstart hdelimited,
    urlunsplit_eq hstart, splitScheme_schemeText hwell.scheme_chars hwell.scheme_lower
      hwell.scheme_head,
    locate_slashes (fun c hc hbad => hdelimited c hc (hends hbad)) hstart]

/-- What comes back as the host has no delimiter in it. -/
theorem written_of_again (laws : LowerLaws rt) (hreads : UrlReads rt raw parts hostname port)
    (hagain : urlsplit rt (urlText rt parts hostname port) = some again)
    (hhost : again.hostname rt = some (toPunycode rt hostname)) :
    HostWritten rt parts hostname port := by
  obtain ⟨hne, hname⟩ := hostname_eq_some_iff.mp hhost
  obtain ⟨hsub, hat, hbracket⟩ := hostinfo_spec again
  obtain ⟨-, hdelims⟩ := wellFormed_of_urlsplit hagain
  have hcheck := (netloc_of_urlsplit hagain).2
  simp only [checkLocation, Bool.and_eq_true, beq_iff_eq] at hcheck
  have hsame : '[' ∈ again.netloc ↔ ']' ∈ again.netloc := by
    rw [← List.contains_iff_mem, hcheck.1.1, List.contains_iff_mem]
  have hback : ∀ c ∈ "/?#@:[]\t\r\n".toList, c ∈ toPunycode rt hostname →
      c ∈ again.hostinfo.1 := by
    have hletter : ∀ c ∈ "/?#@:[]\t\r\n".toList, isAscii c = true ∧ isAsciiAlpha c = false :=
      List.all_iff_forall_prop.mp (by decide)
    intro c hc hmem
    exact mem_of_mem_readName laws (hletter c hc).1 (hletter c hc).2 (hname.symm ▸ hmem)
  have hhere : ∀ c ∈ "[]".toList, c ∈ again.netloc → c ∈ again.hostinfo.1 := by
    have hother : ∀ c ∈ "[]".toList,
        c ∈ "/?#@:[]\t\r\n".toList ∧ c ≠ ':' ∧ isAsciiDigit c = false :=
      List.all_iff_forall_prop.mp (by decide)
    intro c hc hmem
    obtain ⟨hdelim, hcolon, hdigit⟩ := hother c hc
    rcases mem_location (netloc_again hreads hagain hmem) with hmem | hmem | hmem
    · exact hback c hdelim hmem
    · exact absurd hmem hcolon
    · simp [hmem] at hdigit
  -- A bracket in the location would have to be in the host, which brackets end.
  have hopen : '[' ∉ again.netloc := by
    intro hopen
    have hclose := hhere ']' (by decide) (hsame.mp hopen)
    rcases hbracket with ⟨-, hnot⟩ | ⟨-, hnot⟩
    · exact hnot hclose
    · exact hnot (hhere '[' (by decide) hopen)
  have hclose : ']' ∉ again.netloc := fun hclose => hopen (hsame.mpr hclose)
  have hcolon : ':' ∉ again.hostinfo.1 := (hbracket.resolve_left fun h => hopen h.1).1
  have hdelimited : ∀ c ∈ toPunycode rt hostname, c ∉ "/?#@:[]\t\r\n".toList := by
    intro c hc hdelim
    have hmem := hback c hdelim hc
    have hnot := hdelims c (hsub hmem)
    simp only [String.reduceToList, List.mem_cons, List.not_mem_nil, or_false, not_or]
      at hdelim hnot
    rcases hdelim with rfl | rfl | rfl | rfl | rfl | rfl | rfl | rfl | rfl | rfl <;>
      first
        | exact hat hmem
        | exact hcolon hmem
        | exact hopen (hsub hmem)
        | exact hclose (hsub hmem)
        | simp at hnot
  have hhost_ne : toPunycode rt hostname ≠ [] := hname ▸ readName_ne_nil hne
  refine ⟨hhost_ne, hdelimited, fun hascii hnone => ?_⟩
  have hplain : ∀ c ∈ location parts.scheme (toPunycode rt hostname) port,
      c ∉ "/?#[]\t\r\n".toList := not_mem_location hdelimited
  rw [← netloc_eq_again hreads hagain hplain]
  exact hcheck.2

end Necessary

section Claim

variable {rt : Runtime} {skipPrivate : Bool} {skipTlds : List Str} {raw cleaned hostname : Str}
variable {parts : SplitResult} {port : Option ℕ} {value : Normalized}

theorem reads_of_url (hnorm : normalize rt skipPrivate skipTlds raw = .ok value)
    (htype : value.type = .url) :
    ∃ cleaned, defang rt raw = some cleaned ∧ ∃ parts hostname port,
      UrlReads rt cleaned parts hostname port ∧
        value = ⟨raw, urlText rt parts hostname port, .url,
          skipOf skipTlds (toPunycode rt hostname)⟩ := by
  obtain ⟨cleaned, hdefang, rfl⟩ := classify_of_normalize hnorm (by simp [htype])
  obtain ⟨-, -, hother⟩ := classify_eq_other (.inl htype)
  rw [hother] at htype ⊢
  obtain ⟨text, host, -, hnormalize, heq⟩ := other_of_url htype
  obtain ⟨parts, hostname, port, hreads, rfl, rfl⟩ := normalizeUrl_eq_some_iff.mp hnormalize
  exact ⟨cleaned, hdefang, parts, hostname, port, hreads, heq⟩

theorem UrlReads.unique {parts' : SplitResult} {hostname' : Str} {port' : Option ℕ}
    (h : UrlReads rt cleaned parts hostname port)
    (h' : UrlReads rt cleaned parts' hostname' port') :
    parts = parts' ∧ hostname = hostname' ∧ port = port' := by
  cases h.split.symm.trans h'.split
  cases h.hostname.symm.trans h'.hostname
  cases h.port.symm.trans h'.port
  exact ⟨rfl, rfl, rfl⟩

/-- A raw text is normalized to a URL, read from these parts with this host and port. -/
structure WritesUrl (rt : Runtime) (skipPrivate : Bool) (skipTlds : List Str) (raw : Str)
    (parts : SplitResult) (hostname : Str) (port : Option ℕ) (value : Normalized) : Prop where
  normalized : normalize rt skipPrivate skipTlds raw = .ok value
  isUrl : value.type = .url
  reads : ∃ cleaned, defang rt raw = some cleaned ∧ UrlReads rt cleaned parts hostname port

theorem WritesUrl.value_eq (h : WritesUrl rt skipPrivate skipTlds raw parts hostname port value) :
    value = ⟨raw, urlText rt parts hostname port, .url,
      skipOf skipTlds (toPunycode rt hostname)⟩ := by
  obtain ⟨cleaned, hdefang, hreads⟩ := h.reads
  obtain ⟨other, hdefang', parts', hostname', port', hreads', heq⟩ :=
    reads_of_url h.normalized h.isUrl
  cases hdefang.symm.trans hdefang'
  obtain ⟨rfl, rfl, rfl⟩ := hreads.unique hreads'
  exact heq

/-- A URL has the host and port of its text exactly when the host is written soundly, and
two such URLs with one cache key have one host and port. -/
theorem url_reads_back_iff (laws : LowerLaws rt)
    (hnorm : normalize rt skipPrivate skipTlds raw = .ok value) (htype : value.type = .url) :
    ∃ parts hostname port, WritesUrl rt skipPrivate skipTlds raw parts hostname port value ∧
      (ReadsBack rt parts hostname port value.value ↔ HostWritten rt parts hostname port) ∧
      (HostWritten rt parts hostname port → ∀ raw' parts' hostname' port' value',
        WritesUrl rt skipPrivate skipTlds raw' parts' hostname' port' value' →
        HostWritten rt parts' hostname' port' → value.cacheKey = value'.cacheKey →
          toPunycode rt hostname = toPunycode rt hostname' ∧
            effectivePort parts.scheme port = effectivePort parts'.scheme port') := by
  obtain ⟨cleaned, hdefang, parts, hostname, port, hreads, heq⟩ := reads_of_url hnorm htype
  refine ⟨parts, hostname, port, ⟨hnorm, htype, cleaned, hdefang, hreads⟩, ?_, ?_⟩
  · rw [heq]
    constructor
    · rintro ⟨-, again, hagain, hhost, -⟩
      exact written_of_again laws hreads hagain hhost
    · exact readsBack_of_written laws hreads
  · intro hwritten raw' parts' hostname' port' value' hwrites hwritten' hkey
    have hvalue := (Normalized.cacheKey_injective hkey).2
    obtain ⟨cleaned', -, hreads'⟩ := hwrites.reads
    rw [heq, hwrites.value_eq] at hvalue
    have hback := readsBack_of_written laws hreads hwritten
    have hback' := readsBack_of_written laws hreads' hwritten'
    have hsame : urlText rt parts hostname port = urlText rt parts' hostname' port' := hvalue
    rw [hsame] at hback
    exact hback.unique hback'

end Claim

section Sample

def partsOfPort : SplitResult := ⟨"http", "Evil.com:8080", "/x", "", ""⟩

set_option maxRecDepth 10000 in
theorem normalize_port : normalize sampleRuntime true [] "http://Evil.com:8080/x" =
    .ok ⟨"http://Evil.com:8080/x", "http://evil.com:8080/x", .url, none⟩ := rfl

set_option maxRecDepth 10000 in
theorem reads_port : defang sampleRuntime "http://Evil.com:8080/x" =
      some "http://Evil.com:8080/x".toList ∧
    UrlReads sampleRuntime "http://Evil.com:8080/x" partsOfPort "evil.com" (some 8080) :=
  ⟨rfl, rfl, rfl, rfl⟩

theorem url_reads_back_port :
    ReadsBack sampleRuntime partsOfPort "evil.com" (some 8080) "http://evil.com:8080/x" := by
  obtain ⟨parts, hostname, port, hwrites, hback, -⟩ :=
    url_reads_back_iff (lowerLaws_ofAscii _) normalize_port rfl
  obtain ⟨cleaned, hdefang, hreads⟩ := hwrites.reads
  cases hdefang.symm.trans reads_port.1
  obtain ⟨rfl, rfl, rfl⟩ := hreads.unique reads_port.2
  refine hback.mpr ⟨by decide, List.all_iff_forall_prop.mp (by decide), fun hascii => ?_⟩
  cases hascii

def partsOfBracketed : SplitResult := ⟨"http", "[2001:db8::1]:8080", "/", "", ""⟩

set_option maxRecDepth 10000 in
theorem normalize_bracketed : normalize sampleRuntime true [] "http://[2001:db8::1]:8080/" =
    .ok ⟨"http://[2001:db8::1]:8080/", "http://2001:db8::1:8080/", .url, none⟩ := rfl

set_option maxRecDepth 10000 in
theorem reads_bracketed : defang sampleRuntime "http://[2001:db8::1]:8080/" =
      some "http://[2001:db8::1]:8080/".toList ∧
    UrlReads sampleRuntime "http://[2001:db8::1]:8080/" partsOfBracketed "2001:db8::1"
      (some 8080) :=
  ⟨rfl, rfl, rfl, rfl⟩

/-- Written without its brackets, the address is read up to its first colon. -/
theorem brackets_lost : ¬ ∀ (rt : Runtime) (skipPrivate : Bool) (skipTlds : List Str) (raw : Str)
    (value : Normalized), LowerLaws rt → normalize rt skipPrivate skipTlds raw = .ok value →
      value.type = .url → ∃ parts hostname port,
        WritesUrl rt skipPrivate skipTlds raw parts hostname port value ∧
          ReadsBack rt parts hostname port value.value := by
  intro hall
  obtain ⟨parts, hostname, port, hwrites, hhost, -⟩ :=
    hall sampleRuntime true [] _ _ (lowerLaws_ofAscii _) normalize_bracketed rfl
  obtain ⟨cleaned, hdefang, hreads⟩ := hwrites.reads
  cases hdefang.symm.trans reads_bracketed.1
  obtain ⟨rfl, rfl, rfl⟩ := hreads.unique reads_bracketed.2
  have hfirst : urlHostname sampleRuntime "http://2001:db8::1:8080/" = some "2001".toList := rfl
  exact absurd (hhost.symm.trans hfirst) (by decide)

end Sample

end OpenctiLookup
