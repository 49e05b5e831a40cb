import OpenctiLookup.AsciiMarkers
import OpenctiLookup.UrlParts

/-! URLs as texts of printable ASCII: what `_defang` makes of the stretches between the
delimiters, and what `_normalize_url` reads in the whole. -/
namespace OpenctiLookup
open Python

section Printable

variable {c : Char} {s : Str}

def isPrintable (c : Char) : Bool := 33 ≤ c.toNat && c.toNat ≤ 126

theorem toNat_of_isPrintable (h : isPrintable c = true) : 33 ≤ c.toNat ∧ c.toNat ≤ 126 := by
  simpa [isPrintable] using h

theorem isAscii_of_isPrintable (h : isPrintable c = true) : isAscii c = true := by
  have := toNat_of_isPrintable h
  have hval : c.val.toNat < 128 := by
    change c.toNat < 128
    omega
  exact decide_eq_true (UInt32.lt_iff_toNat_lt.mpr hval)

theorem not_space_of_isPrintable (h : isPrintable c = true) : isSpace c = false := by
  have := toNat_of_isPrintable h
  simp only [isSpace, Bool.or_eq_false_iff, Bool.and_eq_false_iff, decide_eq_false_iff_not,
    beq_eq_false_iff_ne]
  omega

theorem not_blank_of_isPrintable (h : isPrintable c = true) : c ∉ "\t\r\n".toList := by
  intro hmem
  simp only [String.reduceToList, List.mem_cons, List.not_mem_nil, or_false] at hmem
  rcases hmem with rfl | rfl | rfl <;> cases h

theorem isascii_of_printable (h : ∀ c ∈ s, isPrintable c = true) : isascii s = true :=
  List.all_eq_true.mpr fun c hc => isAscii_of_isPrintable (h c hc)

theorem strip_of_printable (h : ∀ c ∈ s, isPrintable c = true) : strip s = s :=
  stripBy_of_trimmed (trimmed_of_all fun c hc => not_space_of_isPrintable (h c hc))

theorem cleanUrl_of_printable (h : ∀ c ∈ s, isPrintable c = true) : cleanUrl s = s := by
  refine cleanUrl_of_clean (fun c hc => ?_) fun c hc => not_blank_of_isPrintable (h c hc)
  have := toNat_of_isPrintable (h c (List.mem_of_head? hc))
  omega

theorem rstrip_append_cons (hc : stripSet.contains c = false) (left right : Str) :
    rstripChars stripSet (left ++ c :: right) = left ++ c :: rstripChars stripSet right :=
  rdropWhile_append_cons hc left right

theorem stripChars_of_head (h : ∀ c, s.head? = some c → stripSet.contains c = false) :
    stripChars stripSet s = rstripChars stripSet s := by
  cases s with
  | nil => rfl
  | cons c s =>
      rw [stripChars, stripBy, List.dropWhile_cons_of_neg (Bool.eq_false_iff.mp (h c rfl))]
      rfl

end Printable

section Stretches

variable {rt : Runtime} {markers : List (Str × Str)} {left left' right right' out text : Str}
variable {c : Char}

def openers : Str := "[(\x7b "

theorem not_opener_asciiLower (h : c ∉ openers) : asciiLower c ∉ openers := by
  have hnone : ∀ d ∈ openers, isAsciiLower d = false := by decide
  intro hmem
  apply h
  rwa [eq_of_asciiLower (hnone _ hmem) rfl]

theorem delimiter_table : ∀ marker ∈ defangMarkers, ∀ c ∈ "/:?#@".toList,
    isAscii c = true ∧ (asciiLower c ∉ marker.1 ∨ ∀ d ∈ marker.1.head?, d ∈ openers) := by decide

variable (rt) in
theorem replaceMarker_unopened {marker : Str × Str} (hmem : marker ∈ defangMarkers)
    (hhead : ∀ d ∈ marker.1.head?, d ∈ openers) (hascii : isascii left = true)
    (hopen : ∀ d ∈ left, d ∉ openers) : rt.replaceMarker marker.1 marker.2 left = some left := by
  refine replaceMarker_absent hmem hascii fun hin => ?_
  obtain ⟨d, mark, hmark⟩ := List.exists_cons_of_ne_nil (marker_chars marker hmem).2.2.1
  have hd : d ∈ marker.1 := hmark ▸ List.mem_cons_self
  obtain ⟨e, he, heq⟩ := List.mem_map.mp (hin.subset hd)
  exact not_opener_asciiLower (hopen e he) (heq ▸ hhead d (by simp [hmark]))

/-- On either side of a delimiter the loop works by itself, when nothing in front of it
opens a marker. -/
theorem replaceMarkers_delimited (hsub : markers ⊆ defangMarkers) (hc : c ∈ "/:?#@".toList)
    (hleft : isascii left = true) (hopen : ∀ d ∈ left, d ∉ openers) (hright : isascii right = true)
    (hleft' : replaceMarkers rt markers left = some left')
    (hright' : replaceMarkers rt markers right = some right') :
    replaceMarkers rt markers (left ++ c :: right) = some (left' ++ c :: right') := by
  induction markers generalizing left right with
  | nil =>
      cases hleft'
      cases hright'
      rfl
  | cons marker rest ih =>
      have hmem := hsub List.mem_cons_self
      have hrest : rest ⊆ defangMarkers := fun _ h => hsub (List.mem_cons_of_mem _ h)
      obtain ⟨hascii, hplace⟩ := delimiter_table marker hmem c hc
      obtain ⟨leftNext, hleftNext, hleftAscii⟩ := replaceMarker_ascii rt hmem hleft
      obtain ⟨rightNext, hrightNext, hrightAscii⟩ := replaceMarker_ascii rt hmem hright
      have hnext : rt.replaceMarker marker.1 marker.2 (left ++ c :: right) =
          some (leftNext ++ c :: rightNext) := by
        rcases hplace with hsep | hhead
        · exact replaceMarker_separated hmem hascii hsep hleft hright hleftNext hrightNext
        · have hfront : Clear marker.1 (left ++ [c]) := by
            refine clear_of_head (marker_chars marker hmem).2.2.1 fun d hd hin => ?_
            obtain ⟨e, he, rfl⟩ := List.mem_map.mp hin
            have hdelim : ∀ d ∈ "/:?#@".toList, d ∉ openers := by decide
            rcases List.mem_append.mp he with he | he
            · exact not_opener_asciiLower (hopen e he) (hhead _ (by simp [hd]))
            · rw [List.mem_singleton.mp he] at hd
              exact not_opener_asciiLower (hdelim c hc) (hhead _ (by simp [hd]))
          have habsent := replaceMarker_unopened rt hmem hhead hleft hopen
          cases habsent.symm.trans hleftNext
          have := replaceMarker_clear hmem hfront (by simpa [isascii] using
            ⟨List.all_eq_true.mp hleft, hascii⟩) hright hrightNext
          simpa using this
      rw [replaceMarkers_cons, hleftNext] at hleft'
      rw [replaceMarkers_cons, hrightNext] at hright'
      rw [replaceMarkers_cons, hnext]
      have hopen' : ∀ d ∈ leftNext, d ∉ openers :=
        forall_of_replaceMarkers (by decide)
          (fun _ h => List.mem_singleton.mp h ▸ hmem : [marker] ⊆ defangMarkers) hopen
          (by rw [replaceMarkers_cons, hleftNext]; rfl)
      exact ih hrest hleftAscii hopen' hrightAscii hleft' hright'

end Stretches

section Hosts

variable {rt : Runtime} {markers : List (Str × Str)} {host host' : Str} {port : Option ℕ} {c : Char}

def isHostChar (c : Char) : Bool := isAsciiAlpha c || isAsciiDigit c || c == '-' || c == '.'

theorem isHostChar_cases (h : isHostChar c = true) :
    isSchemeChar c = true ∧ isPrintable c = true ∧ stripSet.contains c = false ∧
      c ∉ openers ∧ c ∉ "/?#@:[]%".toList := by
  have hrange : ∀ n, 45 ≤ n → n ≤ 122 → isHostChar (Char.ofNat n) = true →
      isSchemeChar (Char.ofNat n) = true ∧ isPrintable (Char.ofNat n) = true ∧
        stripSet.contains (Char.ofNat n) = false ∧ Char.ofNat n ∉ openers ∧
          Char.ofNat n ∉ "/?#@:[]%".toList := by
    intro n hlo hhi
    interval_cases n <;> decide
  have hbounds : 45 ≤ c.toNat ∧ c.toNat ≤ 122 := by
    simp only [isHostChar, isAsciiAlpha, isAsciiLower, isAsciiUpper, isAsciiDigit, Bool.or_eq_true,
      Bool.and_eq_true, decide_eq_true_iff, beq_iff_eq] at h
    rcases h with (((h | h) | h) | rfl) | rfl
    · exact ⟨le_trans (by decide) h.1, h.2⟩
    · exact ⟨le_trans (by decide) h.1, le_trans h.2 (by decide)⟩
    · exact ⟨le_trans (by decide) h.1, le_trans h.2 (by decide)⟩
    · decide
    · decide
  have := hrange c.toNat hbounds.1 hbounds.2
  rw [Char.ofNat_toNat] at this
  exact this h

theorem isascii_of_host (h : ∀ c ∈ host, isHostChar c = true) : isascii host = true :=
  isascii_of_printable fun c hc => (isHostChar_cases (h c hc)).2.1

/-- The loop makes a host of a host: only schemes are spelled in letters. -/
theorem host_replaced (hsub : markers ⊆ defangMarkers) (hhost : ∀ c ∈ host, isHostChar c = true)
    (h : replaceMarkers rt markers host = some host') :
    (∀ c ∈ host', isHostChar c = true) ∧ (host ≠ [] → host' ≠ []) := by
  have hkinds : ∀ marker ∈ defangMarkers, marker.2 ≠ [] ∧
      ((∀ d ∈ marker.1.head?, d ∈ openers) ∨ ∀ c ∈ marker.2, isHostChar c = true) := by decide
  induction markers generalizing host with
  | nil =>
      cases h
      exact ⟨hhost, fun hne => hne⟩
  | cons marker rest ih =>
      have hmem := hsub List.mem_cons_self
      obtain ⟨next, hnext, hrest⟩ := Option.bind_eq_some_iff.mp h
      have hnextHost : (∀ c ∈ next, isHostChar c = true) ∧ (host ≠ [] → next ≠ []) := by
        rcases (hkinds marker hmem).2 with hhead | hrepl
        · have habsent := replaceMarker_unopened rt hmem hhead (isascii_of_host hhost)
            fun d hd => (isHostChar_cases (hhost d hd)).2.2.2.1
          cases habsent.symm.trans hnext
          exact ⟨hhost, fun hne => hne⟩
        · constructor
          · refine (replaceMarker_invariant (fun out => ∀ c ∈ out, isHostChar c = true)
              (fun out idx _ hout c hc => ?_) hnext hhost).1
            rcases List.mem_append.mp hc with hc | hc
            · rcases List.mem_append.mp hc with hc | hc
              · exact hout c (List.mem_of_mem_take hc)
              · exact hrepl c hc
            · exact hout c (List.mem_of_mem_drop hc)
          · intro hne
            exact (replaceMarker_invariant (fun out => out ≠ [])
              (fun out idx _ _ => by simp [(hkinds marker hmem).1]) hnext hne).1
      obtain ⟨hchars, hne⟩ := ih (fun _ h => hsub (List.mem_cons_of_mem _ h)) hnextHost.1 hrest
      exact ⟨hchars, fun hhostNe => hne (hnextHost.2 hhostNe)⟩

theorem mem_hostPort_host (hhost : ∀ c ∈ host, isHostChar c = true) (hc : c ∈ hostPort host port) :
    isHostChar c = true ∨ c = ':' :=
  match mem_hostPort hc with
  | .inl hc => .inl (hhost c hc)
  | .inr (.inl hc) => .inr hc
  | .inr (.inr hc) => .inl (by simp [isHostChar, hc])

end Hosts

section Texts

variable {rt : Runtime} {scheme netloc host rest : Str} {port : Option ℕ}

structure IsScheme (scheme : Str) : Prop where
  chars : ∀ c ∈ scheme, isSchemeChar c = true
  head : ∃ c, scheme.head? = some c ∧ isAsciiAlpha c = true

/-- A text in which `urlsplit` finds the parts where they look to be. -/
def urlOf (scheme netloc rest : Str) : Str := scheme ++ ':' :: '/' :: '/' :: (netloc ++ rest)

def queryPart : Option Str → Str
  | some query => '?' :: query
  | none => []

def fragmentPart : Option Str → Str
  | some fragment => '#' :: fragment
  | none => []

theorem urlunsplit_urlOf {path query : Str} (hne : scheme ≠ [])
    (hpath : path = [] ∨ path.head? = some '/') :
    urlunsplit ⟨scheme, netloc, path, query, []⟩ =
      urlOf scheme netloc (path ++ queryText query) := by
  rw [urlunsplit_eq hpath, schemeText, if_neg hne, urlOf]
  simp

theorem isPrintable_of_isSchemeChar {c : Char} (h : isSchemeChar c = true) :
    isPrintable c = true := by
  simp only [isSchemeChar, Bool.or_eq_true, beq_iff_eq] at h
  rcases h with (((h | h) | rfl) | rfl) | rfl
  · exact (isHostChar_cases (by simp [isHostChar, h])).2.1
  · exact (isHostChar_cases (by simp [isHostChar, h])).2.1
  · rfl
  · rfl
  · rfl

variable (rt) in
theorem urlsplit_urlOf (hscheme : IsScheme scheme) (hnetloc : ∀ c ∈ netloc, c ∉ "/?#[]".toList)
    (hrest : ∀ c, rest.head? = some c → c ∈ "/?#".toList)
    (hprint : ∀ c ∈ netloc ++ rest, isPrintable c = true) :
    urlsplit rt (urlOf scheme netloc rest) = some ⟨scheme.map asciiLower, netloc,
      (partition '?' (partition '#' rest).1).1, (partition '?' (partition '#' rest).1).2.2,
        (partition '#' rest).2.2⟩ := by
  obtain ⟨first, hfirst, halpha⟩ := hscheme.head
  have hclean : cleanUrl (urlOf scheme netloc rest) = urlOf scheme netloc rest := by
    apply cleanUrl_of_printable
    intro c hc
    rcases List.mem_append.mp hc with hc | hc
    · exact isPrintable_of_isSchemeChar (hscheme.chars c hc)
    · simp only [List.mem_cons] at hc
      rcases hc with rfl | rfl | rfl | hc
      · rfl
      · rfl
      · rfl
      · exact hprint c hc
  have hcolon : ':' ∉ scheme := fun hmem => absurd (hscheme.chars ':' hmem) (by decide)
  have hsplit : splitScheme (urlOf scheme netloc rest) =
      (scheme.map asciiLower, '/' :: '/' :: (netloc ++ rest)) := by
    rw [splitScheme, urlOf, partition_append hcolon]
    simp [hfirst, halpha, List.all_eq_true.mpr hscheme.chars]
  have hlocate : locate ('/' :: '/' :: (netloc ++ rest)) = (netloc, rest) := by
    have hslashes : startsWith "//" ('/' :: '/' :: (netloc ++ rest)) = true := rfl
    rw [locate, if_pos hslashes]
    refine span_append (fun c hc => ?_) fun c hc => ?_
    · have := hnetloc c hc
      simp only [String.reduceToList, List.mem_cons, List.not_mem_nil, or_false, not_or] at this
      simp [this]
    · have := hrest c hc
      simp only [String.reduceToList, List.mem_cons, List.not_mem_nil, or_false] at this
      rcases this with rfl | rfl | rfl <;> rfl
  have hcheck : checkLocation rt netloc = true := by
    have hfree : ∀ c ∈ "[]".toList, netloc.contains c = false := by
      have hsub : "[]".toList ⊆ "/?#[]".toList := by decide
      intro c hc
      rw [← Bool.not_eq_true, List.contains_iff_mem]
      exact fun hmem => hnetloc c hmem (hsub hc)
    have hascii : isascii netloc = true :=
      isascii_of_printable fun c hc => hprint c (List.mem_append_left _ hc)
    rw [checkLocation, hfree '[' (by decide), hfree ']' (by decide), checkNetloc, if_pos hascii]
    rfl
  rw [urlsplit_eq, hclean, hsplit]
  dsimp only
  rw [hlocate, if_pos hcheck]

/-- `_normalize_url` lowers scheme and host, and drops the scheme's own port and the
fragment. -/
theorem normalizeUrl_urlOf (hscheme : IsScheme scheme) (hhost : ∀ c ∈ host, isHostChar c = true)
    (hne : host ≠ []) (hport : ∀ p, port = some p → p ≤ 65535)
    (hrest : ∀ c, rest.head? = some c → c ∈ "/?#".toList)
    (hprint : ∀ c ∈ rest, isPrintable c = true) :
    normalizeUrl rt (urlOf scheme (hostPort host port) rest) =
      some (urlunsplit ⟨scheme.map asciiLower,
        location (scheme.map asciiLower) (host.map asciiLower) port,
        (partition '?' (partition '#' rest).1).1, (partition '?' (partition '#' rest).1).2.2, []⟩,
        host.map asciiLower) := by
  have hchars : ∀ c ∈ hostPort host port, isPrintable c = true ∧ c ∉ "/?#[]".toList := by
    have hsub : "/?#[]".toList ⊆ "/?#@:[]%".toList := by decide
    intro c hc
    rcases mem_hostPort_host hhost hc with hc | rfl
    · obtain ⟨-, hprintable, -, -, hdelim⟩ := isHostChar_cases hc
      exact ⟨hprintable, fun hmem => hdelim (hsub hmem)⟩
    · decide
  have hsplit := urlsplit_urlOf rt hscheme (fun c hc => (hchars c hc).2) hrest
    fun c hc => (List.mem_append.mp hc).elim (fun hc => (hchars c hc).1) (hprint c)
  have hdelims : ∀ c ∈ host, c ∉ "@:[]".toList := by
    have hsub : "@:[]".toList ⊆ "/?#@:[]%".toList := by decide
    exact fun c hc hmem => (isHostChar_cases (hhost c hc)).2.2.2.2 (hsub hmem)
  have hpercent : '%' ∉ host := fun hmem => absurd (hhost _ hmem) (by decide)
  have hascii := isascii_of_host hhost
  have hlower : rt.lower host = host.map asciiLower := lower_of_isascii rt hascii
  have hname : readName rt host = host.map asciiLower := by
    unfold readName
    rw [partition_of_not_mem hpercent]
    simp [hlower]
  have hpuny : toPunycode rt (host.map asciiLower) = host.map asciiLower := by
    have hlowered := isascii_map_asciiLower hascii
    rw [toPunycode, if_pos hlowered, lower_of_isascii rt hlowered, map_asciiLower_of_lower]
  have hcandidate : candidate (urlOf scheme (hostPort host port) rest) =
      urlOf scheme (hostPort host port) rest :=
    if_pos (isIn_iff.mpr ⟨scheme, hostPort host port ++ rest, by simp [urlOf]⟩)
  refine normalizeUrl_eq_some_iff.mpr ⟨_, host.map asciiLower, port,
    ⟨hcandidate.symm ▸ hsplit, ?_, ?_⟩, hpuny.symm, ?_⟩
  · rw [hostname_hostPort _ rfl hdelims hne, hname]
  · exact port_hostPort _ rfl hdelims hport
  · rfl

end Texts

section Schemes

variable {scheme : Str}

def webSchemes : List Str := ["http", "https", "ftp"]

theorem clear_scheme (h : scheme.map asciiLower ∈ webSchemes) :
    ∀ marker ∈ defangMarkers, Clear marker.1 (scheme ++ "://".toList) := by
  have hclear : ∀ lowered ∈ webSchemes,
      ∀ marker ∈ defangMarkers, ∀ rest ∈ (lowered ++ "://".toList).tails, rest ≠ [] →
        ¬ rest <+: marker.1 ∧ ¬ marker.1 <+: rest := by decide
  have hslashes : "://".toList.map asciiLower = "://".toList := by decide
  intro marker hmem
  unfold Clear
  rw [List.map_append, hslashes]
  exact hclear _ h marker hmem

theorem isScheme_of_lower
    (h : scheme.map asciiLower ∈ webSchemes) :
    IsScheme scheme := by
  have hletters : ∀ lowered ∈ webSchemes,
      lowered ≠ [] ∧ ∀ c ∈ lowered, isAsciiLower c = true := by decide
  obtain ⟨hne, hlower⟩ := hletters _ h
  have halpha : ∀ c ∈ scheme, isAsciiAlpha c = true := fun c hc =>
    isAsciiAlpha_of_asciiLower (hlower _ (List.mem_map_of_mem hc))
  refine ⟨fun c hc => by simp [isSchemeChar, halpha c hc], ?_⟩
  cases scheme with
  | nil => exact absurd rfl hne
  | cons c scheme => exact ⟨c, rfl, halpha c List.mem_cons_self⟩

theorem IsScheme.head_kept (h : IsScheme scheme) {rest : Str} {c : Char}
    (hc : (scheme ++ rest).head? = some c) : stripSet.contains c = false := by
  obtain ⟨first, hfirst, halpha⟩ := h.head
  rw [List.head?_append, hfirst] at hc
  cases hc
  exact (end_of_isAsciiAlpha halpha).2

end Schemes

section Defanged

variable {rt : Runtime} {front left left' right right' host host' raw cleaned : Str}
variable {port : Option ℕ} {skipPrivate : Bool} {skipTlds : List Str}

/-- Two or more labels of letters, digits and hyphens. -/
structure IsHost (host : Str) : Prop where
  labels : ∃ labels : List Str, 2 ≤ labels.length ∧ host = join "." labels ∧
    ∀ label ∈ labels, label ≠ [] ∧ ∀ c ∈ label, isHostChar c = true ∧ c ≠ '.'

theorem IsHost.chars (h : IsHost host) : ∀ c ∈ host, isHostChar c = true := by
  obtain ⟨labels, -, rfl, hlabels⟩ := h.labels
  intro c hc
  rcases mem_join hc with hc | ⟨label, hlabel, hc⟩
  · rw [List.mem_singleton.mp hc]
    rfl
  · exact ((hlabels label hlabel).2 c hc).1

theorem IsHost.ne_nil (h : IsHost host) : host ≠ [] := by
  obtain ⟨labels, htwo, rfl, -⟩ := h.labels
  match labels, htwo with
  | first :: second :: rest, _ =>
      change join ['.'] (first :: second :: rest) ≠ []
      simp [join_cons_cons]

def isUrlChar (c : Char) : Bool := isPrintable c && c != '#'

theorem isUrlChar_iff {c : Char} : isUrlChar c = true ↔ isPrintable c = true ∧ c ≠ '#' := by
  simp [isUrlChar]

theorem not_infix_digits {text : Str} (h : ∀ c ∈ text, isAsciiDigit c = true) :
    ∀ marker ∈ defangMarkers, ¬ marker.1 <:+: text.map asciiLower := by
  have hletter : ∀ marker ∈ defangMarkers, ∃ c ∈ marker.1, c ∉ "0123456789".toList := by decide
  have hsame : text.map asciiLower = text := by
    have hlower : ∀ c ∈ "0123456789".toList, asciiLower c = c := by decide
    exact (List.map_congr_left fun c hc => hlower c (mem_digits (h c hc))).trans (List.map_id _)
  intro marker hmem hin
  obtain ⟨c, hc, hnot⟩ := hletter marker hmem
  rw [hsame] at hin
  exact hnot (mem_digits (h c (hin.subset hc)))

theorem decimal_replaced (p : ℕ) : replaceMarkers rt defangMarkers (decimal p) =
    some (decimal p) :=
  replaceMarkers_absent (List.Subset.refl _)
    (List.all_eq_true.mpr fun _ hc => isAscii_of_isAsciiDigit (isAsciiDigit_decimal hc))
    (not_infix_digits fun _ hc => isAsciiDigit_decimal hc)

theorem isPrintable_of_hostPort (hhost : ∀ c ∈ host, isHostChar c = true) :
    ∀ c ∈ hostPort host port, isPrintable c = true ∧ stripSet.contains c = false ∧ c ∉ openers := by
  intro c hc
  rcases mem_hostPort_host hhost hc with hc | rfl
  · obtain ⟨-, hprintable, hstrip, hopen, -⟩ := isHostChar_cases hc
    exact ⟨hprintable, hstrip, hopen⟩
  · decide

theorem hostPort_replaced (hhost : ∀ c ∈ host, isHostChar c = true)
    (h : replaceMarkers rt defangMarkers host = some host') :
    replaceMarkers rt defangMarkers (hostPort host port) = some (hostPort host' port) := by
  cases port with
  | none => exact h
  | some p =>
      exact replaceMarkers_delimited (List.Subset.refl _) (by decide) (isascii_of_host hhost)
        (fun d hd => (isHostChar_cases (hhost d hd)).2.2.2.1)
        (List.all_eq_true.mpr fun c hc => isAscii_of_isAsciiDigit (isAsciiDigit_decimal hc)) h
        (decimal_replaced p)

variable (front left right) in
/-- `_defang` works on either side of the first slash by itself, the strips at the end of
the right one. -/
theorem defang_slashed (hfront : ∀ marker ∈ defangMarkers, Clear marker.1 front)
    (hleft : ∀ c ∈ front ++ left, isPrintable c = true)
    (hopen : ∀ c ∈ left, c ∉ openers) (hright : ∀ c ∈ right, isPrintable c = true)
    (hhead : ∀ c, (front ++ left).head? = some c → stripSet.contains c = false)
    (hhead' : ∀ c, (front ++ left').head? = some c → stripSet.contains c = false)
    (hleft' : replaceMarkers rt defangMarkers left = some left')
    (hright' : replaceMarkers rt defangMarkers (rstripChars stripSet right) = some right') :
    defang rt (front ++ (left ++ '/' :: right)) =
      some (front ++ (left' ++ '/' :: rstripChars stripSet right')) := by
  have hstart : ∀ left right : Str,
      (∀ c, (front ++ left).head? = some c → stripSet.contains c = false) →
        stripChars stripSet (front ++ (left ++ '/' :: right)) =
          front ++ (left ++ '/' :: rstripChars stripSet right) := by
    intro left right hhead
    rw [← List.append_assoc, stripChars_of_head, rstrip_append_cons rfl, List.append_assoc]
    intro c hc
    cases hwhole : front ++ left with
    | nil =>
        rw [hwhole] at hc
        cases hc
        rfl
    | cons d whole =>
        rw [hwhole] at hc hhead
        exact hhead c hc
  have hprint : ∀ c ∈ front ++ (left ++ '/' :: right), isPrintable c = true := by
    intro c hc
    rw [← List.append_assoc] at hc
    rcases List.mem_append.mp hc with hc | hc
    · exact hleft c hc
    · rcases List.mem_cons.mp hc with rfl | hc
      · rfl
      · exact hright c hc
  have hrstrip : isascii (rstripChars stripSet right) = true :=
    isascii_of_printable fun c hc => hright c (mem_of_mem_rstripChars hc)
  have hleftAscii : isascii left = true :=
    isascii_of_printable fun c hc => hleft c (List.mem_append_right _ hc)
  have hreplaced := replaceMarkers_delimited (c := '/') (List.Subset.refl _) (by decide) hleftAscii
    hopen hrstrip hleft' hright'
  have hwhole := replaceMarkers_clear (List.Subset.refl _) hfront
    (isascii_of_printable fun c hc => hleft c (List.mem_append_left _ hc))
    (by simp [hleftAscii, hrstrip]; decide) hreplaced
  rw [defang_eq, strip_of_printable hprint, hstart left right hhead, hwhole, Option.map_some,
    hstart left' right' hhead']

theorem strip_not_empty (h : defang rt raw = some cleaned) (hne : cleaned ≠ []) :
    (strip raw).isEmpty = false := by
  rw [List.isEmpty_eq_false_iff]
  intro hempty
  rw [defang_eq, hempty] at h
  change (replaceMarkers rt defangMarkers []).map _ = _ at h
  rw [replaceMarkers_nil] at h
  exact hne (Option.some.inj h).symm

variable (skipPrivate skipTlds) in
theorem normalize_of_slash (hdefang : defang rt raw = some cleaned) (hslash : '/' ∈ cleaned) :
    normalize rt skipPrivate skipTlds raw =
      .ok (match normalizeUrl rt cleaned with
        | none => ⟨raw, cleaned, .unknown, some "unparseable_url"⟩
        | some (url, host) => ⟨raw, url, .url, skipOf skipTlds host⟩) := by
  have hempty := strip_not_empty hdefang (List.ne_nil_of_mem hslash)
  rw [normalize, if_neg (by simp [hempty]), hdefang]
  exact congrArg Except.ok (classify_of_slash (trimmed_of_defang hdefang) hslash _ _)

theorem normalize_urlOf {scheme rest : Str} (hscheme : IsScheme scheme)
    (hhost : ∀ c ∈ host, isHostChar c = true) (hne : host ≠ [])
    (hport : ∀ p, port = some p → p ≤ 65535)
    (hrest : ∀ c, rest.head? = some c → c ∈ "/?#".toList)
    (hprint : ∀ c ∈ rest, isPrintable c = true)
    (hdefang : defang rt raw = some (urlOf scheme (hostPort host port) rest)) :
    normalize rt skipPrivate skipTlds raw = .ok ⟨raw, urlunsplit ⟨scheme.map asciiLower,
      location (scheme.map asciiLower) (host.map asciiLower) port,
      (partition '?' (partition '#' rest).1).1, (partition '?' (partition '#' rest).1).2.2, []⟩,
      .url, skipOf skipTlds (host.map asciiLower)⟩ := by
  rw [normalize_of_slash _ _ hdefang (by simp [urlOf]),
    normalizeUrl_urlOf hscheme hhost hne hport hrest hprint]

end Defanged

end OpenctiLookup
