import OpenctiLookup.Opencti.Events
import OpenctiLookup.Quads
import OpenctiLookup.Spelled

/-! One indicator and the ways to write it. Each of them is read as the plain one is, and
so they share a cache key and are skipped together. -/
namespace OpenctiLookup
open Python

/-- The parts of a URL that are respelled one by one. -/
structure UrlForm where
  scheme : Str
  labels : List Str
  path : Str
  query : Option Str

def UrlForm.rest (parts : UrlForm) : Str := parts.path ++ queryPart parts.query

structure UrlForm.Shaped (parts : UrlForm) : Prop where
  scheme : parts.scheme.map asciiLower ∈ webSchemes
  labels : HostLabels parts.labels
  path : parts.path = [] ∨ parts.path.head? = some '/'
  question : '?' ∉ parts.path
  hash : '#' ∉ parts.rest

/-- The scheme in any letter case or the one nothing follows, its colon and the dots of the
host in brackets or not, the host in any letter case, the scheme's own port, a fragment. -/
structure UrlSpelling (parts : UrlForm) (scheme colon host : Str) (labels : List Str)
    (port : Option ℕ) (fragment : Option Str) : Prop where
  scheme : SchemeSpelled (parts.scheme.map asciiLower) scheme
  colon : colon ∈ colonSpellings
  letters : labels.map (List.map asciiLower) = parts.labels.map (List.map asciiLower)
  host : Dotted labels host
  port : ∀ p, port = some p → some (decimal p) = defaultPort (parts.scheme.map asciiLower)
  fragment : ∀ text ∈ fragment, ∀ c ∈ text, isPrintable c = true

/-- What can be respelled: a URL, a domain name, an IPv4 address. -/
inductive PlainForm where
  | url (parts : UrlForm)
  | domain (labels : List Str)
  | address (ip : BitVec 32)

namespace PlainForm

def text : PlainForm → Str
  | url parts => parts.scheme ++ "://".toList ++ (join "." parts.labels ++ parts.rest)
  | domain labels => join "." labels
  | address ip => IpAddress.compressed (.v4 ip)

def Shaped : PlainForm → Prop
  | url parts => parts.Shaped
  | domain labels =>
      HostLabels labels ∧ domainPattern.isMatch ((join "." labels).map asciiLower) = true
  | address _ => True

inductive Spelled : PlainForm → Str → Prop
  | url {parts : UrlForm} {scheme colon host : Str} {labels : List Str} {port : Option ℕ}
      {fragment : Option Str} : UrlSpelling parts scheme colon host labels port fragment →
      Spelled (.url parts) (scheme ++ colon ++ "//".toList ++
        (hostPort host port ++ parts.rest ++ fragmentPart fragment))
  | domain {names labels : List Str} {host : Str} {dots : ℕ} :
      labels.map (List.map asciiLower) = names.map (List.map asciiLower) → Dotted labels host →
      Spelled (.domain names) (host ++ List.replicate dots '.')
  | address {ip : BitVec 32} {texts : List Str} {text : Str} :
      List.Forall₂ Padded (octets ip) texts → Dotted texts text → Spelled (.address ip) text

/-- A spelling, with any run of the stripped characters around it. -/
def Respelled (form : PlainForm) (raw : Str) : Prop :=
  ∃ before core after, raw = before ++ core ++ after ∧ form.Spelled core ∧
    (∀ c ∈ before, c ∈ stripSet) ∧ ∀ c ∈ after, c ∈ stripSet

def reading (skipPrivate : Bool) (skipTlds : List Str) (raw : Str) : PlainForm → Normalized
  | url parts => ⟨raw, urlunsplit ⟨parts.scheme.map asciiLower,
      (join "." parts.labels).map asciiLower, parts.path, parts.query.getD [], []⟩, .url,
      skipOf skipTlds ((join "." parts.labels).map asciiLower)⟩
  | domain labels => nameReading skipTlds raw ((join "." labels).map asciiLower)
  | address ip => ⟨raw, IpAddress.compressed (.v4 ip), .ipv4,
      if skipPrivate then isSkippableIp (.v4 ip) else none⟩

end PlainForm

/-- A plain indicator: printable ASCII without spaces, with no marker in it in any letter
case and nothing to strip at its end. -/
structure PlainIndicator where
  form : PlainForm
  shaped : form.Shaped
  printable : ∀ c ∈ form.text, isPrintable c = true
  markless : ∀ marker ∈ defangMarkers, ¬ marker.1 <:+: form.text.map asciiLower
  ending : ∀ c, form.text.getLast? = some c → stripSet.contains c = false

section Addresses

variable {rt : Runtime} {skipPrivate : Bool} {skipTlds : List Str} {ip : BitVec 32}
variable {texts : List Str} {core before after : Str}

theorem Padded.isLabel {octet : ℕ} {text : Str} (h : Padded octet text) : IsLabel text := by
  refine ⟨fun c hc => ⟨by simp [isHostChar, h.digits c hc], ?_⟩, not_infix_digits h.digits⟩
  rintro rfl
  have hdigit := h.digits '.' hc
  cases hdigit

theorem parse_octets (ip : BitVec 32) :
    IpAddress.parse (IpAddress.compressed (.v4 ip)) = some (.v4 ip) := by
  have hslash : '/' ∉ IpAddress.compressed (.v4 ip) := fun hmem =>
    absurd (mem_compressed_v4 hmem) (by decide)
  rw [IpAddress.parse, if_neg (by simpa using hslash), IpAddress.parseV4_compressed]

theorem normalize_spelled_address (hpadded : List.Forall₂ Padded (octets ip) texts)
    (hdotted : Dotted texts core) (hbefore : ∀ c ∈ before, c ∈ stripSet)
    (hafter : ∀ c ∈ after, c ∈ stripSet) :
    normalize rt skipPrivate skipTlds (before ++ core ++ after) =
      .ok ((PlainForm.address ip).reading skipPrivate skipTlds (before ++ core ++ after)) := by
  have hlabels : ∀ text ∈ texts, text ≠ [] ∧ IsLabel text := by
    intro text hmem
    obtain ⟨octet, hoctet⟩ := padded_of_mem hpadded text hmem
    exact ⟨hoctet.ne_nil, hoctet.isLabel⟩
  have hdefang := defang_dotted rt hdotted hlabels hbefore hafter 0
  rw [List.replicate_zero, List.append_nil, List.append_nil] at hdefang
  have hunpad : unpadQuad rt (stripChars "[]" (join "." texts)) =
      IpAddress.compressed (.v4 ip) := by
    rw [stripChars_brackets (trimmed_of_defang hdefang), unpadQuad_padded hpadded]
  have hne : join "." texts ≠ [] := hdotted.join_ne_nil fun text hmem =>
    ⟨(hlabels text hmem).1, fun c hc => ((hlabels text hmem).2.chars c hc).1⟩
  rw [normalize, if_neg (Bool.eq_false_iff.mp (strip_not_empty hdefang hne)), hdefang]
  dsimp only
  rw [classify, if_neg (by simpa using hne), hunpad, parse_octets]
  rfl

end Addresses

section Names

variable {rt : Runtime} {skipPrivate : Bool} {skipTlds : List Str} {names labels : List Str}
variable {host before after : Str}

theorem domainHost_dots {name : Str} (hascii : isascii name = true) (hne : name ≠ [])
    (hlast : ∀ c, name.getLast? = some c → c ≠ '.') (dots : ℕ) :
    domainHost rt (name ++ List.replicate dots '.') = name.map asciiLower := by
  have hsplit := List.dropLast_append_getLast hne
  have hstay : ".".toList.contains (name.getLast hne) = false := by
    simpa using hlast _ (List.getLast?_eq_some_getLast hne)
  have hdots : (List.replicate dots '.').rdropWhile ".".toList.contains = [] := by
    rw [List.rdropWhile_eq_nil_iff]
    intro c hc
    rw [List.eq_of_mem_replicate hc]
    rfl
  have hstrip : rstripChars "." (name ++ List.replicate dots '.') = name := by
    rw [rstripChars, ← hsplit, List.append_assoc, List.singleton_append,
      rdropWhile_append_cons hstay, hdots]
  rw [domainHost, hstrip, toPunycode, if_pos hascii, lower_of_isascii rt hascii]

theorem isDomain_of_labels (h : HostLabels labels)
    (hmatch : domainPattern.isMatch ((join "." labels).map asciiLower) = true) :
    IsDomain ((join "." labels).map asciiLower) := by
  obtain ⟨body, tail, heq, hbody, htail⟩ := domain_of_isMatch hmatch
  rcases htail with rfl | rfl
  · rw [heq, List.append_nil]
    exact hbody
  · have hmem : '\n' ∈ (join "." labels).map asciiLower := heq ▸ by simp
    obtain ⟨c, hc, hnewline⟩ := List.mem_map.mp hmem
    rw [eq_of_asciiLower rfl hnewline] at hc
    have hchar := h.isHost.chars _ hc
    cases hchar

theorem dot_letter_of_match (h : HostLabels labels)
    (hmatch : domainPattern.isMatch ((join "." labels).map asciiLower) = true) :
    '.' ∈ join "." labels ∧ (∃ c ∈ join "." labels, isAsciiAlpha c = true) ∧
      ∀ c, (join "." labels).getLast? = some c → c ≠ '.' := by
  obtain ⟨-, hdot, ⟨c, hc, hletter⟩, hlast⟩ := isDomain_of_labels h hmatch
  obtain ⟨d, hd, hdotChar⟩ := List.mem_map.mp hdot
  obtain ⟨e, he, rfl⟩ := List.mem_map.mp hc
  refine ⟨eq_of_asciiLower rfl hdotChar ▸ hd, ⟨e, he, isAsciiAlpha_of_asciiLower hletter⟩,
    fun c hc hdot => ?_⟩
  apply hlast (asciiLower c) (by rw [List.getLast?_map, hc]; rfl)
  rw [hdot]
  rfl

/-- A domain name in any spelling is read in lower case. -/
theorem normalize_spelled_name (h : HostLabels names)
    (hmatch : domainPattern.isMatch ((join "." names).map asciiLower) = true)
    (hmarkless : ∀ marker ∈ defangMarkers, ¬ marker.1 <:+: (join "." names).map asciiLower)
    (hsame : labels.map (List.map asciiLower) = names.map (List.map asciiLower))
    (hdotted : Dotted labels host) (dots : ℕ) (hbefore : ∀ c ∈ before, c ∈ stripSet)
    (hafter : ∀ c ∈ after, c ∈ stripSet) :
    normalize rt skipPrivate skipTlds (before ++ (host ++ List.replicate dots '.') ++ after) =
      .ok ((PlainForm.domain names).reading skipPrivate skipTlds
        (before ++ (host ++ List.replicate dots '.') ++ after)) := by
  have hlabels := h.of_lower hsame
  have hlower : (join "." labels).map asciiLower = (join "." names).map asciiLower := by
    rw [map_asciiLower_join, map_asciiLower_join, hsame]
  rw [← hlower] at hmatch hmarkless
  have hchars := hlabels.isHost.chars
  obtain ⟨hdot, ⟨letter, hletter, halpha⟩, hlast⟩ := dot_letter_of_match hlabels hmatch
  have hdefang := defang_dotted rt hdotted (hlabels.isLabel hmarkless) hbefore hafter dots
  have hhost : domainHost rt (join "." labels ++ List.replicate dots '.') = _ :=
    domainHost_dots (isascii_of_host hchars) hlabels.isHost.ne_nil hlast dots
  have hfree : ∀ c ∈ "/?:[]".toList, c ∉ join "." labels ++ List.replicate dots '.' := by
    have hnone : ∀ c ∈ "/?:[]".toList, isHostChar c = false ∧ c ≠ '.' := by decide
    intro c hc hmem
    rcases List.mem_append.mp hmem with hmem | hmem
    · exact Bool.noConfusion ((hnone c hc).1.symm.trans (hchars c hmem))
    · exact (hnone c hc).2 (List.eq_of_mem_replicate hmem)
  rw [normalize, if_neg (Bool.eq_false_iff.mp (strip_not_empty hdefang
    (List.ne_nil_of_mem (List.mem_append_left _ hdot)))), hdefang]
  dsimp only
  rw [classify_of_name hfree (List.mem_append_left _ hdot)
    ⟨letter, List.mem_append_left _ hletter, halpha⟩ (hhost.symm ▸ hmatch), hhost, hlower]
  rfl

end Names

section Urls

variable {rt : Runtime} {skipPrivate : Bool} {skipTlds : List Str} {parts : UrlForm}
variable {scheme colon host before after : Str} {labels : List Str} {port : Option ℕ}
variable {fragment : Option Str}

structure PlainRest (parts : UrlForm) : Prop where
  printable : ∀ c ∈ parts.rest, isPrintable c = true
  markless : ∀ marker ∈ defangMarkers,
    ¬ marker.1 <:+: (join "." parts.labels ++ parts.rest).map asciiLower
  ending : ∀ c, parts.rest.getLast? = some c → stripSet.contains c = false

theorem UrlSpelling.printable (hshaped : parts.Shaped) (hrest : PlainRest parts)
    (h : UrlSpelling parts scheme colon host labels port fragment) :
    ∀ c ∈ scheme ++ colon ++ "//".toList ++ (hostPort host port ++ parts.rest ++
      fragmentPart fragment), isPrintable c = true := by
  have hlabels := hshaped.labels.of_lower h.letters
  have hcolons : ∀ colon ∈ colonSpellings, ∀ c ∈ colon ++ "//".toList, isPrintable c = true := by
    decide
  have hhost := h.host.printable fun label hlabel c hc => ((hlabels.label label hlabel).2 c hc).1
  intro c hc
  rw [List.append_assoc scheme] at hc
  rcases List.mem_append.mp hc with hc | hc
  · rcases List.mem_append.mp hc with hc | hc
    · exact (isHostChar_cases ((h.scheme.chars hshaped.scheme).2 c hc)).2.1
    · exact hcolons colon h.colon c hc
  · rcases List.mem_append.mp hc with hc | hc
    · rcases List.mem_append.mp hc with hc | hc
      · rcases mem_hostPort hc with hc | rfl | hc
        · exact hhost c hc
        · rfl
        · exact (isHostChar_cases (by simp [isHostChar, hc])).2.1
      · exact hrest.printable c hc
    · exact printable_fragmentPart h.fragment c hc

variable (rt) in
/-- Up to the last label of the host the markers are replaced, and from there on there are
none. -/
theorem UrlSpelling.rewrites (hshaped : parts.Shaped) (hrest : PlainRest parts)
    (h : UrlSpelling parts scheme colon host labels port fragment) :
    ∃ read front front' last : Str, read.map asciiLower = parts.scheme.map asciiLower ∧
      host = front ++ last ∧ join "." labels = front' ++ last ∧ last ∈ labels ∧
      Rewrites rt defangMarkers (scheme ++ colon ++ "//".toList ++ front)
        (read ++ "://".toList ++ front') ∧
      replaceMarkers rt defangMarkers (hostPort last port ++ parts.rest) =
        some (hostPort last port ++ parts.rest) := by
  have hlower : (join "." labels).map asciiLower = (join "." parts.labels).map asciiLower := by
    rw [map_asciiLower_join, map_asciiLower_join, h.letters]
  have hmarkless : ∀ marker ∈ defangMarkers,
      ¬ marker.1 <:+: (join "." labels).map asciiLower ++ parts.rest.map asciiLower := by
    intro marker hmem
    rw [hlower, ← List.map_append]
    exact hrest.markless marker hmem
  have hall := (hshaped.labels.of_lower h.letters).isLabel fun marker hmem hin =>
    hmarkless marker hmem (hin.trans (List.prefix_append _ _).isInfix)
  obtain ⟨front, front', last, rfl, hjoin, hlast, hfront⟩ :=
    h.host.rewrites rt fun label hlabel => (hall label hlabel).2
  obtain ⟨read, hread, hscheme⟩ := rewrites_front rt hshaped.scheme h.scheme h.colon
  have hnone : ∀ marker ∈ defangMarkers, ¬ marker.1 <:+: (last ++ parts.rest).map asciiLower := by
    intro marker hmem hin
    apply hmarkless marker hmem
    rw [hjoin, List.map_append, List.append_assoc, ← List.map_append]
    exact hin.trans (List.suffix_append _ _).isInfix
  exact ⟨read, front, front', last, hread, rfl, hjoin, hlast, hscheme.append hfront,
    replaceMarkers_tail rt (hall last hlast).2 (isascii_of_printable hrest.printable) hnone port⟩

theorem printable_stripped (h : ∀ text ∈ fragment, ∀ c ∈ text, isPrintable c = true) :
    ∀ text ∈ fragment.map (rstripChars stripSet), ∀ c ∈ text, isPrintable c = true := by
  intro text htext c hc
  obtain ⟨whole, hwhole, rfl⟩ := Option.mem_map.mp htext
  exact h whole hwhole c (mem_of_mem_rstripChars hc)

variable (rt) in
/-- What `_defang` makes of a URL in any spelling. -/
theorem defang_spelled_url (hshaped : parts.Shaped) (hrest : PlainRest parts)
    (h : UrlSpelling parts scheme colon host labels port fragment)
    (hbefore : ∀ c ∈ before, c ∈ stripSet) (hafter : ∀ c ∈ after, c ∈ stripSet) :
    ∃ (read : Str) (fragment' : Option Str),
      read.map asciiLower = parts.scheme.map asciiLower ∧
      (∀ text ∈ fragment', ∀ c ∈ text, isPrintable c = true) ∧
      defang rt (before ++ (scheme ++ colon ++ "//".toList ++ (hostPort host port ++ parts.rest ++
          fragmentPart fragment)) ++ after) =
        some (urlOf read (hostPort (join "." labels) port)
          (parts.rest ++ fragmentPart fragment')) := by
  obtain ⟨read, front, front', last, hread, rfl, hjoin, hlast, hrewrites, htail⟩ :=
    h.rewrites rt hshaped hrest
  obtain ⟨hlastNe, hlabel⟩ := (hshaped.labels.of_lower h.letters).label last hlast
  have hlastChars : ∀ c ∈ last, isHostChar c = true := fun c hc => (hlabel c hc).1
  have htailAscii : isascii (hostPort last port ++ parts.rest) = true :=
    isascii_append.mpr ⟨isascii_of_printable fun c hc =>
      (isPrintable_of_hostPort hlastChars c hc).1, isascii_of_printable hrest.printable⟩
  have hstripped := printable_stripped h.fragment
  obtain ⟨fragment', hfragment', hreplaced⟩ :=
    replaceMarkers_fragmentPart htailAscii htail hstripped
  have hending := ending_of_hostPort hlastNe hlastChars hrest.ending port
  have hstart : rstripChars stripSet (scheme ++ colon ++ "//".toList ++
      (hostPort (front ++ last) port ++ parts.rest ++ fragmentPart fragment)) =
        scheme ++ colon ++ "//".toList ++ front ++ (hostPort last port ++ parts.rest) ++
          fragmentPart (fragment.map (rstripChars stripSet)) := by
    rw [← rstrip_fragmentPart (hending _)]
    simp only [hostPort_append, List.append_assoc]
  have hout : stripChars stripSet (read ++ "://".toList ++ front' ++
      (hostPort last port ++ parts.rest ++ fragmentPart fragment')) =
        urlOf read (hostPort (join "." labels) port)
          (parts.rest ++ fragmentPart (fragment'.map (rstripChars stripSet))) := by
    have hweb : read.map asciiLower ∈ webSchemes := hread ▸ hshaped.scheme
    rw [stripChars_of_head, ← List.append_assoc, rstrip_fragmentPart (hending _), hjoin,
      hostPort_append, urlOf]
    · simp
    · intro c hc
      simp only [List.append_assoc] at hc
      exact (isScheme_of_lower hweb).head_kept hc
  obtain ⟨hschemeNe, hschemeChars⟩ := h.scheme.chars hshaped.scheme
  obtain ⟨first, rest, hfirst⟩ := List.exists_cons_of_ne_nil hschemeNe
  have hchar := hschemeChars first (hfirst ▸ List.mem_cons_self)
  refine ⟨read, fragment'.map (rstripChars stripSet), hread, printable_stripped hfragment', ?_⟩
  rw [defang_eq, strips_wrapped (h.printable hshaped hrest) (by rw [hfirst]; rfl)
    (isHostChar_cases hchar).2.2.1 hbefore hafter, hstart, List.append_assoc,
    hrewrites.step _ _ (isascii_append.mpr ⟨htailAscii, isascii_of_printable
      (printable_fragmentPart hstripped)⟩) hreplaced, Option.map_some, hout]

theorem head_rest (hshaped : parts.Shaped) {c : Char}
    (hc : (parts.rest ++ fragmentPart fragment).head? = some c) : c ∈ "/?#".toList := by
  unfold UrlForm.rest at hc
  rcases hshaped.path with hpath | hpath
  · rw [hpath] at hc
    cases hquery : parts.query with
    | some text =>
        rw [hquery] at hc
        cases hc
        decide
    | none =>
        rw [hquery] at hc
        cases fragment with
        | none => cases hc
        | some text =>
            cases hc
            decide
  · rw [List.append_assoc, List.head?_append, hpath] at hc
    cases hc
    decide

theorem normalize_spelled_url (hshaped : parts.Shaped) (hrest : PlainRest parts)
    (h : UrlSpelling parts scheme colon host labels port fragment)
    (hbefore : ∀ c ∈ before, c ∈ stripSet) (hafter : ∀ c ∈ after, c ∈ stripSet) {raw : Str}
    (hraw : raw = before ++ (scheme ++ colon ++ "//".toList ++ (hostPort host port ++ parts.rest ++
      fragmentPart fragment)) ++ after) :
    normalize rt skipPrivate skipTlds raw =
      .ok ((PlainForm.url parts).reading skipPrivate skipTlds raw) := by
  obtain ⟨read, fragment', hread, hfragment', hdefang⟩ :=
    defang_spelled_url rt hshaped hrest h hbefore hafter
  have hweb : read.map asciiLower ∈ webSchemes := hread ▸ hshaped.scheme
  have hhost := (hshaped.labels.of_lower h.letters).isHost
  have hlower : (join "." labels).map asciiLower = (join "." parts.labels).map asciiLower := by
    rw [map_asciiLower_join, map_asciiLower_join, h.letters]
  have hprint : ∀ c ∈ parts.rest ++ fragmentPart fragment', isPrintable c = true := by
    intro c hc
    rcases List.mem_append.mp hc with hc | hc
    · exact hrest.printable c hc
    · exact printable_fragmentPart hfragment' c hc
  obtain ⟨hpath, hquery⟩ := partition_queryPart parts.query hshaped.question
  rw [← hraw] at hdefang
  rw [normalize_urlOf (isScheme_of_lower hweb) hhost.chars hhost.ne_nil
    (fun p hp => default_port_le (h.port p hp)) (fun c hc => head_rest hshaped hc) hprint hdefang,
    partition_fragmentPart hshaped.hash, hread, hlower, location_default _ h.port]
  unfold UrlForm.rest
  rw [hpath, hquery]
  rfl

end Urls

section Claim

variable {rt : Runtime} {skipPrivate : Bool} {skipTlds : List Str} {raw : Str}

theorem plainRest {parts : UrlForm}
    (hprint : ∀ c ∈ (PlainForm.url parts).text, isPrintable c = true)
    (hmarkless : ∀ marker ∈ defangMarkers,
      ¬ marker.1 <:+: (PlainForm.url parts).text.map asciiLower)
    (hending : ∀ c, (PlainForm.url parts).text.getLast? = some c → stripSet.contains c = false) :
    PlainRest parts where
  printable c hc := hprint c (List.mem_append_right _ (List.mem_append_right _ hc))
  markless marker hmem hin :=
    hmarkless marker hmem (hin.trans ((List.suffix_append _ _).isInfix.map asciiLower))
  ending c hc := by
    have hne : parts.rest ≠ [] := by
      intro hnil
      rw [hnil] at hc
      cases hc
    refine hending c ?_
    rw [PlainForm.text, ← List.append_assoc, List.getLast?_append_of_ne_nil _ hne, hc]

theorem normalize_respelled (indicator : PlainIndicator) (h : indicator.form.Respelled raw) :
    normalize rt skipPrivate skipTlds raw =
      .ok (indicator.form.reading skipPrivate skipTlds raw) := by
  obtain ⟨form, hshaped, hprint, hmarkless, hending⟩ := indicator
  obtain ⟨before, core, after, rfl, hspelled, hbefore, hafter⟩ := h
  dsimp only at *
  cases hspelled with
  | @url parts scheme colon host labels port fragment h =>
      exact normalize_spelled_url hshaped (plainRest hprint hmarkless hending) h hbefore hafter rfl
  | @domain names labels host dots hsame hdotted =>
      exact normalize_spelled_name hshaped.1 hshaped.2 hmarkless hsame hdotted dots hbefore hafter
  | @address ip texts text hpadded hdotted =>
      exact normalize_spelled_address hpadded hdotted hbefore hafter

theorem respelled_self (indicator : PlainIndicator) :
    indicator.form.Respelled indicator.form.text := by
  obtain ⟨form, hshaped, hprint, hmarkless, hending⟩ := indicator
  refine ⟨[], form.text, [], by simp, ?_, nofun, nofun⟩
  cases form with
  | url parts =>
      have hne := hshaped.labels.ne_nil
      have hspelling : UrlSpelling parts parts.scheme ":" (join "." parts.labels) parts.labels none
          none := ⟨.inl rfl, by decide, rfl, dotted_join hne, nofun, nofun⟩
      simpa [PlainForm.text, hostPort, fragmentPart] using PlainForm.Spelled.url hspelling
  | domain labels =>
      have hne := hshaped.1.ne_nil
      have hspelled : (PlainForm.domain labels).Spelled (join "." labels ++ List.replicate 0 '.') :=
        .domain rfl (dotted_join hne)
      simpa [PlainForm.text] using hspelled
  | address ip =>
      have hpadded : List.Forall₂ Padded (octets ip) ((octets ip).map decimal) := by
        rw [List.forall₂_map_right_iff, List.forall₂_same]
        exact fun octet hmem => padded_decimal (octets_le ip octet hmem)
      exact .address hpadded (dotted_join (by simp [octets]))

theorem reading_same (form : PlainForm) (raw other : Str) :
    (form.reading skipPrivate skipTlds raw).cacheKey =
        (form.reading skipPrivate skipTlds other).cacheKey ∧
      (form.reading skipPrivate skipTlds raw).skipReason =
        (form.reading skipPrivate skipTlds other).skipReason := by
  cases form with
  | url parts => exact ⟨rfl, rfl⟩
  | address ip => exact ⟨rfl, rfl⟩
  | domain labels =>
      simp only [PlainForm.reading, nameReading]
      split_ifs <;> exact ⟨rfl, rfl⟩

/-- A respelling has the cache key and the skip reason of the plain indicator. -/
theorem respellings_share_key (indicator : PlainIndicator) (h : indicator.form.Respelled raw) :
    ∃ value value', normalize rt skipPrivate skipTlds indicator.form.text = .ok value ∧
      normalize rt skipPrivate skipTlds raw = .ok value' ∧ value'.cacheKey = value.cacheKey ∧
        value'.skipReason = value.skipReason :=
  ⟨_, _, normalize_respelled indicator (respelled_self indicator), normalize_respelled indicator h,
    reading_same indicator.form _ _⟩

end Claim

section Sample

def evilForm : UrlForm := ⟨"http", ["evil", "com"], "/x", none⟩

theorem shaped_evilForm : evilForm.Shaped where
  scheme := by decide
  labels := ⟨by decide, by decide⟩
  path := .inr rfl
  question := by decide
  hash := by decide

def evilUrl : PlainIndicator where
  form := .url evilForm
  shaped := shaped_evilForm
  printable := by decide
  markless := by decide
  ending := by decide

theorem spelling_evilForm :
    UrlSpelling evilForm "hXXp" "[:]" "EVIL[.]com" ["EVIL", "com"] (some 80) (some "top") where
  scheme := .inr (by decide)
  colon := by decide
  letters := by decide
  host := (.dot (by decide) .last : Dotted ["EVIL".toList, "com".toList]
    ("EVIL".toList ++ "[.]".toList ++ "com".toList))
  port := by simp; decide
  fragment := by simp; decide

theorem respellings_share_key_defanged : ∃ value value',
    normalize sampleRuntime true [] "http://evil.com/x" = .ok value ∧
      normalize sampleRuntime true [] "<hXXp[:]//EVIL[.]com:80/x#top>" = .ok value' ∧
        value'.cacheKey = value.cacheKey ∧ value'.skipReason = value.skipReason :=
  respellings_share_key evilUrl ⟨"<", _, ">", rfl, .url spelling_evilForm, by decide, by decide⟩

end Sample

end OpenctiLookup
