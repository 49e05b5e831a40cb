import OpenctiLookup.UrlParts

/-! What a value that can be looked up looks like. The membership set has values without their
types, so no text may be the value of two types. -/
namespace OpenctiLookup
open Python

/-- The values a type can have. -/
inductive KeyShape (skipPrivate : Bool) (skipTlds : List Str) : IndicatorType → Str → Prop
  /-- An address as `ipaddress` writes it. -/
  | address {text : Str} (ip : IpAddress) (hparse : IpAddress.parse text = some ip)
      (hwritten : ip.compressed = text)
      (hskip : (if skipPrivate then isSkippableIp ip else none) = none) :
      KeyShape skipPrivate skipTlds (addressType ip) text
  /-- A digest in lower case. -/
  | digest {text : Str} (kind : IndicatorType) (hdigest : IsDigest kind text)
      (hlower : text.map asciiLower = text) : KeyShape skipPrivate skipTlds kind text
  /-- A URL of a host that is not skipped, without its default port and a fragment. -/
  | url {scheme host path query : Str} (port : Option ℕ)
      (hscheme : ∀ c ∈ scheme, isSchemeChar c = true)
      (hpath : path = [] ∨ path.head? = some '/') (htld : lastLabel host ∉ skipTlds) :
      KeyShape skipPrivate skipTlds .url
        (urlunsplit ⟨scheme, location scheme host port, path, query, []⟩)
  | domain {text : Str} (hmatch : domainPattern.isMatch text = true)
      (htld : lastLabel text ∉ skipTlds) (hextension : lastLabel text ∉ fileExtensions) :
      KeyShape skipPrivate skipTlds .domain text

/-- The type of a value that can be looked up, read off the value. -/
def typeOf (text : Str) : IndicatorType :=
  match IpAddress.parse text with
  | some ip => addressType ip
  | none =>
      if '/' ∈ text then .url
      else if '.' ∈ text then .domain
      else (hashByLength text.length).getD .unknown

section Shapes

variable {rt : Runtime} {skipPrivate : Bool} {skipTlds : List Str} {raw : Str}
  {value : Normalized} {kind : IndicatorType} {text : Str}

theorem keyShape_of_normalize (hnorm : normalize rt skipPrivate skipTlds raw = .ok value)
    (hlookupable : value.lookupable = true) :
    KeyShape skipPrivate skipTlds value.type value.value := by
  obtain ⟨cleaned, hdefang, hclassified⟩ := classified_of_normalize hnorm hlookupable
  cases hclassified with
  | address ip hparse hskip =>
      exact .address ip (IpAddress.parse_compressed hparse) rfl hskip
  | digest kind hparse hlength hhex =>
      have hdigest : IsDigest kind cleaned := by
        obtain ⟨body, tail, rfl, hbody, htail⟩ := mem_hexPattern hhex
        rcases htail with rfl | rfl
        · rw [List.append_nil] at hlength ⊢
          exact ⟨hlength, hbody⟩
        · have hnewline := (trimmed_of_defang hdefang).2 '\n' List.getLast?_concat
          cases hnewline
      refine .digest kind hdigest.lower ?_
      rw [hdigest.lower_eq]
      exact map_asciiLower_of_lower
  | url text host hparse hhash hurl hnormalize htld =>
      obtain ⟨parts, hostname, port, hreads, rfl, rfl⟩ := normalizeUrl_eq_some_iff.mp hnormalize
      have hwell := (wellFormed_of_urlsplit hreads.split).1
      have hne := netloc_ne_nil hreads.hostname
      exact .url port hwell.scheme_chars (hwell.path_start hne) htld
  | domain hparse hhash hurl hmatch htld hextension => exact .domain hmatch htld hextension

theorem chars_of_domain (hmatch : domainPattern.isMatch text = true) :
    '.' ∈ text ∧ (∃ c ∈ text, isAsciiLower c = true) ∧
      ∀ c ∈ text, isLabelChar c = true ∨ c = '.' ∨ c = '\n' := by
  obtain ⟨tail, ⟨first, before, c, after, rfl, hfirst, hbefore, hc, hafter⟩, hend⟩ :=
    shape_of_domainPattern hmatch
  refine ⟨by simp, ⟨c, by simp, hc⟩, fun d hd => ?_⟩
  simp only [List.mem_append, List.mem_cons] at hd
  rcases hd with (hd | rfl | hd | rfl | hd) | hd
  · exact (hfirst d hd).imp_right .inl
  · exact .inr (.inl rfl)
  · exact .inl (hbefore d hd)
  · exact .inl (by simp [isLabelChar, hc])
  · exact .inl (hafter d hd)
  · exact .inr (.inr (hend.newline d hd))

theorem not_domain_of_parse {ip : IpAddress} (hparse : IpAddress.parse text = some ip) :
    domainPattern.isMatch text = false := by
  rw [← Bool.not_eq_true]
  intro hmatch
  obtain ⟨-, ⟨c, hc, hlower⟩, hchars⟩ := chars_of_domain hmatch
  have hcolon : ':' ∉ text := by
    intro hmem
    exact absurd (hchars ':' hmem) (by decide)
  cases IpAddress.reads_of_parse hparse with
  | v4 ip hip =>
      rcases IpAddress.digit_or_dot_of_parseV4 hip c hc with hdigit | rfl
      · rw [isAsciiDigit, Bool.and_eq_true, decide_eq_true_iff, decide_eq_true_iff] at hdigit
        rw [isAsciiLower, Bool.and_eq_true, decide_eq_true_iff, decide_eq_true_iff] at hlower
        have hle : 'a' ≤ '9' := Char.le_trans hlower.1 hdigit.2
        exact absurd hle (by decide)
      · cases hlower
  | v6 ip hip => exact hcolon (IpAddress.chars_of_parseV6Int hip).1
  | zone ip addr scope haddr htext =>
      refine hcolon ?_
      rw [htext]
      exact List.mem_append_left _ (IpAddress.chars_of_parseV6Int haddr).1

theorem slash_not_mem_of_parse {ip : IpAddress} (hparse : IpAddress.parse text = some ip) :
    '/' ∉ text := by
  intro hmem
  rw [IpAddress.parse, if_pos (by simpa using hmem)] at hparse
  cases hparse

theorem not_mem_of_digest (hdigest : IsDigest kind text) {c : Char}
    (hc : (hexDigitValue c).isSome = false) : c ∉ text := by
  intro hmem
  rw [hdigest.hex c hmem] at hc
  cases hc

theorem typeOf_of_keyShape (h : KeyShape skipPrivate skipTlds kind text) :
    kind = typeOf text := by
  unfold typeOf
  cases h with
  | address ip hparse => rw [hparse]
  | digest kind hdigest =>
      rw [parse_of_no_separator (not_mem_of_digest hdigest (by decide))
        (not_mem_of_digest hdigest (by decide))]
      dsimp only
      rw [if_neg (not_mem_of_digest hdigest (by decide)),
        if_neg (not_mem_of_digest hdigest (by decide)), hdigest.length, Option.getD_some]
  | @url scheme host path query port hscheme hpath =>
      have hslash : '/' ∈ urlunsplit ⟨scheme, location scheme host port, path, query, []⟩ := by
        rw [urlunsplit_eq hpath]
        simp
      cases hparse : IpAddress.parse
          (urlunsplit ⟨scheme, location scheme host port, path, query, []⟩) with
      | none => rw [if_pos hslash]
      | some ip => exact absurd hslash (slash_not_mem_of_parse hparse)
  | domain hmatch =>
      obtain ⟨hdot, -, hchars⟩ := chars_of_domain hmatch
      cases hparse : IpAddress.parse text with
      | some ip =>
          rw [not_domain_of_parse hparse] at hmatch
          cases hmatch
      | none =>
          rw [if_neg (fun hmem => absurd (hchars '/' hmem) (by decide)), if_pos hdot]

/-- A value that can be looked up has the shape of its type, and the same value can only come
from an indicator of that type, whatever the two skip settings: the keys of the cache are equal
where those of the membership set are. -/
theorem same_key_of_same_value {skipPrivate' : Bool} {skipTlds' : List Str} {raw' : Str}
    {value' : Normalized} (hnorm : normalize rt skipPrivate skipTlds raw = .ok value)
    (hlookupable : value.lookupable = true)
    (hnorm' : normalize rt skipPrivate' skipTlds' raw' = .ok value')
    (hlookupable' : value'.lookupable = true) :
    KeyShape skipPrivate skipTlds value.type value.value ∧
      (value.value = value'.value ↔ value.cacheKey = value'.cacheKey) := by
  have hshape := keyShape_of_normalize hnorm hlookupable
  have hshape' := keyShape_of_normalize hnorm' hlookupable'
  refine ⟨hshape, fun hsame => ?_, fun hkey => (Normalized.cacheKey_injective hkey).2⟩
  have htype : value.type = value'.type := by
    rw [typeOf_of_keyShape hshape, typeOf_of_keyShape hshape', hsame]
  rw [Normalized.cacheKey, Normalized.cacheKey, htype, hsame]

/-- Two spellings of one address. -/
theorem same_key_of_same_value_address :
    (Normalized.mk "008.8.8.8" "8.8.8.8" .ipv4 none).cacheKey =
      (Normalized.mk "[8.8.8.8]" "8.8.8.8" .ipv4 none).cacheKey := by
  have hnorm : normalize (Runtime.ofAscii []) true [] "008.8.8.8" =
      .ok ⟨"008.8.8.8", "8.8.8.8", .ipv4, none⟩ := by decide
  have hnorm' : normalize (Runtime.ofAscii []) true [] "[8.8.8.8]" =
      .ok ⟨"[8.8.8.8]", "8.8.8.8", .ipv4, none⟩ := by decide
  exact (same_key_of_same_value hnorm rfl hnorm' rfl).2.mp rfl

end Shapes

end OpenctiLookup
