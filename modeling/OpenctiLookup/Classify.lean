import OpenctiLookup.Defang
import OpenctiLookup.DomainPattern
import OpenctiLookup.Python.IpaddressLemmas

/-! The branches of `normalize`, and that an address and a domain are normalized to
themselves. -/
namespace OpenctiLookup
open Python

section Branches

variable {rt : Runtime} {skipPrivate : Bool} {skipTlds : List Str} {raw cleaned : Str}
variable {value : Normalized}

/-- What `normalize` reads an address from. -/
def bareText (rt : Runtime) (cleaned : Str) : Str := unpadQuad rt (stripChars "[]" cleaned)

def isHash (cleaned : Str) : Bool :=
  (hashByLength cleaned.length).isSome && hexPattern.isMatch cleaned

def isUrl (cleaned : Str) : Bool := isIn "://" cleaned || isIn "/" cleaned || isIn "?" cleaned

def addressType (ip : IpAddress) : IndicatorType := if ip.version = 4 then .ipv4 else .ipv6

def domainHost (rt : Runtime) (cleaned : Str) : Str := toPunycode rt (rstripChars "." cleaned)

/-- The ways a cleaned value can be looked up. -/
inductive Classified (rt : Runtime) (skipPrivate : Bool) (skipTlds : List Str) (raw cleaned : Str) :
    Normalized → Prop
  | address (ip : IpAddress) (hparse : IpAddress.parse (bareText rt cleaned) = some ip)
      (hskip : (if skipPrivate then isSkippableIp ip else none) = none) :
      Classified rt skipPrivate skipTlds raw cleaned ⟨raw, ip.compressed, addressType ip, none⟩
  | digest (kind : IndicatorType) (hparse : IpAddress.parse (bareText rt cleaned) = none)
      (hlength : hashByLength cleaned.length = some kind)
      (hhex : hexPattern.isMatch cleaned = true) :
      Classified rt skipPrivate skipTlds raw cleaned ⟨raw, rt.lower cleaned, kind, none⟩
  | url (text host : Str) (hparse : IpAddress.parse (bareText rt cleaned) = none)
      (hhash : isHash cleaned = false) (hurl : isUrl cleaned = true)
      (hnormalize : normalizeUrl rt cleaned = some (text, host))
      (htld : lastLabel host ∉ skipTlds) :
      Classified rt skipPrivate skipTlds raw cleaned ⟨raw, text, .url, none⟩
  | domain (hparse : IpAddress.parse (bareText rt cleaned) = none)
      (hhash : isHash cleaned = false) (hurl : isUrl cleaned = false)
      (hmatch : domainPattern.isMatch (domainHost rt cleaned) = true)
      (htld : lastLabel (domainHost rt cleaned) ∉ skipTlds)
      (hextension : lastLabel (domainHost rt cleaned) ∉ fileExtensions) :
      Classified rt skipPrivate skipTlds raw cleaned
        ⟨raw, domainHost rt cleaned, .domain, none⟩

theorem not_lookupable_of_reason {original text reason : Str} {kind : IndicatorType} :
    ¬ (Normalized.mk original text kind (some reason)).lookupable = true := by
  rw [Normalized.lookupable]
  exact Bool.noConfusion

theorem other_eq : classifyText.other rt raw cleaned skipTlds =
    if isUrl cleaned = true then
      match normalizeUrl rt cleaned with
      | none => ⟨raw, cleaned, .unknown, some "unparseable_url"⟩
      | some (url, host) =>
          if lastLabel host ∈ skipTlds then ⟨raw, url, .url, some "skipped_tld"⟩
          else ⟨raw, url, .url, none⟩
    else if domainPattern.isMatch (domainHost rt cleaned) then
      if lastLabel (domainHost rt cleaned) ∈ skipTlds then
        ⟨raw, domainHost rt cleaned, .domain, some "skipped_tld"⟩
      else if lastLabel (domainHost rt cleaned) ∈ fileExtensions then
        ⟨raw, domainHost rt cleaned, .unknown, some "looks_like_filename"⟩
      else ⟨raw, domainHost rt cleaned, .domain, none⟩
    else ⟨raw, cleaned, .unknown, some "unclassified"⟩ := rfl

theorem classified_other (hparse : IpAddress.parse (bareText rt cleaned) = none)
    (hhash : isHash cleaned = false)
    (hlookupable : (classifyText.other rt raw cleaned skipTlds).lookupable = true) :
    Classified rt skipPrivate skipTlds raw cleaned
      (classifyText.other rt raw cleaned skipTlds) := by
  rw [other_eq] at hlookupable ⊢
  split at hlookupable
  · rename_i hurl
    rw [if_pos hurl]
    split at hlookupable
    · exact absurd hlookupable not_lookupable_of_reason
    · rename_i text host hnormalize
      split at hlookupable
      · exact absurd hlookupable not_lookupable_of_reason
      · rename_i htld
        rw [if_neg htld]
        exact .url text host hparse hhash hurl hnormalize htld
  · rename_i hurl
    rw [if_neg hurl]
    split at hlookupable
    · rename_i hmatch
      rw [if_pos hmatch]
      split at hlookupable
      · exact absurd hlookupable not_lookupable_of_reason
      · rename_i htld
        rw [if_neg htld]
        split at hlookupable
        · exact absurd hlookupable not_lookupable_of_reason
        · rename_i hextension
          rw [if_neg hextension]
          exact .domain hparse hhash ((Bool.not_eq_true _).mp hurl) hmatch htld hextension
    · exact absurd hlookupable not_lookupable_of_reason

theorem classifyText_eq : classifyText rt raw cleaned skipTlds =
    match hashByLength cleaned.length with
    | some kind =>
        if hexPattern.isMatch cleaned then ⟨raw, rt.lower cleaned, kind, none⟩
        else classifyText.other rt raw cleaned skipTlds
    | none => classifyText.other rt raw cleaned skipTlds := rfl

/-- A value that can be looked up is of one of four kinds. -/
theorem classified_of_lookupable
    (hlookupable : (classify rt skipPrivate skipTlds raw cleaned).lookupable = true) :
    Classified rt skipPrivate skipTlds raw cleaned
      (classify rt skipPrivate skipTlds raw cleaned) := by
  unfold classify at hlookupable ⊢
  split at hlookupable
  · exact absurd hlookupable not_lookupable_of_reason
  rename_i hne
  rw [if_neg hne]
  split at hlookupable
  · rename_i ip hparse
    cases hskip : (if skipPrivate then isSkippableIp ip else none) with
    | none => exact .address ip hparse hskip
    | some reason =>
        rw [hskip] at hlookupable
        exact absurd hlookupable not_lookupable_of_reason
  · rename_i hparse
    rw [classifyText_eq] at hlookupable ⊢
    cases hlength : hashByLength cleaned.length with
    | none =>
        rw [hlength] at hlookupable
        exact classified_other hparse (by rw [isHash, hlength]; rfl) hlookupable
    | some kind =>
        rw [hlength] at hlookupable
        dsimp only at hlookupable ⊢
        split at hlookupable
        · rename_i hhex
          rw [if_pos hhex]
          exact .digest kind hparse hlength hhex
        · rename_i hhex
          rw [if_neg hhex]
          refine classified_other hparse ?_ hlookupable
          rw [isHash, (Bool.not_eq_true _).mp hhex, Bool.and_false]

theorem classified_of_normalize (hnorm : normalize rt skipPrivate skipTlds raw = .ok value)
    (hlookupable : value.lookupable = true) :
    ∃ cleaned, defang rt raw = some cleaned ∧
      Classified rt skipPrivate skipTlds raw cleaned value := by
  unfold normalize at hnorm
  split at hnorm
  · cases hnorm
    exact absurd hlookupable not_lookupable_of_reason
  · split at hnorm
    · cases hnorm
    · rename_i cleaned hdefang
      cases hnorm
      exact ⟨cleaned, hdefang, classified_of_lookupable hlookupable⟩

def skipOf (skipTlds : List Str) (host : Str) : Option Str :=
  if lastLabel host ∈ skipTlds then some "skipped_tld" else none

theorem addressType_cases (ip : IpAddress) : addressType ip = .ipv4 ∨ addressType ip = .ipv6 := by
  unfold addressType
  split
  · exact .inl rfl
  · exact .inr rfl

theorem hashByLength_cases {n : ℕ} {kind : IndicatorType} (h : hashByLength n = some kind) :
    kind = .hashMd5 ∨ kind = .hashSha1 ∨ kind = .hashSha256 := by
  unfold hashByLength at h
  split at h <;> cases h <;> simp

theorem classify_eq_other (htype : (classify rt skipPrivate skipTlds raw cleaned).type = .url ∨
      (classify rt skipPrivate skipTlds raw cleaned).type = .domain) :
    IpAddress.parse (bareText rt cleaned) = none ∧ isHash cleaned = false ∧
      classify rt skipPrivate skipTlds raw cleaned =
        classifyText.other rt raw cleaned skipTlds := by
  unfold classify at htype ⊢
  split at htype
  · rcases htype with htype | htype <;> cases htype
  rename_i hne
  rw [if_neg hne]
  split at htype
  · rename_i ip hparse
    change addressType ip = .url ∨ addressType ip = .domain at htype
    rcases addressType_cases ip with hkind | hkind <;> simp [hkind] at htype
  · rename_i hparse
    refine ⟨hparse, ?_⟩
    rw [classifyText_eq] at htype ⊢
    cases hlength : hashByLength cleaned.length with
    | none => exact ⟨by rw [isHash, hlength]; rfl, rfl⟩
    | some kind =>
        rw [hlength] at htype
        dsimp only at htype ⊢
        by_cases hhex : hexPattern.isMatch cleaned = true
        · rw [if_pos hhex] at htype
          rcases hashByLength_cases hlength with rfl | rfl | rfl <;> simp at htype
        · rw [if_neg hhex]
          exact ⟨by rw [isHash, (Bool.not_eq_true _).mp hhex, Bool.and_false], rfl⟩

theorem other_of_url (htype : (classifyText.other rt raw cleaned skipTlds).type = .url) :
    ∃ text host, isUrl cleaned = true ∧ normalizeUrl rt cleaned = some (text, host) ∧
      classifyText.other rt raw cleaned skipTlds = ⟨raw, text, .url, skipOf skipTlds host⟩ := by
  rw [other_eq] at htype ⊢
  split at htype
  · rename_i hurl
    rw [if_pos hurl]
    split at htype
    · cases htype
    · rename_i text host hnormalize
      refine ⟨text, host, hurl, hnormalize, ?_⟩
      unfold skipOf
      split <;> rfl
  · split at htype
    · split at htype
      · cases htype
      · split at htype <;> cases htype
    · cases htype

theorem other_of_domain (htype : (classifyText.other rt raw cleaned skipTlds).type = .domain) :
    isUrl cleaned = false ∧ domainPattern.isMatch (domainHost rt cleaned) = true ∧
      classifyText.other rt raw cleaned skipTlds =
        ⟨raw, domainHost rt cleaned, .domain, skipOf skipTlds (domainHost rt cleaned)⟩ := by
  rw [other_eq] at htype ⊢
  split at htype
  · split at htype
    · cases htype
    · split at htype <;> cases htype
  · rename_i hurl
    rw [if_neg hurl]
    split at htype
    · rename_i hmatch
      rw [if_pos hmatch]
      refine ⟨(Bool.not_eq_true _).mp hurl, hmatch, ?_⟩
      unfold skipOf
      split at htype
      · rename_i htld
        rw [if_pos htld, if_pos htld]
      · rename_i htld
        rw [if_neg htld, if_neg htld]
        split at htype
        · cases htype
        · rename_i hextension
          rw [if_neg hextension]
    · cases htype

theorem classify_of_normalize (hnorm : normalize rt skipPrivate skipTlds raw = .ok value)
    (hknown : value.type ≠ .unknown) :
    ∃ cleaned, defang rt raw = some cleaned ∧
      value = classify rt skipPrivate skipTlds raw cleaned := by
  unfold normalize at hnorm
  split at hnorm
  · cases hnorm
    exact absurd rfl hknown
  · split at hnorm
    · cases hnorm
    · rename_i cleaned hdefang
      cases hnorm
      exact ⟨cleaned, hdefang, rfl⟩

end Branches

section Shapes

theorem mem_dottedQuad {rt : Runtime} {s : Str} (h : (dottedQuadPattern rt).isMatch s = true) :
    ∀ c ∈ s, rt.isDecimal c = true ∨ c = '.' ∨ c = '\n' := by
  have honly : (dottedQuadPattern rt).Only fun c => rt.isDecimal c = true ∨ c = '.' :=
    ⟨trivial, fun c hc => .inl hc,
      ⟨fun c hc => .inr (beq_iff_eq.mp hc), fun c hc => .inl hc⟩, trivial, trivial⟩
  obtain ⟨body, tail, rfl, hbody, htail⟩ := @Regex.body_of_isMatch _
    [.caret, octetPattern rt, .rep (.seq (.chr '.') (octetPattern rt)) 3 (some 3)] honly s h
  intro c hc
  rcases List.mem_append.mp hc with hc | hc
  · exact (hbody c hc).imp_right .inl
  · exact .inr (.inr (htail.newline c hc))

theorem mem_hexPattern {s : Str} (h : hexPattern.isMatch s = true) :
    ∃ body tail, s = body ++ tail ∧ (∀ c ∈ body, (hexDigitValue c).isSome = true) ∧
      Regex.AtEnd tail :=
  @Regex.body_of_isMatch _ [.caret, .rep (.cls fun c => (hexDigitValue c).isSome) 1 none]
    ⟨trivial, fun _ hc => hc, trivial, trivial⟩ s h

/-- A domain: what stands in front of the last dot, and a last label with a letter. -/
structure DomainShape (host : Str) (tail : Str) : Prop where
  shape : ∃ first before c after, host = first ++ '.' :: (before ++ c :: after) ++ tail ∧
    (∀ d ∈ first, isLabelChar d = true ∨ d = '.') ∧ (∀ d ∈ before, isLabelChar d = true) ∧
    isAsciiLower c = true ∧ ∀ d ∈ after, isLabelChar d = true
  atEnd : Regex.AtEnd tail

theorem shape_of_domainPattern {host : Str} (h : domainPattern.isMatch host = true) :
    ∃ tail, DomainShape host tail := by
  obtain ⟨first, rest, last, next, hreads, hend, hlabels, hlast, ⟨c, hmem, hletter⟩, -⟩ :=
    isMatch_iff_reads.mp h
  obtain ⟨before, after, rfl⟩ := List.append_of_mem hmem
  obtain ⟨hbefore, hchars⟩ := List.forall_mem_append.mp hlast.chars
  refine ⟨next.after, ⟨first ++ rest.flatMap (fun label => '.' :: label), before, c, after, ?_, ?_,
    hbefore, hletter, (List.forall_mem_cons.mp hchars).2⟩, hend⟩
  · have hhost : host = _ ++ next.after := hreads.after
    rw [join_parts] at hhost
    simpa using hhost
  · intro d hd
    rcases List.mem_append.mp hd with hfirst | hrest
    · exact .inl ((hlabels first List.mem_cons_self).1.chars d hfirst)
    · obtain ⟨label, hlabel, hd⟩ := List.mem_flatMap.mp hrest
      rcases List.mem_cons.mp hd with rfl | hd
      · exact .inr rfl
      · exact .inl ((hlabels label (List.mem_cons_of_mem _ hlabel)).1.chars d hd)

end Shapes

section Unpad

variable {rt : Runtime} {s : Str}

theorem unpadQuad_of_mem {c : Char} (hmem : c ∈ s)
    (hc : rt.isDecimal c = false ∧ c ≠ '.' ∧ c ≠ '\n') : unpadQuad rt s = s := by
  unfold unpadQuad
  rw [if_neg]
  rw [Bool.and_eq_true]
  rintro ⟨hquad, -⟩
  rcases mem_dottedQuad hquad c hmem with h | h | h
  · rw [hc.1] at h
    cases h
  · exact hc.2.1 h
  · exact hc.2.2 h

theorem isDecimal_of_isAscii {c : Char} (hascii : isAscii c = true)
    (hdigit : isAsciiDigit c = false) : rt.isDecimal c = false := by
  rw [Runtime.isDecimal, Runtime.digitValue, if_pos hascii, hdigit]
  rfl

theorem digitsInt_decimal (n : ℕ) : rt.digitsInt (decimal n) = n := by
  have hvalue : ∀ c ∈ decimal n, (rt.digitValue c).getD 0 = asciiDigitValue c := by
    intro c hc
    have hdigit := isAsciiDigit_decimal hc
    rw [Runtime.digitValue, if_pos (isAscii_of_isAsciiDigit hdigit), if_pos hdigit]
    rfl
  refine (List.foldl_ext _ _ 0 fun acc c hc => ?_).trans (asciiInt_decimal n)
  rw [hvalue c hc]

end Unpad

section Addresses

variable {rt : Runtime} {text scope : Str} {ip : IpAddress} {base : BitVec 128}

theorem undefanged_of_subset {s table : Str} (hs : ∀ c ∈ s, c ∈ table)
    (htable : ∀ c ∈ table, isAscii c = true ∧ asciiLower c = c ∧ isPlain c = true ∧ c ≠ 'x') :
    Undefanged rt s := by
  have hlower : rt.lower s = s := by
    rw [lower_of_isascii rt (List.all_eq_true.mpr fun c hc => (htable c (hs c hc)).1)]
    exact (List.map_congr_left fun c hc => (htable c (hs c hc)).2.1).trans (List.map_id _)
  refine undefanged_of_plain (fun c hc => (htable c (hs c hc)).2.2.1) (fun marker hmarker => ?_)
    fun c hc => (htable c (hs c (hlower ▸ hc))).2.2.1
  have hx : 'x' ∈ marker := by
    revert marker
    decide
  rw [hlower]
  exact isIn_eq_false_of_not_mem hx fun hin => (htable 'x' (hs 'x' hin)).2.2.2 rfl

theorem mem_compressed_v4 {ip : BitVec 32} {c : Char} (h : c ∈ IpAddress.compressed (.v4 ip)) :
    c ∈ "0123456789.".toList := by
  rcases IpAddress.digit_or_dot_of_parseV4 (IpAddress.parseV4_compressed ip) c h with hdigit | rfl
  · exact List.mem_append_left ['.'] (mem_digits hdigit)
  · decide

theorem undefanged_v4 (ip : BitVec 32) : Undefanged rt (IpAddress.compressed (.v4 ip)) :=
  undefanged_of_subset (fun _ hc => mem_compressed_v4 hc) (List.all_iff_forall_prop.mp (by decide))

theorem mem_compressed_v6 {c : Char} (h : c ∈ IpAddress.compressV6 base) :
    c ∈ "0123456789abcdef:".toList := by
  rcases IpAddress.mem_compressV6 h with hhex | rfl
  · exact List.mem_append_left [':'] hhex
  · decide

theorem undefanged_v6 (base : BitVec 128) : Undefanged rt (IpAddress.compressed (.v6 base none)) :=
  undefanged_of_subset (fun _ hc => mem_compressed_v6 hc) (List.all_iff_forall_prop.mp (by decide))

theorem compressed_scoped : IpAddress.compressed (.v6 base (some scope)) =
    IpAddress.compressV6 base ++ '%' :: scope := by
  rw [IpAddress.compressed, List.append_assoc]
  rfl

/-- An address with a scope is left alone when its scope is. -/
theorem undefanged_scoped (hne : scope ≠ []) (hends : EndsPlain scope)
    (hunmarked : Unmarked rt scope) :
    Undefanged rt (IpAddress.compressed (.v6 base (some scope))) := by
  rw [compressed_scoped]
  have htable : ∀ c ∈ "0123456789abcdef:%".toList, isPlain c = true := List.all_eq_true.mp rfl
  have hsub : "0123456789abcdef:".toList ⊆ "0123456789abcdef:%".toList := by decide
  refine undefanged_of_ends (fun c hc => htable c ?_) (fun c hc => hends c ?_) fun marker hmem => ?_
  · rw [List.head?_append] at hc
    cases hhead : (IpAddress.compressV6 base).head? with
    | none =>
        rw [hhead] at hc
        cases hc
        decide
    | some d =>
        rw [hhead] at hc
        cases hc
        exact hsub (mem_compressed_v6 (List.mem_of_head? hhead))
  · rw [List.getLast?_append_of_ne_nil _ (List.cons_ne_nil _ _),
      List.getLast?_cons_of_ne_nil hne] at hc
    exact hc
  · refine unmarked_iff.mpr (fun marker hmem hin => ?_) marker hmem
    have hshape : ∀ marker ∈ defangMarkers, '%' ∉ marker.1 ∧
        marker.1.any (fun c => c ∉ "0123456789abcdef:".toList) = true := by decide
    obtain ⟨hpercent, hany⟩ := hshape marker hmem
    obtain ⟨odd, hodd, hnot⟩ := List.any_eq_true.mp hany
    rw [decide_eq_true_iff] at hnot
    have hlower : ∀ c ∈ "0123456789abcdef:".toList, isAscii c = true ∧ asciiLower c = c :=
      List.all_iff_forall_prop.mp (by decide)
    rw [List.flatMap_append, flatMap_lowerMask_of_isascii rt (List.all_eq_true.mpr fun c hc =>
      (hlower c (mem_compressed_v6 hc)).1)] at hin
    rcases infix_of_infix_append_cons hpercent hin with hin | hin
    · obtain ⟨c, hc, rfl⟩ := List.mem_map.mp (hin.subset hodd)
      exact hnot ((hlower c (mem_compressed_v6 hc)).2.symm ▸ mem_compressed_v6 hc)
    · exact unmarked_iff.mp hunmarked marker hmem hin

theorem unpadQuad_compressed_v4 (ip : BitVec 32) :
    unpadQuad rt (IpAddress.compressed (.v4 ip)) = IpAddress.compressed (.v4 ip) := by
  unfold unpadQuad
  split
  · unfold IpAddress.compressed
    dsimp only
    rw [show (".": Str) = ['.'] from rfl, split_join (List.cons_ne_nil _ _) (by
      simp only [List.forall_mem_cons]
      refine ⟨?_, ?_, ?_, ?_, fun _ h => nomatch h⟩ <;> exact IpAddress.not_mem_decimal rfl _)]
    simp only [List.map_cons, List.map_nil, digitsInt_decimal]
  · rfl

theorem bareText_compressed (ip : IpAddress) (hundefanged : Undefanged rt ip.compressed) :
    bareText rt ip.compressed = ip.compressed := by
  rw [bareText, stripChars_brackets hundefanged.unwrapped]
  have hcolon : ∀ base : BitVec 128, ':' ∈ IpAddress.compressV6 base := by
    intro base
    by_contra hnot
    have hread := IpAddress.parseV6Int_compressV6 base
    rw [IpAddress.parseV6Int, split_of_not_mem hnot] at hread
    cases hread
  have hother : rt.isDecimal ':' = false ∧ ':' ≠ '.' ∧ ':' ≠ '\n' :=
    ⟨isDecimal_of_isAscii rfl rfl, by decide, by decide⟩
  cases ip with
  | v4 ip => exact unpadQuad_compressed_v4 ip
  | v6 base scope =>
      cases scope with
      | none => exact unpadQuad_of_mem (hcolon base) hother
      | some scope =>
          refine unpadQuad_of_mem (c := ':') ?_ hother
          rw [compressed_scoped]
          exact List.mem_append_left _ (hcolon base)

theorem normalize_address (hparse : IpAddress.parse text = some ip)
    (hundefanged : Undefanged rt ip.compressed) (skipPrivate : Bool) (skipTlds : List Str) :
    normalize rt skipPrivate skipTlds ip.compressed =
      .ok ⟨ip.compressed, ip.compressed, addressType ip,
        if skipPrivate then isSkippableIp ip else none⟩ := by
  have hagain := IpAddress.parse_compressed hparse
  have hne : ip.compressed ≠ [] := by
    intro hnil
    rw [hnil] at hagain
    cases hagain
  have hbare : unpadQuad rt (stripChars "[]" ip.compressed) = ip.compressed :=
    bareText_compressed ip hundefanged
  rw [normalize_of_undefanged hundefanged hne, classify, if_neg (by simpa using hne), hbare,
    hagain]
  rfl

end Addresses

section Domains

variable {rt : Runtime} {host tail : Str}

theorem isAsciiAlpha_cases {c : Char} (h : isAsciiAlpha c = true) :
    isAscii c = true ∧ isAsciiDigit c = false ∧ c ≠ '.' ∧ c ≠ '\n' := by
  have hrange : ∀ n, 65 ≤ n → n ≤ 122 → isAsciiAlpha (Char.ofNat n) = true →
      isAscii (Char.ofNat n) = true ∧ isAsciiDigit (Char.ofNat n) = false ∧
        Char.ofNat n ≠ '.' ∧ Char.ofNat n ≠ '\n' := by
    intro n hlo hhi
    interval_cases n <;> decide
  have hbounds : 65 ≤ c.toNat ∧ c.toNat ≤ 122 := by
    simp only [isAsciiAlpha, isAsciiLower, isAsciiUpper, Bool.or_eq_true, Bool.and_eq_true,
      decide_eq_true_iff] at h
    rcases h with h | h
    · exact ⟨le_trans (by decide) h.1, h.2⟩
    · exact ⟨h.1, le_trans h.2 (by decide)⟩
  have hcases := hrange c.toNat hbounds.1 hbounds.2
  rw [Char.ofNat_toNat] at hcases
  exact hcases h

theorem not_hex_of_mem {s : Str} {c : Char} (hmem : c ∈ s) (hc : hexDigitValue c = none)
    (hnewline : c ≠ '\n') : hexPattern.isMatch s = false := by
  rw [← Bool.not_eq_true]
  intro hmatch
  obtain ⟨body, tail, rfl, hbody, htail⟩ := mem_hexPattern hmatch
  rcases List.mem_append.mp hmem with hmem | hmem
  · have hsome := hbody c hmem
    rw [hc] at hsome
    cases hsome
  · exact hnewline (htail.newline c hmem)

/-- Whatever has a slash is taken for a URL. -/
theorem classify_of_slash {raw cleaned : Str} (htrimmed : Trimmed stripSet.contains cleaned)
    (hslash : '/' ∈ cleaned) (skipPrivate : Bool) (skipTlds : List Str) :
    classify rt skipPrivate skipTlds raw cleaned =
      match normalizeUrl rt cleaned with
      | none => ⟨raw, cleaned, .unknown, some "unparseable_url"⟩
      | some (url, host) => ⟨raw, url, .url, skipOf skipTlds host⟩ := by
  have hne : cleaned ≠ [] := List.ne_nil_of_mem hslash
  have hbare : unpadQuad rt (stripChars "[]" cleaned) = cleaned := by
    rw [stripChars_brackets htrimmed]
    exact unpadQuad_of_mem hslash ⟨isDecimal_of_isAscii rfl rfl, by decide, by decide⟩
  have hparse : IpAddress.parse cleaned = none := if_pos (by simpa using hslash)
  have hurl : isUrl cleaned = true := by
    have hin : isIn "/" cleaned = true := by
      obtain ⟨before, after, heq⟩ := List.append_of_mem hslash
      exact isIn_iff.mpr ⟨before, after, by rw [heq, List.append_assoc]; rfl⟩
    rw [isUrl, hin, Bool.or_true, Bool.true_or]
  have hother : classifyText rt raw cleaned skipTlds =
      classifyText.other rt raw cleaned skipTlds := by
    rw [classifyText_eq]
    cases hashByLength cleaned.length with
    | none => rfl
    | some kind => exact if_neg (by simp [not_hex_of_mem hslash rfl (by decide)])
  rw [classify, if_neg (by simpa using hne), hbare, hparse]
  dsimp only
  rw [hother, other_eq, if_pos hurl]
  cases normalizeUrl rt cleaned with
  | none => rfl
  | some parsed =>
      dsimp only
      unfold skipOf
      split <;> rfl

theorem isAscii_of_isLabelChar {c : Char} (h : isLabelChar c = true) :
    isAscii c = true ∧ asciiLower c = c ∧ isPlain c = true ∧ c ≠ '/' ∧ c ≠ '?' ∧ c ≠ ':' := by
  have hrange : ∀ n, 48 ≤ n → n ≤ 57 ∨ 97 ≤ n → n ≤ 122 → isAscii (Char.ofNat n) = true ∧
      asciiLower (Char.ofNat n) = Char.ofNat n ∧ isPlain (Char.ofNat n) = true ∧
        Char.ofNat n ≠ '/' ∧ Char.ofNat n ≠ '?' ∧ Char.ofNat n ≠ ':' := by
    intro n hlo hmid hhi
    interval_cases n <;> first | decide | omega
  rw [← Char.ofNat_toNat c]
  simp only [isLabelChar, isAsciiLower, isAsciiDigit, Bool.or_eq_true, Bool.and_eq_true,
    decide_eq_true_iff, beq_iff_eq] at h
  rcases h with (h | h) | rfl
  · exact hrange c.toNat (le_trans (by decide) h.1) (.inr h.1) h.2
  · exact hrange c.toNat h.1 (.inl h.2) (le_trans h.2 (by decide))
  · decide

theorem isLabelChar_or_dot {c : Char} (h : isLabelChar c = true ∨ c = '.') :
    isAscii c = true ∧ asciiLower c = c ∧ isPlain c = true ∧ c ≠ '/' ∧ c ≠ '?' ∧ c ≠ ':' := by
  rcases h with h | rfl
  · exact isAscii_of_isLabelChar h
  · decide

/-- Labels and dots, with a letter in the last label. -/
structure IsDomain (s : Str) : Prop where
  chars : ∀ c ∈ s, isLabelChar c = true ∨ c = '.'
  dot : '.' ∈ s
  letter : ∃ c ∈ s, isAsciiLower c = true
  last : ∀ c, s.getLast? = some c → c ≠ '.'

theorem domain_of_isMatch (hmatch : domainPattern.isMatch host = true) :
    ∃ body tail, host = body ++ tail ∧ IsDomain body ∧ Regex.AtEnd tail := by
  obtain ⟨tail, ⟨first, before, c, after, rfl, hfirst, hbefore, hletter, hafter⟩, htail⟩ :=
    shape_of_domainPattern hmatch
  have hc : isLabelChar c = true := by rw [isLabelChar, hletter]; rfl
  have hlast : ∀ d ∈ before ++ c :: after, isLabelChar d = true := by
    intro d hd
    rcases List.mem_append.mp hd with hd | hd
    · exact hbefore d hd
    · rcases List.mem_cons.mp hd with rfl | hd
      · exact hc
      · exact hafter d hd
  refine ⟨_, tail, rfl, ⟨fun d hd => ?_, by simp, ⟨c, by simp, hletter⟩, ?_⟩, htail⟩
  · rcases List.mem_append.mp hd with hd | hd
    · exact hfirst d hd
    · exact (List.mem_cons.mp hd).symm.imp_left (hlast d)
  · rintro d hd rfl
    rw [List.getLast?_append_of_ne_nil _ (List.cons_ne_nil _ _),
      List.getLast?_cons_of_ne_nil (by simp)] at hd
    exact absurd (hlast '.' (List.mem_of_getLast? hd)) (by decide)

theorem isDomain_of_ends (hmatch : domainPattern.isMatch host = true) (hends : EndsPlain host) :
    IsDomain host := by
  obtain ⟨body, tail, rfl, hbody, rfl | rfl⟩ := domain_of_isMatch hmatch
  · exact (List.append_nil body).symm ▸ hbody
  · have hnewline := (hends '\n' List.getLast?_concat).1
    cases hnewline

theorem toPunycode_of_labels (h : ∀ c ∈ host, isLabelChar c = true ∨ c = '.') :
    toPunycode rt host = host := by
  have hascii : isascii host = true :=
    List.all_eq_true.mpr fun c hc => (isLabelChar_or_dot (h c hc)).1
  rw [toPunycode, if_pos hascii, lower_of_isascii rt hascii]
  exact (List.map_congr_left fun c hc => (isLabelChar_or_dot (h c hc)).2.1).trans (List.map_id _)

theorem parse_of_letter (hcolon : ':' ∉ host) (hletter : ∃ c ∈ host, isAsciiAlpha c = true) :
    IpAddress.parse host = none := by
  obtain ⟨c, hc, halpha⟩ := hletter
  obtain ⟨-, hdigit, hdot, -⟩ := isAsciiAlpha_cases halpha
  have hv4 : IpAddress.parseV4 host = none := by
    rw [Option.eq_none_iff_forall_ne_some]
    intro ip hparse
    rcases IpAddress.digit_or_dot_of_parseV4 hparse c hc with h | h
    · simp [hdigit] at h
    · exact hdot h
  unfold IpAddress.parse
  rw [hv4, parseV6_of_no_colon hcolon]
  split <;> rfl

def nameReading (skipTlds : List Str) (raw host : Str) : Normalized :=
  if lastLabel host ∈ skipTlds then ⟨raw, host, .domain, some "skipped_tld"⟩
  else if lastLabel host ∈ fileExtensions then ⟨raw, host, .unknown, some "looks_like_filename"⟩
  else ⟨raw, host, .domain, none⟩

variable {skipPrivate : Bool} {skipTlds : List Str}

/-- A text with a dot and a letter, and with none of the delimiters, is read as a name. -/
theorem classify_of_name {raw cleaned : Str} (hfree : ∀ c ∈ "/?:[]".toList, c ∉ cleaned)
    (hdot : '.' ∈ cleaned) (hletter : ∃ c ∈ cleaned, isAsciiAlpha c = true)
    (hmatch : domainPattern.isMatch (domainHost rt cleaned) = true) :
    classify rt skipPrivate skipTlds raw cleaned =
      nameReading skipTlds raw (domainHost rt cleaned) := by
  have hne : cleaned ≠ [] := List.ne_nil_of_mem hdot
  have hbare : unpadQuad rt (stripChars "[]" cleaned) = cleaned := by
    have hstrip : stripChars "[]" cleaned = cleaned := by
      refine stripBy_of_trimmed (trimmed_of_all fun c hc => ?_)
      rw [← Bool.not_eq_true, List.contains_iff_mem]
      exact fun hmem => hfree c ((by decide : "[]".toList ⊆ "/?:[]".toList) hmem) hc
    obtain ⟨c, hc, halpha⟩ := hletter
    obtain ⟨hascii, hdigit, hother⟩ := isAsciiAlpha_cases halpha
    rw [hstrip, unpadQuad_of_mem hc ⟨isDecimal_of_isAscii hascii hdigit, hother⟩]
  have hhex : hexPattern.isMatch cleaned = false := not_hex_of_mem hdot rfl (by decide)
  have hurl : isUrl cleaned = false := by
    rw [isUrl, isIn_eq_false_of_not_mem (c := '/') (by decide) (hfree '/' (by decide)),
      isIn_eq_false_of_not_mem (c := '/') (by decide) (hfree '/' (by decide)),
      isIn_eq_false_of_not_mem (c := '?') (by decide) (hfree '?' (by decide))]
    rfl
  have hother : classifyText.other rt raw cleaned skipTlds =
      nameReading skipTlds raw (domainHost rt cleaned) := by
    rw [other_eq, if_neg (by simp [hurl]), if_pos hmatch, nameReading]
  rw [classify, if_neg (by simpa using hne), hbare, parse_of_letter (hfree ':' (by decide)) hletter]
  dsimp only
  rw [classifyText_eq]
  cases hashByLength cleaned.length with
  | none => exact hother
  | some kind =>
      dsimp only
      rw [if_neg (by simp [hhex]), hother]

theorem normalize_domain (hmatch : domainPattern.isMatch host = true) (hends : EndsPlain host)
    (hunmarked : Unmarked rt host) (htld : lastLabel host ∉ skipTlds)
    (hextension : lastLabel host ∉ fileExtensions) (skipPrivate : Bool) :
    normalize rt skipPrivate skipTlds host = .ok ⟨host, host, .domain, none⟩ := by
  obtain ⟨hchars, hdot, ⟨c, hc, hlower⟩, hlast⟩ := isDomain_of_ends hmatch hends
  have hundefanged : Undefanged rt host := undefanged_of_ends
    (fun c hc => (isLabelChar_or_dot (hchars c (List.mem_of_head? hc))).2.2.1) hends hunmarked
  have hhost : domainHost rt host = host := by
    have hstrip : rstripChars "." host = host :=
      rstripChars_eq_self_iff.mpr fun c hc => by simpa using hlast c hc
    rw [domainHost, hstrip, toPunycode_of_labels hchars]
  have hfree : ∀ c ∈ "/?:[]".toList, c ∉ host := by
    intro c hc hmem
    have hnone : ∀ c ∈ "/?:[]".toList, ¬ (isLabelChar c = true ∨ c = '.') := by decide
    exact hnone c hc (hchars c hmem)
  have hclassify : classify rt skipPrivate skipTlds host host = ⟨host, host, .domain, none⟩ := by
    rw [classify_of_name hfree hdot ⟨c, hc, by simp [isAsciiAlpha, hlower]⟩ (hhost.symm ▸ hmatch),
      hhost, nameReading, if_neg htld, if_neg hextension]
  rw [normalize_of_undefanged hundefanged (List.ne_nil_of_mem hdot), hclassify]

theorem addressType_ne_domain (ip : IpAddress) : addressType ip ≠ .domain := by
  rcases addressType_cases ip with h | h <;> simp [h]

theorem ne_domain_of_hashByLength {n : ℕ} {kind : IndicatorType} (h : hashByLength n = some kind) :
    kind ≠ .domain := by
  rcases hashByLength_cases h with rfl | rfl | rfl <;> decide

theorem strip_domain {body tail : Str} (hbody : IsDomain body) (htail : Regex.AtEnd tail) {c : Char}
    (hc : c ∈ strip (body ++ tail)) : c ∈ body := by
  have hspace : ∀ c, body.head? = some c → isSpace c = false := by
    intro c hc
    have hplain := (isLabelChar_or_dot (hbody.chars c (List.mem_of_head? hc))).2.2.1
    simp only [isPlain, Bool.and_eq_true, Bool.not_eq_true'] at hplain
    exact hplain.1.1.1
  rcases htail with rfl | rfl
  · rw [List.append_nil] at hc
    exact stripBy_subset _ _ hc
  · have hdrop : (body ++ ['\n']).dropWhile isSpace = body ++ ['\n'] := by
      cases body with
      | nil => exact absurd hbody.dot List.not_mem_nil
      | cons d body => exact List.dropWhile_cons_of_neg (by simp [hspace d rfl])
    rw [strip, stripBy, hdrop, List.rdropWhile_concat_pos _ _ _ rfl] at hc
    exact (List.rdropWhile_prefix _ _).subset hc

/-- A domain that is normalized to itself ends in nothing to strip and holds no marker. -/
theorem plain_of_domain_again (hmatch : domainPattern.isMatch host = true)
    (hagain : Returns (normalize rt skipPrivate skipTlds host) fun again =>
      again.lookupable = true ∧ again.type = .domain ∧ again.value = host) :
    EndsPlain host ∧ Unmarked rt host := by
  obtain ⟨body, tail, rfl, hbody, htail⟩ := domain_of_isMatch hmatch
  obtain ⟨again, hnorm, hlookupable, htype, hvalue⟩ := hagain
  obtain ⟨cleaned, hdefang, hclassified⟩ := classified_of_normalize hnorm hlookupable
  have hhost : domainHost rt cleaned = body ++ tail := by
    cases hclassified with
    | address ip hparse hskip => exact absurd htype (addressType_ne_domain ip)
    | digest kind hparse hlength hhex => exact absurd htype (ne_domain_of_hashByLength hlength)
    | url text host hparse hhash hurl hnormalize htld => cases htype
    | domain hparse hhash hurl hmatch htld hextension => exact hvalue
  have hchars : ∀ c ∈ cleaned, isAscii c = true ∧ c ≠ '\n' := by
    refine forall_of_defang (List.all_iff_forall_prop.mp (by decide)) (fun c hc => ?_) hdefang
    have hc := hbody.chars c (strip_domain hbody htail hc)
    refine ⟨(isLabelChar_or_dot hc).1, ?_⟩
    rintro rfl
    exact absurd hc (by decide)
  have hascii : isascii (rstripChars "." cleaned) = true := List.all_eq_true.mpr fun c hc =>
    (hchars c (mem_of_mem_rstripChars hc)).1
  have hlower : body ++ tail = (rstripChars "." cleaned).map asciiLower := by
    rw [← hhost, domainHost, toPunycode, if_pos hascii, lower_of_isascii rt hascii]
  have hnewline : '\n' ∉ body ++ tail := by
    rw [hlower]
    intro hin
    obtain ⟨c, hc, heq⟩ := List.mem_map.mp hin
    exact (hchars c (mem_of_mem_rstripChars hc)).2 (eq_of_asciiLower rfl heq)
  have hdomain : IsDomain (body ++ tail) := by
    rcases htail with rfl | rfl
    · exact (List.append_nil body).symm ▸ hbody
    · exact absurd (by simp) hnewline
  refine ⟨fun c hc => ?_, unmarked_iff.mpr fun marker hmem hin => ?_⟩
  · have hplain := (isLabelChar_or_dot (hdomain.chars c (List.mem_of_getLast? hc))).2.2.1
    simp only [isPlain, Bool.and_eq_true, Bool.not_eq_true'] at hplain
    exact hplain.1.1
  · have hhere : (body ++ tail).flatMap (lowerMask rt) = body ++ tail := by
      rw [flatMap_lowerMask_of_isascii rt (List.all_eq_true.mpr fun c hc =>
        (isLabelChar_or_dot (hdomain.chars c hc)).1)]
      exact (List.map_congr_left fun c hc =>
        (isLabelChar_or_dot (hdomain.chars c hc)).2.1).trans (List.map_id _)
    have hview : body ++ tail <:+: cleaned.flatMap (lowerMask rt) := by
      rw [hlower, ← flatMap_lowerMask_of_isascii rt hascii]
      exact infix_flatMap _ (List.rdropWhile_prefix _ cleaned).isInfix
    rw [hhere] at hin
    have hkinds : ∀ marker ∈ defangMarkers,
        marker.1 ∈ ["hxxps".toList, "hxxp".toList, "fxp".toList] ∨
          marker.1.any (fun c => !isPlain c) = true := by decide
    rcases hkinds marker hmem with hscheme | hany
    · exact no_scheme_of_defang hdefang marker.1 hscheme (hin.trans hview)
    · obtain ⟨c, hc, hnot⟩ := List.any_eq_true.mp hany
      rw [(isLabelChar_or_dot (hdomain.chars c (hin.subset hc))).2.2.1] at hnot
      cases hnot

end Domains

end OpenctiLookup
