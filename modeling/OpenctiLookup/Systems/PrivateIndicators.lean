import OpenctiLookup.AsciiMarkers
import OpenctiLookup.Classify
import OpenctiLookup.Python.LowerLaws
import OpenctiLookup.Wazuh.Extraction

/-! The values that the integration keeps to itself because they are addresses that are not
public: the middleware would not look them up either. -/
namespace OpenctiLookup
open Python Wazuh

theorem isSome_isSkippableIp (ip : IpAddress) : (isSkippableIp ip).isSome =
    (ip.isPrivate || ip.isLoopback || ip.isLinkLocal || ip.isMulticast || ip.isReserved ||
      ip.isUnspecified) := by
  unfold isSkippableIp
  generalize ip.isPrivate = isPrivate
  generalize ip.isLoopback = isLoopback
  generalize ip.isLinkLocal = isLinkLocal
  generalize ip.isMulticast = isMulticast
  generalize ip.isReserved = isReserved
  generalize ip.isUnspecified = isUnspecified
  revert isPrivate isLoopback isLinkLocal isMulticast isReserved isUnspecified
  decide

theorem looksPrivate_iff {value : Str} : looksPrivate value = true ↔
    ∃ ip, IpAddress.parse value = some ip ∧ (isSkippableIp ip).isSome = true := by
  unfold looksPrivate
  cases IpAddress.parse value with
  | none => simp
  | some ip =>
      dsimp only
      rw [← isSome_isSkippableIp]
      simp

theorem isSkippableIp_scope (base : BitVec 128) (scope : Option Str) :
    isSkippableIp (.v6 base scope) = isSkippableIp (.v6 base none) := rfl

section Front

variable {rt : Runtime} {marker : Str × Str} {front rest out text : Str} {idx : ℕ}

theorem le_of_find_clear (hmem : marker ∈ defangMarkers) (hclear : Clear marker.1 front)
    (hfront : isascii front = true)
    (h : find marker.1 (rt.lower (front ++ rest)) = some idx) : front.length ≤ idx := by
  obtain ⟨hascii, -, hne, -⟩ := marker_chars marker hmem
  rw [find_lower rt hascii, find_eq_some_iff hne, view_append, view_of_isascii rt hfront] at h
  obtain ⟨before, after, hview, rfl, -⟩ := h
  by_contra hlt
  have hpiece : (front.map asciiLower).drop before.length ++ view rt rest = marker.1 ++ after := by
    have hdrop := congrArg (List.drop before.length) hview
    rw [List.append_assoc, List.drop_left, List.drop_append_of_le_length (by
      rw [List.length_map]
      omega)] at hdrop
    exact hdrop
  have hnonempty : (front.map asciiLower).drop before.length ≠ [] := by
    rw [← List.length_pos_iff, List.length_drop, List.length_map]
    omega
  have hnot := hclear _ ((List.mem_tails _ _).mpr (List.drop_suffix _ _)) hnonempty
  rcases List.prefix_or_prefix_of_prefix (List.prefix_append _ (view rt rest))
    (hpiece ▸ List.prefix_append marker.1 after) with hin | hin
  · exact hnot.1 hin
  · exact hnot.2 hin

def addressChars : Str := "0123456789abcdefABCDEF.:"

theorem mem_addressChars {c : Char}
    (h : (hexDigitValue c).isSome = true ∨ c = '.' ∨ c = ':') : c ∈ addressChars := by
  rcases h with hhex | rfl | rfl
  · exact List.mem_append_left ".:".toList (mem_hexDigits hhex)
  · decide
  · decide

def IsScopeFront (front : Str) : Prop :=
  ∃ addr, front = addr ++ ['%'] ∧ ∀ c ∈ addr, c ∈ addressChars

theorem isScopeFront_of_parse {addr : Str} {base : BitVec 128}
    (h : IpAddress.parseV6Int addr = some base) : IsScopeFront (addr ++ ['%']) :=
  ⟨addr, rfl, fun c hc => mem_addressChars ((IpAddress.chars_of_parseV6Int h).2 c hc)⟩

theorem IsScopeFront.isascii (h : IsScopeFront front) : isascii front = true := by
  obtain ⟨addr, rfl, haddr⟩ := h
  have hall : ∀ c ∈ addressChars, isAscii c = true := by decide
  rw [isascii_append]
  exact ⟨List.all_eq_true.mpr fun c hc => hall c (haddr c hc), rfl⟩

theorem IsScopeFront.clear (h : IsScopeFront front) (hmem : marker ∈ defangMarkers) :
    Clear marker.1 front := by
  obtain ⟨addr, rfl, haddr⟩ := h
  have hshape : ∀ marker ∈ defangMarkers, '%' ∉ marker.1 ∧
      ∃ c ∈ marker.1, c ∉ "0123456789abcdef.:".toList := by decide
  have hlower : ∀ c ∈ addressChars,
      asciiLower c ∈ "0123456789abcdef.:".toList := by decide
  obtain ⟨hpercent, odd, hodd, hnot⟩ := hshape marker hmem
  refine clear_of_absent (List.cons_ne_nil _ _) (fun c hc => ?_) fun hin => ?_
  · rw [List.mem_singleton.mp hc]
    exact hpercent
  · obtain ⟨c, hc, rfl⟩ := List.mem_map.mp (hin.subset hodd)
    exact hnot (hlower c (haddr c hc))

def Scoped (front out : Str) : Prop :=
  ∃ rest, out = front ++ rest ∧ '%' ∉ rest ∧ '/' ∉ rest

/-- A replacement leaves the address as it is. -/
theorem Scoped.replace (laws : LowerLaws rt) (hfront : IsScopeFront front) (h : Scoped front out)
    (hmem : marker ∈ defangMarkers) (hfind : find marker.1 (rt.lower out) = some idx) :
    Scoped front (out.take idx ++ marker.2 ++ out.drop (idx + marker.1.length)) := by
  obtain ⟨rest, rfl, hpercent, hslash⟩ := h
  have hle := le_of_find_clear hmem (hfront.clear hmem) hfront.isascii hfind
  have hin : '/' ∉ marker.1 := by
    intro hmarker
    obtain ⟨hascii, -, hne, -⟩ := marker_chars marker hmem
    obtain ⟨before, after, hlower, -, -⟩ := (find_eq_some_iff hne).mp hfind
    have hslash' : '/' ∈ front ++ rest :=
      laws.mem_of_mem_lower rfl rfl (by rw [hlower]; simp [hmarker])
    rcases List.mem_append.mp hslash' with hin | hin
    · obtain ⟨addr, rfl, haddr⟩ := hfront
      rcases List.mem_append.mp hin with hin | hin
      · exact absurd (haddr _ hin) (by decide)
      · exact absurd hin (by decide)
    · exact hslash hin
  have hrepl : ∀ marker ∈ defangMarkers, '/' ∉ marker.1 → '%' ∉ marker.2 ∧ '/' ∉ marker.2 := by
    decide
  obtain ⟨hpercent', hslash'⟩ := hrepl marker hmem hin
  refine ⟨rest.take (idx - front.length) ++ marker.2 ++
    (front ++ rest).drop (idx + marker.1.length), ?_, ?_, ?_⟩
  · rw [List.take_append, List.take_of_length_le hle, List.append_assoc, List.append_assoc,
      List.append_assoc]
  · rw [List.drop_append, List.drop_eq_nil_of_le (by omega), List.nil_append, List.mem_append,
      List.mem_append]
    rintro ((hin | hin) | hin)
    · exact hpercent (List.mem_of_mem_take hin)
    · exact hpercent' hin
    · exact hpercent (List.mem_of_mem_drop hin)
  · rw [List.drop_append, List.drop_eq_nil_of_le (by omega), List.nil_append, List.mem_append,
      List.mem_append]
    rintro ((hin | hin) | hin)
    · exact hslash (List.mem_of_mem_take hin)
    · exact hslash' hin
    · exact hslash (List.mem_of_mem_drop hin)

theorem Scoped.replaceMarkers (laws : LowerLaws rt) (hfront : IsScopeFront front)
    {markers : List (Str × Str)} (hsub : markers ⊆ defangMarkers) (h : Scoped front out)
    (hreplaced : OpenctiLookup.replaceMarkers rt markers out = some text) : Scoped front text := by
  induction markers generalizing out with
  | nil =>
      cases hreplaced
      exact h
  | cons marker markers ih =>
      rw [List.cons_subset] at hsub
      obtain ⟨next, hnext, hrest⟩ := Option.bind_eq_some_iff.mp hreplaced
      refine ih hsub.2 ?_ hrest
      exact (replaceMarker_invariant (Scoped front)
        (fun out idx hfind hout => hout.replace laws hfront hsub.1 hfind) hnext h).1

theorem Scoped.strip {p : Char → Bool} (hfront : IsScopeFront front)
    (hp : ∀ c ∈ "0123456789abcdefABCDEF.:%".toList, p c = false) (h : Scoped front out) :
    Scoped front (stripBy p out) := by
  obtain ⟨rest, rfl, hpercent, hslash⟩ := h
  have htrimmed : Trimmed p front := by
    obtain ⟨addr, rfl, haddr⟩ := hfront
    refine trimmed_of_all fun c hc => ?_
    rcases List.mem_append.mp hc with hc | hc
    · exact hp c (List.mem_append_left ['%'] (haddr c hc))
    · rw [List.mem_singleton.mp hc]
      exact hp '%' (by decide)
  have hne : front ≠ [] := by
    obtain ⟨addr, rfl, -⟩ := hfront
    exact List.append_ne_nil_of_right_ne_nil _ (List.cons_ne_nil _ _)
  have hstrip := stripBy_wrapped htrimmed hne [] rest
  rw [List.nil_append] at hstrip
  refine ⟨rest.rdropWhile p, hstrip, fun hmem => hpercent ?_, fun hmem => hslash ?_⟩
  · exact (List.rdropWhile_prefix p rest).subset hmem
  · exact (List.rdropWhile_prefix p rest).subset hmem

theorem Scoped.defang (laws : LowerLaws rt) (hfront : IsScopeFront front) {raw cleaned : Str}
    (h : Scoped front raw) (hdefang : OpenctiLookup.defang rt raw = some cleaned) :
    Scoped front cleaned := by
  have hset : ∀ c ∈ "0123456789abcdefABCDEF.:%".toList, stripSet.contains c = false := by decide
  have hspace : ∀ c ∈ "0123456789abcdefABCDEF.:%".toList, isSpace c = false := by decide
  have hout : Scoped front (stripChars stripSet (Python.strip raw)) :=
    (h.strip hfront hspace).strip hfront hset
  obtain ⟨text, rfl, hreplaced | ⟨rfl, -⟩⟩ := replaced_of_defang hdefang
  · exact (hout.replaceMarkers laws hfront (List.Subset.refl _) hreplaced).strip hfront hset
  · exact hout.strip hfront hset

end Front

section Filter

variable {rt : Runtime} {skipTlds : List Str} {raw cleaned front : Str} {normalized : Normalized}

/-- What is left of an address without its scope is looked up as an address or not at all. -/
theorem parse_of_classified_front (hfront : IsScopeFront front)
    (h : Classified rt true skipTlds raw front normalized) :
    ∃ ip, IpAddress.parse (bareText rt front) = some ip := by
  have hascii := hfront.isascii
  obtain ⟨addr, rfl, haddr⟩ := hfront
  have hpercent : '%' ∈ addr ++ ['%'] := by simp
  have hfree : ∀ c ∈ "/?".toList, c ∉ addr ++ ['%'] := by
    have hother : ∀ c ∈ "/?".toList, c ∉ addressChars ∧ c ≠ '%' := by decide
    intro c hc hmem
    rcases List.mem_append.mp hmem with hmem | hmem
    · exact (hother c hc).1 (haddr c hmem)
    · exact (hother c hc).2 (List.mem_singleton.mp hmem)
  cases h with
  | address ip hparse _ => exact ⟨ip, hparse⟩
  | digest kind _ _ hhex =>
      rw [not_hex_of_mem hpercent rfl (by decide)] at hhex
      cases hhex
  | url _ _ _ _ hurl _ _ =>
      have hslash := hfree '/' (by decide)
      rw [isUrl, isIn_eq_false_of_not_mem (by decide : '/' ∈ "://".toList) hslash,
        isIn_eq_false_of_not_mem (by decide : '/' ∈ "/".toList) hslash,
        isIn_eq_false_of_not_mem (by decide : '?' ∈ "?".toList) (hfree '?' (by decide))] at hurl
      cases hurl
  | domain _ _ _ hmatch _ _ =>
      have hstrip : rstripChars "." (addr ++ ['%']) = addr ++ ['%'] :=
        rstripChars_eq_self_iff.mpr fun c hc => by
          rw [List.getLast?_concat] at hc
          cases hc
          rfl
      rw [domainHost, hstrip, toPunycode, if_pos hascii, lower_of_isascii rt hascii] at hmatch
      obtain ⟨body, tail, hhost, hbody, htail⟩ := domain_of_isMatch hmatch
      have hmem : '%' ∈ body ++ tail := by
        rw [← hhost]
        exact List.mem_map.mpr ⟨'%', hpercent, rfl⟩
      rcases List.mem_append.mp hmem with hmem | hmem
      · exact absurd (hbody.chars '%' hmem) (by decide)
      · exact absurd (htail.newline '%' hmem) (by decide)

/-- An address that is not public is turned away however the text goes on behind its percent
sign. -/
theorem private_of_scoped {addr : Str} {base : BitVec 128}
    (haddr : IpAddress.parseV6Int addr = some base)
    (hskip : (isSkippableIp (.v6 base none)).isSome = true)
    (hscoped : Scoped (addr ++ ['%']) cleaned) (hdefang : defang rt raw = some cleaned)
    (h : Classified rt true skipTlds raw cleaned normalized) : False := by
  have hfront := isScopeFront_of_parse haddr
  obtain ⟨rest, rfl, hpercent, hslash⟩ := hscoped
  have hbare : bareText rt (addr ++ ['%'] ++ rest) = addr ++ ['%'] ++ rest := by
    rw [bareText, stripChars_brackets (trimmed_of_defang hdefang)]
    exact unpadQuad_of_mem (c := '%') (by simp)
      ⟨isDecimal_of_isAscii rfl rfl, by decide, by decide⟩
  by_cases hrest : rest = []
  · subst hrest
    rw [List.append_nil] at hbare h
    obtain ⟨ip, hparse⟩ := parse_of_classified_front hfront h
    rw [hbare, IpAddress.parse_percent] at hparse
    cases hparse
  · have hparse : IpAddress.parse (bareText rt (addr ++ ['%'] ++ rest)) =
        some (.v6 base (some rest)) := by
      rw [hbare, List.append_assoc]
      exact IpAddress.parse_append_scope haddr hrest hpercent hslash
    cases h with
    | address ip hip hnone =>
        rw [hparse] at hip
        cases hip
        rw [if_pos rfl, isSkippableIp_scope] at hnone
        rw [hnone] at hskip
        cases hskip
    | digest _ hip _ _ => cases hparse.symm.trans hip
    | url _ _ hip _ _ _ _ => cases hparse.symm.trans hip
    | domain hip _ _ _ _ _ => cases hparse.symm.trans hip

theorem private_of_undefanged {ip : IpAddress} (hparse : IpAddress.parse raw = some ip)
    (hskip : (isSkippableIp ip).isSome = true) (hbare : bareText rt raw = raw)
    (h : Classified rt true skipTlds raw raw normalized) : False := by
  rw [← hbare] at hparse
  cases h with
  | address ip' hip hnone =>
      rw [hparse] at hip
      cases hip
      rw [if_pos rfl] at hnone
      rw [hnone] at hskip
      cases hskip
  | digest _ hip _ _ => cases hparse.symm.trans hip
  | url _ _ hip _ _ _ _ => cases hparse.symm.trans hip
  | domain hip _ _ _ _ _ => cases hparse.symm.trans hip

theorem undefanged_of_address (h : ∀ c ∈ raw, c ∈ addressChars) :
    Undefanged rt raw := by
  have htable : ∀ c ∈ addressChars, isAscii c = true ∧ isPlain c = true ∧
      isPlain (asciiLower c) = true ∧ asciiLower c ≠ 'x' := by decide
  have hlower : rt.lower raw = raw.map asciiLower :=
    lower_of_isascii rt (List.all_eq_true.mpr fun c hc => (htable c (h c hc)).1)
  refine undefanged_of_plain (fun c hc => (htable c (h c hc)).2.1) (fun marker hmarker => ?_)
    fun c hc => ?_
  · have hx : ∀ marker ∈ ["hxxps".toList, "hxxp".toList, "fxp".toList], 'x' ∈ marker := by decide
    refine isIn_eq_false_of_not_mem (hx marker hmarker) fun hin => ?_
    rw [hlower] at hin
    obtain ⟨c, hc, heq⟩ := List.mem_map.mp hin
    exact (htable c (h c hc)).2.2.2 heq
  · rw [hlower] at hc
    obtain ⟨d, hd, rfl⟩ := List.mem_map.mp hc
    exact (htable d (h d hd)).2.2.1

/-- What the integration leaves out the middleware would not look up, with an address and a
scope in any spelling. -/
theorem private_not_lookupable (laws : LowerLaws rt) (hprivate : looksPrivate raw = true)
    (hnorm : normalize rt true skipTlds raw = .ok normalized) : normalized.lookupable = false := by
  obtain ⟨ip, hparse, hskip⟩ := looksPrivate_iff.mp hprivate
  rw [← Bool.not_eq_true]
  intro hlookupable
  obtain ⟨cleaned, hdefang, hclassified⟩ := classified_of_normalize hnorm hlookupable
  have hplain : (∀ c ∈ raw, c ∈ addressChars) → bareText rt raw = raw → False := by
    intro hchars hbare
    rw [defang_of_undefanged (undefanged_of_address hchars)] at hdefang
    cases hdefang
    exact private_of_undefanged hparse hskip hbare hclassified
  cases IpAddress.reads_of_parse hparse with
  | v4 ip4 hip4 =>
      have htext := IpAddress.compressed_of_parseV4 hip4
      refine hplain (fun c hc => ?_) ?_
      · have hdigits : ∀ c ∈ "0123456789.".toList, c ∈ addressChars := by decide
        exact hdigits c (mem_compressed_v4 (htext ▸ hc))
      · rw [← htext]
        exact bareText_compressed _ (undefanged_v4 ip4)
  | v6 ip6 hip6 =>
      obtain ⟨hcolon, hchars⟩ := IpAddress.chars_of_parseV6Int hip6
      have hall : ∀ c ∈ raw, c ∈ addressChars := fun c hc => mem_addressChars (hchars c hc)
      have hundefanged : Undefanged rt raw := undefanged_of_address hall
      refine hplain hall ?_
      rw [bareText, stripChars_brackets hundefanged.unwrapped]
      exact unpadQuad_of_mem hcolon ⟨isDecimal_of_isAscii rfl rfl, by decide, by decide⟩
  | zone ip6 addr scope haddr htext hne hpercent hslash =>
      have hfront := isScopeFront_of_parse haddr
      have hscoped : Scoped (addr ++ ['%']) raw := ⟨scope, by rw [htext]; simp, hpercent, hslash⟩
      rw [isSkippableIp_scope] at hskip
      exact private_of_scoped haddr hskip (hscoped.defang laws hfront hdefang) hdefang hclassified

end Filter

/-- A link-local address on an interface. -/
theorem private_not_lookupable_scoped :
    (Normalized.mk "fe80::1%eth0" "fe80::1%eth0" .ipv6 (some "link_local_ip")).lookupable =
      false := by
  have hnorm : normalize (Runtime.ofAscii []) true [] "fe80::1%eth0" =
      .ok ⟨"fe80::1%eth0", "fe80::1%eth0", .ipv6, some "link_local_ip"⟩ := by decide
  exact private_not_lookupable (lowerLaws_ofAscii []) (by decide) hnorm

end OpenctiLookup
