import OpenctiLookup.Python.AddressSpellings
import OpenctiLookup.Systems.Respellings

/-! IPv6 addresses as keys. An address can be written in many ways, and each of them has to
lead to the one key of that address. -/
namespace OpenctiLookup
open Python IpAddress

section Defang

variable {rt : Runtime} {core before after : Str} {ip : BitVec 128}

theorem address_char_plain {c : Char} (h : c ∈ hexDigits ∨ c = '.' ∨ c = ':') :
    isPlain c = true ∧ isAscii c = true ∧ asciiLower c ≠ 'x' ∧ isPlain (asciiLower c) = true := by
  have htable : ∀ c ∈ hexDigits ++ ['.', ':'], isPlain c = true ∧ isAscii c = true ∧
      asciiLower c ≠ 'x' ∧ isPlain (asciiLower c) = true := by decide
  apply htable
  rw [List.mem_append]
  exact h.imp_right fun hc => by simpa using hc

theorem undefanged_spelled (h : V6Spelled ip core) : Undefanged rt core := by
  have hchars := fun c hc => address_char_plain (h.chars c hc)
  have hlower : rt.lower core = core.map asciiLower :=
    lower_of_isascii rt (List.all_eq_true.mpr fun c hc => (hchars c hc).2.1)
  refine undefanged_of_plain (fun c hc => (hchars c hc).1) (fun marker hmarker => ?_)
    fun c hc => ?_
  · have hx : 'x' ∈ marker := by
      revert marker
      decide
    rw [hlower]
    refine isIn_eq_false_of_not_mem hx fun hin => ?_
    obtain ⟨c, hc, heq⟩ := List.mem_map.mp hin
    exact (hchars c hc).2.2.1 heq
  · rw [hlower] at hc
    obtain ⟨d, hd, rfl⟩ := List.mem_map.mp hc
    exact (hchars d hd).2.2.2

theorem defang_wrapped (h : Undefanged rt core) (hne : core ≠ [])
    (hprint : ∀ c ∈ core, isPrintable c = true) (hbefore : ∀ c ∈ before, c ∈ stripSet)
    (hafter : ∀ c ∈ after, c ∈ stripSet) : defang rt (before ++ core ++ after) = some core := by
  obtain ⟨first, rest, rfl⟩ := List.exists_cons_of_ne_nil hne
  have hstrip := strips_wrapped hprint rfl (h.unwrapped.1 first rfl) hbefore hafter
  have hstay : rstripChars stripSet (first :: rest) = first :: rest := by
    rw [rstripChars, List.rdropWhile_eq_self_iff]
    intro hne
    simpa using h.unwrapped.2 _ (List.getLast?_eq_some_getLast hne)
  have halone := defang_of_undefanged h
  rw [defang_eq] at halone ⊢
  have hself : stripChars stripSet (strip (first :: rest)) = first :: rest := by
    rw [strip, stripBy_of_trimmed h.trimmed, stripChars, stripBy_of_trimmed h.unwrapped]
  rw [hself] at halone
  rw [hstrip, hstay]
  exact halone

end Defang

section Keys

variable {rt : Runtime} {core before after : Str} {ip : BitVec 128} {skipPrivate : Bool}
  {skipTlds : List Str}

theorem normalize_v6 (h : V6Spelled ip core) (hbefore : ∀ c ∈ before, c ∈ stripSet)
    (hafter : ∀ c ∈ after, c ∈ stripSet) :
    normalize rt skipPrivate skipTlds (before ++ core ++ after) =
      .ok ⟨before ++ core ++ after, compressV6 ip, .ipv6,
        if skipPrivate then isSkippableIp (.v6 ip none) else none⟩ := by
  have hundefanged : Undefanged rt core := undefanged_spelled h
  have hne : core ≠ [] := List.ne_nil_of_mem h.colon
  have hprint : ∀ c ∈ core, isPrintable c = true := by
    have htable : ∀ c ∈ hexDigits ++ ['.', ':'], isPrintable c = true := by decide
    intro c hc
    apply htable
    rw [List.mem_append]
    exact (h.chars c hc).imp_right fun hc => by simpa using hc
  have hdefang := defang_wrapped hundefanged hne hprint hbefore hafter
  have hbare : unpadQuad rt (stripChars "[]" core) = core := by
    rw [stripChars_brackets hundefanged.unwrapped]
    exact unpadQuad_of_mem h.colon ⟨isDecimal_of_isAscii rfl rfl, by decide, by decide⟩
  rw [normalize, if_neg (Bool.eq_false_iff.mp (strip_not_empty hdefang hne)), hdefang]
  dsimp only
  rw [classify, if_neg (by simpa using hne), hbare, h.parse]
  rfl

theorem compressV6_injective : Function.Injective compressV6 := by
  intro a b h
  have hread := parseV6Int_compressV6 a
  rw [h, parseV6Int_compressV6] at hread
  exact (Option.some.inj hread).symm

/-- A text that has the address in it, between characters that are stripped. -/
def WrittenV6 (ip : BitVec 128) (raw : Str) : Prop :=
  ∃ before core after, raw = before ++ core ++ after ∧ V6Spelled ip core ∧
    (∀ c ∈ before, c ∈ stripSet) ∧ ∀ c ∈ after, c ∈ stripSet

/-- However two IPv6 addresses are written, with padded groups, in either case, with a double
colon anywhere or an IPv4 suffix, in brackets or quotes, they have the same key exactly if they
are the same address, and then they are skipped for the same reason. -/
theorem address_keys {a b : BitVec 128} {raw raw' : Str} (ha : WrittenV6 a raw)
    (hb : WrittenV6 b raw') (skipPrivate : Bool) (skipTlds : List Str) :
    ∃ m n, normalize rt skipPrivate skipTlds raw = .ok m ∧
      normalize rt skipPrivate skipTlds raw' = .ok n ∧ m.type = .ipv6 ∧ m.value = compressV6 a ∧
        (m.cacheKey = n.cacheKey ↔ a = b) ∧ (a = b → m.skipReason = n.skipReason) := by
  obtain ⟨before, core, after, rfl, hcore, hbefore, hafter⟩ := ha
  obtain ⟨before', core', after', rfl, hcore', hbefore', hafter'⟩ := hb
  refine ⟨_, _, normalize_v6 hcore hbefore hafter, normalize_v6 hcore' hbefore' hafter', rfl, rfl,
    ⟨fun hkeys => ?_, ?_⟩, ?_⟩
  · exact compressV6_injective (List.append_cancel_left hkeys)
  · rintro rfl
    rfl
  · rintro rfl
    rfl

def sampleV6 : BitVec 128 := 0x20010db8000000000000000000000001

theorem hextets_sampleV6 : hextets sampleV6 = [0x2001, 0xdb8, 0, 0, 0, 0, 0, 1] := by decide

/-- An address in brackets with a double colon, and with all its groups padded. -/
theorem address_keys_padded : ∃ m n : Normalized,
    normalize (.ofAscii []) true [] "[2001:DB8::1]" = .ok m ∧
      normalize (.ofAscii []) true [] "2001:0db8:0000:0000:0000:0000:0000:0001" = .ok n ∧
        m.cacheKey = n.cacheKey := by
  have hfirst : GroupSpelled "2001" 0x2001 := ⟨by decide, 0, by decide⟩
  have hzero : GroupSpelled "0000" 0 := ⟨by decide, 3, by decide⟩
  have hshort : V6Spelled sampleV6 "2001:DB8::1" := by
    refine @V6Spelled.gap sampleV6 ["2001", "DB8"] ["1"] [0x2001, 0xdb8] [1] 5 hextets_sampleV6
      (by decide) ?_ (.groups ?_)
    · exact .cons hfirst (.cons ⟨by decide, 0, by decide⟩ .nil)
    · exact .cons ⟨by decide, 0, by decide⟩ .nil
  have hlong : V6Spelled sampleV6 "2001:0db8:0000:0000:0000:0000:0000:0001" := by
    refine @V6Spelled.full sampleV6
      ["2001", "0db8", "0000", "0000", "0000", "0000", "0000", "0001"] (.groups ?_)
    rw [hextets_sampleV6]
    exact .cons hfirst (.cons ⟨by decide, 1, by decide⟩ (.cons hzero (.cons hzero (.cons hzero
      (.cons hzero (.cons hzero (.cons ⟨by decide, 3, by decide⟩ .nil)))))))
  have hbracketed : WrittenV6 sampleV6 "[2001:DB8::1]" :=
    ⟨"[", _, "]", rfl, hshort, by decide, by decide⟩
  have hbare : WrittenV6 sampleV6 "2001:0db8:0000:0000:0000:0000:0000:0001" :=
    ⟨[], _, [], (List.append_nil _).symm, hlong, nofun, nofun⟩
  obtain ⟨m, n, hm, hn, -, -, hkeys, -⟩ := @address_keys (.ofAscii []) _ _ _ _ hbracketed hbare
    true []
  exact ⟨m, n, hm, hn, hkeys.mpr rfl⟩

end Keys

end OpenctiLookup
