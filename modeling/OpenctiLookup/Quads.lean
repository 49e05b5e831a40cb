import OpenctiLookup.Classify

/-! Dotted quads with zeros in front of their octets. The patterns let each of them
through, and the address is read in decimal. -/
namespace OpenctiLookup
open Python

section Octets

variable {rt : Runtime} {octet : ℕ} {text : Str} {ip : BitVec 32}

def octets (ip : BitVec 32) : List ℕ :=
  [ip.toNat / 2 ^ 24, ip.toNat / 2 ^ 16 % 256, ip.toNat / 2 ^ 8 % 256, ip.toNat % 256]

/-- The octet with zeros in front, of three digits at most. -/
structure Padded (octet : ℕ) (text : Str) : Prop where
  zeros : ∃ zeros, text = List.replicate zeros '0' ++ decimal octet
  length : text.length ≤ 3

theorem compressed_octets : IpAddress.compressed (.v4 ip) = join "." ((octets ip).map decimal) :=
  rfl

theorem octets_le (ip : BitVec 32) : ∀ octet ∈ octets ip, octet ≤ 255 := by
  have hbound := ip.isLt
  simp only [octets, List.mem_cons, List.not_mem_nil, or_false]
  rintro octet (rfl | rfl | rfl | rfl) <;> omega

theorem padded_decimal (h : octet ≤ 255) : Padded octet (decimal octet) :=
  ⟨⟨0, rfl⟩, (Nat.length_toDigits_le_iff (by decide) (by decide)).mpr (by omega)⟩

theorem Padded.digits (h : Padded octet text) : ∀ c ∈ text, isAsciiDigit c = true := by
  obtain ⟨zeros, rfl⟩ := h.zeros
  intro c hc
  rcases List.mem_append.mp hc with hc | hc
  · rw [List.eq_of_mem_replicate hc]
    rfl
  · exact isAsciiDigit_decimal hc

theorem Padded.ne_nil (h : Padded octet text) : text ≠ [] := by
  obtain ⟨zeros, rfl⟩ := h.zeros
  simp [decimal_ne_nil]

theorem Padded.digitsInt (h : Padded octet text) : rt.digitsInt text = octet := by
  have hzero : ∀ zeros, (List.replicate zeros '0').foldl
      (fun n c => 10 * n + (rt.digitValue c).getD 0) 0 = 0 := by
    intro zeros
    induction zeros with
    | zero => rfl
    | succ zeros ih => exact ih
  obtain ⟨zeros, rfl⟩ := h.zeros
  rw [Runtime.digitsInt, List.foldl_append, hzero]
  exact digitsInt_decimal octet

theorem padded_of_mem {octets : List ℕ} {texts : List Str}
    (h : List.Forall₂ Padded octets texts) : ∀ text ∈ texts, ∃ octet, Padded octet text := by
  induction h with
  | nil => exact nofun
  | cons hpadded _ ih => exact List.forall_mem_cons.mpr ⟨⟨_, hpadded⟩, ih⟩

end Octets

section Patterns

variable {rt : Runtime} {octet dotted : Regex} {a b c d text before rest : Str} {n : ℕ}

theorem mem_ends_octet (h : Padded n text) : ⟨text.reverse ++ before, rest⟩ ∈
    (octetPattern rt).ends ⟨before, text ++ rest⟩ := by
  have hdecimal : ∀ c ∈ text, rt.isDecimal c = true := by
    intro c hc
    have hdigit := h.digits c hc
    simp [Runtime.isDecimal, Runtime.digitValue, isAscii_of_isAsciiDigit hdigit, hdigit]
  have hlength := h.length
  obtain ⟨first, text, rfl⟩ := List.exists_cons_of_ne_nil h.ne_nil
  exact Regex.mem_ends_rep_cls hdecimal hlength

variable (octet dotted) in
theorem isMatch_quad
    (hoctet : ∀ before rest, ⟨a.reverse ++ before, rest⟩ ∈ octet.ends ⟨before, a ++ rest⟩)
    (hdotted : ∀ text ∈ [b, c, d], ∀ before rest,
      ⟨text.reverse ++ '.' :: before, rest⟩ ∈ dotted.ends ⟨before, '.' :: (text ++ rest)⟩) :
    (Regex.concat [.caret, octet, .rep dotted 3 (some 3), .dollar]).isMatch
      (join "." [a, b, c, d]) = true := by
  have htext : join "." [a, b, c, d] =
      a ++ '.' :: (b ++ '.' :: (c ++ '.' :: (d ++ []))) := by
    simp [join, List.intercalate]
  rw [htext]
  have hrep : ⟨d.reverse ++ '.' :: (c.reverse ++ '.' :: (b.reverse ++ '.' :: (a.reverse ++ []))),
      []⟩ ∈ (Regex.rep dotted 3 (some 3)).ends
        ⟨a.reverse ++ [], '.' :: (b ++ '.' :: (c ++ '.' :: (d ++ [])))⟩ := by
    refine List.mem_flatMap.mpr ⟨_, ?_, List.mem_singleton_self _⟩
    refine List.mem_flatMap.mpr ⟨_, hdotted b (by simp) _ _, ?_⟩
    refine List.mem_flatMap.mpr ⟨_, hdotted c (by simp) _ _, ?_⟩
    exact List.mem_flatMap.mpr ⟨_, hdotted d (by simp) _ _, List.mem_singleton_self _⟩
  obtain ⟨last, hlast⟩ : ∃ last, last ∈ (Regex.concat [.rep dotted 3 (some 3), .dollar]).ends
      ⟨a.reverse ++ [], '.' :: (b ++ '.' :: (c ++ '.' :: (d ++ [])))⟩ :=
    ⟨_, Regex.mem_ends_seq.mpr ⟨_, hrep, Regex.mem_ends_seq.mpr
      ⟨_, Regex.mem_ends_dollar.mpr ⟨rfl, .inl rfl⟩, List.mem_singleton_self _⟩⟩⟩
  exact Regex.isMatch_iff.mpr ⟨last, Regex.mem_ends_seq.mpr
    ⟨_, List.mem_singleton_self _, Regex.mem_ends_seq.mpr ⟨_, hoctet [] _, hlast⟩⟩⟩

theorem mem_ends_dotted (h : Padded n text) : ⟨text.reverse ++ '.' :: before, rest⟩ ∈
    (Regex.seq (.chr '.') (octetPattern rt)).ends ⟨before, '.' :: (text ++ rest)⟩ :=
  Regex.mem_ends_seq.mpr ⟨⟨'.' :: before, text ++ rest⟩,
    Regex.mem_ends_cls.mpr ⟨'.', text ++ rest, rfl, rfl, rfl⟩, mem_ends_octet h⟩

/-- A quad is read in decimal, however its octets are padded. -/
theorem unpadQuad_padded {ip : BitVec 32} {texts : List Str}
    (h : List.Forall₂ Padded (octets ip) texts) :
    unpadQuad rt (join "." texts) = IpAddress.compressed (.v4 ip) := by
  match texts, h with
  | [a, b, c, d], .cons ha (.cons hb (.cons hc (.cons hd .nil))) =>
      have hdotted : ∀ text ∈ [b, c, d], ∃ n, Padded n text :=
        padded_of_mem (.cons hb (.cons hc (.cons hd .nil)))
      have hquad : (dottedQuadPattern rt).isMatch (join "." [a, b, c, d]) = true :=
        isMatch_quad _ _ (fun _ _ => mem_ends_octet ha) fun text hmem _ _ =>
          mem_ends_dotted (hdotted text hmem).choose_spec
      have hpadded : (zeroPaddedIpv4Pattern rt).isMatch (join "." [a, b, c, d]) = true := by
        have hright := isMatch_quad (octetPattern rt) (.alt (.seq (.chr '.') (paddedOctet rt))
            (.seq (.chr '.') (octetPattern rt))) (fun _ _ => mem_ends_octet ha)
          fun text hmem _ _ =>
            List.mem_append_right _ (mem_ends_dotted (hdotted text hmem).choose_spec)
        obtain ⟨next, hnext⟩ := Regex.isMatch_iff.mp hright
        exact Regex.isMatch_iff.mpr ⟨next, List.mem_append_right _ hnext⟩
      have hsplit : split '.' (join "." [a, b, c, d]) = [a, b, c, d] := by
        refine split_join (List.cons_ne_nil _ _) fun text hmem hdot => ?_
        have hdigits : ∀ c ∈ text, isAsciiDigit c = true := by
          rcases List.mem_cons.mp hmem with rfl | hmem
          · exact ha.digits
          · exact (hdotted text hmem).choose_spec.digits
        have hdigit := hdigits '.' hdot
        cases hdigit
      unfold unpadQuad
      rw [hquad, hpadded, Bool.and_self, if_pos rfl, hsplit]
      rw [compressed_octets]
      simp only [List.map_cons, List.map_nil, ha.digitsInt, hb.digitsInt, hc.digitsInt,
        hd.digitsInt, octets]

end Patterns

end OpenctiLookup
