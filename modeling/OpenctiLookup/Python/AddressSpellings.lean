import OpenctiLookup.Python.IpaddressLemmas

/-! The ways an IPv6 address can be written. The reader asks of a group only whether it is
empty and what number it is, so every spelling is read as the one that is printed. -/
namespace OpenctiLookup.Python.IpAddress

def SameGroup (text text' : Str) : Prop :=
  (text = [] ↔ text' = []) ∧ parseHextet text = parseHextet text'

/-- `_ip_int_from_string` behind the check for an IPv4 suffix. -/
def readParts (parts : List Str) : Option (BitVec 128) := do
  if parts.length > 9 then none
  let leading := parts.head? = some []
  let trailing := parts.getLast? = some []
  match innerGaps parts with
  | [] =>
      if parts.length ≠ 8 ∨ leading ∨ trailing then none
      (parseHextets parts 0).map (BitVec.ofNat 128)
  | [skip] =>
      let hi := if leading then skip - 1 else skip
      let lo := if trailing then parts.length - skip - 2 else parts.length - skip - 1
      if (leading ∧ hi ≠ 0) ∨ (trailing ∧ lo ≠ 0) ∨ 8 < hi + lo + 1 then none
      let high ← parseHextets (parts.take hi) 0
      let all ← parseHextets (parts.drop (parts.length - lo)) (high * 65536 ^ (8 - (hi + lo)))
      pure (BitVec.ofNat 128 all)
  | _ => none

section Same

variable {parts parts' : List Str}

theorem parseV6Int_eq (text : Str) : parseV6Int text =
    if (split ':' text).length < 3 then none
    else (expandSuffix (split ':' text)).bind readParts := by
  unfold parseV6Int
  dsimp only
  split <;> rfl

theorem parseHextets_congr (h : List.Forall₂ SameGroup parts parts') (acc : ℕ) :
    parseHextets parts acc = parseHextets parts' acc := by
  induction h generalizing acc with
  | nil => rfl
  | cons hsame _ ih =>
      unfold parseHextets
      rw [hsame.2]
      exact congrArg _ (funext fun n => ih _)

theorem head_congr (h : List.Forall₂ SameGroup parts parts') :
    parts.head? = some [] ↔ parts'.head? = some [] := by
  cases h with
  | nil => rfl
  | cons hsame _ => simpa using hsame.1

theorem getLast_congr (h : List.Forall₂ SameGroup parts parts') :
    parts.getLast? = some [] ↔ parts'.getLast? = some [] := by
  rw [← List.head?_reverse, ← List.head?_reverse]
  exact head_congr (List.rel_reverse h)

theorem zipIdx_congr (h : List.Forall₂ SameGroup parts parts') (start : ℕ) :
    List.Forall₂ (fun p p' : Str × ℕ => SameGroup p.1 p'.1 ∧ p.2 = p'.2) (parts.zipIdx start)
      (parts'.zipIdx start) := by
  induction h generalizing start with
  | nil => exact .nil
  | cons hsame _ ih => exact .cons ⟨hsame, rfl⟩ (ih (start + 1))

theorem filter_congr {left right : List (Str × ℕ)}
    (h : List.Forall₂ (fun p p' => SameGroup p.1 p'.1 ∧ p.2 = p'.2) left right) :
    (left.filter fun p => p.1.isEmpty).map (·.2) = (right.filter fun p => p.1.isEmpty).map (·.2) := by
  induction h with
  | nil => rfl
  | @cons p p' left right hsame _ ih =>
      have hempty : p.1.isEmpty = p'.1.isEmpty := by
        rw [Bool.eq_iff_iff, List.isEmpty_iff, List.isEmpty_iff]
        exact hsame.1.1
      rw [List.filter_cons, List.filter_cons, hempty]
      split
      · rw [List.map_cons, List.map_cons, ih, hsame.2]
      · exact ih

theorem innerGaps_congr (h : List.Forall₂ SameGroup parts parts') :
    innerGaps parts = innerGaps parts' := by
  unfold innerGaps
  apply filter_congr
  rw [List.dropLast_eq_take, List.dropLast_eq_take]
  have hdrop := List.forall₂_drop 1 (zipIdx_congr h 0)
  rw [hdrop.length_eq]
  exact List.forall₂_take _ hdrop

theorem readParts_congr (h : List.Forall₂ SameGroup parts parts') :
    readParts parts = readParts parts' := by
  unfold readParts
  dsimp only
  rw [h.length_eq, innerGaps_congr h]
  simp only [head_congr h, getLast_congr h, parseHextets_congr h,
    parseHextets_congr (List.forall₂_take _ h), parseHextets_congr (List.forall₂_drop _ h)]

end Same

/-- A group as it may be written: its digits in either case, at most four with the zeros in
front. -/
def GroupSpelled (text : Str) (group : ℕ) : Prop :=
  text.length ≤ 4 ∧ ∃ zeros, text.map asciiLower = List.replicate zeros '0' ++ hex group

/-- The last two groups may be written as the IPv4 address they make. -/
inductive GroupsSpelled : List Str → List ℕ → Prop
  | groups {texts : List Str} {groups : List ℕ} (h : List.Forall₂ GroupSpelled texts groups) :
      GroupsSpelled texts groups
  | quad {texts : List Str} {groups : List ℕ} (ip : BitVec 32)
      (h : List.Forall₂ GroupSpelled texts groups) :
      GroupsSpelled (texts ++ [compressed (v4 ip)])
        (groups ++ [ip.toNat / 65536, ip.toNat % 65536])

def orEmpty (texts : List Str) : List Str := if texts = [] then [[]] else texts

/-- An IPv6 address as it may be written: all its groups, or a double colon for any zeros
among them. -/
inductive V6Spelled (ip : BitVec 128) : Str → Prop
  | full {texts : List Str} (h : GroupsSpelled texts (hextets ip)) : V6Spelled ip (join ":" texts)
  | gap {front back : List Str} {before after : List ℕ} {length : ℕ}
      (hgroups : hextets ip = before ++ List.replicate length 0 ++ after) (hlength : 0 < length)
      (hfront : List.Forall₂ GroupSpelled front before) (hback : GroupsSpelled back after) :
      V6Spelled ip (join ":" (orEmpty front ++ [] :: orEmpty back))

section Spelled

variable {text : Str} {group : ℕ} {texts front : List Str} {groups : List ℕ}

theorem hexDigitValue_lower (c : Char) : hexDigitValue (asciiLower c) = hexDigitValue c := by
  unfold asciiLower
  split
  · rename_i hupper
    have hrange : ∀ n, 65 ≤ n → n ≤ 90 →
        hexDigitValue (Char.ofNat (n + 32)) = hexDigitValue (Char.ofNat n) := by
      intro n hlo hhi
      interval_cases n <;> decide
    have hbounds : 65 ≤ c.toNat ∧ c.toNat ≤ 90 := by
      simp only [isAsciiUpper, Bool.and_eq_true, decide_eq_true_iff] at hupper
      exact hupper
    have hvalue := hrange c.toNat hbounds.1 hbounds.2
    rw [Char.ofNat_toNat] at hvalue
    exact hvalue
  · rfl

theorem foldlM_lower (text : Str) (n : ℕ) :
    (text.map asciiLower).foldlM pushHexDigit n = text.foldlM pushHexDigit n := by
  rw [List.foldlM_map]
  congr 1
  funext n c
  rw [pushHexDigit, pushHexDigit, hexDigitValue_lower]

theorem foldlM_zeros (zeros : ℕ) : (List.replicate zeros '0').foldlM pushHexDigit 0 = some 0 := by
  induction zeros with
  | zero => rfl
  | succ zeros ih =>
      rw [List.replicate_succ, List.foldlM_cons]
      exact ih

theorem GroupSpelled.ne_nil (h : GroupSpelled text group) : text ≠ [] := by
  obtain ⟨-, zeros, htext⟩ := h
  rintro rfl
  have hnil := (List.append_eq_nil_iff.mp htext.symm).2
  exact hex_ne_nil group hnil

theorem GroupSpelled.read (h : GroupSpelled text group) : parseHextet text = some group := by
  have hne := h.ne_nil
  obtain ⟨hlength, zeros, htext⟩ := h
  unfold parseHextet
  rw [if_neg (by simp [hne, hlength])]
  change text.foldlM pushHexDigit 0 = some group
  rw [← foldlM_lower, htext, List.foldlM_append, foldlM_zeros]
  exact foldlM_hex group

theorem GroupSpelled.chars (h : GroupSpelled text group) : ∀ c ∈ text, c ∈ hexDigits := by
  obtain ⟨-, zeros, htext⟩ := h
  intro c hc
  have hlower : asciiLower c ∈ List.replicate zeros '0' ++ hex group :=
    htext ▸ List.mem_map_of_mem hc
  have hdigit : asciiLower c ∈ hexDigits := by
    rcases List.mem_append.mp hlower with hzero | hhex
    · rw [List.eq_of_mem_replicate hzero]
      decide
    · exact lowerHexDigits_subset (mem_hexDigits_hex hhex)
  apply mem_hexDigits
  rw [← hexDigitValue_lower]
  exact hexDigitValue_of_mem _ hdigit

theorem GroupSpelled.lt (h : GroupSpelled text group) : group < 65536 := by
  obtain ⟨hlength, zeros, htext⟩ := h
  have hsame := congrArg List.length htext
  rw [List.length_map, List.length_append] at hsame
  have hshort : (hex group).length ≤ 4 := by omega
  exact (Nat.length_toDigits_le_iff (by decide) (by decide)).mp hshort

theorem groupSpelled_hex (h : group < 65536) : GroupSpelled (hex group) group := by
  have hlower : ∀ c ∈ lowerHexDigits, asciiLower c = c := by decide
  refine ⟨(Nat.length_toDigits_le_iff (by decide) (by decide)).mpr h, 0, ?_⟩
  exact (List.map_congr_left fun c hc => hlower c (mem_hexDigits_hex hc)).trans (List.map_id _)

theorem GroupSpelled.same (h : GroupSpelled text group) : SameGroup text (hex group) :=
  ⟨iff_of_false h.ne_nil (hex_ne_nil group), h.read.trans (parseHextet_hex h.lt).symm⟩

theorem same_groups (h : List.Forall₂ GroupSpelled texts groups) :
    List.Forall₂ SameGroup texts (groups.map hex) := by
  induction h with
  | nil => exact .nil
  | cons hgroup _ ih => exact .cons hgroup.same ih

theorem same_orEmpty (h : List.Forall₂ GroupSpelled texts groups) :
    List.Forall₂ SameGroup (orEmpty texts) (groupTexts groups) := by
  cases h with
  | nil => exact .cons ⟨Iff.rfl, rfl⟩ .nil
  | cons hgroup hrest => exact same_groups (.cons hgroup hrest)

def IsAddressChar (c : Char) : Prop := c ∈ hexDigits ∨ c = '.'

theorem quad_chars (ip : BitVec 32) : ∀ c ∈ compressed (v4 ip), IsAddressChar c := by
  have hdigits : ∀ c, isAsciiDigit c = true → c ∈ hexDigits := by
    intro c hc
    apply mem_hexDigits
    rw [hexDigitValue, if_pos hc]
    rfl
  intro c hc
  exact (digit_or_dot_of_parseV4 (parseV4_compressed ip) c hc).imp_left (hdigits c)

theorem dot_mem_quad (ip : BitVec 32) : '.' ∈ compressed (v4 ip) := by
  by_contra hnot
  have hread := parseV4_compressed ip
  rw [parseV4, split_of_not_mem hnot] at hread
  cases hread

theorem forall₂_chars (h : List.Forall₂ GroupSpelled texts groups) :
    ∀ text ∈ texts, ∀ c ∈ text, c ∈ hexDigits := by
  induction h with
  | nil => exact fun _ hmem => absurd hmem List.not_mem_nil
  | cons hgroup _ ih => exact List.forall_mem_cons.mpr ⟨hgroup.chars, ih⟩

theorem GroupsSpelled.chars (h : GroupsSpelled texts groups) :
    ∀ text ∈ texts, ∀ c ∈ text, IsAddressChar c := by
  intro text htext c hc
  cases h with
  | groups h => exact .inl (forall₂_chars h text htext c hc)
  | quad ip h =>
      rcases List.mem_append.mp htext with htext | htext
      · exact .inl (forall₂_chars h text htext c hc)
      · rw [List.mem_singleton.mp htext] at hc
        exact quad_chars ip c hc

/-- An IPv4 suffix becomes the two groups it stands for. -/
theorem expand_spelled (h : GroupsSpelled texts groups) (front : List Str) :
    ∃ plain, expandSuffix (front ++ orEmpty texts) = some (front ++ orEmpty plain) ∧
      List.Forall₂ GroupSpelled plain groups := by
  cases h with
  | groups h =>
      refine ⟨texts, ?_, h⟩
      have hdot : ∀ text ∈ orEmpty texts, '.' ∉ text := by
        intro text htext hdot
        unfold orEmpty at htext
        split at htext
        · rw [List.mem_singleton.mp htext] at hdot
          cases hdot
        · exact absurd (forall₂_chars h text htext '.' hdot) (by decide)
      have hne : orEmpty texts ≠ [] := by
        unfold orEmpty
        split
        · exact List.cons_ne_nil _ _
        · assumption
      unfold expandSuffix
      rw [List.getLast?_append_of_ne_nil _ hne, List.getLast?_eq_some_getLast hne]
      dsimp only
      rw [if_neg]
      simpa using hdot _ (List.getLast_mem hne)
  | @quad texts groups ip h =>
      refine ⟨texts ++ [hex (ip.toNat / 65536), hex (ip.toNat % 65536)], ?_, ?_⟩
      · have hquad : orEmpty (texts ++ [compressed (v4 ip)]) = texts ++ [compressed (v4 ip)] :=
          if_neg (by simp)
        have hplain : orEmpty (texts ++ [hex (ip.toNat / 65536), hex (ip.toNat % 65536)]) =
            texts ++ [hex (ip.toNat / 65536), hex (ip.toNat % 65536)] := if_neg (by simp)
        rw [hquad, hplain, ← List.append_assoc, ← List.append_assoc]
        unfold expandSuffix
        rw [List.getLast?_concat]
        dsimp only
        rw [if_pos (by simpa using dot_mem_quad ip), parseV4_compressed, List.dropLast_concat]
        rfl
      · have hip := ip.isLt
        exact List.rel_append h (.cons (groupSpelled_hex (by omega))
          (.cons (groupSpelled_hex (Nat.mod_lt _ (by decide))) .nil))

theorem parseV6Int_join {parts : List Str} (hparts : ∀ part ∈ parts, ':' ∉ part)
    (hlong : 3 ≤ parts.length) :
    parseV6Int (join ":" parts) = (expandSuffix parts).bind readParts := by
  have hne : parts ≠ [] := List.ne_nil_of_length_pos (by omega)
  rw [parseV6Int_eq, show (":" : Str) = [':'] from rfl, split_join hne hparts,
    if_neg (by omega)]

theorem GroupsSpelled.length (h : GroupsSpelled texts groups) :
    groups.length ≤ texts.length + 1 := by
  cases h with
  | groups h =>
      rw [h.length_eq]
      omega
  | quad ip h =>
      rw [List.length_append, List.length_append, h.length_eq]
      simp

theorem orEmpty_of_ne_nil (h : texts ≠ []) : orEmpty texts = texts := if_neg h

theorem length_orEmpty_pos (texts : List Str) : 0 < (orEmpty texts).length := by
  unfold orEmpty
  split
  · exact Nat.one_pos
  · exact List.length_pos_of_ne_nil ‹_›

theorem orEmpty_chars (h : ∀ text ∈ texts, ∀ c ∈ text, IsAddressChar c) :
    ∀ text ∈ orEmpty texts, ∀ c ∈ text, IsAddressChar c := by
  intro text htext c hc
  unfold orEmpty at htext
  split at htext
  · rw [List.mem_singleton.mp htext] at hc
    cases hc
  · exact h text htext c hc

theorem not_mem_of_chars (h : ∀ c ∈ text, IsAddressChar c) : ':' ∉ text := by
  intro hmem
  rcases h ':' hmem with hhex | hdot
  · exact absurd hhex (by decide)
  · exact absurd hdot (by decide)

theorem read_of_same {parts plain canonical : List Str} {ip : BitVec 128}
    (hchars : ∀ part ∈ parts, ∀ c ∈ part, IsAddressChar c) (hlong : 3 ≤ parts.length)
    (hexpand : expandSuffix parts = some plain)
    (hsame : List.Forall₂ SameGroup plain canonical)
    (hcanonical : ∀ part ∈ canonical, '.' ∉ part ∧ ':' ∉ part) (hlong' : 3 ≤ canonical.length)
    (hread : parseV6Int (join ":" canonical) = some ip) :
    parseV6Int (join ":" parts) = some ip := by
  rw [parseV6Int_join (fun part hpart => not_mem_of_chars (hchars part hpart)) hlong, hexpand,
    Option.bind_some, readParts_congr hsame]
  rw [parseV6Int_join (fun part hpart => (hcanonical part hpart).2) hlong',
    expandSuffix_of_no_dot fun part hpart => (hcanonical part hpart).1] at hread
  exact hread

theorem ofNat_hextets (ip : BitVec 128) : BitVec.ofNat 128 (ofGroups 0 (hextets ip)) = ip := by
  rw [ofGroups_hextets, BitVec.ofNat_toNat, BitVec.setWidth_eq]

variable {ip : BitVec 128}

theorem read_full (h : GroupsSpelled texts (hextets ip)) :
    parseV6Int (join ":" texts) = some ip := by
  have hmem : ∀ group ∈ hextets ip, group < 65536 := fun group => lt_of_mem_hextets
  have hcount : (hextets ip).length = 8 := rfl
  have hlength := h.length
  have hne : texts ≠ [] := List.ne_nil_of_length_pos (by omega)
  obtain ⟨plain, hexpand, hplain⟩ := expand_spelled h []
  rw [List.nil_append, List.nil_append, orEmpty_of_ne_nil hne] at hexpand
  have hne' : plain ≠ [] := List.ne_nil_of_length_pos (by rw [hplain.length_eq]; omega)
  rw [orEmpty_of_ne_nil hne'] at hexpand
  refine read_of_same h.chars (by omega) hexpand (same_groups hplain) ?_ ?_ ?_
  · intro part hpart
    obtain ⟨group, -, rfl⟩ := List.mem_map.mp hpart
    exact ⟨not_mem_hex (by decide), not_mem_hex (by decide)⟩
  · rw [List.length_map]
    omega
  · rw [parseV6Int_groups hcount hmem, ofNat_hextets]

theorem read_gap {back : List Str} {before after : List ℕ} {length : ℕ}
    (hgroups : hextets ip = before ++ List.replicate length 0 ++ after) (hlength : 0 < length)
    (hfront : List.Forall₂ GroupSpelled front before) (hback : GroupsSpelled back after) :
    parseV6Int (join ":" (orEmpty front ++ [] :: orEmpty back)) = some ip := by
  have hmem : ∀ group ∈ hextets ip, group < 65536 := fun group => lt_of_mem_hextets
  have hcount : (hextets ip).length = 8 := rfl
  have hread := ofNat_hextets ip
  rw [hgroups] at hmem hcount hread
  have htotal : before.length + length + after.length = 8 := by
    simpa [Nat.add_assoc] using hcount
  have hpos := length_orEmpty_pos front
  have hpos' := length_orEmpty_pos back
  obtain ⟨plain, hexpand, hplain⟩ := expand_spelled hback (orEmpty front ++ [[]])
  rw [← List.append_cons, ← List.append_cons] at hexpand
  refine read_of_same ?_ ?_ hexpand (List.rel_append (same_orEmpty hfront)
    (.cons ⟨Iff.rfl, rfl⟩ (same_orEmpty hplain))) ?_ ?_ ?_
  · have hchars := orEmpty_chars fun text htext c hc =>
      (Or.inl (forall₂_chars hfront text htext c hc) : IsAddressChar c)
    intro part hpart
    rcases List.mem_append.mp hpart with hpart | hpart
    · exact hchars part hpart
    · rcases List.mem_cons.mp hpart with rfl | hpart
      · exact fun c hc => absurd hc List.not_mem_nil
      · exact orEmpty_chars hback.chars part hpart
  · rw [List.length_append, List.length_cons]
    omega
  · intro part hpart
    exact ⟨not_mem_gap (by decide) part hpart, not_mem_gap (by decide) part hpart⟩
  · have hsome := List.length_pos_of_ne_nil (groupTexts_ne_nil before)
    have hsome' := List.length_pos_of_ne_nil (groupTexts_ne_nil after)
    rw [length_gap]
    omega
  · rw [parseV6Int_gap htotal hlength, hread]
    · exact fun group hgroup => hmem group (by simp [hgroup])
    · exact fun group hgroup => hmem group (by simp [hgroup])

theorem V6Spelled.read (h : V6Spelled ip text) : parseV6Int text = some ip := by
  cases h with
  | full h => exact read_full h
  | gap hgroups hlength hfront hback => exact read_gap hgroups hlength hfront hback

theorem V6Spelled.chars (h : V6Spelled ip text) :
    ∀ c ∈ text, c ∈ hexDigits ∨ c = '.' ∨ c = ':' := by
  have hjoin : ∀ parts : List Str, (∀ part ∈ parts, ∀ c ∈ part, IsAddressChar c) →
      ∀ c ∈ join ":" parts, c ∈ hexDigits ∨ c = '.' ∨ c = ':' := by
    intro parts hparts c hc
    rcases mem_join hc with hcolon | ⟨part, hpart, hmem⟩
    · exact .inr (.inr (List.mem_singleton.mp hcolon))
    · exact (hparts part hpart c hmem).imp_right Or.inl
  cases h with
  | full h => exact hjoin _ h.chars
  | gap _ _ hfront hback =>
      apply hjoin
      have hchars := orEmpty_chars fun text htext c hc =>
        (Or.inl (forall₂_chars hfront text htext c hc) : IsAddressChar c)
      intro part hpart
      rcases List.mem_append.mp hpart with hpart | hpart
      · exact hchars part hpart
      · rcases List.mem_cons.mp hpart with rfl | hpart
        · exact fun c hc => absurd hc List.not_mem_nil
        · exact orEmpty_chars hback.chars part hpart

theorem V6Spelled.colon (h : V6Spelled ip text) : ':' ∈ text := by
  by_contra hnot
  have hread := h.read
  rw [parseV6Int, split_of_not_mem hnot] at hread
  cases hread

theorem V6Spelled.parse (h : V6Spelled ip text) : IpAddress.parse text = some (v6 ip none) := by
  have hfree : ∀ c, c ∉ hexDigits → c ≠ '.' → c ≠ ':' → c ∉ text := by
    intro c hhex hdot hcolon hmem
    rcases h.chars c hmem with hc | hc | hc
    · exact hhex hc
    · exact hdot hc
    · exact hcolon hc
  have hslash : text.contains '/' = false := by
    rw [List.contains_eq_mem, decide_eq_false_iff_not]
    exact hfree '/' (by decide) (by decide) (by decide)
  have hv4 : parseV4 text = none := by
    cases hparse : parseV4 text with
    | none => rfl
    | some ip4 =>
        rcases digit_or_dot_of_parseV4 hparse ':' h.colon with hdigit | hdot
        · cases hdigit
        · exact absurd hdot (by decide)
  have hpercent : '%' ∉ text := hfree '%' (by decide) (by decide) (by decide)
  unfold IpAddress.parse parseV6
  rw [hslash, if_neg Bool.false_ne_true, hv4]
  dsimp only
  rw [partition_of_not_mem hpercent]
  simp [h.read]

end Spelled

end OpenctiLookup.Python.IpAddress
