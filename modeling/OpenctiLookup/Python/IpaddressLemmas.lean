import OpenctiLookup.Python.Ipaddress
import OpenctiLookup.Python.TextLemmas

/-! The compressed form of an address is read as that address. -/
namespace OpenctiLookup.Python

section Hex

theorem hexDigitValue_digitChar {d : ℕ} (h : d < 16) :
    hexDigitValue d.digitChar = some d := by
  interval_cases d <;> decide

def pushHexDigit (n : ℕ) (c : Char) : Option ℕ := (hexDigitValue c).map (16 * n + ·)

theorem foldlM_hex (n : ℕ) : (hex n).foldlM pushHexDigit 0 = some n := by
  induction n using Nat.strongRecOn with
  | ind n ih =>
      unfold hex at ih ⊢
      by_cases hlt : n < 16
      · rw [Nat.toDigits_of_lt_base hlt]
        simp [pushHexDigit, hexDigitValue_digitChar hlt]
      · rw [Nat.toDigits_of_base_le (by decide) (not_lt.mp hlt), List.foldlM_append,
          ih (n / 16) (by omega)]
        simp [pushHexDigit, hexDigitValue_digitChar (Nat.mod_lt n (by decide : 0 < 16)),
          Nat.div_add_mod]

theorem hex_ne_nil (n : ℕ) : hex n ≠ [] := Nat.toDigits_ne_nil

theorem parseHextet_hex {n : ℕ} (h : n < 65536) : IpAddress.parseHextet (hex n) = some n := by
  have hlength : (hex n).length ≤ 4 :=
    (Nat.length_toDigits_le_iff (by decide) (by decide)).mpr h
  unfold IpAddress.parseHextet
  rw [if_neg (by simp [hex_ne_nil, hlength])]
  exact foldlM_hex n

theorem mem_hexDigits_hex {n : ℕ} {c : Char} (h : c ∈ hex n) : c ∈ lowerHexDigits := by
  induction n using Nat.strongRecOn with
  | ind n ih =>
      unfold hex at ih h
      by_cases hlt : n < 16
      · rw [Nat.toDigits_of_lt_base hlt, List.mem_singleton] at h
        rw [h]
        interval_cases n <;> decide
      · rw [Nat.toDigits_of_base_le (by decide) (not_lt.mp hlt), List.mem_append] at h
        rcases h with h | h
        · exact ih (n / 16) (by omega) h
        · rw [List.mem_singleton.mp h]
          have hmod : n % 16 < 16 := Nat.mod_lt n (by decide)
          interval_cases n % 16 <;> decide

end Hex

namespace IpAddress

section V4

theorem parseOctet_decimal {n : ℕ} (h : n ≤ 255) : parseOctet (decimal n) = some n := by
  have hlength : (decimal n).length ≤ 3 :=
    (Nat.length_toDigits_le_iff (by decide) (by decide)).mpr (by omega)
  have hdigits : (decimal n).all isAsciiDigit = true :=
    List.all_eq_true.mpr fun c hc => isAsciiDigit_decimal hc
  have hzero : ¬ (decimal n ≠ ['0'] ∧ (decimal n).head? = some '0') := by
    rintro ⟨hne, hhead⟩
    rw [eq_zero_of_decimal_head hhead] at hne
    exact hne rfl
  unfold parseOctet
  rw [if_neg (by simp [decimal_ne_nil, hdigits, hlength]), if_neg hzero, asciiInt_decimal,
    if_neg (by omega)]

theorem not_mem_decimal {c : Char} (h : isAsciiDigit c = false) (n : ℕ) : c ∉ decimal n :=
  fun hmem => by simp [isAsciiDigit_decimal hmem] at h

theorem parseV4_compressed (ip : BitVec 32) : parseV4 (compressed (v4 ip)) = some ip := by
  have hbound := ip.isLt
  unfold compressed parseV4
  dsimp only
  rw [show (".": Str) = ['.'] from rfl, split_join (List.cons_ne_nil _ _) (by
    simp only [List.forall_mem_cons]
    refine ⟨?_, ?_, ?_, ?_, nofun⟩ <;> exact not_mem_decimal rfl _)]
  dsimp only
  rw [parseOctet_decimal (by omega), parseOctet_decimal (by omega),
    parseOctet_decimal (by omega), parseOctet_decimal (by omega)]
  simp only [Option.bind_eq_bind, Option.bind_some, Option.pure_def, Option.some.injEq]
  apply BitVec.eq_of_toNat_eq
  rw [BitVec.toNat_ofNat]
  omega

end V4

section V6

def ofGroups (acc : ℕ) (groups : List ℕ) : ℕ := groups.foldl (fun n group => n * 65536 + group) acc

theorem ofGroups_append (acc : ℕ) (first second : List ℕ) :
    ofGroups acc (first ++ second) = ofGroups (ofGroups acc first) second := List.foldl_append

theorem ofGroups_replicate_zero (acc length : ℕ) :
    ofGroups acc (List.replicate length 0) = acc * 65536 ^ length := by
  induction length generalizing acc with
  | zero => simp [ofGroups]
  | succ length ih =>
      rw [List.replicate_succ, ofGroups, List.foldl_cons, add_zero]
      exact (ih _).trans (by rw [pow_succ', mul_assoc])

theorem parseHextets_hex {groups : List ℕ} (h : ∀ group ∈ groups, group < 65536) (acc : ℕ) :
    parseHextets (groups.map hex) acc = some (ofGroups acc groups) := by
  induction groups generalizing acc with
  | nil => rfl
  | cons group rest ih =>
      rw [List.map_cons, parseHextets, parseHextet_hex (h group List.mem_cons_self)]
      exact ih (fun other hother => h other (List.mem_cons_of_mem _ hother)) _

theorem lt_of_mem_hextets {ip : BitVec 128} {group : ℕ} (h : group ∈ hextets ip) :
    group < 65536 := by
  obtain ⟨i, -, rfl⟩ := List.mem_map.mp h
  exact Nat.mod_lt _ (by decide)

theorem ofGroups_hextets (ip : BitVec 128) : ofGroups 0 (hextets ip) = ip.toNat := by
  have hbound := ip.isLt
  simp only [hextets, List.range, List.range.loop, List.map, ofGroups, List.foldl]
  omega

def ZeroRun (groups : List ℕ) (run : ℕ × ℕ) : Prop :=
  ∃ before after, groups = before ++ List.replicate run.2 0 ++ after ∧ before.length = run.1

theorem ZeroRun.append {groups : List ℕ} {run : ℕ × ℕ} (h : ZeroRun groups run) (rest : List ℕ) :
    ZeroRun (groups ++ rest) run := by
  obtain ⟨before, after, rfl, hlength⟩ := h
  exact ⟨before, after ++ rest, by simp, hlength⟩

/-- By induction on what is left, with the current run at the end of what was seen. -/
theorem zeroRun_longestZeros (rest : List ℕ) {seen : List ℕ} {run best : ℕ × ℕ}
    (hrun : run.2 = 0 ∨ ∃ before, seen = before ++ List.replicate run.2 0 ∧
      before.length = run.1)
    (hbest : ZeroRun seen best) :
    ZeroRun (seen ++ rest) (longestZeros rest seen.length run best) := by
  induction rest generalizing seen run best with
  | nil => exact hbest.append []
  | cons group rest ih =>
      have hseen : (seen ++ [group]).length = seen.length + 1 := by simp
      rw [List.append_cons, longestZeros, ← hseen]
      by_cases hzero : group = 0
      · rw [if_pos hzero]
        obtain ⟨next, hnext, before, hbefore, hstart⟩ : ∃ next : ℕ × ℕ,
            (if run.2 = 0 then (seen.length, 1) else (run.1, run.2 + 1)) = next ∧
              ∃ before, seen ++ [group] = before ++ List.replicate next.2 0 ∧
                before.length = next.1 := by
          refine ⟨_, rfl, ?_⟩
          by_cases hnone : run.2 = 0
          · rw [if_pos hnone]
            exact ⟨seen, by rw [hzero]; rfl, rfl⟩
          · rw [if_neg hnone]
            obtain ⟨before, rfl, hstart⟩ := hrun.resolve_left hnone
            refine ⟨before, ?_, hstart⟩
            rw [hzero, List.append_assoc, List.replicate_succ']
        rw [hnext]
        refine ih (.inr ⟨before, hbefore, hstart⟩) ?_
        split
        · exact ⟨before, [], by rw [List.append_nil, hbefore], hstart⟩
        · exact hbest.append _
      · rw [if_neg hzero]
        exact ih (.inl rfl) (hbest.append _)

theorem zeroRun_longest (groups : List ℕ) :
    ZeroRun groups (longestZeros groups 0 (0, 0) (0, 0)) :=
  @zeroRun_longestZeros groups [] (0, 0) (0, 0) (.inl rfl) ⟨[], [], rfl, rfl⟩

theorem innerGaps_append {first second : List Str} {part last : Str}
    (hfirst : ∀ text ∈ first, text ≠ []) (hsecond : ∀ text ∈ second, text ≠ []) :
    innerGaps (part :: first ++ [] :: (second ++ [last])) = [first.length + 1] := by
  have hfilter : ∀ (texts : List Str) (start : ℕ), (∀ text ∈ texts, text ≠ []) →
      (texts.zipIdx start).filter (fun p => p.1.isEmpty) = [] := by
    intro texts start hne
    rw [List.filter_eq_nil_iff]
    intro p hp
    simpa using hne p.1 (List.fst_mem_of_mem_zipIdx hp)
  have hends : ((part :: first ++ [] :: (second ++ [last])).zipIdx.drop 1).dropLast =
      first.zipIdx 1 ++ ([], first.length + 1) :: second.zipIdx (first.length + 2) := by
    rw [← List.cons_append, ← List.append_assoc, List.cons_append, List.cons_append,
      List.zipIdx_cons, List.drop_one, List.tail_cons, List.zipIdx_append, List.zipIdx_cons,
      List.zipIdx_nil, List.dropLast_concat, List.zipIdx_append, List.zipIdx_cons]
    have hcount : 0 + 1 + first.length = first.length + 1 := by omega
    rw [hcount]
  unfold innerGaps
  rw [hends, List.filter_append, hfilter _ _ hfirst, List.filter_cons_of_pos rfl,
    hfilter _ _ hsecond]
  rfl

theorem innerGaps_eq_nil {first : List Str} {part last : Str}
    (hfirst : ∀ text ∈ first, text ≠ []) : innerGaps (part :: first ++ [last]) = [] := by
  unfold innerGaps
  rw [List.cons_append, List.zipIdx_cons, List.drop_one, List.tail_cons, List.zipIdx_append,
    List.zipIdx_cons, List.zipIdx_nil, List.dropLast_concat, List.map_eq_nil_iff,
    List.filter_eq_nil_iff]
  intro p hp
  simpa using hfirst p.1 (List.fst_mem_of_mem_zipIdx hp)

theorem expandSuffix_of_no_dot {parts : List Str} (h : ∀ part ∈ parts, '.' ∉ part) :
    expandSuffix parts = some parts := by
  unfold expandSuffix
  cases hlast : parts.getLast? with
  | none => rfl
  | some final =>
      dsimp only
      rw [if_neg]
      simpa using h final (List.mem_of_getLast? hlast)

def groupTexts (groups : List ℕ) : List Str := if groups = [] then [[]] else groups.map hex

theorem compressV6_eq (ip : BitVec 128) :
    (∃ before length after, hextets ip = before ++ List.replicate length 0 ++ after ∧
      1 < length ∧ compressV6 ip = join ":" (groupTexts before ++ [] :: groupTexts after)) ∨
    compressV6 ip = join ":" ((hextets ip).map hex) := by
  unfold compressV6
  obtain ⟨before, after, hgroups, hstart⟩ : ZeroRun (hextets ip)
      (longestZeros (hextets ip) 0 (0, 0) (0, 0)) := zeroRun_longest _
  have hlength : (hextets ip).length = 8 := rfl
  dsimp only
  generalize longestZeros (hextets ip) 0 (0, 0) (0, 0) = run at hgroups hstart ⊢
  obtain ⟨start, length⟩ := run
  dsimp only at hgroups hstart ⊢
  by_cases hlong : length > 1
  · rw [if_pos hlong]
    refine .inl ⟨before, length, after, hgroups, hlong, ?_⟩
    have htotal : before.length + length + after.length = 8 := by
      simpa [hgroups, Nat.add_assoc] using hlength
    have hhead : (if start = 0 then [[]] else ((hextets ip).map hex).take start) =
        groupTexts before := by
      unfold groupTexts
      by_cases hnil : before = []
      · rw [if_pos hnil, if_pos (by rw [← hstart, hnil]; rfl)]
      · rw [if_neg hnil, if_neg (by rw [← hstart]; simpa using hnil), hgroups,
          List.append_assoc, List.map_append, ← hstart]
        exact List.take_left' (List.length_map _)
    have htail : (if start + length = 8 then [[]]
        else ((hextets ip).map hex).drop (start + length)) = groupTexts after := by
      unfold groupTexts
      by_cases hnil : after = []
      · rw [if_pos hnil, if_pos (by rw [← hstart]; simpa [hnil] using htotal)]
      · rw [if_neg hnil, if_neg, hgroups, List.map_append, ← hstart]
        · exact List.drop_left' (by simp)
        · have := List.length_pos_of_ne_nil hnil
          omega
    rw [hhead, htail, List.append_assoc]
    rfl
  · rw [if_neg hlong]
    exact .inr rfl

theorem groupTexts_ne_nil (groups : List ℕ) : groupTexts groups ≠ [] := by
  unfold groupTexts
  split
  · exact List.cons_ne_nil _ _
  · rename_i h
    simpa using h

theorem not_mem_hex {c : Char} (h : c ∉ lowerHexDigits) {n : ℕ} : c ∉ hex n :=
  fun hmem => h (mem_hexDigits_hex hmem)

theorem not_mem_groupTexts {c : Char} (h : c ∉ lowerHexDigits) {groups : List ℕ} :
    ∀ text ∈ groupTexts groups, c ∉ text := by
  intro text htext
  unfold groupTexts at htext
  split at htext
  · rw [List.mem_singleton.mp htext]
    exact List.not_mem_nil
  · obtain ⟨group, -, rfl⟩ := List.mem_map.mp htext
    exact not_mem_hex h

theorem innerGaps_groupTexts (before after : List ℕ) :
    innerGaps (groupTexts before ++ [] :: groupTexts after) = [(groupTexts before).length] := by
  have hmap : ∀ groups : List ℕ, ∀ text ∈ groups.map hex, text ≠ [] := by
    rintro groups text htext
    obtain ⟨group, -, rfl⟩ := List.mem_map.mp htext
    exact hex_ne_nil group
  have hfirst : ∃ part first, groupTexts before = part :: first ∧ ∀ text ∈ first, text ≠ [] := by
    cases before with
    | nil => exact ⟨[], [], rfl, fun _ h => nomatch h⟩
    | cons group rest => exact ⟨hex group, rest.map hex, rfl, hmap rest⟩
  have hsecond : ∃ second last, groupTexts after = second ++ [last] ∧
      ∀ text ∈ second, text ≠ [] := by
    rcases List.eq_nil_or_concat after with rfl | ⟨rest, group, rfl⟩
    · exact ⟨[], [], rfl, fun _ h => nomatch h⟩
    · refine ⟨rest.map hex, hex group, ?_, hmap rest⟩
      rw [groupTexts, if_neg (by simp), List.concat_eq_append, List.map_append]
      rfl
  obtain ⟨part, first, hbefore, hleft⟩ := hfirst
  obtain ⟨second, last, hafter, hright⟩ := hsecond
  rw [hbefore, hafter, innerGaps_append hleft hright, List.length_cons]

theorem head_groupTexts {groups : List ℕ} (rest : List Str) :
    (groupTexts groups ++ rest).head? = some [] ↔ groups = [] := by
  cases groups with
  | nil => exact iff_of_true rfl rfl
  | cons group groups =>
      refine iff_of_false (fun h => hex_ne_nil group ?_) (List.cons_ne_nil _ _)
      exact Option.some.inj h

theorem getLast_groupTexts {groups : List ℕ} (rest : List Str) :
    (rest ++ groupTexts groups).getLast? = some [] ↔ groups = [] := by
  rcases List.eq_nil_or_concat groups with rfl | ⟨groups, group, rfl⟩
  · exact iff_of_true (by simp [groupTexts]) rfl
  · refine iff_of_false (fun h => hex_ne_nil group ?_) (by simp)
    rw [groupTexts, if_neg (by simp), List.concat_eq_append, List.map_append, ← List.append_assoc,
      List.map_singleton, List.getLast?_concat] at h
    exact Option.some.inj h

theorem length_groupTexts (groups : List ℕ) :
    (groupTexts groups).length = if groups = [] then 1 else groups.length := by
  unfold groupTexts
  split <;> simp

theorem take_groupTexts (groups : List ℕ) (rest : List Str) :
    (groupTexts groups ++ rest).take groups.length = groups.map hex := by
  cases groups with
  | nil => rfl
  | cons group groups => exact List.take_left' (List.length_map _)

theorem drop_groupTexts (groups : List ℕ) (rest : List Str) :
    (rest ++ groupTexts groups).drop ((rest ++ groupTexts groups).length - groups.length) =
      groups.map hex := by
  unfold groupTexts
  split
  · rename_i hnil
    rw [hnil]
    exact List.drop_length
  · apply List.drop_left'
    simp

section Gap

variable {before after : List ℕ}

theorem not_mem_gap {c : Char} (h : c ∉ lowerHexDigits) :
    ∀ text ∈ groupTexts before ++ [] :: groupTexts after, c ∉ text := by
  intro text htext
  rcases List.mem_append.mp htext with htext | htext
  · exact not_mem_groupTexts h text htext
  · rcases List.mem_cons.mp htext with rfl | htext
    · exact List.not_mem_nil
    · exact not_mem_groupTexts h text htext

theorem length_gap : (groupTexts before ++ [] :: groupTexts after).length =
    (groupTexts before).length + (groupTexts after).length + 1 := by
  simp [Nat.add_assoc]

theorem getLast_gap :
    (groupTexts before ++ [] :: groupTexts after).getLast? = some [] ↔ after = [] := by
  rw [List.append_cons]
  exact getLast_groupTexts _

theorem leadingCount_gap :
    (if (groupTexts before ++ [] :: groupTexts after).head? = some [] then
      (groupTexts before).length - 1 else (groupTexts before).length) = before.length := by
  rw [length_groupTexts]
  by_cases hnil : before = []
  · rw [if_pos ((head_groupTexts _).mpr hnil), if_pos hnil, hnil]
    rfl
  · rw [if_neg fun h => hnil ((head_groupTexts _).mp h), if_neg hnil]

theorem trailingCount_gap :
    (if (groupTexts before ++ [] :: groupTexts after).getLast? = some [] then
      (groupTexts before ++ [] :: groupTexts after).length - (groupTexts before).length - 2
      else (groupTexts before ++ [] :: groupTexts after).length - (groupTexts before).length - 1) =
        after.length := by
  rw [length_gap, length_groupTexts after]
  by_cases hnil : after = []
  · rw [if_pos (getLast_gap.mpr hnil), if_pos hnil, hnil, List.length_nil]
    omega
  · rw [if_neg fun h => hnil (getLast_gap.mp h), if_neg hnil]
    omega

theorem parseV6Int_gap {length : ℕ}
    (htotal : before.length + length + after.length = 8) (hlong : 0 < length)
    (hbefore : ∀ group ∈ before, group < 65536) (hafter : ∀ group ∈ after, group < 65536) :
    parseV6Int (join ":" (groupTexts before ++ [] :: groupTexts after)) =
      some (BitVec.ofNat 128 (ofGroups 0 (before ++ List.replicate length 0 ++ after))) := by
  have hlength := @length_gap before after
  have hsome := List.length_pos_of_ne_nil (groupTexts_ne_nil before)
  have hsome' := List.length_pos_of_ne_nil (groupTexts_ne_nil after)
  have hfew : (groupTexts before).length + (groupTexts after).length ≤ 8 := by
    rw [length_groupTexts, length_groupTexts]
    split <;> split <;> simp_all <;> omega
  unfold parseV6Int
  rw [show (":" : Str) = [':'] from rfl, split_join (by simp) (not_mem_gap (by decide))]
  dsimp only
  rw [if_neg (by omega), expandSuffix_of_no_dot (not_mem_gap (by decide))]
  simp only [Option.bind_eq_bind, Option.bind_some, Option.pure_def]
  rw [if_neg (by omega), innerGaps_groupTexts]
  dsimp only
  rw [leadingCount_gap, trailingCount_gap, take_groupTexts, List.append_cons, drop_groupTexts,
    parseHextets_hex hbefore, if_neg]
  · dsimp only [Option.bind_some]
    rw [parseHextets_hex hafter, ofGroups_append, ofGroups_append, ofGroups_replicate_zero,
      show 8 - (before.length + after.length) = length by omega]
    rfl
  · rw [← List.append_cons, head_groupTexts, getLast_gap]
    rintro (⟨rfl, hne⟩ | ⟨rfl, hne⟩ | hmany)
    · exact hne rfl
    · exact hne rfl
    · omega

end Gap

theorem parseV6Int_groups {groups : List ℕ} (hcount : groups.length = 8)
    (hgroups : ∀ group ∈ groups, group < 65536) :
    parseV6Int (join ":" (groups.map hex)) = some (BitVec.ofNat 128 (ofGroups 0 groups)) := by
  have hfree : ∀ c, c ∉ lowerHexDigits → ∀ text ∈ groups.map hex, c ∉ text := by
    intro c hc text htext
    obtain ⟨group, -, rfl⟩ := List.mem_map.mp htext
    exact not_mem_hex hc
  have hne : ∀ text ∈ groups.map hex, text ≠ [] := by
    intro text htext
    obtain ⟨group, -, rfl⟩ := List.mem_map.mp htext
    exact hex_ne_nil group
  have hgaps : innerGaps (groups.map hex) = [] := by
    match groups, hcount with
    | group :: first, hcount =>
        rcases List.eq_nil_or_concat first with rfl | ⟨middle, last, rfl⟩
        · rw [List.length_singleton] at hcount
          cases hcount
        · have hmap : (group :: middle.concat last).map hex =
              hex group :: middle.map hex ++ [hex last] := by simp
          rw [hmap] at hne ⊢
          exact innerGaps_eq_nil fun text htext => hne text
            (List.mem_append_left _ (List.mem_cons_of_mem _ htext))
  have hlength : (groups.map hex).length = 8 := by rw [List.length_map, hcount]
  unfold parseV6Int
  rw [show (":" : Str) = [':'] from rfl, split_join _ (hfree ':' (by decide))]
  · dsimp only
    rw [hlength, if_neg (by decide), expandSuffix_of_no_dot (hfree '.' (by decide))]
    simp only [Option.bind_eq_bind, Option.bind_some, Option.pure_def]
    rw [hlength, if_neg (by decide), hgaps]
    dsimp only
    rw [parseHextets_hex hgroups, if_neg]
    · rfl
    · rintro (hlen | hhead | hlast)
      · exact hlen rfl
      · exact hne _ (List.mem_of_head? hhead) rfl
      · exact hne _ (List.mem_of_getLast? hlast) rfl
  · exact List.ne_nil_of_length_pos (by omega)

theorem parseV6Int_compressV6 (ip : BitVec 128) : parseV6Int (compressV6 ip) = some ip := by
  have hmem : ∀ group ∈ hextets ip, group < 65536 := fun group => lt_of_mem_hextets
  have hread : ofGroups 0 (hextets ip) = ip.toNat := ofGroups_hextets ip
  have hcount : (hextets ip).length = 8 := rfl
  rcases compressV6_eq ip with ⟨before, length, after, hgroups, hlong, htext⟩ | htext
  · rw [hgroups] at hmem hread hcount
    rw [htext, parseV6Int_gap (by simpa [Nat.add_assoc] using hcount) (by omega), hread,
      BitVec.ofNat_toNat, BitVec.setWidth_eq]
    · exact fun group hgroup => hmem group (by simp [hgroup])
    · exact fun group hgroup => hmem group (by simp [hgroup])
  · rw [htext, parseV6Int_groups hcount hmem, hread, BitVec.ofNat_toNat, BitVec.setWidth_eq]

theorem mem_compressV6 {ip : BitVec 128} {c : Char} (h : c ∈ compressV6 ip) :
    c ∈ lowerHexDigits ∨ c = ':' := by
  by_contra hnot
  rw [not_or] at hnot
  have hjoin : ∀ parts : List Str, (∀ text ∈ parts, c ∉ text) → c ∉ join ":" parts := by
    intro parts hparts hmem
    obtain hmem | ⟨text, htext, hmem⟩ := mem_join hmem
    · exact hnot.2 (List.mem_singleton.mp hmem)
    · exact hparts text htext hmem
  rcases compressV6_eq ip with ⟨before, length, after, -, -, htext⟩ | htext
  · rw [htext] at h
    refine hjoin _ (fun text htext => ?_) h
    rcases List.mem_append.mp htext with htext | htext
    · exact not_mem_groupTexts hnot.1 text htext
    · rcases List.mem_cons.mp htext with rfl | htext
      · exact List.not_mem_nil
      · exact not_mem_groupTexts hnot.1 text htext
  · rw [htext] at h
    refine hjoin _ (fun text htext => ?_) h
    obtain ⟨group, -, rfl⟩ := List.mem_map.mp htext
    exact not_mem_hex hnot.1

end V6

section Parse

theorem digit_or_dot_of_parseV4 {text : Str} {ip : BitVec 32} (h : parseV4 text = some ip) :
    ∀ c ∈ text, isAsciiDigit c = true ∨ c = '.' := by
  have hoctet : ∀ {part : Str} {n : ℕ}, parseOctet part = some n →
      ∀ c ∈ part, isAsciiDigit c = true := by
    intro part n hpart
    unfold parseOctet at hpart
    split at hpart
    · cases hpart
    · rename_i hnot
      simp only [Bool.or_eq_true, Bool.not_eq_true', not_or, Bool.not_eq_false,
        List.all_eq_true] at hnot
      exact hnot.1.2
  intro c hc
  refine (mem_split hc).symm.imp_left fun ⟨part, hpart, hmem⟩ => ?_
  unfold parseV4 at h
  split at h
  · rename_i a b c' d hsplit
    rw [hsplit] at hpart
    obtain ⟨na, ha, h⟩ := Option.bind_eq_some_iff.mp h
    obtain ⟨nb, hb, h⟩ := Option.bind_eq_some_iff.mp h
    obtain ⟨nc, hc', h⟩ := Option.bind_eq_some_iff.mp h
    obtain ⟨nd, hd, h⟩ := Option.bind_eq_some_iff.mp h
    simp only [List.mem_cons, List.not_mem_nil, or_false] at hpart
    rcases hpart with rfl | rfl | rfl | rfl
    · exact hoctet ha c hmem
    · exact hoctet hb c hmem
    · exact hoctet hc' c hmem
    · exact hoctet hd c hmem
  · cases h

theorem decimal_of_parseOctet {part : Str} {n : ℕ} (h : parseOctet part = some n) :
    decimal n = part ∧ n ≤ 255 := by
  unfold parseOctet at h
  split at h
  · cases h
  · next hdigits =>
      split at h
      · cases h
      · next hzero =>
          split at h
          · cases h
          · next hbound =>
              cases h
              simp only [Bool.or_eq_true, List.isEmpty_iff, not_or, Bool.not_eq_true',
                Bool.not_eq_false, List.all_eq_true] at hdigits
              refine ⟨(decimal_asciiInt hdigits.1.1 hdigits.1.2 ?_).1, by omega⟩
              by_cases hone : part = ['0']
              · exact .inr hone
              · exact .inl fun hhead => hzero ⟨hone, hhead⟩

theorem compressed_of_parseV4 {text : Str} {ip : BitVec 32} (h : parseV4 text = some ip) :
    compressed (v4 ip) = text := by
  unfold parseV4 at h
  split at h
  · next a b c d hsplit =>
      obtain ⟨na, ha, h⟩ := Option.bind_eq_some_iff.mp h
      obtain ⟨nb, hb, h⟩ := Option.bind_eq_some_iff.mp h
      obtain ⟨nc, hc, h⟩ := Option.bind_eq_some_iff.mp h
      obtain ⟨nd, hd, h⟩ := Option.bind_eq_some_iff.mp h
      cases h
      obtain ⟨hta, hna⟩ := decimal_of_parseOctet ha
      obtain ⟨htb, hnb⟩ := decimal_of_parseOctet hb
      obtain ⟨htc, hnc⟩ := decimal_of_parseOctet hc
      obtain ⟨htd, hnd⟩ := decimal_of_parseOctet hd
      unfold compressed
      dsimp only
      have hall : (((na * 256 + nb) * 256 + nc) * 256 + nd) % 2 ^ 32 / 2 ^ 24 = na ∧
          (((na * 256 + nb) * 256 + nc) * 256 + nd) % 2 ^ 32 / 2 ^ 16 % 256 = nb ∧
          (((na * 256 + nb) * 256 + nc) * 256 + nd) % 2 ^ 32 / 2 ^ 8 % 256 = nc ∧
          (((na * 256 + nb) * 256 + nc) * 256 + nd) % 2 ^ 32 % 256 = nd := by omega
      rw [BitVec.toNat_ofNat, hall.1, hall.2.1, hall.2.2.1, hall.2.2.2, hta, htb, htc, htd, ← hsplit]
      exact join_split '.' text
  · cases h

theorem scope_of_parse {text scope : Str} {ip : BitVec 128}
    (h : parse text = some (v6 ip (some scope))) :
    (∃ addr, text = addr ++ '%' :: scope ∧ '%' ∉ addr) ∧ scope ≠ [] ∧ '%' ∉ scope ∧
      '/' ∉ text := by
  unfold parse at h
  split at h
  · cases h
  · rename_i hslash
    split at h
    · cases h
    · unfold parseV6 at h
      by_cases hpercent : '%' ∈ text
      · obtain ⟨addr, rest, rfl, haddr⟩ := List.eq_append_cons_of_mem hpercent
        rw [partition_append haddr] at h
        dsimp only at h
        rw [if_neg (by decide)] at h
        split at h
        · cases h
        · rename_i hscope
          obtain ⟨ip', -, heq⟩ := Option.map_eq_some_iff.mp h
          cases heq
          simp only [Bool.or_eq_true, List.isEmpty_iff, not_or] at hscope
          refine ⟨⟨addr, rfl, haddr⟩, hscope.1, ?_, ?_⟩
          · simpa using hscope.2
          · simpa using hslash
      · rw [partition_of_not_mem hpercent] at h
        obtain ⟨ip', -, heq⟩ := Option.map_eq_some_iff.mp h
        cases heq

theorem parse_scoped {ip : BitVec 128} {scope : Str} (hne : scope ≠ []) (hpercent : '%' ∉ scope)
    (hslash : '/' ∉ scope) :
    parse (compressed (v6 ip (some scope))) = some (v6 ip (some scope)) := by
  have hfree : ∀ c, c ∉ lowerHexDigits → c ≠ ':' → c ∉ compressV6 ip := by
    intro c hc hcolon hmem
    exact (mem_compressV6 hmem).elim hc hcolon
  have htext : compressed (v6 ip (some scope)) = compressV6 ip ++ '%' :: scope := by
    rw [compressed, List.append_assoc]
    rfl
  have hno : '/' ∉ compressV6 ip ++ '%' :: scope := by
    rw [List.mem_append, List.mem_cons]
    rintro (h | h | h)
    · exact hfree '/' (by decide) (by decide) h
    · cases h
    · exact hslash h
  have hv4 : parseV4 (compressV6 ip ++ '%' :: scope) = none := by
    rw [Option.eq_none_iff_forall_ne_some]
    intro v4 hparse
    have hmem : '%' ∈ compressV6 ip ++ '%' :: scope := by simp
    exact absurd (digit_or_dot_of_parseV4 hparse '%' hmem) (by decide)
  rw [htext, parse, if_neg (by simpa using hno), hv4]
  unfold parseV6
  rw [partition_append (hfree '%' (by decide) (by decide))]
  dsimp only
  rw [if_neg (by decide), if_neg (by simp [hne, hpercent]), parseV6Int_compressV6]
  rfl

theorem parse_compressed {text : Str} {ip : IpAddress} (h : parse text = some ip) :
    parse ip.compressed = some ip := by
  cases ip with
  | v4 ip =>
      have hv4 := parseV4_compressed ip
      have hslash : '/' ∉ compressed (v4 ip) := fun hmem =>
        absurd (digit_or_dot_of_parseV4 hv4 '/' hmem) (by decide)
      rw [parse, if_neg (by simpa using hslash), hv4]
  | v6 ip scope =>
      cases scope with
      | none =>
          have hfree : ∀ c, c ∉ lowerHexDigits → c ≠ ':' → c ∉ compressed (v6 ip none) := by
            intro c hc hcolon hmem
            exact (mem_compressV6 hmem).elim hc hcolon
          have hv4 : parseV4 (compressed (v6 ip none)) = none := by
            unfold parseV4
            rw [split_of_not_mem (hfree '.' (by decide) (by decide))]
          rw [parse, if_neg (by simpa using hfree '/' (by decide) (by decide)), hv4]
          unfold parseV6
          rw [partition_of_not_mem (hfree '%' (by decide) (by decide)), compressed]
          dsimp only
          rw [if_pos (by decide), parseV6Int_compressV6]
          rfl
      | some scope =>
          obtain ⟨⟨addr, rfl, -⟩, hne, hpercent, hslash⟩ := scope_of_parse h
          exact parse_scoped hne hpercent fun hmem => hslash (by simp [hmem])

end Parse

section Characters

variable {text : Str} {parts parts' : List Str}

theorem hex_of_foldlM {text : Str} {acc n : ℕ}
    (h : text.foldlM (fun n c => (hexDigitValue c).map (16 * n + ·)) acc = some n) :
    ∀ c ∈ text, (hexDigitValue c).isSome = true := by
  induction text generalizing acc with
  | nil => exact nofun
  | cons c text ih =>
      rw [List.foldlM_cons] at h
      obtain ⟨next, hnext, h⟩ := Option.bind_eq_some_iff.mp h
      obtain ⟨digit, hdigit, -⟩ := Option.map_eq_some_iff.mp hnext
      refine List.forall_mem_cons.mpr ⟨?_, ih h⟩
      rw [hdigit]
      rfl

theorem hex_of_parseHextets {acc n : ℕ} (h : parseHextets parts acc = some n) :
    ∀ part ∈ parts, ∀ c ∈ part, (hexDigitValue c).isSome = true := by
  induction parts generalizing acc with
  | nil => exact nofun
  | cons part parts ih =>
      obtain ⟨group, hgroup, h⟩ := Option.bind_eq_some_iff.mp h
      refine List.forall_mem_cons.mpr ⟨?_, ih h⟩
      unfold parseHextet at hgroup
      split at hgroup
      · cases hgroup
      · exact hex_of_foldlM hgroup

theorem empty_of_innerGaps {skip : ℕ} (h : innerGaps parts = [skip]) : parts[skip]? = some [] := by
  have hmem : skip ∈ innerGaps parts := by rw [h]; exact List.mem_singleton_self _
  obtain ⟨p, hp, rfl⟩ := List.mem_map.mp hmem
  obtain ⟨hp, hempty⟩ := List.mem_filter.mp hp
  have hzip := List.mem_of_mem_drop (List.dropLast_subset _ hp)
  rw [List.mem_zipIdx_iff_getElem?] at hzip
  rw [hzip, List.isEmpty_iff.mp hempty]

theorem hex_of_expanded (hparts : expandSuffix parts = some parts')
    (h : ∀ part ∈ parts', ∀ c ∈ part, (hexDigitValue c).isSome = true) :
    ∀ part ∈ parts, ∀ c ∈ part, (hexDigitValue c).isSome = true ∨ c = '.' := by
  have hdigit : ∀ c, isAsciiDigit c = true → (hexDigitValue c).isSome = true := by
    intro c hc
    unfold hexDigitValue
    rw [if_pos hc]
    rfl
  unfold expandSuffix at hparts
  split at hparts
  · cases hparts
    exact fun part hpart c hc => .inl (h part hpart c hc)
  · next final hfinal =>
      split at hparts
      · obtain ⟨ip, hip, heq⟩ := Option.bind_eq_some_iff.mp hparts
        cases heq
        intro part hpart c hc
        rw [← List.dropLast_append_getLast? final hfinal, List.mem_append,
          List.mem_singleton] at hpart
        rcases hpart with hpart | rfl
        · exact .inl (h part (List.mem_append_left _ hpart) c hc)
        · exact (digit_or_dot_of_parseV4 hip c hc).imp_left (hdigit c)
      · cases hparts
        exact fun part hpart c hc => .inl (h part hpart c hc)

/-- Which parts the digits are read from, when a part is left out. -/
theorem hex_of_gap {skip hi lo : ℕ} (hgap : parts[skip]? = some [])
    (hhi : hi = if parts.head? = some [] then skip - 1 else skip)
    (hlo : lo = if parts.getLast? = some [] then parts.length - skip - 2
      else parts.length - skip - 1)
    (hends : ¬ ((parts.head? = some [] ∧ hi ≠ 0) ∨ (parts.getLast? = some [] ∧ lo ≠ 0) ∨
      8 < hi + lo + 1))
    (hhigh : ∀ part ∈ parts.take hi, ∀ c ∈ part, (hexDigitValue c).isSome = true)
    (hlow : ∀ part ∈ parts.drop (parts.length - lo), ∀ c ∈ part,
      (hexDigitValue c).isSome = true) :
    ∀ part ∈ parts, ∀ c ∈ part, (hexDigitValue c).isSome = true := by
  have hskip := (List.getElem?_eq_some_iff.mp hgap).1
  intro part hpart
  obtain ⟨i, hi', hget⟩ := List.mem_iff_getElem?.mp hpart |>.imp fun i h =>
    And.intro (List.getElem?_eq_some_iff.mp h).1 h
  have hempty : ∀ j, parts[j]? = some [] → i = j → part = [] := by
    rintro j hj rfl
    exact Option.some.inj (hget.symm.trans hj)
  rw [List.head?_eq_getElem?] at hhi hends
  rw [List.getLast?_eq_getElem?] at hlo hends
  have hnil : part = [] → ∀ c ∈ part, (hexDigitValue c).isSome = true := by
    rintro rfl
    exact nofun
  have hnohigh : parts[0]? = some [] → hi = 0 := fun hleading => by
    by_contra hne
    exact hends (.inl ⟨hleading, hne⟩)
  have hnolow : parts[parts.length - 1]? = some [] → lo = 0 := fun htrailing => by
    by_contra hne
    exact hends (.inr (.inl ⟨htrailing, hne⟩))
  clear hends
  by_cases hlt : i < hi
  · exact hhigh part (List.mem_iff_getElem?.mpr ⟨i, by rw [List.getElem?_take_of_lt hlt]; exact hget⟩)
  · by_cases hge : parts.length - lo ≤ i
    · refine hlow part (List.mem_iff_getElem?.mpr ⟨i - (parts.length - lo), ?_⟩)
      rw [List.getElem?_drop, Nat.add_sub_cancel' hge]
      exact hget
    · -- What neither end is read from is the gap, or an end that is empty with it.
      apply hnil
      by_cases hleading : parts[0]? = some []
      · by_cases htrailing : parts[parts.length - 1]? = some []
        · have := hnohigh hleading
          have := hnolow htrailing
          rw [if_pos hleading] at hhi
          rw [if_pos htrailing] at hlo
          have : i = 0 ∨ i = skip ∨ i = parts.length - 1 := by omega
          rcases this with h | h | h
          · exact hempty 0 hleading h
          · exact hempty skip hgap h
          · exact hempty _ htrailing h
        · have := hnohigh hleading
          rw [if_pos hleading] at hhi
          rw [if_neg htrailing] at hlo
          have : i = 0 ∨ i = skip := by omega
          rcases this with h | h
          · exact hempty 0 hleading h
          · exact hempty skip hgap h
      · rw [if_neg hleading] at hhi
        by_cases htrailing : parts[parts.length - 1]? = some []
        · have := hnolow htrailing
          rw [if_pos htrailing] at hlo
          have : i = skip ∨ i = parts.length - 1 := by omega
          rcases this with h | h
          · exact hempty skip hgap h
          · exact hempty _ htrailing h
        · rw [if_neg htrailing] at hlo
          exact hempty skip hgap (by omega)

/-- An IPv6 address is read from hexadecimal digits, colons and dots. -/
theorem chars_of_parseV6Int {ip : BitVec 128} (h : parseV6Int text = some ip) :
    ':' ∈ text ∧ ∀ c ∈ text, (hexDigitValue c).isSome = true ∨ c = '.' ∨ c = ':' := by
  unfold parseV6Int at h
  dsimp only at h
  split at h
  · cases h
  · next hlength =>
      obtain ⟨parts, hparts, h⟩ := Option.bind_eq_some_iff.mp h
      have hhex : ∀ part ∈ parts, ∀ c ∈ part, (hexDigitValue c).isSome = true := by
        split at h
        · cases h
        · split at h
          · split at h
            · cases h
            · obtain ⟨n, hn, -⟩ := Option.map_eq_some_iff.mp h
              exact hex_of_parseHextets hn
          · next skip hgap =>
              generalize hhi : (if parts.head? = some [] then skip - 1 else skip) = hi at h
              generalize hlo : (if parts.getLast? = some [] then parts.length - skip - 2
                else parts.length - skip - 1) = lo at h
              split at h
              · cases h
              · next hends =>
                  obtain ⟨high, hhigh, h⟩ := Option.bind_eq_some_iff.mp h
                  obtain ⟨all, hall, -⟩ := Option.bind_eq_some_iff.mp h
                  exact hex_of_gap (empty_of_innerGaps hgap) hhi.symm hlo.symm hends
                    (hex_of_parseHextets hhigh) (hex_of_parseHextets hall)
          · cases h
      constructor
      · by_contra hcolon
        rw [split_of_not_mem hcolon] at hlength
        exact hlength (Nat.lt_of_sub_eq_succ rfl)
      · intro c hc
        rcases mem_split hc with hcolon | ⟨part, hpart, hmem⟩
        · exact .inr (.inr hcolon)
        · exact (hex_of_expanded hparts hhex part hpart c hmem).imp_right .inl

/-- What an address is read from: the four numbers, or the groups and perhaps a scope. -/
inductive Reads (text : Str) : IpAddress → Prop
  | v4 (ip : BitVec 32) : parseV4 text = some ip → Reads text (v4 ip)
  | v6 (ip : BitVec 128) : parseV6Int text = some ip → Reads text (v6 ip none)
  | zone (ip : BitVec 128) (addr scope : Str) : parseV6Int addr = some ip →
      text = addr ++ '%' :: scope → scope ≠ [] → '%' ∉ scope → '/' ∉ scope →
      Reads text (v6 ip (some scope))

theorem reads_of_parse {ip : IpAddress} (h : parse text = some ip) : Reads text ip := by
  have hslash : '/' ∉ text := by
    intro hmem
    rw [parse, if_pos (by simpa using hmem)] at h
    cases h
  rw [parse, if_neg (by simpa using hslash)] at h
  split at h
  · next ip4 hip4 =>
      cases h
      exact .v4 ip4 hip4
  · unfold parseV6 at h
    by_cases hpercent : '%' ∈ text
    · obtain ⟨addr, scope, rfl, haddr⟩ := List.eq_append_cons_of_mem hpercent
      rw [partition_append haddr] at h
      dsimp only at h
      rw [if_neg (by decide)] at h
      split at h
      · cases h
      · next hscope =>
          obtain ⟨ip6, hip6, rfl⟩ := Option.map_eq_some_iff.mp h
          simp only [Bool.or_eq_true, List.isEmpty_iff, not_or, List.contains_iff_mem] at hscope
          exact .zone ip6 addr scope hip6 rfl hscope.1 hscope.2 fun hmem => hslash (by simp [hmem])
    · rw [partition_of_not_mem hpercent] at h
      obtain ⟨ip6, hip6, rfl⟩ := Option.map_eq_some_iff.mp h
      exact .v6 ip6 hip6

theorem parse_append_scope {ip : BitVec 128} {addr scope : Str} (haddr : parseV6Int addr = some ip)
    (hne : scope ≠ []) (hpercent : '%' ∉ scope) (hslash : '/' ∉ scope) :
    parse (addr ++ '%' :: scope) = some (v6 ip (some scope)) := by
  have hfree : ∀ c, hexDigitValue c = none → c ≠ '.' → c ≠ ':' → c ∉ addr := by
    intro c hhex hdot hcolon hmem
    rcases (chars_of_parseV6Int haddr).2 c hmem with hc | hc
    · rw [hhex] at hc
      cases hc
    · exact hc.elim hdot hcolon
  have hno : '/' ∉ addr ++ '%' :: scope := by
    rw [List.mem_append, List.mem_cons]
    rintro (h | h | h)
    · exact hfree '/' rfl (by decide) (by decide) h
    · cases h
    · exact hslash h
  have hv4 : parseV4 (addr ++ '%' :: scope) = none := by
    rw [Option.eq_none_iff_forall_ne_some]
    intro v4 hparse
    have hmem : '%' ∈ addr ++ '%' :: scope := by simp
    exact absurd (digit_or_dot_of_parseV4 hparse '%' hmem) (by decide)
  rw [parse, if_neg (by simpa using hno), hv4]
  unfold parseV6
  rw [partition_append (hfree '%' rfl (by decide) (by decide))]
  dsimp only
  rw [if_neg (by decide), if_neg (by simp [hne, hpercent]), haddr]
  rfl

theorem parse_percent (addr : Str) : parse (addr ++ ['%']) = none := by
  rw [Option.eq_none_iff_forall_ne_some]
  intro ip' hparse
  cases reads_of_parse hparse with
  | v4 ip4 hip4 => exact absurd (digit_or_dot_of_parseV4 hip4 '%' (by simp)) (by decide)
  | v6 ip6 hip6 =>
      rcases (chars_of_parseV6Int hip6).2 '%' (by simp) with h | h | h
      · cases h
      · cases h
      · cases h
  | zone ip6 addr' scope _ heq hne hpercent _ =>
      have hlast := congrArg List.getLast? heq
      rw [List.getLast?_concat, List.getLast?_append_of_ne_nil _ (List.cons_ne_nil _ _),
        List.getLast?_cons_of_ne_nil hne] at hlast
      exact hpercent (List.mem_of_getLast? hlast.symm)

end Characters

end IpAddress

end OpenctiLookup.Python
