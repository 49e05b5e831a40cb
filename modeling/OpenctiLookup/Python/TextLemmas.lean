import Mathlib.Data.Bool.AllAny
import Mathlib.Tactic.IntervalCases
import OpenctiLookup.Python.Runtime

/-! Which texts the string methods leave alone: strips of texts with nothing to
strip, searches for what is not there, lowercase of lowercase. -/
namespace OpenctiLookup.Python

section Chars

def lowerHexDigits : Str := "0123456789abcdef"

def hexDigits : Str := "0123456789abcdefABCDEF"

theorem mem_of_range (lo hi : Nat) {c : Char} {table : Str}
    (htable : ∀ n, lo ≤ n → n ≤ hi → Char.ofNat n ∈ table) (hlo : lo ≤ c.toNat)
    (hhi : c.toNat ≤ hi) : c ∈ table :=
  Char.ofNat_toNat c ▸ htable c.toNat hlo hhi

theorem isAscii_of_le {c d : Char} (h : c ≤ d) (hd : d.val < 128) : isAscii c = true :=
  decide_eq_true (UInt32.lt_of_le_of_lt h hd)

theorem isAscii_of_isAsciiDigit {c : Char} (h : isAsciiDigit c = true) : isAscii c = true := by
  rw [isAsciiDigit, Bool.and_eq_true, decide_eq_true_iff, decide_eq_true_iff] at h
  exact isAscii_of_le h.2 (by decide)

theorem isAscii_of_isAsciiLower {c : Char} (h : isAsciiLower c = true) : isAscii c = true := by
  rw [isAsciiLower, Bool.and_eq_true, decide_eq_true_iff, decide_eq_true_iff] at h
  exact isAscii_of_le h.2 (by decide)

theorem asciiLower_cases (c : Char) :
    isAsciiUpper c = false ∧ asciiLower c = c ∨
      isAsciiUpper c = true ∧ isAsciiLower (asciiLower c) = true := by
  unfold asciiLower
  by_cases hupper : isAsciiUpper c = true
  · have hlower : ∀ n, 65 ≤ n → n ≤ 90 → isAsciiLower (Char.ofNat (n + 32)) = true := by
      intro n hlo hhi
      interval_cases n <;> decide
    refine .inr ⟨hupper, ?_⟩
    rw [if_pos hupper]
    rw [isAsciiUpper, Bool.and_eq_true, decide_eq_true_iff, decide_eq_true_iff] at hupper
    exact hlower c.toNat hupper.1 hupper.2
  · exact .inl ⟨(Bool.not_eq_true _).mp hupper, if_neg hupper⟩

theorem isAsciiAlpha_of_asciiLower {c : Char} (h : isAsciiLower (asciiLower c) = true) :
    isAsciiAlpha c = true := by
  rcases asciiLower_cases c with ⟨-, heq⟩ | ⟨hupper, -⟩
  · rw [heq] at h
    simp [isAsciiAlpha, h]
  · simp [isAsciiAlpha, hupper]

theorem eq_of_asciiLower {c d : Char} (hd : isAsciiLower d = false) (h : asciiLower c = d) :
    c = d := by
  rcases asciiLower_cases c with ⟨-, heq⟩ | ⟨-, hlower⟩
  · exact heq ▸ h
  · rw [h, hd] at hlower
    cases hlower

theorem isAscii_asciiLower {c : Char} (h : isAscii c = true) : isAscii (asciiLower c) = true := by
  rcases asciiLower_cases c with ⟨-, heq⟩ | ⟨-, hlower⟩
  · rwa [heq]
  · exact isAscii_of_isAsciiLower hlower

theorem asciiLower_of_isAsciiLower {c : Char} (h : isAsciiLower c = true) : asciiLower c = c := by
  rcases asciiLower_cases c with ⟨-, heq⟩ | ⟨hupper, -⟩
  · exact heq
  · rw [isAsciiLower, Bool.and_eq_true, decide_eq_true_iff, decide_eq_true_iff] at h
    rw [isAsciiUpper, Bool.and_eq_true, decide_eq_true_iff, decide_eq_true_iff] at hupper
    exact absurd (Char.le_trans h.1 hupper.2) (by decide)

theorem asciiLower_idem (c : Char) : asciiLower (asciiLower c) = asciiLower c := by
  rcases asciiLower_cases c with ⟨-, heq⟩ | ⟨-, hlower⟩
  · rw [heq, heq]
  · exact asciiLower_of_isAsciiLower hlower

theorem mem_digits {c : Char} (h : isAsciiDigit c = true) : c ∈ "0123456789".toList := by
  rw [isAsciiDigit, Bool.and_eq_true, decide_eq_true_iff, decide_eq_true_iff] at h
  refine mem_of_range 48 57 (fun n hlo hhi => ?_) h.1 h.2
  interval_cases n <;> decide

theorem mem_hexDigits {c : Char} (h : (hexDigitValue c).isSome = true) : c ∈ hexDigits := by
  unfold hexDigitValue at h
  split at h
  · rename_i hdigit
    exact List.mem_append_left "abcdefABCDEF".toList (mem_digits hdigit)
  · split at h
    · rename_i hlower
      rw [Bool.and_eq_true, decide_eq_true_iff, decide_eq_true_iff] at hlower
      refine mem_of_range 97 102 (fun n hlo hhi => ?_) hlower.1 hlower.2
      interval_cases n <;> decide
    · split at h
      · rename_i hupper
        rw [Bool.and_eq_true, decide_eq_true_iff, decide_eq_true_iff] at hupper
        refine mem_of_range 65 70 (fun n hlo hhi => ?_) hupper.1 hupper.2
        interval_cases n <;> decide
      · cases h

theorem hexDigitValue_of_mem : ∀ c ∈ hexDigits, (hexDigitValue c).isSome = true :=
  List.all_eq_true.mp rfl

theorem asciiLower_hexDigits {c : Char} (h : c ∈ hexDigits) : asciiLower c ∈ lowerHexDigits := by
  have hall : (hexDigits.all fun c => lowerHexDigits.contains (asciiLower c)) = true := rfl
  exact List.contains_iff_mem.mp (List.all_eq_true.mp hall c h)

theorem lowerHexDigits_subset : lowerHexDigits ⊆ hexDigits :=
  List.subset_append_left _ "ABCDEF".toList

end Chars

section Strip

variable {p : Char → Bool} {s : Str}

def Trimmed (p : Char → Bool) (s : Str) : Prop :=
  (∀ c, s.head? = some c → p c = false) ∧ ∀ c, s.getLast? = some c → p c = false

theorem stripBy_of_trimmed (h : Trimmed p s) : stripBy p s = s := by
  have hhead : s.dropWhile p = s := by
    cases s with
    | nil => rfl
    | cons c rest => exact List.dropWhile_cons_of_neg (by simp [h.1 c rfl])
  rw [stripBy, hhead, List.rdropWhile_eq_self_iff]
  intro hne
  simp [h.2 _ (List.getLast?_eq_some_getLast hne)]

theorem rdropWhile_append_cons {c : Char} (hc : p c = false) (left right : Str) :
    (left ++ c :: right).rdropWhile p = left ++ c :: right.rdropWhile p := by
  induction right using List.reverseRecOn with
  | nil => exact List.rdropWhile_concat_neg _ _ _ (Bool.eq_false_iff.mp hc)
  | append_singleton right d ih =>
      have hsplit : left ++ c :: (right ++ [d]) = (left ++ c :: right) ++ [d] := by simp
      rw [hsplit]
      by_cases hd : p d = true
      · rw [List.rdropWhile_concat_pos _ _ _ hd, List.rdropWhile_concat_pos _ _ _ hd, ih]
      · rw [List.rdropWhile_concat_neg _ _ _ hd, List.rdropWhile_concat_neg _ _ _ hd, hsplit]

theorem stripBy_wrapped (h : Trimmed p s) (hne : s ≠ []) (before after : Str) :
    stripBy p (before ++ s ++ after) = before.dropWhile p ++ s ++ after.rdropWhile p := by
  have hdrop : (before ++ s ++ after).dropWhile p = before.dropWhile p ++ s ++ after := by
    obtain ⟨c, rest, rfl⟩ := List.exists_cons_of_ne_nil hne
    have hstay : (c :: rest ++ after).dropWhile p = c :: rest ++ after :=
      List.dropWhile_cons_of_neg (by simp [h.1 c rfl])
    rw [List.append_assoc, List.dropWhile_append, hstay]
    split
    · rename_i hempty
      rw [List.isEmpty_iff.mp hempty]
      rfl
    · rw [List.append_assoc]
  have hmiddle : ∀ after : Str, before.dropWhile p ++ s ++ after =
      (before.dropWhile p ++ s.dropLast) ++ s.getLast hne :: after := by
    intro after
    conv_lhs => rw [← List.dropLast_append_getLast hne]
    simp
  have hlast := h.2 _ (List.getLast?_eq_some_getLast hne)
  rw [stripBy, hdrop, hmiddle, rdropWhile_append_cons hlast, hmiddle]

theorem stripBy_within (p : Char → Bool) (s : Str) : stripBy p s <:+: s :=
  (List.rdropWhile_prefix p _).isInfix.trans (List.dropWhile_suffix p).isInfix

theorem stripBy_subset (p : Char → Bool) (s : Str) : stripBy p s ⊆ s := (stripBy_within p s).subset

theorem rstripChars_eq_self_iff {chars : Str} :
    rstripChars chars s = s ↔ ∀ c, s.getLast? = some c → chars.contains c = false := by
  rw [rstripChars, List.rdropWhile_eq_self_iff]
  constructor
  · intro hlast c hc
    have hne : s ≠ [] := List.ne_nil_of_mem (List.mem_of_getLast? hc)
    rw [List.getLast?_eq_some_getLast hne] at hc
    exact Option.some.inj hc ▸ (Bool.not_eq_true _).mp (hlast hne)
  · intro hlast hne
    exact Bool.eq_false_iff.mp (hlast _ (List.getLast?_eq_some_getLast hne))

theorem mem_of_mem_rstripChars {chars : Str} {c : Char} (h : c ∈ rstripChars chars s) : c ∈ s :=
  (List.rdropWhile_prefix _ _).subset h

theorem trimmed_of_all (h : ∀ c ∈ s, p c = false) : Trimmed p s :=
  ⟨fun c hc => h c (List.mem_of_head? hc), fun c hc => h c (List.mem_of_getLast? hc)⟩

theorem trimmed_stripBy : Trimmed p (stripBy p s) := by
  constructor
  · intro c hc
    have hstart : stripBy p s <+: s.dropWhile p := List.rdropWhile_prefix p _
    cases hdrop : s.dropWhile p with
    | nil =>
        rw [hdrop, List.prefix_nil] at hstart
        rw [hstart] at hc
        cases hc
    | cons d rest =>
        obtain ⟨tail, htail⟩ := hstart
        have hhead : (s.dropWhile p).head? = some c := by
          rw [← htail, List.head?_append, hc]
          rfl
        rw [hdrop] at hhead
        obtain rfl : d = c := Option.some.inj hhead
        have hnot := List.head?_dropWhile_not p s
        rw [hdrop] at hnot
        simpa using hnot
  · intro c hc
    have hne : stripBy p s ≠ [] := by
      rintro hempty
      rw [hempty] at hc
      cases hc
    have hlast := List.rdropWhile_last_not p (s.dropWhile p) hne
    rw [List.getLast?_eq_some_getLast hne] at hc
    obtain rfl := Option.some.inj hc
    exact (Bool.not_eq_true _).mp hlast

end Strip

section Search

variable {sub s : Str}

theorem find_isSome_iff : (find sub s).isSome = true ↔ sub <:+: s := by
  induction s with
  | nil => simp [find, List.isEmpty_iff]
  | cons c rest ih =>
      rw [find, List.infix_cons_iff, ← List.isPrefixOf_iff_prefix]
      by_cases hstart : sub.isPrefixOf (c :: rest) = true
      · simp [hstart]
      · rw [if_neg hstart, Option.isSome_map, ih, or_iff_right hstart]

theorem isIn_iff : isIn sub s = true ↔ sub <:+: s := find_isSome_iff

theorem isIn_eq_false_of_not_mem {c : Char} (hsub : c ∈ sub) (hs : c ∉ s) :
    isIn sub s = false := by
  rw [← Bool.not_eq_true, isIn_iff]
  exact fun hwithin => hs (hwithin.subset hsub)

theorem partition_of_not_mem {sep : Char} (h : sep ∉ s) : partition sep s = (s, false, []) := by
  induction s with
  | nil => rfl
  | cons c rest ih =>
      rw [List.mem_cons, not_or] at h
      rw [partition, if_neg (Ne.symm h.1), ih h.2]

theorem partition_append {sep : Char} (h : sep ∉ s) (rest : Str) :
    partition sep (s ++ sep :: rest) = (s, true, rest) := by
  induction s with
  | nil => simp [partition]
  | cons c s ih =>
      rw [List.mem_cons, not_or] at h
      rw [List.cons_append, partition, if_neg (Ne.symm h.1), ih h.2]

theorem split_of_not_mem {sep : Char} (h : sep ∉ s) : split sep s = [s] := by
  induction s with
  | nil => rfl
  | cons c rest ih =>
      rw [List.mem_cons, not_or] at h
      rw [split, if_neg (Ne.symm h.1), ih h.2]

theorem split_append {sep : Char} (h : sep ∉ s) (rest : Str) :
    split sep (s ++ sep :: rest) = s :: split sep rest := by
  induction s with
  | nil => simp [split]
  | cons c s ih =>
      rw [List.mem_cons, not_or] at h
      rw [List.cons_append, split, if_neg (Ne.symm h.1), ih h.2]

end Search

section Partition

variable {sep : Char} {s : Str}

theorem partition_eq (sep : Char) (s : Str) :
    (sep ∉ s ∧ partition sep s = (s, false, [])) ∨
      ∃ left right,
        s = left ++ sep :: right ∧ sep ∉ left ∧ partition sep s = (left, true, right) := by
  by_cases h : sep ∈ s
  · obtain ⟨left, right, rfl, hleft⟩ := List.eq_append_cons_of_mem h
    exact .inr ⟨left, right, rfl, hleft, partition_append hleft right⟩
  · exact .inl ⟨h, partition_of_not_mem h⟩

theorem not_mem_partition_fst : sep ∉ (partition sep s).1 := by
  rcases partition_eq sep s with ⟨h, heq⟩ | ⟨left, right, -, h, heq⟩ <;> rw [heq] <;> exact h

theorem append_cons_inj {left right front back : Str} (hleft : sep ∉ left) (hfront : sep ∉ front)
    (h : left ++ sep :: right = front ++ sep :: back) : left = front ∧ right = back := by
  have hparts := congrArg (partition sep) h
  rw [partition_append hleft, partition_append hfront] at hparts
  simpa using hparts

theorem partition_fst_start : (partition sep s).1 <+: s := by
  rcases partition_eq sep s with ⟨-, heq⟩ | ⟨left, right, hs, -, heq⟩
  · exact heq ▸ List.prefix_rfl
  · rw [heq, hs]
    exact List.prefix_append _ _

theorem partition_snd_suffix : (partition sep s).2.2 <:+ s := by
  rcases partition_eq sep s with ⟨-, heq⟩ | ⟨left, right, hs, -, heq⟩
  · rw [heq]
    exact List.nil_suffix
  · rw [heq, hs]
    exact (List.suffix_cons _ _).trans (List.suffix_append _ _)

end Partition

section Infix

variable {sub left right : Str} {c : Char}

theorem infix_of_infix_append_cons (hsub : c ∉ sub) (h : sub <:+: left ++ c :: right) :
    sub <:+: left ∨ sub <:+: right := by
  obtain ⟨before, after, heq⟩ := h
  rcases List.append_eq_append_iff.mp heq with ⟨rest, hleft, -⟩ | ⟨rest, hwhole, hright⟩
  · exact .inl ⟨before, rest, hleft.symm⟩
  · cases rest with
    | nil => exact .inl ⟨before, [], by rw [hwhole, List.append_nil, List.append_nil]⟩
    | cons d rest =>
        obtain ⟨rfl, hrest⟩ := List.cons.inj hright
        rcases List.append_eq_append_iff.mp hwhole with ⟨mid, -, hsep⟩ | ⟨mid, hbefore, hsep⟩
        · exact absurd (hsep ▸ by simp) hsub
        · cases mid with
          | nil =>
              rw [List.nil_append] at hsep
              exact absurd (hsep ▸ List.mem_cons_self) hsub
          | cons e mid =>
              obtain ⟨-, rfl⟩ := List.cons.inj hsep
              exact .inr ⟨mid, after, hrest.symm⟩

theorem infix_of_infix_append (hleft : c ∉ left) (h : c :: sub <:+: left ++ right) :
    c :: sub <:+: right := by
  obtain ⟨before, after, heq⟩ := h
  rw [List.append_assoc] at heq
  rcases List.append_eq_append_iff.mp heq with ⟨rest, hwhole, hrest⟩ | ⟨rest, -, hright⟩
  · cases rest with
    | nil => exact ⟨[], after, by simpa using hrest⟩
    | cons d rest =>
        obtain ⟨rfl, -⟩ := List.cons.inj hrest
        exact absurd (hwhole ▸ by simp) hleft
  · exact ⟨rest, after, by rw [hright, List.append_assoc]⟩

end Infix

section Join

variable {sep : Char}

theorem join_cons_cons (first second : Str) (rest : List Str) :
    join [sep] (first :: second :: rest) = first ++ sep :: join [sep] (second :: rest) := by
  simp [join, List.intercalate_cons_cons]

theorem join_singleton (sep text : Str) : join sep [text] = text := by
  simp [join, List.intercalate]

theorem length_join_le (sep : Char) {parts : List Str} {n : ℕ}
    (h : ∀ part ∈ parts, part.length ≤ n) : (join [sep] parts).length ≤ parts.length * (n + 1) := by
  induction parts with
  | nil => exact Nat.zero_le _
  | cons first rest ih =>
      obtain ⟨hfirst, hrest⟩ := List.forall_mem_cons.mp h
      have hih := ih hrest
      cases rest with
      | nil =>
          rw [join_singleton, List.length_singleton]
          omega
      | cons second rest =>
          rw [join_cons_cons, List.length_append, List.length_cons, List.length_cons, Nat.add_mul]
          omega

theorem split_join {parts : List Str} (hne : parts ≠ []) (h : ∀ part ∈ parts, sep ∉ part) :
    split sep (join [sep] parts) = parts := by
  induction parts with
  | nil => exact absurd rfl hne
  | cons first rest ih =>
      have hfirst := h first List.mem_cons_self
      cases rest with
      | nil =>
          rw [join_singleton, split_of_not_mem hfirst]
      | cons second rest =>
          rw [join_cons_cons, split_append hfirst,
            ih (List.cons_ne_nil _ _) fun part hpart => h part (List.mem_cons_of_mem _ hpart)]

theorem split_ne_nil (sep : Char) (s : Str) : split sep s ≠ [] := by
  cases s with
  | nil => exact List.cons_ne_nil _ _
  | cons c rest =>
      unfold split
      split
      · exact List.cons_ne_nil _ _
      · split <;> exact List.cons_ne_nil _ _

theorem join_split (sep : Char) (s : Str) : join [sep] (split sep s) = s := by
  induction s with
  | nil => exact join_singleton _ _
  | cons c s ih =>
      obtain ⟨first, rest, hsplit⟩ := List.exists_cons_of_ne_nil (split_ne_nil sep s)
      rw [hsplit] at ih
      rw [split]
      split
      · next hc =>
          rw [hsplit, join_cons_cons, ih]
          simp [hc]
      · rw [hsplit]
        cases rest with
        | nil =>
            dsimp only
            rw [join_singleton] at ih ⊢
            rw [ih]
        | cons second rest =>
            dsimp only
            rw [join_cons_cons] at ih ⊢
            rw [List.cons_append, ih]

theorem split_append_sep (s rest : Str) :
    split sep (s ++ sep :: rest) = split sep s ++ split sep rest := by
  induction s with
  | nil => simp [split]
  | cons c s ih =>
      rw [List.cons_append, split, split, ih]
      by_cases hc : c = sep
      · rw [if_pos hc, if_pos hc, List.cons_append]
      · rw [if_neg hc, if_neg hc]
        obtain ⟨first, more, hparts⟩ := List.exists_cons_of_ne_nil (split_ne_nil sep s)
        rw [hparts]
        rfl

theorem split_join_flatMap {parts : List Str} (hne : parts ≠ []) :
    split sep (join [sep] parts) = parts.flatMap (split sep) := by
  induction parts with
  | nil => exact absurd rfl hne
  | cons first rest ih =>
      cases rest with
      | nil => simp [join_singleton]
      | cons second rest =>
          rw [join_cons_cons, split_append_sep, ih (List.cons_ne_nil _ _)]
          exact List.flatMap_cons.symm

theorem sep_not_mem_of_mem_split {s part : Str} (h : part ∈ split sep s) : sep ∉ part := by
  induction s generalizing part with
  | nil =>
      rw [split, List.mem_singleton] at h
      rw [h]
      exact List.not_mem_nil
  | cons c rest ih =>
      unfold split at h
      split at h
      · rcases List.mem_cons.mp h with rfl | h
        · exact List.not_mem_nil
        · exact ih h
      · next hc =>
          obtain ⟨first, more, hparts⟩ := List.exists_cons_of_ne_nil (split_ne_nil sep rest)
          rw [hparts] at h ih
          rcases List.mem_cons.mp h with rfl | h
          · rw [List.mem_cons, not_or]
            exact ⟨Ne.symm hc, ih List.mem_cons_self⟩
          · exact ih (List.mem_cons_of_mem _ h)

theorem mem_join {sep : Str} {parts : List Str} {c : Char} (h : c ∈ join sep parts) :
    c ∈ sep ∨ ∃ part ∈ parts, c ∈ part := by
  induction parts with
  | nil => cases h
  | cons first rest ih =>
      cases rest with
      | nil =>
          refine .inr ⟨first, List.mem_cons_self, ?_⟩
          simpa [join, List.intercalate] using h
      | cons second rest =>
          have happend : join sep (first :: second :: rest) =
              first ++ sep ++ join sep (second :: rest) := by
            simp [join, List.intercalate_cons_cons]
          rw [happend, List.mem_append, List.mem_append] at h
          rcases h with (h | h) | h
          · exact .inr ⟨first, List.mem_cons_self, h⟩
          · exact .inl h
          · refine (ih h).imp_right fun ⟨part, hpart, hmem⟩ => ?_
            exact ⟨part, List.mem_cons_of_mem _ hpart, hmem⟩

theorem mem_split {s : Str} {c : Char} (h : c ∈ s) :
    c = sep ∨ ∃ part ∈ split sep s, c ∈ part := by
  induction s with
  | nil => cases h
  | cons d rest ih =>
      unfold split
      by_cases hsep : d = sep
      · rw [if_pos hsep]
        rcases List.mem_cons.mp h with rfl | h
        · exact .inl hsep
        · refine (ih h).imp_right fun ⟨part, hpart, hmem⟩ => ?_
          exact ⟨part, List.mem_cons_of_mem _ hpart, hmem⟩
      · rw [if_neg hsep]
        cases hparts : split sep rest with
        | nil =>
            rw [hparts] at ih
            rcases List.mem_cons.mp h with rfl | h
            · exact .inr ⟨_, List.mem_cons_self, List.mem_cons_self⟩
            · exact (ih h).imp_right fun ⟨part, hpart, _⟩ => nomatch hpart
        | cons part parts =>
            rw [hparts] at ih
            rcases List.mem_cons.mp h with rfl | h
            · exact .inr ⟨_, List.mem_cons_self, List.mem_cons_self⟩
            · refine (ih h).imp_right fun ⟨other, hother, hmem⟩ => ?_
              rcases List.mem_cons.mp hother with rfl | hother
              · exact ⟨_, List.mem_cons_self, List.mem_cons_of_mem _ hmem⟩
              · exact ⟨other, List.mem_cons_of_mem _ hother, hmem⟩

end Join

section Numerals

theorem asciiInt_decimal (n : ℕ) : asciiInt (decimal n) = n := Nat.ofDigitChars_ten_toDigits

theorem isAsciiDigit_decimal {n : ℕ} {c : Char} (h : c ∈ decimal n) : isAsciiDigit c = true := by
  have hdigit := Nat.isDigit_of_mem_toDigits (by decide) (by decide) h
  rw [Char.isDigit, Bool.and_eq_true, decide_eq_true_iff, decide_eq_true_iff] at hdigit
  rw [isAsciiDigit, Bool.and_eq_true, decide_eq_true_iff, decide_eq_true_iff]
  exact hdigit

theorem decimal_ne_nil (n : ℕ) : decimal n ≠ [] := Nat.toDigits_ne_nil

theorem eq_zero_of_decimal_head {n : ℕ} (h : (decimal n).head? = some '0') : n = 0 := by
  induction n using Nat.strongRecOn with
  | ind n ih =>
      unfold decimal at h
      by_cases hlt : n < 10
      · rw [Nat.toDigits_of_lt_base hlt] at h
        have hzero := Option.some.inj h
        interval_cases n <;> first | rfl | exact absurd hzero (by decide)
      · rw [Nat.toDigits_of_base_le (by decide) (not_lt.mp hlt),
          List.head?_append_of_ne_nil _ Nat.toDigits_ne_nil] at h
        have := ih (n / 10) (by omega) h
        omega

theorem digitChar_asciiDigitValue {c : Char} (h : isAsciiDigit c = true) :
    (asciiDigitValue c).digitChar = c ∧ asciiDigitValue c < 10 := by
  have hall : ∀ c ∈ "0123456789".toList,
      (asciiDigitValue c).digitChar = c ∧ asciiDigitValue c < 10 := by decide
  exact hall c (mem_digits h)

/-- A number without leading zeros is written as it is read. -/
theorem decimal_asciiInt {s : Str} (hne : s ≠ []) (hdigits : ∀ c ∈ s, isAsciiDigit c = true)
    (hhead : s.head? ≠ some '0' ∨ s = ['0']) :
    decimal (asciiInt s) = s ∧ (s ≠ ['0'] → 0 < asciiInt s) := by
  induction s using List.reverseRecOn with
  | nil => exact absurd rfl hne
  | append_singleton s c ih =>
      have hc := digitChar_asciiDigitValue (hdigits c (by simp))
      have hvalue : asciiInt (s ++ [c]) = 10 * asciiInt s + asciiDigitValue c := by
        rw [asciiInt, List.foldl_append]
        rfl
      by_cases hs : s = []
      · subst hs
        have hone : asciiInt ([] ++ [c]) = asciiDigitValue c := by
          rw [hvalue]
          exact Nat.zero_add _
        rw [hone, decimal, Nat.toDigits_of_lt_base hc.2, hc.1]
        refine ⟨rfl, fun hzero => Nat.pos_of_ne_zero fun h0 => hzero ?_⟩
        rw [← hc.1, h0]
        rfl
      · have hhead' : s.head? ≠ some '0' := by
          rcases hhead with h | h
          · rwa [List.head?_append_of_ne_nil _ hs] at h
          · exact absurd (List.append_eq_singleton_iff.mp h) (by simp [hs])
        obtain ⟨hdecimal, hpos⟩ :=
          ih hs (fun d hd => hdigits d (List.mem_append_left _ hd)) (.inl hhead')
        have hpos := hpos (by rintro rfl; exact hhead' rfl)
        have hdiv : (10 * asciiInt s + asciiDigitValue c) / 10 = asciiInt s := by omega
        have hmod : (10 * asciiInt s + asciiDigitValue c) % 10 = asciiDigitValue c := by omega
        rw [decimal] at hdecimal
        rw [hvalue, decimal, Nat.toDigits_of_base_le (by decide) (by omega), hdiv, hmod, hdecimal,
          hc.1]
        exact ⟨rfl, fun _ => by omega⟩

end Numerals

section Lower

variable (rt : Runtime) {s : Str}

theorem lower_of_isascii (h : isascii s = true) : rt.lower s = s.map asciiLower := by
  have hall : ∀ c ∈ s, isAscii c = true := List.all_eq_true.mp h
  have hchar : ∀ p ∈ s.zipIdx, rt.lowerChar s p.1 p.2 = [asciiLower p.1] := by
    intro p hp
    rw [Runtime.lowerChar, if_pos (hall p.1 (List.fst_mem_of_mem_zipIdx hp))]
  rw [Runtime.lower, List.flatMap_congr hchar]
  have hmap : ∀ (t : Str) (start : ℕ),
      (t.zipIdx start).flatMap (fun p => [asciiLower p.1]) = t.map asciiLower := by
    intro t
    induction t with
    | nil => intro start; rfl
    | cons c t ih =>
        intro start
        rw [List.zipIdx_cons, List.flatMap_cons, ih]
        rfl
  exact hmap s 0

end Lower

section Masked

variable (rt : Runtime) {s : Str}

def mask (c : Char) : Char := if isAscii c then c else '\u0080'

def lowerMask (c : Char) : Str := (rt.lowerChar [] c 0).map mask

theorem map_mask_lowerChar (s : Str) (c : Char) (index : ℕ) :
    (rt.lowerChar s c index).map mask = lowerMask rt c := by
  unfold lowerMask Runtime.lowerChar
  split
  · rfl
  · split
    · rfl
    · split
      · cases rt.finalSigma s index <;> cases rt.finalSigma [] 0 <;> rfl
      · rfl

theorem map_mask_lower (s : Str) : (rt.lower s).map mask = s.flatMap (lowerMask rt) := by
  have hindexed : ∀ (t : Str) (start : ℕ),
      ((t.zipIdx start).flatMap fun p => rt.lowerChar s p.1 p.2).map mask =
        t.flatMap (lowerMask rt) := by
    intro t
    induction t with
    | nil => exact fun _ => rfl
    | cons c t ih =>
        intro start
        rw [List.zipIdx_cons, List.flatMap_cons, List.map_append, ih, map_mask_lowerChar,
          List.flatMap_cons]
  exact hindexed s 0

theorem infix_map_mask_iff {sub : Str} (hsub : isascii sub = true) :
    sub <:+: s.map mask ↔ sub <:+: s := by
  have hascii : ∀ c ∈ sub, isAscii c = true := List.all_eq_true.mp hsub
  have hmask : ∀ c, isAscii c = true → mask c = c := fun c hc => if_pos hc
  constructor
  · rintro ⟨before, after, heq⟩
    obtain ⟨front, back, rfl, hfront, -⟩ := List.map_eq_append_iff.mp heq.symm
    obtain ⟨start, text, rfl, -, htext⟩ := List.map_eq_append_iff.mp hfront
    have hsame : text = sub := by
      refine htext ▸ ?_
      refine (List.map_id text).symm.trans (List.map_congr_left fun c hc => ?_)
      have hin : mask c ∈ sub := htext ▸ List.mem_map_of_mem hc
      by_cases hc' : isAscii c = true
      · exact (hmask c hc').symm
      · have := hascii _ hin
        rw [mask, if_neg hc'] at this
        exact absurd this (by decide)
    exact ⟨start, back, by rw [hsame]⟩
  · rintro ⟨before, after, rfl⟩
    refine ⟨before.map mask, after.map mask, ?_⟩
    rw [List.map_append, List.map_append]
    congr 2
    exact (List.map_congr_left fun c hc => (hmask c (hascii c hc)).symm).symm ▸ by simp

theorem flatMap_lowerMask_of_isascii (h : isascii s = true) :
    s.flatMap (lowerMask rt) = s.map asciiLower := by
  have hall : ∀ c ∈ s, isAscii c = true := List.all_eq_true.mp h
  have hchar : ∀ c ∈ s, lowerMask rt c = [asciiLower c] := by
    intro c hc
    rw [lowerMask, Runtime.lowerChar, if_pos (hall c hc), List.map_singleton, mask,
      if_pos (isAscii_asciiLower (hall c hc))]
  rw [List.flatMap_congr hchar, List.map_eq_flatMap]

theorem isIn_lower_iff {sub : Str} (hsub : isascii sub = true) :
    isIn sub (rt.lower s) = true ↔ sub <:+: s.flatMap (lowerMask rt) := by
  rw [isIn_iff, ← infix_map_mask_iff hsub, map_mask_lower]

end Masked

end OpenctiLookup.Python
