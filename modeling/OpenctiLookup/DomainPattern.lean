import OpenctiLookup.Indicators
import OpenctiLookup.Python.RegexLemmas
import OpenctiLookup.Python.TextLemmas

/-! What the parts of `_DOMAIN_RE` read: labels of letters, digits and hyphens, with dots
between them, and a last one with a letter. -/
namespace OpenctiLookup
open Python Regex

/-- `[a-z0-9-]`. -/
def isLabelChar (c : Char) : Bool := isAsciiLower c || isAsciiDigit c || c == '-'

/-- A label of lower case letters, digits and hyphens, with no hyphen at its ends. -/
structure DnsLabel (label : Str) : Prop where
  ne_nil : label ≠ []
  chars : ∀ c ∈ label, isLabelChar c = true
  start : label.head? ≠ some '-'
  finish : label.getLast? ≠ some '-'

section Labels

variable {at_ next : Cursor}

theorem mem_ends_label : next ∈ labelPattern.ends at_ ↔
    ∃ label, (DnsLabel label ∧ label.length ≤ 63) ∧ Reads at_ label next := by
  unfold labelPattern concat
  simp only [List.foldr, mem_ends_seq, mem_ends_notAhead_chr, labelClass, mem_ends_rep_cls_iff,
    mem_ends_notBehind_chr]
  constructor
  · rintro ⟨_, ⟨rfl, hstart⟩, mid, ⟨label, hchars, hleast, hmost, hreads⟩, _, ⟨rfl, hfinish⟩, hnext⟩
    obtain rfl := List.mem_singleton.mp hnext
    have hne : label ≠ [] := List.ne_nil_of_length_pos hleast
    rw [head?_of_reads hreads hne] at hstart
    rw [getLast?_of_reads hreads hne] at hfinish
    exact ⟨label, ⟨⟨hne, hchars, hstart, hfinish⟩, hmost 63 rfl⟩, hreads⟩
  · rintro ⟨label, ⟨hlabel, hlength⟩, hreads⟩
    refine ⟨at_, ⟨rfl, ?_⟩, next, ⟨label, hlabel.chars, ?_, ?_, hreads⟩, next, ⟨rfl, ?_⟩,
      List.mem_singleton_self _⟩
    · rw [head?_of_reads hreads hlabel.ne_nil]
      exact hlabel.start
    · exact List.length_pos_of_ne_nil hlabel.ne_nil
    · rintro bound hbound
      cases hbound
      exact hlength.trans (le_max_right _ _)
    · rw [getLast?_of_reads hreads hlabel.ne_nil]
      exact hlabel.finish

theorem mem_ends_labels : next ∈ (rep (seq (chr '.') labelPattern) 0 none).ends at_ ↔
    ∃ labels : List Str, (∀ label ∈ labels, DnsLabel label ∧ label.length ≤ 63) ∧
      Reads at_ (labels.flatMap fun label => '.' :: label) next := by
  have hone : ∀ at_ next, next ∈ (seq (chr '.') labelPattern).ends at_ ↔
      ∃ label, (DnsLabel label ∧ label.length ≤ 63) ∧ Reads at_ ('.' :: label) next := by
    intro at_ next
    rw [mem_ends_seq]
    constructor
    · rintro ⟨mid, hdot, hlabel⟩
      obtain ⟨label, hlabel, hreads⟩ := mem_ends_label.mp hlabel
      exact ⟨label, hlabel, (mem_ends_chr.mp hdot).trans hreads⟩
    · rintro ⟨label, hlabel, hreads⟩
      obtain ⟨mid, hdot, hreads⟩ := reads_cons_iff.mp hreads
      exact ⟨mid, mem_ends_chr.mpr hdot, mem_ends_label.mpr ⟨label, hlabel, hreads⟩⟩
  rw [mem_ends_rep_iff hone fun _ _ => List.cons_ne_nil _ _]
  simp

/-- The end of `_DOMAIN_RE`, behind the last dot. -/
def lastPattern : Regex :=
  concat [notAhead (chr '-'), rep labelClass 0 none, cls isAsciiLower, rep labelClass 0 none,
    notBehind (· == '-'), dollar]

theorem mem_ends_last : next ∈ lastPattern.ends at_ ↔
    ∃ last, DnsLabel last ∧ (∃ c ∈ last, isAsciiLower c = true) ∧ Reads at_ last next ∧
      AtEnd next.after := by
  unfold lastPattern concat
  simp only [List.foldr, mem_ends_seq, mem_ends_notAhead_chr, labelClass, mem_ends_star_cls_iff,
    mem_ends_notBehind_chr, mem_ends_cls_iff, mem_ends_dollar]
  constructor
  · rintro ⟨_, ⟨rfl, hstart⟩, _, ⟨before, hbefore, hone⟩, _, ⟨c, hc, htwo⟩, mid,
      ⟨after, hafter, hthree⟩, _, ⟨rfl, hfinish⟩, _, ⟨rfl, hend⟩, hnext⟩
    obtain rfl := List.mem_singleton.mp hnext
    have hreads := hone.trans (htwo.trans hthree)
    have hne : before ++ ([c] ++ after) ≠ [] := by simp
    rw [head?_of_reads hreads hne] at hstart
    rw [getLast?_of_reads hreads hne] at hfinish
    refine ⟨_, ⟨hne, ?_, hstart, hfinish⟩, ⟨c, by simp, hc⟩, hreads, hend⟩
    have hletter : isLabelChar c = true := by rw [isLabelChar, hc]; rfl
    exact List.forall_mem_append.mpr ⟨hbefore, List.forall_mem_cons.mpr ⟨hletter, hafter⟩⟩
  · rintro ⟨last, hlast, ⟨c, hmem, hc⟩, hreads, hend⟩
    have hstart := hlast.start
    have hfinish := hlast.finish
    rw [← getLast?_of_reads hreads hlast.ne_nil] at hfinish
    rw [← head?_of_reads hreads hlast.ne_nil] at hstart
    obtain ⟨before, after, rfl⟩ := List.append_of_mem hmem
    obtain ⟨one, hone, hrest⟩ := reads_append_iff.mp hreads
    obtain ⟨two, htwo, hthree⟩ := reads_cons_iff.mp hrest
    obtain ⟨hbefore, hchars⟩ := List.forall_mem_append.mp hlast.chars
    exact ⟨at_, ⟨rfl, hstart⟩, one, ⟨before, hbefore, hone⟩, two,
      ⟨c, hc, htwo⟩, next, ⟨after, (List.forall_mem_cons.mp hchars).2, hthree⟩,
      next, ⟨rfl, hfinish⟩, next, ⟨rfl, hend⟩, List.mem_singleton_self _⟩

end Labels

section Names

variable {name : Str}

theorem flatMap_labels (first : Str) (rest : List Str) :
    first ++ rest.flatMap (fun label => '.' :: label) = join "." (first :: rest) := by
  induction rest generalizing first with
  | nil => simp [join_singleton]
  | cons second rest ih =>
      exact (congrArg (fun tail => first ++ '.' :: tail) (ih second)).trans
        (join_cons_cons first second rest).symm

theorem join_parts (first : Str) (rest : List Str) (last : Str) :
    join "." (first :: rest ++ [last]) =
      first ++ (rest.flatMap (fun label => '.' :: label) ++ (['.'] ++ last)) := by
  have h := flatMap_labels first (rest ++ [last])
  rw [List.flatMap_append, List.flatMap_singleton] at h
  exact h.symm

theorem domainPattern_eq : domainPattern =
    seq caret (seq (lookahead (concat [rep (cls (· != '\n')) 1 (some 253), dollar]))
      (seq labelPattern (seq (rep (seq (chr '.') labelPattern) 0 none)
        (seq (chr '.') lastPattern)))) := rfl

theorem isMatch_iff_reads : domainPattern.isMatch name = true ↔
    ∃ first rest last next,
      Reads ⟨[], name⟩ (join "." (first :: rest ++ [last])) next ∧ AtEnd next.after ∧
      (∀ label ∈ first :: rest, DnsLabel label ∧ label.length ≤ 63) ∧ DnsLabel last ∧
      (∃ c ∈ last, isAsciiLower c = true) ∧
      ∃ mid, mid ∈ (concat [rep (cls (· != '\n')) 1 (some 253), dollar]).ends ⟨[], name⟩ := by
  rw [isMatch_iff, domainPattern_eq]
  simp only [mem_ends_seq, mem_ends_caret, mem_ends_lookahead, mem_ends_label, mem_ends_labels,
    mem_ends_chr, mem_ends_last, join_parts, List.forall_mem_cons]
  constructor
  · rintro ⟨next, _, ⟨rfl, -⟩, _, ⟨rfl, hahead⟩, _, ⟨first, hfirst, hone⟩, _, ⟨rest, hrest, htwo⟩,
      _, hthree, last, hlast, hletter, hfour, hend⟩
    exact ⟨first, rest, last, next, hone.trans (htwo.trans (hthree.trans hfour)), hend,
      ⟨hfirst, hrest⟩, hlast, hletter, hahead⟩
  · rintro ⟨first, rest, last, next, hreads, hend, ⟨hfirst, hrest⟩, hlast, hletter, hahead⟩
    obtain ⟨one, hone, hreads⟩ := reads_append_iff.mp hreads
    obtain ⟨two, htwo, hreads⟩ := reads_append_iff.mp hreads
    obtain ⟨three, hthree, hfour⟩ := reads_append_iff.mp hreads
    exact ⟨next, _, ⟨rfl, trivial⟩, _, ⟨rfl, hahead⟩, one, ⟨first, hfirst, hone⟩, two,
      ⟨rest, hrest, htwo⟩, three, hthree, last, hlast, hletter, hfour, hend⟩

end Names

end OpenctiLookup
