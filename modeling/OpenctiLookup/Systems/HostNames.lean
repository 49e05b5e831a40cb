import OpenctiLookup.UrlParts

/-! What `_DOMAIN_RE` matches: names of labels as in DNS, but with a last label of any
length. -/
namespace OpenctiLookup
open Python

/-- Two or more labels of at most 63 characters, at most 253 in all, the last label with a
letter. -/
structure IsHostName (labels : List Str) (name : Str) : Prop where
  text : name = join "." labels
  two : 2 ≤ labels.length
  length : name.length ≤ 253
  label : ∀ label ∈ labels, DnsLabel label ∧ label.length ≤ 63
  letter : ∃ last, labels.getLast? = some last ∧ ∃ c ∈ last, isAsciiLower c = true

def HostName (name : Str) : Prop := ∃ labels, IsHostName labels name

/-- A host name, were it not for the length of its last label. -/
structure IsNearly (front : List Str) (last name : Str) : Prop where
  text : name = join "." (front ++ [last])
  front_ne_nil : front ≠ []
  length : name.length ≤ 253
  label : ∀ label ∈ front, DnsLabel label ∧ label.length ≤ 63
  final : DnsLabel last
  letter : ∃ c ∈ last, isAsciiLower c = true

def NearlyHostName (name : Str) : Prop := ∃ front last, IsNearly front last name

/-- The printable characters of ASCII, the blank among them. -/
def isPrintableAscii (c : Char) : Bool := 32 ≤ c.toNat && c.toNat ≤ 126

/-- The domain branch of `normalize` takes a cleaned text for a domain name. -/
def TakenForDomain (rt : Runtime) (raw cleaned : Str) (skipTlds : List Str) : Prop :=
  (classifyText.other rt raw cleaned skipTlds).skipReason ≠ some ("unclassified" : Str)

/-- The pattern matches a text if it is a host name, and the domain branch goes by that. -/
structure ReadsHostName (name : Str) : Prop where
  pattern : domainPattern.isMatch name = true ↔ HostName name
  branch : ∀ rt raw cleaned skipTlds, isUrl cleaned = false → domainHost rt cleaned = name →
    (TakenForDomain rt raw cleaned skipTlds ↔ HostName name)

section Names

open Regex

variable {name : Str}

theorem after_eq_nil (hnewline : '\n' ∉ name) {text : Str} {next : Cursor}
    (hreads : Reads ⟨[], name⟩ text next) (hend : AtEnd next.after) : next.after = [] := by
  rcases hend with hend | hend
  · exact hend
  · refine absurd ?_ hnewline
    have hafter : name = text ++ next.after := hreads.after
    rw [hafter, hend]
    exact List.mem_append_right _ (List.mem_singleton_self _)

theorem ahead_iff (hnewline : '\n' ∉ name) :
    (∃ mid, mid ∈ (concat [rep (cls (· != '\n')) 1 (some 253), dollar]).ends ⟨[], name⟩) ↔
      name ≠ [] ∧ name.length ≤ 253 := by
  simp only [concat, List.foldr, mem_ends_seq, mem_ends_rep_cls_iff, mem_ends_dollar]
  constructor
  · rintro ⟨_, _, ⟨text, -, hleast, hmost, hreads⟩, mid, ⟨rfl, hend⟩, -⟩
    have hname : name = text ++ mid.after := hreads.after
    rw [after_eq_nil hnewline hreads hend, List.append_nil] at hname
    rw [hname]
    exact ⟨List.ne_nil_of_length_pos hleast, hmost 253 rfl⟩
  · rintro ⟨hne, hlength⟩
    refine ⟨_, ⟨name.reverse, []⟩, ⟨name, fun c hc => ?_, List.length_pos_of_ne_nil hne, ?_,
      (List.append_nil _).symm, (List.append_nil _).symm⟩, _, ⟨rfl, .inl rfl⟩,
      List.mem_singleton_self _⟩
    · rw [bne_iff_ne]
      rintro rfl
      exact hnewline hc
    · rintro bound hbound
      cases hbound
      exact hlength.trans (le_max_right _ _)

theorem isMatch_domainPattern_iff (hnewline : '\n' ∉ name) :
    domainPattern.isMatch name = true ↔ NearlyHostName name := by
  rw [isMatch_iff_reads]
  constructor
  · rintro ⟨first, rest, last, next, hreads, hend, hlabels, hlast, hletter, hahead⟩
    have hname : name = _ ++ next.after := hreads.after
    rw [after_eq_nil hnewline hreads hend, List.append_nil] at hname
    exact ⟨first :: rest, last, hname, List.cons_ne_nil _ _, ((ahead_iff hnewline).mp hahead).2,
      hlabels, hlast, hletter⟩
  · rintro ⟨_ | ⟨first, rest⟩, last, htext, hne, hlength, hlabels, hlast, hletter⟩
    · exact absurd rfl hne
    · have hname : name ≠ [] := by
        rw [htext, join_parts]
        simp
      refine ⟨first, rest, last, ⟨name.reverse, []⟩, ?_, .inl rfl, hlabels, hlast, hletter,
        (ahead_iff hnewline).mpr ⟨hname, hlength⟩⟩
      rw [← htext]
      exact ⟨(List.append_nil _).symm, (List.append_nil _).symm⟩

theorem IsNearly.lastLabel_eq {front : List Str} {last : Str} (h : IsNearly front last name) :
    lastLabel name = last := by
  obtain ⟨first, rest, rfl⟩ := List.exists_cons_of_ne_nil h.front_ne_nil
  have hdot : '.' ∉ last := fun hmem => absurd (h.final.chars '.' hmem) (by decide)
  rw [lastLabel, h.text, join_parts, ← List.append_assoc]
  exact congrArg (fun parts => parts.2.2) (rpartition_append hdot _)

theorem hostName_iff : HostName name ↔ NearlyHostName name ∧ (lastLabel name).length ≤ 63 := by
  constructor
  · rintro ⟨labels, htext, htwo, hlength, hlabels, last, hlast, hletter⟩
    obtain ⟨front, rfl⟩ := List.getLast?_eq_some_iff.mp hlast
    rw [List.forall_mem_append, List.forall_mem_singleton] at hlabels
    have hfront : front ≠ [] := by
      rintro rfl
      simp at htwo
    have hnearly : IsNearly front last name :=
      ⟨htext, hfront, hlength, hlabels.1, hlabels.2.1, hletter⟩
    exact ⟨⟨front, last, hnearly⟩, hnearly.lastLabel_eq ▸ hlabels.2.2⟩
  · rintro ⟨⟨front, last, hnearly⟩, hlast⟩
    rw [hnearly.lastLabel_eq] at hlast
    refine ⟨front ++ [last], hnearly.text, ?_, hnearly.length, ?_, last, List.getLast?_concat,
      hnearly.letter⟩
    · have hpos := List.length_pos_of_ne_nil hnearly.front_ne_nil
      rw [List.length_append, List.length_singleton]
      omega
    · rw [List.forall_mem_append, List.forall_mem_singleton]
      exact ⟨hnearly.label, hnearly.final, hlast⟩

theorem takenForDomain_iff {rt : Runtime} {raw cleaned : Str} {skipTlds : List Str}
    (hurl : isUrl cleaned = false) : TakenForDomain rt raw cleaned skipTlds ↔
      domainPattern.isMatch (domainHost rt cleaned) = true := by
  unfold TakenForDomain
  rw [other_eq, if_neg (by simp [hurl])]
  by_cases hmatch : domainPattern.isMatch (domainHost rt cleaned) = true
  · rw [if_pos hmatch]
    refine iff_of_true ?_ hmatch
    split
    · exact fun heq => absurd (Option.some.inj heq) (by decide)
    · split
      · exact fun heq => absurd (Option.some.inj heq) (by decide)
      · exact nofun
  · rw [if_neg hmatch]
    exact iff_of_false (not_not.mpr rfl) hmatch

end Names

/-- `_DOMAIN_RE` and the domain branch accept a text exactly if it is a host name, unless it is
none for the length of its last label alone. -/
theorem host_name_read_iff (name : Str) (hprintable : ∀ c ∈ name, isPrintableAscii c = true) :
    ReadsHostName name ↔ (lastLabel name).length ≤ 63 ∨ ¬ NearlyHostName name := by
  have hnewline : '\n' ∉ name := fun hmem => absurd (hprintable '\n' hmem) (by decide)
  have hmatch := isMatch_domainPattern_iff hnewline
  constructor
  · rintro ⟨hpattern, -⟩
    rw [or_iff_not_imp_right, not_not]
    exact fun hnearly => (hostName_iff.mp (hpattern.mp (hmatch.mpr hnearly))).2
  · intro h
    have hpattern : domainPattern.isMatch name = true ↔ HostName name := by
      rw [hmatch, hostName_iff]
      exact ⟨fun hnearly => ⟨hnearly, h.resolve_right (not_not.mpr hnearly)⟩, And.left⟩
    refine ⟨hpattern, fun rt raw cleaned skipTlds hurl hhost => ?_⟩
    rw [takenForDomain_iff hurl, hhost, hpattern]

theorem host_name_read_evil : ReadsHostName "evil.com" :=
  (host_name_read_iff "evil.com" (by decide)).mpr (.inl (by decide))

/-- A last label of 64 characters. -/
theorem long_last_label_matched :
    ¬ ∀ name : Str, (∀ c ∈ name, isPrintableAscii c = true) → ReadsHostName name := by
  intro hall
  let last : Str := List.replicate 64 'a'
  have hlast : DnsLabel last := ⟨by decide, by decide, by decide, by decide⟩
  have hnearly : IsNearly ["a"] last (join "." ["a", last]) := {
    text := rfl
    front_ne_nil := List.cons_ne_nil _ _
    length := by decide
    label := List.forall_mem_singleton.mpr ⟨⟨by decide, by decide, by decide, by decide⟩, by decide⟩
    final := hlast
    letter := ⟨'a', by decide, rfl⟩ }
  have hpattern := (hall (join "." ["a", last]) (by decide)).pattern
  have hname := hostName_iff.mp
    (hpattern.mp ((isMatch_domainPattern_iff (by decide)).mpr ⟨_, _, hnearly⟩))
  rw [hnearly.lastLabel_eq] at hname
  exact absurd hname.2 (by decide)

end OpenctiLookup
