import OpenctiLookup.Python.Regex

/-! What a match says about the text it reads: which characters it can have
consumed, and that a class repeated to the end matches a text of its own. -/
namespace OpenctiLookup.Python.Regex

structure Reads (at_ : Cursor) (consumed : Str) (next : Cursor) : Prop where
  after : at_.after = consumed ++ next.after
  before : next.before = consumed.reverse ++ at_.before

namespace Reads

variable {at_ mid next : Cursor} {first second : Str}

theorem rfl' : Reads at_ [] at_ := ⟨rfl, rfl⟩

theorem trans (hfirst : Reads at_ first mid) (hsecond : Reads mid second next) :
    Reads at_ (first ++ second) next where
  after := by rw [hfirst.after, hsecond.after, List.append_assoc]
  before := by rw [hsecond.before, hfirst.before, List.reverse_append, List.append_assoc]

end Reads

def Only (p : Char → Prop) : Regex → Prop
  | cls accepts => ∀ c, accepts c = true → p c
  | seq first second => first.Only p ∧ second.Only p
  | alt left right => left.Only p ∧ right.Only p
  | rep body _ _ => body.Only p
  | _ => True

section Mem

variable {at_ next : Cursor} {first second : Regex} {accepts : Char → Bool}

theorem mem_ends_seq :
    next ∈ (seq first second).ends at_ ↔ ∃ mid ∈ first.ends at_, next ∈ second.ends mid :=
  List.mem_flatMap

theorem mem_ends_cls :
    next ∈ (cls accepts).ends at_ ↔
      ∃ c rest, at_.after = c :: rest ∧ accepts c = true ∧ next = ⟨c :: at_.before, rest⟩ := by
  unfold ends
  cases hafter : at_.after with
  | nil => simp
  | cons c rest =>
      dsimp only
      by_cases haccepts : accepts c = true
      · simp [haccepts]
      · rw [if_neg haccepts]
        refine iff_of_false List.not_mem_nil ?_
        rintro ⟨d, tail, heq, hd, -⟩
        exact haccepts ((List.cons.inj heq).1 ▸ hd)

theorem mem_ends_dollar : next ∈ dollar.ends at_ ↔
    next = at_ ∧ (at_.after = [] ∨ at_.after = ['\n']) := by
  unfold ends
  split
  · rename_i h
    simp [h]
  · rename_i h
    simp [h]

theorem isMatch_iff {pattern : Regex} {text : Str} :
    pattern.isMatch text = true ↔ ∃ next, next ∈ pattern.ends ⟨[], text⟩ := by
  unfold isMatch
  cases pattern.ends ⟨[], text⟩ with
  | nil => simp
  | cons next rest => exact iff_of_true rfl ⟨next, List.mem_cons_self⟩

end Mem

section Lookaround

variable {at_ next : Cursor} {text : Str} {c : Char}

theorem mem_ends_caret : next ∈ caret.ends at_ ↔ next = at_ ∧ at_.before = [] := by
  rw [Regex.ends]
  cases hbefore : at_.before <;> simp

theorem mem_ends_lookahead {body : Regex} :
    next ∈ (lookahead body).ends at_ ↔ next = at_ ∧ ∃ mid, mid ∈ body.ends at_ := by
  rw [Regex.ends]
  cases hends : body.ends at_ with
  | nil => simp
  | cons mid rest =>
      rw [if_neg (by simp), List.mem_singleton]
      exact (and_iff_left ⟨mid, List.mem_cons_self⟩).symm

theorem mem_ends_notAhead_chr :
    next ∈ (notAhead (chr c)).ends at_ ↔ next = at_ ∧ at_.after.head? ≠ some c := by
  rw [Regex.ends, chr, Regex.ends]
  cases at_.after with
  | nil => simp
  | cons d rest =>
      by_cases hd : d = c <;> simp [hd]

theorem mem_ends_notBehind_chr :
    next ∈ (notBehind (· == c)).ends at_ ↔ next = at_ ∧ at_.before.head? ≠ some c := by
  rw [Regex.ends]
  cases at_.before with
  | nil => simp
  | cons d rest =>
      by_cases hd : d = c <;> simp [hd]

theorem head?_of_reads (h : Reads at_ text next) (hne : text ≠ []) :
    at_.after.head? = text.head? := by
  rw [h.after, List.head?_append_of_ne_nil _ hne]

theorem getLast?_of_reads (h : Reads at_ text next) (hne : text ≠ []) :
    next.before.head? = text.getLast? := by
  rw [h.before, List.head?_append_of_ne_nil _ (by simpa using hne), List.head?_reverse]

end Lookaround

section Reads

variable {p : Char → Prop} {ends : Cursor → List Cursor}

theorem reads_exactEnds
    (hends : ∀ at_ next, next ∈ ends at_ → ∃ consumed, Reads at_ consumed next ∧
      ∀ c ∈ consumed, p c) (rounds : Nat) {at_ next : Cursor}
    (h : next ∈ exactEnds ends rounds at_) :
    ∃ consumed, Reads at_ consumed next ∧ ∀ c ∈ consumed, p c := by
  induction rounds generalizing at_ with
  | zero =>
      obtain rfl := List.mem_singleton.mp h
      exact ⟨[], .rfl', nofun⟩
  | succ rounds ih =>
      obtain ⟨mid, hmid, hnext⟩ := List.mem_flatMap.mp h
      obtain ⟨first, hfirst, hp⟩ := hends _ _ hmid
      obtain ⟨second, hsecond, hq⟩ := ih hnext
      exact ⟨_, hfirst.trans hsecond, List.forall_mem_append.mpr ⟨hp, hq⟩⟩

theorem reads_repeatEnds
    (hends : ∀ at_ next, next ∈ ends at_ → ∃ consumed, Reads at_ consumed next ∧
      ∀ c ∈ consumed, p c) (rounds : Nat) {at_ next : Cursor}
    (h : next ∈ repeatEnds ends rounds at_) :
    ∃ consumed, Reads at_ consumed next ∧ ∀ c ∈ consumed, p c := by
  induction rounds generalizing at_ with
  | zero =>
      obtain rfl := List.mem_singleton.mp h
      exact ⟨[], .rfl', nofun⟩
  | succ rounds ih =>
      rcases List.mem_cons.mp h with rfl | hmore
      · exact ⟨[], .rfl', nofun⟩
      · obtain ⟨mid, hmid, hnext⟩ := List.mem_flatMap.mp hmore
        obtain ⟨first, hfirst, hp⟩ := hends _ _ (List.mem_filter.mp hmid).1
        obtain ⟨second, hsecond, hq⟩ := ih hnext
        exact ⟨_, hfirst.trans hsecond, List.forall_mem_append.mpr ⟨hp, hq⟩⟩

/-- A match reads a stretch of text, of characters the pattern accepts. -/
theorem reads_of_mem_ends {r : Regex} (honly : r.Only p) {at_ next : Cursor}
    (h : next ∈ r.ends at_) : ∃ consumed, Reads at_ consumed next ∧ ∀ c ∈ consumed, p c := by
  have hstay : next = at_ → ∃ consumed, Reads at_ consumed next ∧ ∀ c ∈ consumed, p c := by
    rintro rfl
    exact ⟨[], .rfl', nofun⟩
  induction r generalizing at_ next with
  | empty => exact hstay (List.mem_singleton.mp h)
  | cls accepts =>
      obtain ⟨c, rest, hafter, haccepts, rfl⟩ := mem_ends_cls.mp h
      refine ⟨[c], ⟨hafter, rfl⟩, fun d hd => ?_⟩
      rw [List.mem_singleton.mp hd]
      exact honly c haccepts
  | seq first second ihfirst ihsecond =>
      obtain ⟨mid, hmid, hnext⟩ := mem_ends_seq.mp h
      obtain ⟨one, hone, hp⟩ := ihfirst honly.1 hmid fun heq => ⟨[], heq ▸ .rfl', nofun⟩
      obtain ⟨two, htwo, hq⟩ := ihsecond honly.2 hnext fun heq => ⟨[], heq ▸ .rfl', nofun⟩
      exact ⟨_, hone.trans htwo, List.forall_mem_append.mpr ⟨hp, hq⟩⟩
  | alt left right ihleft ihright =>
      rcases List.mem_append.mp h with hleft | hright
      · exact ihleft honly.1 hleft hstay
      · exact ihright honly.2 hright hstay
  | rep body least most ih =>
      have hbody : ∀ at_ next, next ∈ body.ends at_ → ∃ consumed, Reads at_ consumed next ∧
          ∀ c ∈ consumed, p c :=
        fun at_ next hnext => ih honly hnext fun heq => ⟨[], heq ▸ .rfl', nofun⟩
      obtain ⟨mid, hmid, hnext⟩ := List.mem_flatMap.mp h
      obtain ⟨one, hone, hp⟩ := reads_exactEnds hbody least hmid
      obtain ⟨two, htwo, hq⟩ := reads_repeatEnds hbody _ hnext
      exact ⟨_, hone.trans htwo, List.forall_mem_append.mpr ⟨hp, hq⟩⟩
  | lookahead body =>
      rw [Regex.ends] at h
      split at h
      · cases h
      · exact hstay (List.mem_singleton.mp h)
  | notAhead body =>
      rw [Regex.ends] at h
      split at h
      · exact hstay (List.mem_singleton.mp h)
      · cases h
  | notBehind accepts =>
      rw [Regex.ends] at h
      split at h
      · exact hstay (List.mem_singleton.mp h)
      · split at h
        · cases h
        · exact hstay (List.mem_singleton.mp h)
  | caret =>
      rw [Regex.ends] at h
      split at h
      · exact hstay (List.mem_singleton.mp h)
      · cases h
  | dollar => exact hstay (mem_ends_dollar.mp h).1

end Reads

section Anchored

variable {p : Char → Prop}

def AtEnd (rest : Str) : Prop := rest = [] ∨ rest = ['\n']

theorem atEnd_concat (parts : List Regex) {at_ next : Cursor}
    (h : next ∈ (concat (parts ++ [dollar])).ends at_) : AtEnd next.after := by
  induction parts generalizing at_ with
  | nil =>
      obtain ⟨mid, hmid, hnext⟩ := mem_ends_seq.mp h
      obtain ⟨rfl, hend⟩ := mem_ends_dollar.mp hmid
      rw [List.mem_singleton.mp hnext]
      exact hend
  | cons part parts ih =>
      obtain ⟨mid, -, hnext⟩ := mem_ends_seq.mp h
      exact ih hnext

theorem body_of_isMatch {parts : List Regex} (honly : (concat (parts ++ [dollar])).Only p)
    {text : Str} (h : (concat (parts ++ [dollar])).isMatch text = true) :
    ∃ body tail, text = body ++ tail ∧ (∀ c ∈ body, p c) ∧ AtEnd tail := by
  obtain ⟨next, hnext⟩ := isMatch_iff.mp h
  obtain ⟨body, hreads, hbody⟩ := reads_of_mem_ends honly hnext
  exact ⟨body, next.after, hreads.after, hbody, atEnd_concat parts hnext⟩

theorem AtEnd.newline {rest : Str} (h : AtEnd rest) : ∀ c ∈ rest, c = '\n' := by
  rcases h with rfl | rfl
  · exact fun c hc => nomatch hc
  · exact fun c hc => List.mem_singleton.mp hc

end Anchored

section Exact

variable {at_ next : Cursor} {first second : Str}

theorem reads_nil_iff : Reads at_ [] next ↔ next = at_ := by
  constructor
  · rintro ⟨hafter, hbefore⟩
    cases at_
    cases next
    cases hafter
    cases hbefore
    rfl
  · rintro rfl
    exact .rfl'

theorem reads_append_iff :
    Reads at_ (first ++ second) next ↔ ∃ mid, Reads at_ first mid ∧ Reads mid second next := by
  constructor
  · rintro ⟨hafter, hbefore⟩
    refine ⟨⟨first.reverse ++ at_.before, second ++ next.after⟩, ⟨?_, rfl⟩, rfl, ?_⟩
    · rw [hafter, List.append_assoc]
    · rw [hbefore, List.reverse_append, List.append_assoc]
  · rintro ⟨mid, hfirst, hsecond⟩
    exact hfirst.trans hsecond

theorem reads_cons_iff {c : Char} :
    Reads at_ (c :: second) next ↔ ∃ mid, Reads at_ [c] mid ∧ Reads mid second next :=
  @reads_append_iff at_ next [c] second

theorem mem_ends_cls_iff {accepts : Char → Bool} :
    next ∈ (cls accepts).ends at_ ↔ ∃ c, accepts c = true ∧ Reads at_ [c] next := by
  rw [mem_ends_cls]
  constructor
  · rintro ⟨c, rest, hafter, haccepts, rfl⟩
    exact ⟨c, haccepts, hafter, rfl⟩
  · rintro ⟨c, haccepts, hafter, hbefore⟩
    cases next
    cases hbefore
    exact ⟨c, _, hafter, haccepts, rfl⟩

theorem mem_ends_chr {c : Char} : next ∈ (chr c).ends at_ ↔ Reads at_ [c] next := by
  rw [chr, mem_ends_cls_iff]
  constructor
  · rintro ⟨d, hd, hreads⟩
    exact beq_iff_eq.mp hd ▸ hreads
  · exact fun hreads => ⟨c, beq_self_eq_true c, hreads⟩

variable {α : Type} {ends : Cursor → List Cursor} {p : α → Prop} {write : α → Str}

theorem mem_exactEnds_iff
    (hends : ∀ at_ next, next ∈ ends at_ ↔ ∃ item, p item ∧ Reads at_ (write item) next)
    (rounds : ℕ) : next ∈ exactEnds ends rounds at_ ↔
      ∃ items : List α, (∀ item ∈ items, p item) ∧ items.length = rounds ∧
        Reads at_ (items.flatMap write) next := by
  induction rounds generalizing at_ with
  | zero =>
      rw [exactEnds, List.mem_singleton]
      constructor
      · rintro rfl
        exact ⟨[], nofun, rfl, .rfl'⟩
      · rintro ⟨items, -, hlength, hreads⟩
        rw [List.length_eq_zero_iff.mp hlength] at hreads
        exact reads_nil_iff.mp hreads
  | succ rounds ih =>
      rw [exactEnds, List.mem_flatMap]
      constructor
      · rintro ⟨mid, hmid, hnext⟩
        obtain ⟨item, hitem, hfirst⟩ := (hends at_ mid).mp hmid
        obtain ⟨items, hitems, rfl, hsecond⟩ := ih.mp hnext
        exact ⟨item :: items, List.forall_mem_cons.mpr ⟨hitem, hitems⟩, rfl, hfirst.trans hsecond⟩
      · rintro ⟨_ | ⟨item, items⟩, hitems, hlength, hreads⟩
        · cases hlength
        · rw [List.forall_mem_cons] at hitems
          obtain ⟨mid, hfirst, hsecond⟩ := reads_append_iff.mp hreads
          exact ⟨mid, (hends at_ mid).mpr ⟨item, hitems.1, hfirst⟩,
            ih.mpr ⟨items, hitems.2, Nat.succ.inj hlength, hsecond⟩⟩

theorem mem_repeatEnds_iff
    (hends : ∀ at_ next, next ∈ ends at_ ↔ ∃ item, p item ∧ Reads at_ (write item) next)
    (hwrite : ∀ item, p item → write item ≠ []) (rounds : ℕ) :
    next ∈ repeatEnds ends rounds at_ ↔
      ∃ items : List α, (∀ item ∈ items, p item) ∧ items.length ≤ rounds ∧
        Reads at_ (items.flatMap write) next := by
  induction rounds generalizing at_ with
  | zero =>
      rw [repeatEnds, List.mem_singleton]
      constructor
      · rintro rfl
        exact ⟨[], nofun, le_rfl, .rfl'⟩
      · rintro ⟨items, -, hlength, hreads⟩
        rw [List.length_eq_zero_iff.mp (Nat.le_zero.mp hlength)] at hreads
        exact reads_nil_iff.mp hreads
  | succ rounds ih =>
      rw [repeatEnds, List.mem_cons, List.mem_flatMap]
      constructor
      · rintro (rfl | ⟨mid, hmid, hnext⟩)
        · exact ⟨[], nofun, Nat.zero_le _, .rfl'⟩
        · obtain ⟨item, hitem, hfirst⟩ := (hends at_ mid).mp (List.mem_filter.mp hmid).1
          obtain ⟨items, hitems, hlength, hsecond⟩ := ih.mp hnext
          exact ⟨item :: items, List.forall_mem_cons.mpr ⟨hitem, hitems⟩,
            Nat.succ_le_succ hlength, hfirst.trans hsecond⟩
      · rintro ⟨_ | ⟨item, items⟩, hitems, hlength, hreads⟩
        · exact .inl (reads_nil_iff.mp hreads)
        · rw [List.forall_mem_cons] at hitems
          obtain ⟨mid, hfirst, hsecond⟩ := reads_append_iff.mp hreads
          have hshorter : mid.after.length < at_.after.length := by
            rw [hfirst.after, List.length_append]
            have := List.length_pos_of_ne_nil (hwrite item hitems.1)
            omega
          refine .inr ⟨mid, List.mem_filter.mpr ⟨(hends at_ mid).mpr ⟨item, hitems.1, hfirst⟩, ?_⟩,
            ih.mpr ⟨items, hitems.2, Nat.le_of_succ_le_succ hlength, hsecond⟩⟩
          exact decide_eq_true hshorter

theorem length_le_flatMap {items : List α} (hwrite : ∀ item, p item → write item ≠ [])
    (hitems : ∀ item ∈ items, p item) : items.length ≤ (items.flatMap write).length := by
  induction items with
  | nil => exact le_rfl
  | cons item items ih =>
      rw [List.forall_mem_cons] at hitems
      have hitem := List.length_pos_of_ne_nil (hwrite item hitems.1)
      have hrest := ih hitems.2
      rw [List.flatMap_cons, List.length_append, List.length_cons]
      omega

/-- What a repetition reads: as many items as its bounds allow. -/
theorem mem_ends_rep_iff {body : Regex}
    (hbody : ∀ at_ next, next ∈ body.ends at_ ↔ ∃ item, p item ∧ Reads at_ (write item) next)
    (hwrite : ∀ item, p item → write item ≠ []) {least : ℕ} {most : Option ℕ} :
    next ∈ (rep body least most).ends at_ ↔
      ∃ items : List α, (∀ item ∈ items, p item) ∧ least ≤ items.length ∧
        (∀ bound, most = some bound → items.length ≤ max least bound) ∧
        Reads at_ (items.flatMap write) next := by
  rw [Regex.ends, List.mem_flatMap]
  constructor
  · rintro ⟨mid, hmid, hnext⟩
    obtain ⟨front, hfront, rfl, hfirst⟩ := (mem_exactEnds_iff hbody _).mp hmid
    obtain ⟨back, hback, hlength, hsecond⟩ := (mem_repeatEnds_iff hbody hwrite _).mp hnext
    refine ⟨front ++ back, List.forall_mem_append.mpr ⟨hfront, hback⟩, ?_, ?_, ?_⟩
    · rw [List.length_append]
      exact Nat.le_add_right _ _
    · rintro bound rfl
      rw [List.length_append]
      dsimp only at hlength
      omega
    · rw [List.flatMap_append]
      exact hfirst.trans hsecond
  · rintro ⟨items, hitems, hleast, hmost, hreads⟩
    have hfront : ∀ item ∈ items.take least, p item := fun item h =>
      hitems item (List.mem_of_mem_take h)
    have hback : ∀ item ∈ items.drop least, p item := fun item h =>
      hitems item (List.mem_of_mem_drop h)
    rw [← List.take_append_drop least items, List.flatMap_append, reads_append_iff] at hreads
    obtain ⟨mid, hfirst, hsecond⟩ := hreads
    refine ⟨mid, (mem_exactEnds_iff hbody _).mpr ⟨_, hfront, ?_, hfirst⟩,
      (mem_repeatEnds_iff hbody hwrite _).mpr ⟨_, hback, ?_, hsecond⟩⟩
    · rw [List.length_take, Nat.min_eq_left hleast]
    · cases most with
      | some bound =>
          have hbound := hmost bound rfl
          rw [List.length_drop]
          dsimp only
          omega
      | none =>
          have hshorter := length_le_flatMap hwrite hback
          dsimp only
          rw [hsecond.after, List.length_append]
          omega

theorem mem_ends_rep_cls_iff {accepts : Char → Bool} {least : ℕ} {most : Option ℕ} :
    next ∈ (rep (cls accepts) least most).ends at_ ↔
      ∃ text : Str, (∀ c ∈ text, accepts c = true) ∧ least ≤ text.length ∧
        (∀ bound, most = some bound → text.length ≤ max least bound) ∧ Reads at_ text next := by
  have hsingle : ∀ text : Str, text.flatMap (fun c => [c]) = text := List.flatMap_singleton'
  have hrep := @mem_ends_rep_iff at_ next Char (fun c => accepts c = true) (fun c => [c])
    (cls accepts) (fun _ _ => mem_ends_cls_iff) (fun _ _ => List.cons_ne_nil _ _) least most
  rw [hrep]
  simp only [hsingle]

theorem mem_ends_star_cls_iff {accepts : Char → Bool} :
    next ∈ (rep (cls accepts) 0 none).ends at_ ↔
      ∃ text : Str, (∀ c ∈ text, accepts c = true) ∧ Reads at_ text next := by
  rw [mem_ends_rep_cls_iff]
  simp

end Exact
section Class

variable {accepts : Char → Bool} {text : Str}

theorem mem_ends_rep_cls {most : Nat} {c : Char} {before rest : Str}
    (h : ∀ d ∈ c :: text, accepts d = true) (hmost : text.length < most) :
    ⟨(c :: text).reverse ++ before, rest⟩ ∈
      (rep (cls accepts) 1 (some most)).ends ⟨before, c :: text ++ rest⟩ := by
  refine mem_ends_rep_cls_iff.mpr ⟨c :: text, h, Nat.succ_le_succ (Nat.zero_le _), ?_, rfl, rfl⟩
  rintro bound hbound
  cases hbound
  exact (Nat.succ_le_of_lt hmost).trans (le_max_right _ _)

theorem isMatch_class {c : Char} (h : ∀ d ∈ c :: text, accepts d = true) :
    (concat [caret, rep (cls accepts) 1 none, dollar]).isMatch (c :: text) = true := by
  have hreads : Reads ⟨[], c :: text⟩ (c :: text) ⟨(c :: text).reverse, []⟩ :=
    ⟨(List.append_nil _).symm, (List.append_nil _).symm⟩
  refine isMatch_iff.mpr ⟨⟨(c :: text).reverse, []⟩, ?_⟩
  refine mem_ends_seq.mpr ⟨⟨[], c :: text⟩, List.mem_singleton_self _, ?_⟩
  refine mem_ends_seq.mpr ⟨⟨(c :: text).reverse, []⟩, ?_, ?_⟩
  · exact mem_ends_rep_cls_iff.mpr ⟨c :: text, h, Nat.succ_le_succ (Nat.zero_le _), nofun, hreads⟩
  · exact mem_ends_seq.mpr ⟨_, mem_ends_dollar.mpr ⟨rfl, .inl rfl⟩, List.mem_singleton_self _⟩

end Class

end OpenctiLookup.Python.Regex
