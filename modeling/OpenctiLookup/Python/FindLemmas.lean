import OpenctiLookup.Python.TextLemmas

/-! Where `find` finds a text, in another and in its lower case. Only U+0130 has a
lower case longer than itself, so an index into the lowered text is ahead of the text
by the number of those in front of it. -/
namespace OpenctiLookup.Python

section Leftmost

variable {sub s before after : Str} {i : ℕ}

theorem not_infix_dropLast (hne : sub ≠ []) : ¬ sub <:+: sub.dropLast := by
  intro h
  have hle := h.length_le
  have hpos := List.length_pos_iff.mpr hne
  rw [List.length_dropLast] at hle
  omega

theorem prefix_dropLast (hne : sub ≠ []) (h : sub <+: before ++ sub ++ after)
    (hbefore : before ≠ []) : sub <+: before ++ sub.dropLast := by
  have hwhole : before ++ sub.dropLast <+: before ++ sub ++ after := by
    rw [List.append_assoc]
    exact (List.prefix_append_right_inj before).mpr
      ((List.dropLast_prefix sub).trans (List.prefix_append _ _))
  refine List.prefix_of_prefix_length_le h hwhole ?_
  have hpos := List.length_pos_iff.mpr hne
  have hone := List.length_pos_iff.mpr hbefore
  rw [List.length_append, List.length_dropLast]
  omega

/-- `find` returns the first place: no occurrence ends before this one does. -/
theorem find_eq_some_iff (hne : sub ≠ []) :
    find sub s = some i ↔ ∃ before after, s = before ++ sub ++ after ∧ before.length = i ∧
      ¬ sub <:+: before ++ sub.dropLast := by
  constructor
  · intro h
    induction s generalizing i with
    | nil => simp [find, hne] at h
    | cons c rest ih =>
        rw [find] at h
        split at h
        · rename_i hstart
          obtain ⟨after, hafter⟩ := List.isPrefixOf_iff_prefix.mp hstart
          obtain rfl : 0 = i := Option.some.inj h
          exact ⟨[], after, hafter.symm, rfl, not_infix_dropLast hne⟩
        · rename_i hstart
          obtain ⟨j, hj, rfl⟩ := Option.map_eq_some_iff.mp h
          obtain ⟨before, after, rfl, rfl, hfirst⟩ := ih hj
          refine ⟨c :: before, after, rfl, rfl, ?_⟩
          rw [List.cons_append, List.infix_cons_iff, not_or]
          refine ⟨fun hstarts => hstart (List.isPrefixOf_iff_prefix.mpr ?_), hfirst⟩
          refine hstarts.trans ?_
          rw [← List.cons_append, ← List.cons_append, ← List.cons_append, List.append_assoc]
          exact (List.prefix_append_right_inj _).mpr
            ((List.dropLast_prefix sub).trans (List.prefix_append _ _))
  · rintro ⟨before, after, rfl, rfl, hfirst⟩
    induction before with
    | nil =>
        cases sub with
        | nil => exact absurd rfl hne
        | cons c sub =>
            have hstart : (c :: sub).isPrefixOf (c :: (sub ++ after)) = true :=
              List.isPrefixOf_iff_prefix.mpr ⟨after, by simp⟩
            simp [find, hstart]
    | cons c before ih =>
        have hstart : ¬ sub.isPrefixOf (c :: (before ++ sub ++ after)) = true := by
          rw [List.isPrefixOf_iff_prefix]
          intro hstarts
          have hwhole : sub <+: c :: before ++ sub.dropLast :=
            prefix_dropLast hne hstarts (List.cons_ne_nil _ _)
          exact hfirst hwhole.isInfix
        rw [List.cons_append, List.infix_cons_iff, not_or] at hfirst
        rw [List.cons_append, List.cons_append, find, if_neg hstart, ih hfirst.2]
        rfl

theorem find_eq_none_iff : find sub s = none ↔ ¬ sub <:+: s := by
  rw [← find_isSome_iff, Bool.not_eq_true, Option.isSome_eq_false_iff, Option.isNone_iff_eq_none]

theorem infix_of_infix_append_last {left right : Str} {c : Char} (hright : c ∉ right)
    (h : sub ++ [c] <:+: left ++ right) : sub ++ [c] <:+: left := by
  have hflip : c :: sub.reverse <:+: right.reverse ++ left.reverse := by
    simpa using List.reverse_infix.mpr h
  have hleft := infix_of_infix_append (by simpa using hright) hflip
  apply List.reverse_infix.mp
  simpa using hleft

theorem infix_of_last {left right : Str} (h : sub <:+: left ++ right)
    (hlast : ∀ c, sub.getLast? = some c → c ∉ right) : sub <:+: left := by
  rcases List.eq_nil_or_concat' sub with rfl | ⟨sub, c, rfl⟩
  · exact List.nil_infix
  · exact infix_of_infix_append_last (hlast c (by simp)) h

theorem infix_of_head {left right : Str} (h : sub <:+: left ++ right)
    (hhead : ∀ c, sub.head? = some c → c ∉ left) : sub <:+: right := by
  cases sub with
  | nil => exact List.nil_infix
  | cons c sub => exact infix_of_infix_append (hhead c rfl) h

theorem infix_append_cons_cases {left right : Str} {d : Char} (h : sub <:+: left ++ d :: right) :
    sub <:+: left ∨ sub <:+: right ∨
      ∃ before after, sub = before ++ d :: after ∧ before <:+ left ∧ after <+: right := by
  rcases List.infix_append_iff.mp h with h | h | ⟨before, after, rfl, hbefore, hafter⟩
  · exact .inl h
  · rcases List.infix_cons_iff.mp h with h | h
    · cases sub with
      | nil => exact .inl List.nil_infix
      | cons c sub =>
          obtain ⟨rfl, hsub⟩ := List.cons_prefix_cons.mp h
          exact .inr (.inr ⟨[], sub, rfl, List.nil_suffix, hsub⟩)
    · exact .inr (.inl h)
  · cases after with
    | nil =>
        rw [List.append_nil]
        exact .inl hbefore.isInfix
    | cons c after =>
        obtain ⟨rfl, hright⟩ := List.cons_prefix_cons.mp hafter
        exact .inr (.inr ⟨before, after, rfl, hbefore, hright⟩)

theorem infix_around {left right : Str} {d : Char} (hbefore : before <:+ left)
    (hafter : after <+: right) : before ++ d :: after <:+: left ++ d :: right := by
  obtain ⟨first, rfl⟩ := hbefore
  obtain ⟨last, rfl⟩ := hafter
  exact ⟨first, last, by simp⟩

theorem infix_stripBy_iff {p : Char → Bool} (hsub : ∀ c ∈ sub, p c = false) :
    sub <:+: stripBy p s ↔ sub <:+: s := by
  constructor
  · intro hin
    exact hin.trans (stripBy_within p s)
  · intro hin
    have hkept : ∀ c ∈ sub, ¬ p c = true := fun c hc => Bool.eq_false_iff.mp (hsub c hc)
    rw [← List.takeWhile_append_dropWhile (p := p) (l := s)] at hin
    have hback := infix_of_head hin fun c hc hmem =>
      hkept c (List.mem_of_head? hc) (List.mem_takeWhile_imp hmem)
    rw [← List.rdropWhile_append_rtakeWhile (p := p) (l := s.dropWhile p)] at hback
    exact infix_of_last hback fun c hc hmem =>
      hkept c (List.mem_of_getLast? hc) (List.mem_rtakeWhile_imp hmem)

end Leftmost

section Lowered

variable (rt : Runtime) {sub s before after : Str}

theorem isPrefixOf_map_mask (hsub : isascii sub = true) :
    sub.isPrefixOf (s.map mask) = sub.isPrefixOf s := by
  have hchar : ∀ c d, isAscii c = true → (c = mask d ↔ c = d) := by
    intro c d hc
    unfold mask
    split
    · rfl
    · rename_i hd
      constructor
      · rintro rfl
        exact absurd hc (by decide)
      · rintro rfl
        exact absurd hc hd
  induction sub generalizing s with
  | nil => simp
  | cons c sub ih =>
      cases s with
      | nil => rfl
      | cons d s =>
          simp only [isascii, List.all_cons, Bool.and_eq_true] at hsub
          have hhead : (c == mask d) = (c == d) := by
            rw [Bool.eq_iff_iff, beq_iff_eq, beq_iff_eq]
            exact hchar c d hsub.1
          rw [List.map_cons, List.isPrefixOf_cons_cons, List.isPrefixOf_cons_cons, hhead, ih hsub.2]

theorem find_map_mask (hsub : isascii sub = true) : find sub (s.map mask) = find sub s := by
  induction s with
  | nil => rfl
  | cons c s ih =>
      have hstart := @isPrefixOf_map_mask sub (c :: s) hsub
      rw [List.map_cons] at hstart ⊢
      rw [find, find, hstart, ih]

def view (s : Str) : Str := s.flatMap (lowerMask rt)

theorem find_lower (hsub : isascii sub = true) : find sub (rt.lower s) = find sub (view rt s) := by
  rw [← find_map_mask hsub, map_mask_lower, view]

theorem view_append (s t : Str) : view rt (s ++ t) = view rt s ++ view rt t := List.flatMap_append

theorem view_cons (c : Char) (s : Str) : view rt (c :: s) = lowerMask rt c ++ view rt s :=
  List.flatMap_cons

theorem view_of_isascii (h : isascii s = true) : view rt s = s.map asciiLower :=
  flatMap_lowerMask_of_isascii rt h

theorem lowerMask_cases (c : Char) :
    (c ≠ '\u0130' ∧ ∃ d, lowerMask rt c = [d]) ∨
      c = '\u0130' ∧ lowerMask rt c = ['i', '\u0080'] := by
  unfold lowerMask Runtime.lowerChar
  split
  · rename_i hascii
    refine .inl ⟨?_, _, rfl⟩
    rintro rfl
    exact absurd hascii (by decide)
  · split
    · rename_i hdotted
      exact .inr ⟨hdotted, rfl⟩
    · rename_i hdotted
      split
      · exact .inl ⟨hdotted, _, rfl⟩
      · exact .inl ⟨hdotted, _, rfl⟩

def ahead (s : Str) : ℕ := s.count '\u0130'

theorem ahead_append (s t : Str) : ahead (s ++ t) = ahead s + ahead t := List.count_append

theorem length_view (s : Str) : (view rt s).length = s.length + ahead s := by
  induction s with
  | nil => rfl
  | cons c s ih =>
      rw [view_cons, List.length_append, ih, ahead, ahead, List.count_cons, List.length_cons]
      rcases lowerMask_cases rt c with ⟨hc, d, hd⟩ | ⟨rfl, hd⟩
      · simp [hd, hc]
        omega
      · simp [hd]
        omega

/-- A text is cut where its lower case is, unless that is inside of U+0130. -/
theorem view_split (hinside : ∀ c, after.head? = some c → c ≠ '\u0080')
    (h : view rt s = before ++ after) :
    ∃ front back, s = front ++ back ∧ view rt front = before ∧ view rt back = after := by
  induction s generalizing before with
  | nil =>
      obtain ⟨rfl, rfl⟩ := List.append_eq_nil_iff.mp h.symm
      exact ⟨[], [], rfl, rfl, rfl⟩
  | cons c s ih =>
      cases before with
      | nil => exact ⟨[], c :: s, rfl, rfl, h⟩
      | cons d before =>
          rw [view_cons] at h
          rcases lowerMask_cases rt c with ⟨-, e, he⟩ | ⟨-, he⟩
          · rw [he] at h
            obtain ⟨rfl, hrest⟩ := List.cons.inj h
            obtain ⟨front, back, rfl, rfl, hback⟩ := ih hrest
            exact ⟨c :: front, back, rfl, by rw [view_cons, he]; rfl, hback⟩
          · rw [he] at h
            obtain ⟨rfl, hrest⟩ := List.cons.inj h
            change '\u0080' :: view rt s = before ++ after at hrest
            cases before with
            | nil =>
                rw [List.nil_append] at hrest
                rw [← hrest] at hinside
                exact absurd rfl (hinside '\u0080' rfl)
            | cons f before =>
                rw [List.cons_append] at hrest
                obtain ⟨rfl, hmore⟩ := List.cons.inj hrest
                obtain ⟨front, back, rfl, rfl, hback⟩ := ih hmore
                exact ⟨c :: front, back, rfl, by rw [view_cons, he]; rfl, hback⟩

def Spells (found marker : Str) : Prop :=
  List.Forall₂ (fun c d => lowerMask rt c = [d]) found marker

variable {rt} {found marker : Str}

theorem Spells.view_eq (h : Spells rt found marker) : view rt found = marker := by
  induction h with
  | nil => rfl
  | cons hc _ ih => rw [view_cons, hc, ih]; rfl

theorem Spells.take (h : Spells rt found marker) (k : ℕ) :
    Spells rt (found.take k) (marker.take k) := by
  induction h generalizing k with
  | nil => simp [Spells]
  | cons hc _ ih =>
      cases k with
      | zero => exact .nil
      | succ k => exact .cons hc (ih k)

theorem Spells.ahead_eq (h : Spells rt found marker) : ahead found = 0 := by
  have hlength := length_view rt found
  rw [h.view_eq, ← List.Forall₂.length_eq h] at hlength
  omega

theorem spells_of_view (hi : 'i' ∉ marker) (h : view rt s = marker ++ after) :
    ∃ found back, s = found ++ back ∧ Spells rt found marker ∧ view rt back = after := by
  induction marker generalizing s with
  | nil => exact ⟨[], s, rfl, .nil, h⟩
  | cons d marker ih =>
      rw [List.mem_cons, not_or] at hi
      cases s with
      | nil => cases h
      | cons c s =>
          rw [view_cons] at h
          rcases lowerMask_cases rt c with ⟨-, e, he⟩ | ⟨-, he⟩
          · rw [he] at h
            obtain ⟨rfl, hrest⟩ := List.cons.inj h
            obtain ⟨found, back, rfl, hfound, hback⟩ := ih hi.2 hrest
            exact ⟨c :: found, back, rfl, .cons he hfound, hback⟩
          · rw [he] at h
            exact absurd (List.cons.inj h).1 hi.1

end Lowered

end OpenctiLookup.Python
