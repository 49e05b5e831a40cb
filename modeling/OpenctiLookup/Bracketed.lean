import OpenctiLookup.AsciiMarkers

/-! Words whose characters stand in square brackets. The marker loop takes the brackets off
a colon and a slash, one pair at a time, and no other marker touches them. -/
namespace OpenctiLookup
open Python

/-- The characters of a word, each in square brackets as often as one likes. -/
inductive Wrapped : Str → Str → Prop
  | nil : Wrapped [] []
  | cons {c : Char} {word text : Str} (n : ℕ) : Wrapped word text →
      Wrapped (c :: word) (List.replicate n '[' ++ c :: List.replicate n ']' ++ text)

/-- The word is written so somewhere in the text. -/
def Hides (word s : Str) : Prop := ∃ text, Wrapped word text ∧ text <:+: s

section Words

variable {word more text rest left right : Str} {c d : Char}

theorem Wrapped.self (word : Str) : Wrapped word word := by
  induction word with
  | nil => exact .nil
  | cons c word ih => exact .cons 0 ih

theorem Wrapped.append (h : Wrapped word text) (hmore : Wrapped more rest) :
    Wrapped (word ++ more) (text ++ rest) := by
  induction h with
  | nil => exact hmore
  | cons n _ ih =>
      rw [List.append_assoc]
      exact .cons n ih

theorem Wrapped.chars (h : Wrapped word text) : ∀ c ∈ text, c ∈ word ∨ c = '[' ∨ c = ']' := by
  induction h with
  | nil => exact nofun
  | cons n _ ih =>
      intro d hd
      simp only [List.mem_append, List.mem_cons, List.mem_replicate] at hd ⊢
      rcases hd with (⟨-, rfl⟩ | rfl | ⟨-, rfl⟩) | hd
      · simp
      · simp
      · simp
      · rcases ih d hd with hmem | hbracket
        · exact .inl (.inr hmem)
        · exact .inr hbracket

theorem Wrapped.word_subset (h : Wrapped word text) : word ⊆ text := by
  induction h with
  | nil => exact nofun
  | cons n _ ih =>
      intro d hd
      rcases List.mem_cons.mp hd with rfl | hd
      · simp
      · exact List.mem_append_right _ (ih hd)

theorem Wrapped.head (h : Wrapped word text) (hc : text.head? = some c) : c ∈ word ∨ c = '[' := by
  cases h with
  | nil => cases hc
  | cons n _ =>
      cases n with
      | zero =>
          cases hc
          simp
      | succ n =>
          cases hc
          simp

theorem Wrapped.last (h : Wrapped word text) (hc : text.getLast? = some c) :
    c ∈ word ∨ c = ']' := by
  induction h with
  | nil => cases hc
  | @cons d word text n htext ih =>
      by_cases hnil : text = []
      · rw [hnil, List.append_nil, List.getLast?_append, List.getLast?_cons] at hc
        cases n with
        | zero =>
            cases hc
            simp
        | succ n =>
            rw [List.getLast?_replicate, if_neg (Nat.succ_ne_zero n)] at hc
            cases hc
            simp
      · rw [List.getLast?_append_of_ne_nil _ hnil] at hc
        rcases ih hc with hmem | hbracket
        · exact .inl (List.mem_cons_of_mem _ hmem)
        · exact .inr hbracket

theorem brackets_split {n : ℕ} (hopen : d ≠ '[') (hclose : d ≠ ']')
    (h : List.replicate n '[' ++ c :: List.replicate n ']' = left ++ d :: right) :
    c = d ∧ left = List.replicate n '[' ∧ right = List.replicate n ']' := by
  rcases List.append_eq_append_iff.mp h with ⟨tail, hfront, hback⟩ | ⟨tail, hfront, hback⟩
  · cases tail with
    | nil =>
        obtain ⟨rfl, rfl⟩ := List.cons.inj hback
        exact ⟨rfl, by rw [hfront, List.append_nil], rfl⟩
    | cons e tail =>
        obtain ⟨-, hback⟩ := List.cons.inj hback
        have hmem : d ∈ List.replicate n ']' := hback ▸ by simp
        exact absurd (List.eq_of_mem_replicate hmem) hclose
  · cases tail with
    | nil =>
        obtain ⟨rfl, rfl⟩ := List.cons.inj hback
        exact ⟨rfl, by rw [hfront, List.append_nil], rfl⟩
    | cons e tail =>
        obtain ⟨rfl, -⟩ := List.cons.inj hback
        have hmem : d ∈ List.replicate n '[' := hfront ▸ by simp
        exact absurd (List.eq_of_mem_replicate hmem) hopen

theorem Wrapped.split (h : Wrapped word (left ++ d :: right)) (hopen : d ≠ '[')
    (hclose : d ≠ ']') : ∃ first last before after n, word = first ++ d :: last ∧
      Wrapped first before ∧ Wrapped last after ∧ left = before ++ List.replicate n '[' ∧
        right = List.replicate n ']' ++ after := by
  generalize hwhole : left ++ d :: right = whole at h
  induction h generalizing left with
  | nil => simp at hwhole
  | @cons c word text n htext ih =>
      have hbehind : ∀ rest, text = rest ++ d :: right →
          left = List.replicate n '[' ++ c :: List.replicate n ']' ++ rest →
          ∃ first last before after n, c :: word = first ++ d :: last ∧ Wrapped first before ∧
            Wrapped last after ∧ left = before ++ List.replicate n '[' ∧
              right = List.replicate n ']' ++ after := by
        rintro rest heq rfl
        obtain ⟨first, last, before, after, m, rfl, hfirst, hlast, rfl, hright⟩ := ih heq.symm
        exact ⟨c :: first, last, _, after, m, rfl, .cons n hfirst, hlast, by simp, hright⟩
      rcases List.append_eq_append_iff.mp hwhole with ⟨mid, hchunk, hright⟩ | ⟨rest, hleft, htext'⟩
      · cases mid with
        | nil => exact hbehind [] hright.symm (by simpa using hchunk.symm)
        | cons e mid =>
            obtain ⟨rfl, rfl⟩ := List.cons.inj hright
            obtain ⟨rfl, rfl, rfl⟩ := brackets_split hopen hclose hchunk
            exact ⟨[], word, [], text, n, rfl, .nil, htext, rfl, rfl⟩
      · exact hbehind rest htext' hleft

theorem Wrapped.eq_of_bare (h : Wrapped word text)
    (hbare : ∀ c ∈ word, ¬ ['[', c, ']'] <:+: text) : text = word := by
  induction h with
  | nil => rfl
  | @cons c word text n htext ih =>
      cases n with
      | zero =>
          have hrest : text = word := ih fun d hd hin =>
            hbare d (List.mem_cons_of_mem _ hd) (hin.trans (List.suffix_append [c] text).isInfix)
          rw [hrest]
          rfl
      | succ n =>
          refine absurd ⟨List.replicate n '[', List.replicate n ']' ++ text, ?_⟩
            (hbare c List.mem_cons_self)
          rw [List.replicate_succ', List.replicate_succ]
          simp

end Words

section Places

variable {word s front back : Str} {d : Char}

theorem Hides.of_infix {t : Str} (h : Hides word s) (hin : s <:+: t) : Hides word t := by
  obtain ⟨text, htext, htextIn⟩ := h
  exact ⟨text, htext, htextIn.trans hin⟩

theorem Hides.subset (h : Hides word s) : word ⊆ s := by
  obtain ⟨text, htext, hin⟩ := h
  exact fun c hc => hin.subset (htext.word_subset hc)

theorem Wrapped.head_ne (h : Wrapped word s) (hword : ∀ c ∈ word, c ≠ '[' ∧ c ≠ ']') :
    s.head? ≠ some ']' := by
  intro hc
  rcases h.head hc with hmem | hbracket
  · exact (hword _ hmem).2 rfl
  · cases hbracket

theorem Wrapped.last_ne (h : Wrapped word s) (hword : ∀ c ∈ word, c ≠ '[' ∧ c ≠ ']') :
    s.getLast? ≠ some '[' := by
  intro hc
  rcases h.last hc with hmem | hbracket
  · exact (hword _ hmem).1 rfl
  · cases hbracket

/-- A pair of brackets less around a character, and the word is still there. -/
theorem hides_unwrap (hword : ∀ c ∈ word, c ≠ '[' ∧ c ≠ ']') (hopen : d ≠ '[') (hclose : d ≠ ']')
    (h : Hides word (front ++ ['['] ++ d :: (']' :: back))) : Hides word (front ++ d :: back) := by
  obtain ⟨text, htext, hin⟩ := h
  rcases infix_append_cons_cases hin with hin | hin | ⟨before, after, rfl, hbefore, hafter⟩
  · have hfront : text <:+: front := infix_of_last hin fun c hc hmem =>
      htext.last_ne hword (List.mem_singleton.mp hmem ▸ hc)
    exact ⟨text, htext, hfront.trans (List.prefix_append _ _).isInfix⟩
  · rw [← List.singleton_append] at hin
    have hback : text <:+: back := infix_of_head hin fun c hc hmem =>
      htext.head_ne hword (List.mem_singleton.mp hmem ▸ hc)
    exact ⟨text, htext, hback.trans ⟨front ++ [d], [], by simp⟩⟩
  · obtain ⟨first, last, start, rest, n, rfl, hfirst, hlast, rfl, rfl⟩ := htext.split hopen hclose
    cases n with
    | zero =>
        have hstart : start = [] := by
          rw [List.replicate_zero, List.append_nil, List.suffix_concat_iff] at hbefore
          rcases hbefore with hnil | ⟨piece, rfl, -⟩
          · exact hnil
          · exact absurd (by simp)
              (hfirst.last_ne fun c hc => hword c (List.mem_append_left _ hc))
        have hrest : rest = [] := by
          rw [List.replicate_zero, List.nil_append, List.prefix_cons_iff] at hafter
          rcases hafter with hnil | ⟨piece, rfl, -⟩
          · exact hnil
          · exact absurd rfl (hlast.head_ne fun c hc => hword c (by simp [hc]))
        refine ⟨_, htext, ?_⟩
        rw [hstart, hrest]
        exact infix_around List.nil_suffix List.nil_prefix
    | succ n =>
        have hleft : start ++ List.replicate n '[' <:+ front := by
          rw [List.replicate_succ', ← List.append_assoc, List.suffix_concat_iff] at hbefore
          rcases hbefore with hnil | ⟨piece, heq, hpiece⟩
          · simp at hnil
          · exact List.append_cancel_right heq ▸ hpiece
        rw [List.replicate_succ, List.cons_append, List.cons_prefix_cons] at hafter
        refine ⟨_, hfirst.append (.cons n hlast), ?_⟩
        simpa using infix_around hleft hafter.2

theorem hides_wrap (hopen : d ≠ '[') (hclose : d ≠ ']') (h : Hides word (front ++ d :: back)) :
    Hides word (front ++ ['['] ++ d :: (']' :: back)) := by
  obtain ⟨text, htext, hin⟩ := h
  rcases infix_append_cons_cases hin with hin | hin | ⟨before, after, rfl, hbefore, hafter⟩
  · exact ⟨text, htext, hin.trans ⟨[], '[' :: d :: ']' :: back, by simp⟩⟩
  · exact ⟨text, htext, hin.trans ⟨front ++ ['[', d, ']'], [], by simp⟩⟩
  · obtain ⟨first, last, start, rest, n, rfl, hfirst, hlast, rfl, rfl⟩ := htext.split hopen hclose
    refine ⟨_, hfirst.append (.cons (n + 1) hlast), ?_⟩
    obtain ⟨left, rfl⟩ := hbefore
    obtain ⟨right, rfl⟩ := hafter
    refine ⟨left, right, ?_⟩
    rw [List.replicate_succ', List.replicate_succ]
    simp

end Places

section Markers

variable {rt : Runtime} {marker : Str × Str} {markers : List (Str × Str)}
variable {word front back out text piece : Str}

def Apart (text : Str) : Prop :=
  (text.dropWhile (· == '[')).head? ∉ [none, some ']'] ∧
    ∀ c ∈ text.dropWhile (· == '['), c ∉ ":/[".toList

instance (text : Str) : Decidable (Apart text) :=
  inferInstanceAs (Decidable (_ ∧ _))

theorem marker_cases : ∀ marker ∈ defangMarkers, marker = ("[:]".toList, ":".toList) ∨
    marker = ("[/]".toList, "/".toList) ∨ Apart marker.1 ∧ Apart marker.2 := by decide

theorem hides_apart (hpiece : Apart piece) (hword : word ⊆ ":/".toList) :
    Hides word (front ++ piece ++ back) ↔ Hides word front ∨ Hides word back := by
  obtain ⟨hhead, hrest⟩ := hpiece
  have hsplit := List.takeWhile_append_dropWhile (p := (· == '[')) (l := piece)
  have hopens : ∀ c ∈ piece.takeWhile (· == '['), c = '[' := fun c hc =>
    by simpa using List.mem_takeWhile_imp hc
  generalize piece.takeWhile (· == '[') = opens at *
  generalize piece.dropWhile (· == '[') = rest at *
  subst hsplit
  cases rest with
  | nil => simp at hhead
  | cons e rest =>
      have hsame : front ++ (opens ++ e :: rest) ++ back =
          front ++ opens ++ e :: (rest ++ back) := by simp
      rw [hsame]
      constructor
      · rintro ⟨text, htext, hin⟩
        have he : e ∉ text := by
          intro hmem
          rcases htext.chars e hmem with hmem | rfl | rfl
          · exact hrest e List.mem_cons_self (List.mem_append_left "[".toList (hword hmem))
          · exact hrest '[' List.mem_cons_self (by decide)
          · simp at hhead
        rcases infix_of_infix_append_cons he hin with hin | hin
        · refine .inl ⟨text, htext, infix_of_last hin fun c hc hmem => ?_⟩
          obtain rfl := hopens c hmem
          rcases htext.last hc with hmem | hbracket
          · exact absurd (hword hmem) (by decide)
          · cases hbracket
        · refine .inr ⟨text, htext, infix_of_head hin fun c hc hmem => ?_⟩
          refine hrest c (List.mem_cons_of_mem _ hmem) ?_
          rcases htext.head hc with hmem | rfl
          · exact List.mem_append_left "[".toList (hword hmem)
          · decide
      · rintro (h | h)
        · exact h.of_infix ⟨[], opens ++ e :: (rest ++ back), by simp⟩
        · exact h.of_infix ⟨front ++ opens ++ e :: rest, [], by simp⟩

theorem hides_marker (hmem : marker ∈ defangMarkers) (hword : word ⊆ ":/".toList) :
    Hides word (front ++ marker.1 ++ back) ↔ Hides word (front ++ marker.2 ++ back) := by
  have hbrackets : ∀ c ∈ word, c ≠ '[' ∧ c ≠ ']' := fun c hc =>
    (by decide : ∀ c ∈ ":/".toList, c ≠ '[' ∧ c ≠ ']') c (hword hc)
  have hpair : ∀ d, d ≠ '[' → d ≠ ']' → (Hides word (front ++ ['[', d, ']'] ++ back) ↔
      Hides word (front ++ [d] ++ back)) := by
    intro d hopen hclose
    have hwrapped : front ++ ['[', d, ']'] ++ back = front ++ ['['] ++ d :: (']' :: back) := by simp
    rw [hwrapped, List.append_assoc front [d], List.singleton_append]
    exact ⟨hides_unwrap hbrackets hopen hclose, hides_wrap hopen hclose⟩
  rcases marker_cases marker hmem with rfl | rfl | ⟨hmarker, hrepl⟩
  · exact hpair ':' (by decide) (by decide)
  · exact hpair '/' (by decide) (by decide)
  · rw [hides_apart hmarker hword, hides_apart hrepl hword]

theorem hides_replaceMarker (hmem : marker ∈ defangMarkers) (hword : word ⊆ ":/".toList)
    (hascii : isascii out = true) (h : rt.replaceMarker marker.1 marker.2 out = some text) :
    Hides word (out.map asciiLower) ↔ Hides word (text.map asciiLower) := by
  refine replaceMarker_induction hmem
    (motive := fun out text => Hides word (out.map asciiLower) ↔ Hides word (text.map asciiLower))
    (fun _ _ _ => Iff.rfl) (fun front found back text hascii hfound ih => ?_) hascii h
  simp only [isascii_append] at hascii
  rw [← ih]
  simp only [List.map_append, map_of_spells hfound.spells hascii.1.2, (repl_chars marker hmem).2]
  exact hides_marker hmem hword

theorem hides_replaceMarkers (hsub : markers ⊆ defangMarkers) (hword : word ⊆ ":/".toList)
    (hascii : isascii out = true) (h : replaceMarkers rt markers out = some text) :
    Hides word (out.map asciiLower) ↔ Hides word (text.map asciiLower) := by
  induction markers generalizing out with
  | nil =>
      cases h
      exact Iff.rfl
  | cons marker rest ih =>
      have hmem := hsub List.mem_cons_self
      obtain ⟨next, hnext, hnextAscii⟩ := replaceMarker_ascii rt hmem hascii
      rw [replaceMarkers_cons, hnext] at h
      rw [hides_replaceMarker hmem hword hascii hnext]
      exact ih (fun _ h => hsub (List.mem_cons_of_mem _ h)) hnextAscii h

theorem absent_replaceMarker (hmem : marker ∈ defangMarkers) (hrepl : ∀ c ∈ marker.2, c ∉ piece)
    (hascii : isascii out = true) (h : rt.replaceMarker marker.1 marker.2 out = some text)
    (habsent : ¬ piece <:+: out.map asciiLower) : ¬ piece <:+: text.map asciiLower := by
  have hnonempty : ∀ marker ∈ defangMarkers, marker.2 ≠ [] := by decide
  obtain ⟨e, rest, heq⟩ := List.exists_cons_of_ne_nil (hnonempty marker hmem)
  refine replaceMarker_induction hmem (motive := fun out text =>
    ¬ piece <:+: out.map asciiLower → ¬ piece <:+: text.map asciiLower)
    (fun _ _ _ habsent => habsent) (fun front found back text hascii hfound ih habsent => ?_)
    hascii h habsent
  refine ih fun hin => habsent ?_
  have hsplit : (front ++ marker.2 ++ back).map asciiLower =
      front.map asciiLower ++ e :: (rest ++ back.map asciiLower) := by
    rw [List.map_append, List.map_append, (repl_chars marker hmem).2, heq]
    simp
  rw [hsplit] at hin
  rcases infix_of_infix_append_cons (hrepl e (heq ▸ List.mem_cons_self)) hin with hin | hin
  · apply hin.trans
    rw [List.append_assoc, List.map_append]
    exact (List.prefix_append _ _).isInfix
  · have hback : piece <:+: back.map asciiLower := infix_of_head hin fun c hc hmem =>
      hrepl c (heq ▸ List.mem_cons_of_mem _ hmem) (List.mem_of_head? hc)
    apply hback.trans
    rw [List.map_append]
    exact (List.suffix_append _ _).isInfix

theorem absent_replaceMarkers (hsub : markers ⊆ defangMarkers)
    (hrepl : ∀ marker ∈ markers, ∀ c ∈ marker.2, c ∉ piece) (hascii : isascii out = true)
    (h : replaceMarkers rt markers out = some text) (habsent : ¬ piece <:+: out.map asciiLower) :
    ¬ piece <:+: text.map asciiLower := by
  induction markers generalizing out with
  | nil =>
      cases h
      exact habsent
  | cons marker rest ih =>
      have hmem := hsub List.mem_cons_self
      obtain ⟨next, hnext, hnextAscii⟩ := replaceMarker_ascii rt hmem hascii
      rw [replaceMarkers_cons, hnext] at h
      exact ih (fun _ h => hsub (List.mem_cons_of_mem _ h))
        (fun other hother => hrepl other (List.mem_cons_of_mem _ hother)) hnextAscii h
        (absent_replaceMarker hmem (hrepl marker List.mem_cons_self) hascii hnext habsent)

theorem marker_absent (marker : Str × Str) (before after : List (Str × Str))
    (hsplit : defangMarkers = before ++ marker :: after)
    (hafter : ∀ other ∈ after, ∀ c ∈ other.2, c ∉ marker.1) (hascii : isascii out = true)
    (h : replaceMarkers rt defangMarkers out = some text) :
    ¬ marker.1 <:+: text.map asciiLower := by
  have hmem : marker ∈ defangMarkers := hsplit ▸ by simp
  have hsubBefore : before ⊆ defangMarkers := fun other hother => hsplit ▸ by simp [hother]
  have hsubAfter : after ⊆ defangMarkers := fun other hother => hsplit ▸ by simp [hother]
  rw [hsplit, replaceMarkers_append] at h
  obtain ⟨first, hfirst, h⟩ := Option.bind_eq_some_iff.mp h
  have hfirstAscii := isascii_replaceMarkers hsubBefore hascii hfirst
  obtain ⟨next, hnext, hnextAscii⟩ := replaceMarker_ascii rt hmem hfirstAscii
  rw [replaceMarkers_cons, hnext] at h
  refine absent_replaceMarkers hsubAfter hafter hnextAscii h ?_
  exact replaceMarker_induction hmem (motive := fun _ text => ¬ marker.1 <:+: text.map asciiLower)
    (fun _ _ hnone => hnone) (fun _ _ _ _ _ _ ih => ih) hfirstAscii hnext

theorem infix_lower_iff {s : Str} (hpiece : piece ⊆ ":/[]".toList) :
    piece <:+: s.map asciiLower ↔ piece <:+: s := by
  have hchars : ∀ c ∈ ":/[]".toList, isAsciiLower c = false ∧ asciiLower c = c := by decide
  have hself : piece.map asciiLower = piece :=
    (List.map_congr_left fun c hc => (hchars c (hpiece hc)).2).trans (List.map_id _)
  constructor
  · intro hin
    obtain ⟨whole, hwhole, rfl⟩ := List.infix_map_iff.mp hin
    have hsame : whole.map asciiLower = whole := (List.map_congr_left fun c hc =>
      (eq_of_asciiLower (hchars _ (hpiece (List.mem_map_of_mem hc))).1 rfl).symm).trans
        (List.map_id _)
    rwa [hsame]
  · intro hin
    have hlower := hin.map asciiLower
    rwa [hself] at hlower

theorem Wrapped.subset (h : Wrapped word text) (hword : word ⊆ ":/".toList) :
    text ⊆ ":/[]".toList := by
  intro c hc
  rcases h.chars c hc with hmem | rfl | rfl
  · exact List.mem_append_left "[]".toList (hword hmem)
  · decide
  · decide

/-- A word of colons and slashes is in what the markers make of a text when the text hides
it. -/
theorem infix_replaceMarkers_iff (hword : word ⊆ ":/".toList) (hascii : isascii out = true)
    (h : replaceMarkers rt defangMarkers out = some text) : word <:+: text ↔ Hides word out := by
  have hlower : ∀ s, Hides word (s.map asciiLower) ↔ Hides word s := fun s =>
    exists_congr fun piece => and_congr_right fun hpiece =>
      infix_lower_iff (hpiece.subset hword)
  rw [← hlower out, hides_replaceMarkers (List.Subset.refl _) hword hascii h]
  constructor
  · intro hin
    refine ⟨word, .self word, (infix_lower_iff fun c hc => ?_).mpr hin⟩
    exact List.mem_append_left "[]".toList (hword hc)
  · rintro ⟨piece, hpiece, hin⟩
    have hsame : piece = word := hpiece.eq_of_bare fun c hc hbrackets => by
      have habsent : ¬ ['[', c, ']'] <:+: text.map asciiLower := by
        have hc := hword hc
        simp only [String.reduceToList, List.mem_cons, List.not_mem_nil, or_false] at hc
        rcases hc with rfl | rfl
        · exact marker_absent ("[:]", ":") (defangMarkers.take 4) (defangMarkers.drop 5) rfl
            (by decide) hascii h
        · exact marker_absent ("[/]", "/") (defangMarkers.take 5) (defangMarkers.drop 6) rfl
            (by decide) hascii h
      exact habsent (hbrackets.trans hin)
    rw [hsame] at hin
    exact (infix_lower_iff fun c hc => List.mem_append_left "[]".toList (hword hc)).mp hin

end Markers

end OpenctiLookup
