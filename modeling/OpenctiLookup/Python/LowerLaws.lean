import OpenctiLookup.Python.TextLemmas

/-! What the Unicode tables say about lower case, and that a lowered text is in lower
case. -/
namespace OpenctiLookup.Python

def Lowered (rt : Runtime) (c : Char) : Prop := ∀ s index, rt.lowerChar s c index = [c]

/-- The Kelvin sign is lowered to a letter, and what lowering brings in is in lower case. -/
structure LowerLaws (rt : Runtime) : Prop where
  kelvin : ∀ c, isAscii c = false → isAscii (rt.lowerTable c) = true → rt.lowerTable c = 'k'
  lowered : ∀ s c index, ∀ d ∈ rt.lowerChar s c index, Lowered rt d

section Lower

variable {rt : Runtime} {s : Str} {c : Char}

theorem mem_lower (h : c ∈ rt.lower s) : ∃ d ∈ s, ∃ index, c ∈ rt.lowerChar s d index := by
  obtain ⟨p, hp, hc⟩ := List.mem_flatMap.mp h
  exact ⟨p.1, List.fst_mem_of_mem_zipIdx hp, p.2, hc⟩

theorem LowerLaws.lowered_lower (laws : LowerLaws rt) (h : c ∈ rt.lower s) : Lowered rt c := by
  obtain ⟨d, -, index, hc⟩ := mem_lower h
  exact laws.lowered s d index c hc

theorem lower_of_lowered (h : ∀ c ∈ s, Lowered rt c) : rt.lower s = s := by
  have hchar : ∀ p ∈ s.zipIdx, rt.lowerChar s p.1 p.2 = [p.1] := fun p hp =>
    h p.1 (List.fst_mem_of_mem_zipIdx hp) s p.2
  rw [Runtime.lower, List.flatMap_congr hchar, ← List.map_eq_flatMap]
  exact List.zipIdx_map_fst 0 s

theorem lower_ne_nil (h : s ≠ []) : rt.lower s ≠ [] := by
  intro hnil
  have hmask := map_mask_lower rt s
  rw [hnil] at hmask
  cases s with
  | nil => exact h rfl
  | cons c s =>
      have hempty : lowerMask rt c = [] :=
        (List.append_eq_nil_iff.mp ((List.flatMap_cons).symm.trans hmask.symm)).1
      unfold lowerMask Runtime.lowerChar at hempty
      split at hempty
      · cases hempty
      · split at hempty
        · cases hempty
        · split at hempty <;> cases hempty

theorem LowerLaws.mem_of_mem_lower (laws : LowerLaws rt) (hascii : isAscii c = true)
    (hletter : isAsciiAlpha c = false) (h : c ∈ rt.lower s) : c ∈ s := by
  obtain ⟨d, hd, index, hc⟩ := mem_lower h
  unfold Runtime.lowerChar at hc
  split at hc
  · have hcd := List.mem_singleton.mp hc
    rcases asciiLower_cases d with ⟨-, heq⟩ | ⟨-, hlower⟩
    · rw [hcd, heq]
      exact hd
    · rw [hcd, isAsciiAlpha, hlower] at hletter
      cases hletter
  · rename_i hnot
    split at hc
    · simp only [List.mem_cons, List.not_mem_nil, or_false] at hc
      rcases hc with rfl | rfl
      · cases hletter
      · cases hascii
    · split at hc
      · have hsigma := List.mem_singleton.mp hc
        split at hsigma <;> subst hsigma <;> cases hascii
      · obtain rfl := List.mem_singleton.mp hc
        rw [laws.kelvin d ((Bool.not_eq_true _).mp hnot) hascii] at hletter
        cases hletter

end Lower

/-- Tables that lower nothing outside ASCII keep to the laws. -/
theorem lowerLaws_ofAscii (digests : List (Str × Word)) : LowerLaws (Runtime.ofAscii digests) where
  kelvin c hnot hascii := by
    rw [show (Runtime.ofAscii digests).lowerTable c = c from rfl, hnot] at hascii
    cases hascii
  lowered s c index d hd := by
    have hplain : ∀ d, asciiLower d = d → d ≠ '\u0130' → d ≠ '\u03a3' →
        Lowered (Runtime.ofAscii digests) d := by
      intro d hlower hdotted hsigma t place
      unfold Runtime.lowerChar
      rw [hlower, if_neg hdotted, if_neg hsigma]
      exact ite_self _
    unfold Runtime.lowerChar at hd
    split at hd
    · rename_i hascii
      obtain rfl := List.mem_singleton.mp hd
      have hkept := isAscii_asciiLower hascii
      refine hplain _ (asciiLower_idem c) ?_ ?_ <;>
        (intro heq; rw [heq] at hkept; cases hkept)
    · rename_i hnot
      split at hd
      · simp only [List.mem_cons, List.not_mem_nil, or_false] at hd
        rcases hd with rfl | rfl <;> exact hplain _ (by decide) (by decide) (by decide)
      · rename_i hdotted
        split at hd
        · have hsigma := List.mem_singleton.mp hd
          split at hsigma <;> subst hsigma <;> exact hplain _ (by decide) (by decide) (by decide)
        · rename_i hsigma
          obtain rfl : d = c := List.mem_singleton.mp hd
          refine hplain d ?_ hdotted hsigma
          rcases asciiLower_cases d with ⟨-, heq⟩ | ⟨hupper, -⟩
          · exact heq
          · rw [isAsciiUpper, Bool.and_eq_true, decide_eq_true_iff, decide_eq_true_iff] at hupper
            exact absurd (isAscii_of_le hupper.2 (by decide)) hnot

end OpenctiLookup.Python
