import OpenctiLookup.Markers
import OpenctiLookup.Opencti.Events
import OpenctiLookup.Theory.Runs

/-! The marker loop of `_defang` as a system of single replacements. It searches the lower
case and cuts the text, so it ends exactly when the one is never ahead of the other by a
whole marker. -/
namespace OpenctiLookup
open Python Theory

/-- The markers still to go, the one at work first, and the text so far. -/
structure LoopState where
  markers : List (Str × Str)
  out : Str

inductive LoopStep where
  | cut (idx : ℕ)
  | next

variable (rt : Runtime) (raw : Str)

/-- The inner loop replaces what it finds, and the outer one goes on when it finds nothing. -/
inductive LoopState.Step : LoopState → LoopStep → LoopState → Prop
  | cut {marker : Str × Str} {rest : List (Str × Str)} {out : Str} {idx : ℕ} :
      find marker.1 (rt.lower out) = some idx →
      LoopState.Step ⟨marker :: rest, out⟩ (.cut idx) ⟨marker :: rest, cutMarker marker out idx⟩
  | next {marker : Str × Str} {rest : List (Str × Str)} {out : Str} :
      find marker.1 (rt.lower out) = none →
      LoopState.Step ⟨marker :: rest, out⟩ .next ⟨rest, out⟩

/-- The loop of `_defang` on a text, from behind its first strips. -/
def markerLoop : System LoopState LoopStep where
  init s := s = ⟨defangMarkers, stripChars stripSet (strip raw)⟩
  step := LoopState.Step rt

def LoopState.Level (s : LoopState) : LoopStep → Prop
  | .cut idx => ∀ marker ∈ s.markers.head?, ahead (s.out.take idx) < marker.1.length
  | .next => True

/-- Every replacement the loop comes to is level. -/
def StaysLevel : Prop :=
  ∀ trace s, Reaches (markerLoop rt raw) anyStep trace s →
    ∀ step s', (markerLoop rt raw).step s step s' → s.Level step

section Ends

variable {rt raw} {trace : List LoopStep} {s : LoopState} {skipPrivate : Bool}
variable {skipTlds : List Str}

theorem replaceMarkers_step {step : LoopStep} {s' : LoopState} (h : LoopState.Step rt s step s') :
    replaceMarkers rt s.markers s.out = replaceMarkers rt s'.markers s'.out := by
  cases h with
  | cut hfind =>
      dsimp only
      rw [replaceMarkers, replaceMarkers, replaceMarker_some hfind]
  | next hfind =>
      dsimp only
      rw [replaceMarkers, replaceMarker_none hfind]
      rfl

theorem reaches_markers (h : Reaches (markerLoop rt raw) anyStep trace s) :
    s.markers <:+ defangMarkers ∧ replaceMarkers rt s.markers s.out =
      replaceMarkers rt defangMarkers (stripChars stripSet (strip raw)) := by
  apply h.invariant (I := fun s => s.markers <:+ defangMarkers ∧
    replaceMarkers rt s.markers s.out =
      replaceMarkers rt defangMarkers (stripChars stripSet (strip raw)))
  · rintro s rfl
    exact ⟨List.suffix_rfl, rfl⟩
  · rintro s step s' ⟨hsuffix, hsame⟩ - hstep
    refine ⟨?_, (replaceMarkers_step hstep).symm.trans hsame⟩
    cases hstep with
    | cut hfind => exact hsuffix
    | next hfind => exact (List.suffix_cons _ _).trans hsuffix

theorem staysLevel_of_returns {cleaned : Str} (h : defang rt raw = some cleaned) :
    StaysLevel rt raw := by
  intro trace s hreach step s' hstep
  obtain ⟨hsuffix, hsame⟩ := reaches_markers hreach
  rw [defang_eq, ← hsame] at h
  cases hstep with
  | next hfind => trivial
  | @cut marker rest out idx hfind =>
      have hmem : marker ∈ defangMarkers := hsuffix.subset List.mem_cons_self
      obtain ⟨front, found, back, hfound, rfl⟩ := found_of_find hmem hfind
      intro other hother
      obtain rfl : marker = other := by simpa using hother
      rw [ahead_take_iff hfound]
      by_contra hle
      have hnone := replaceMarker_diverges hmem hfound (not_lt.mp hle)
      dsimp only at h
      rw [replaceMarkers, hnone] at h
      cases h

theorem replaceMarkers_returns (hlevel : StaysLevel rt raw) {markers : List (Str × Str)} {out : Str}
    (hreach : ∃ trace, Reaches (markerLoop rt raw) anyStep trace ⟨markers, out⟩) :
    ∃ text, replaceMarkers rt markers out = some text := by
  induction markers generalizing out with
  | nil => exact ⟨out, rfl⟩
  | cons marker rest ih =>
      obtain ⟨trace, hrun⟩ := hreach
      have hmem : marker ∈ defangMarkers :=
        (reaches_markers hrun).1.subset List.mem_cons_self
      obtain ⟨text, htext, hnone, hmore, hdone⟩ := replaceMarker_returns hmem
        (fun out => ∃ trace, Reaches (markerLoop rt raw) anyStep trace ⟨marker :: rest, out⟩)
        (fun out idx hfind ⟨trace, hrun⟩ => ⟨hlevel trace _ hrun _ _ (.cut hfind) marker rfl,
          _, hrun.step trivial (.cut hfind)⟩) ⟨trace, hrun⟩
      obtain ⟨result, hresult⟩ := ih ⟨_, hdone.step trivial (.next hnone)⟩
      refine ⟨result, ?_⟩
      rw [replaceMarkers, htext]
      exact hresult

theorem returns_of_staysLevel (h : StaysLevel rt raw) :
    ∃ cleaned, defang rt raw = some cleaned := by
  obtain ⟨text, htext⟩ := replaceMarkers_returns h ⟨[], .init rfl⟩
  exact ⟨_, by rw [defang_eq, htext]; rfl⟩

/-- No replacement brings in a U+0130, so a text with at most two is level all the way. -/
theorem staysLevel_of_ahead (h : ahead (stripChars stripSet (strip raw)) ≤ 2) :
    StaysLevel rt raw := by
  intro trace s hreach step s' hstep
  have hrepl : ∀ marker ∈ defangMarkers, ahead marker.2 = 0 ∧ 3 ≤ marker.1.length := by decide
  have hkept : s.markers <:+ defangMarkers ∧ ahead s.out ≤ 2 := by
    apply hreach.invariant (I := fun s => s.markers <:+ defangMarkers ∧ ahead s.out ≤ 2)
    · rintro s rfl
      exact ⟨List.suffix_rfl, h⟩
    · rintro s step s' ⟨hsuffix, hle⟩ - hstep
      cases hstep with
      | @cut marker rest out idx hfind =>
          refine ⟨hsuffix, ?_⟩
          have hzero := (hrepl marker (hsuffix.subset List.mem_cons_self)).1
          have htake : ahead (out.take idx) + ahead (out.drop idx) = ahead out := by
            rw [← ahead_append, List.take_append_drop]
          have hdrop : ahead (out.drop (idx + marker.1.length)) ≤ ahead (out.drop idx) := by
            rw [← List.drop_drop]
            exact (List.drop_sublist _ _).count_le _
          dsimp only at hle ⊢
          rw [cutMarker, ahead_append, ahead_append, hzero]
          omega
      | next hfind => exact ⟨(List.suffix_cons _ _).trans hsuffix, hle⟩
  obtain ⟨hsuffix, hle⟩ := hkept
  cases hstep with
  | next hfind => trivial
  | @cut marker rest out idx hfind =>
      intro other hother
      obtain rfl : marker = other := by simpa using hother
      have hthree := (hrepl marker (hsuffix.subset List.mem_cons_self)).2
      have htake : ahead (out.take idx) ≤ ahead out := (List.take_sublist _ _).count_le _
      dsimp only at hle ⊢
      omega

theorem normalize_returns_iff :
    (∃ value, normalize rt skipPrivate skipTlds raw = .ok value) ↔ StaysLevel rt raw := by
  by_cases hempty : (strip raw).isEmpty = true
  · apply iff_of_true
    · exact ⟨_, by rw [normalize, if_pos hempty]⟩
    · apply staysLevel_of_ahead
      rw [List.isEmpty_iff.mp hempty]
      decide
  · have hloop : (∃ cleaned, defang rt raw = some cleaned) ↔ StaysLevel rt raw :=
      ⟨fun ⟨_, h⟩ => staysLevel_of_returns h, returns_of_staysLevel⟩
    rw [← hloop, normalize, if_neg hempty]
    cases defang rt raw with
    | none => simp
    | some cleaned => simp

/-- The loop ends, and `normalize` returns, exactly when the text stays level. -/
theorem marker_loop_ends_iff (rt : Runtime) (skipPrivate : Bool) (skipTlds : List Str) (raw : Str) :
    ((∃ cleaned, defang rt raw = some cleaned) ↔ StaysLevel rt raw) ∧
      ((∃ value, normalize rt skipPrivate skipTlds raw = .ok value) ↔ StaysLevel rt raw) :=
  ⟨⟨fun ⟨_, h⟩ => staysLevel_of_returns h, returns_of_staysLevel⟩, normalize_returns_iff⟩

/-- Three U+0130 in front of a marker: the index found is behind it, so the text there is
replaced and the marker is found again. -/
theorem defang_three_dotted : defang sampleRuntime "\u0130\u0130\u0130[.]a" = none := by
  have hfound : Found sampleRuntime "[.]" "\u0130\u0130\u0130[.]a" "\u0130\u0130\u0130" "[.]"
      "a" := ⟨rfl, .cons rfl (.cons rfl (.cons rfl .nil)), by decide⟩
  have hstart : stripChars stripSet (strip "\u0130\u0130\u0130[.]a") =
      "\u0130\u0130\u0130[.]a".toList := by decide
  rw [defang_eq, hstart, defangMarkers, replaceMarkers,
    replaceMarker_diverges (by decide : (("[.]", ".") : Str × Str) ∈ defangMarkers) hfound
      (by decide)]
  rfl

theorem dotted_marker_diverges : ¬ ∀ (rt : Runtime) (skipPrivate : Bool) (skipTlds : List Str)
    (raw : Str), (∃ cleaned, defang rt raw = some cleaned) ∧
      ∃ value, normalize rt skipPrivate skipTlds raw = .ok value := by
  intro hall
  obtain ⟨⟨cleaned, hcleaned⟩, -⟩ :=
    hall sampleRuntime true [] "\u0130\u0130\u0130[.]a"
  rw [defang_three_dotted] at hcleaned
  cases hcleaned

end Ends

end OpenctiLookup
