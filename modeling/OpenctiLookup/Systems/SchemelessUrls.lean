import OpenctiLookup.Bracketed
import OpenctiLookup.Opencti.Events
import OpenctiLookup.UrlText

/-! A URL with and without its scheme. The scheme is put in front of a text without a
`://`, wherever in the text that is. -/
namespace OpenctiLookup
open Python

/-- A host, a path and perhaps a query. -/
structure SchemelessUrl (host path : Str) (query : Option Str) : Prop where
  host : IsHost host
  path_head : path.head? = some '/'
  path_chars : ∀ c ∈ path, isUrlChar c = true
  query_chars : ∀ text ∈ query, ∀ c ∈ text, isUrlChar c = true

/-- Both texts are looked up as the same type and value, or skipped for the same reason. -/
def SameReading (rt : Runtime) (skipPrivate : Bool) (skipTlds : List Str) (raw other : Str) :
    Prop :=
  ∃ value value', normalize rt skipPrivate skipTlds raw = .ok value ∧
    normalize rt skipPrivate skipTlds other = .ok value' ∧
      value.type = value'.type ∧ value.value = value'.value ∧ value.skipReason = value'.skipReason

section Claim

variable {rt : Runtime} {skipPrivate : Bool} {skipTlds : List Str} {host path rest : Str}
variable {query : Option Str} {raw cleaned : Str}

/-- Behind a slash, a colon makes no scheme of what is in front. -/
theorem normalizeUrl_of_late_colon (hhost : ∀ c ∈ host, isHostChar c = true) (hne : host ≠ [])
    (hin : isIn "://" (host ++ '/' :: rest) = true)
    (hprint : ∀ c ∈ rest, isPrintable c = true) : normalizeUrl rt (host ++ '/' :: rest) = none := by
  have hclean : cleanUrl (host ++ '/' :: rest) = host ++ '/' :: rest := by
    apply cleanUrl_of_printable
    simp only [List.mem_append, List.mem_cons]
    rintro c (hc | rfl | hc)
    · exact (isHostChar_cases (hhost c hc)).2.1
    · rfl
    · exact hprint c hc
  have hscheme : (splitScheme (host ++ '/' :: rest)).2 = host ++ '/' :: rest := by
    rcases splitScheme_spec (host ++ '/' :: rest) with ⟨-, h⟩ | ⟨scheme, tail, heq, -, hchars, -⟩
    · exact h
    · have hcolon : ':' ∉ host := fun hmem => absurd (hhost _ hmem) (by decide)
      rcases List.append_eq_append_iff.mp heq with ⟨more, rfl, hmore⟩ | ⟨more, rfl, hmore⟩
      · cases more with
        | nil => cases hmore
        | cons d more =>
            obtain rfl : '/' = d := (List.cons.inj hmore).1
            have hchar := List.all_eq_true.mp hchars '/' (by simp)
            cases hchar
      · cases more with
        | nil => cases hmore
        | cons d more =>
            obtain rfl : ':' = d := (List.cons.inj hmore).1
            exact absurd (by simp) hcolon
  rw [Option.eq_none_iff_forall_ne_some]
  rintro ⟨url, name⟩ hsome
  obtain ⟨parts, hostname, port, hreads, -⟩ := normalizeUrl_eq_some_iff.mp hsome
  have hsplit := hreads.split
  rw [candidate, if_pos hin] at hsplit
  apply netloc_ne_nil hreads.hostname
  rw [(netloc_of_urlsplit hsplit).1, hclean, hscheme]
  obtain ⟨c, host, rfl⟩ := List.exists_cons_of_ne_nil hne
  have hc : c ≠ '/' := by
    rintro rfl
    exact absurd (hhost '/' List.mem_cons_self) (by decide)
  rw [locate, if_neg (by simp [startsWith, hc.symm])]

theorem SchemelessUrl.printable (h : SchemelessUrl host path query) :
    ∀ c ∈ host ++ path ++ queryPart query, isPrintable c = true := by
  simp only [List.mem_append]
  rintro c ((hc | hc) | hc)
  · exact (isHostChar_cases (h.host.chars c hc)).2.1
  · exact (isUrlChar_iff.mp (h.path_chars c hc)).1
  · cases hquery : query with
    | none =>
        rw [hquery] at hc
        cases hc
    | some text =>
        rw [hquery] at hc
        rcases List.mem_cons.mp hc with rfl | hc
        · rfl
        · exact (isUrlChar_iff.mp (h.query_chars text (by simp [hquery]) c hc)).1

theorem scheme_of_defang (h : SchemelessUrl host path query)
    (hdefang : defang rt (host ++ path ++ queryPart query) = some cleaned) :
    isIn "://" cleaned = true ↔
      Hides "://" (rstripChars stripSet (host ++ path ++ queryPart query)) := by
  have hhead : ∀ c, (host ++ path ++ queryPart query).head? = some c →
      stripSet.contains c = false := by
    intro c hc
    rw [List.append_assoc, List.head?_append_of_ne_nil _ h.host.ne_nil] at hc
    exact (isHostChar_cases (h.host.chars c (List.mem_of_head? hc))).2.2.1
  have hascii : isascii (rstripChars stripSet (host ++ path ++ queryPart query)) = true :=
    isascii_of_printable fun c hc => h.printable c (mem_of_mem_rstripChars hc)
  rw [defang_eq, strip_of_printable h.printable, stripChars_of_head hhead] at hdefang
  obtain ⟨text, hreplaced, rfl⟩ := Option.map_eq_some_iff.mp hdefang
  rw [isIn_iff, stripChars, infix_stripBy_iff (by decide),
    infix_replaceMarkers_iff (by decide) hascii hreplaced]

/-- What `_defang` makes of the text, with the scheme in front and without. -/
theorem defang_schemeless (h : SchemelessUrl host path query) :
    ∃ host' rest', (∀ c ∈ host', isHostChar c = true) ∧ host' ≠ [] ∧
      (∀ c ∈ rest', isPrintable c = true) ∧
      defang rt (host ++ path ++ queryPart query) = some (host' ++ '/' :: rest') ∧
      defang rt ("http://".toList ++ (host ++ path ++ queryPart query)) =
        some ("http://".toList ++ (host' ++ '/' :: rest')) := by
  obtain ⟨tail, hpath⟩ := List.head?_eq_some_iff.mp h.path_head
  have hchars := h.host.chars
  have hwhole : host ++ path ++ queryPart query = host ++ '/' :: (tail ++ queryPart query) := by
    rw [hpath]
    simp
  have hright : ∀ c ∈ tail ++ queryPart query, isPrintable c = true := by
    intro c hc
    apply h.printable
    rw [hwhole]
    exact List.mem_append_right _ (List.mem_cons_of_mem _ hc)
  obtain ⟨host', hhost', -⟩ := replaceMarkers_ascii rt (List.Subset.refl defangMarkers)
    (isascii_of_host hchars)
  obtain ⟨hchars', hne'⟩ := host_replaced (List.Subset.refl _) hchars hhost'
  have hstrip : ∀ c ∈ rstripChars stripSet (tail ++ queryPart query), isPrintable c = true :=
    fun c hc => hright c (mem_of_mem_rstripChars hc)
  obtain ⟨rest', hrest', -⟩ := replaceMarkers_ascii rt (List.Subset.refl defangMarkers)
    (isascii_of_printable hstrip)
  have hrestChars : ∀ c ∈ rest', isPrintable c = true :=
    forall_of_replaceMarkers (by decide) (List.Subset.refl _) hstrip hrest'
  refine ⟨host', rstripChars stripSet rest', hchars', hne' h.host.ne_nil,
    fun c hc => hrestChars c (mem_of_mem_rstripChars hc), ?_, ?_⟩
  · have := defang_slashed [] host (tail ++ queryPart query) (by decide)
      (fun c hc => (isHostChar_cases (hchars c hc)).2.1)
      (fun c hc => (isHostChar_cases (hchars c hc)).2.2.2.1) hright
      (fun c hc => (isHostChar_cases (hchars c (List.mem_of_head? hc))).2.2.1)
      (fun c hc => (isHostChar_cases (hchars' c (List.mem_of_head? hc))).2.2.1) hhost' hrest'
    rwa [hwhole]
  · have hhead : ∀ host c, ("http://".toList ++ host).head? = some c →
        stripSet.contains c = false := by
      intro host c hc
      obtain rfl : 'h' = c := Option.some.inj hc
      rfl
    rw [hwhole]
    refine defang_slashed "http://" _ _ (by decide) (fun c hc => ?_)
      (fun c hc => (isHostChar_cases (hchars c hc)).2.2.2.1) hright (hhead host) (hhead host')
      hhost' hrest'
    rcases List.mem_append.mp hc with hc | hc
    · exact (by decide : ∀ c ∈ "http://".toList, isPrintable c = true) c hc
    · exact (isHostChar_cases (hchars c hc)).2.1

/-- The scheme makes no difference exactly when the text hides no `://` of its own, with
none of the stripped characters at its end. -/
theorem schemeless_same_iff (h : SchemelessUrl host path query) :
    SameReading rt skipPrivate skipTlds (host ++ path ++ queryPart query)
        ("http://".toList ++ (host ++ path ++ queryPart query)) ↔
      ¬ Hides "://" (rstripChars stripSet (host ++ path ++ queryPart query)) := by
  obtain ⟨host', rest', hhost, hne, hrest, hdefang, hdefang'⟩ := @defang_schemeless rt _ _ _ h
  have hnorm := normalize_of_slash skipPrivate skipTlds hdefang (by simp)
  have hnorm' := normalize_of_slash skipPrivate skipTlds hdefang' (by simp)
  have hscheme : IsScheme "http" := ⟨by decide, 'h', rfl, rfl⟩
  have hport : ∀ p, (none : Option ℕ) = some p → p ≤ 65535 := nofun
  have hread : normalizeUrl rt ("http://".toList ++ (host' ++ '/' :: rest')) =
      some (urlunsplit ⟨"http", location "http" (host'.map asciiLower) none,
        (partition '?' (partition '#' ('/' :: rest')).1).1,
        (partition '?' (partition '#' ('/' :: rest')).1).2.2, []⟩, host'.map asciiLower) := by
    have hwhole : "http://".toList ++ (host' ++ '/' :: rest') =
        urlOf "http" (hostPort host' none) ('/' :: rest') := by
      simp [urlOf, hostPort]
    have hlower : "http".toList.map asciiLower = "http".toList := by decide
    rw [hwhole, normalizeUrl_urlOf hscheme hhost hne hport (fun c hc => by cases hc; decide)
      (fun c hc => (List.mem_cons.mp hc).elim (fun hc => hc ▸ rfl) (hrest c)), hlower]
  rw [hread] at hnorm'
  rw [← scheme_of_defang h hdefang]
  cases hin : isIn "://" (host' ++ '/' :: rest') with
  | true =>
      rw [normalizeUrl_of_late_colon hhost hne hin hrest] at hnorm
      apply iff_of_false
      · rintro ⟨value, value', hvalue, hvalue', htype, -⟩
        cases hnorm.symm.trans hvalue
        cases hnorm'.symm.trans hvalue'
        cases htype
      · exact fun hnot => hnot rfl
  | false =>
      have hcandidate : normalizeUrl rt (host' ++ '/' :: rest') =
          normalizeUrl rt ("http://".toList ++ (host' ++ '/' :: rest')) := by
        have hscheme : isIn "://" ("http://".toList ++ (host' ++ '/' :: rest')) = true :=
          isIn_iff.mpr ⟨"http", host' ++ '/' :: rest', rfl⟩
        rw [normalizeUrl, normalizeUrl, if_neg (Bool.eq_false_iff.mp hin), if_pos hscheme]
      rw [hcandidate, hread] at hnorm
      exact iff_of_true ⟨_, _, hnorm, hnorm', rfl, rfl, rfl⟩ Bool.noConfusion

end Claim

section Sample

theorem isHost_evil : IsHost "evil.com" where
  labels := ⟨["evil", "com"], by decide, by decide, by decide⟩

theorem schemelessUrl_evil : SchemelessUrl "evil.com" "/r" (some "u=x") :=
  ⟨isHost_evil, rfl, by decide, by simpa using by decide⟩

/-- A text without a colon. -/
theorem schemeless_same_evil : SameReading sampleRuntime true [] "evil.com/r?u=x"
    "http://evil.com/r?u=x" :=
  (schemeless_same_iff schemelessUrl_evil).mpr fun hhides => absurd
    (mem_of_mem_rstripChars (hhides.subset List.mem_cons_self)) (by decide)

set_option maxRecDepth 10000 in
/-- A URL in the query is taken for the scheme of the whole. -/
theorem embedded_url_unparseable : ¬ ∀ (rt : Runtime) (skipPrivate : Bool) (skipTlds : List Str)
    (host path : Str) (query : Option Str), SchemelessUrl host path query →
      SameReading rt skipPrivate skipTlds (host ++ path ++ queryPart query)
        ("http://".toList ++ (host ++ path ++ queryPart query)) := by
  intro hall
  obtain ⟨value, value', hvalue, hvalue', htype, -⟩ := hall sampleRuntime true [] "evil.com" "/r"
    (some "u=http://x") ⟨isHost_evil, rfl, by decide, by simpa using by decide⟩
  have hbare : normalize sampleRuntime true [] "evil.com/r?u=http://x" =
      .ok ⟨"evil.com/r?u=http://x", "evil.com/r?u=http://x", .unknown,
        some "unparseable_url"⟩ := rfl
  have hfull : normalize sampleRuntime true [] "http://evil.com/r?u=http://x" =
      .ok ⟨"http://evil.com/r?u=http://x", "http://evil.com/r?u=http://x", .url, none⟩ := rfl
  cases hbare.symm.trans hvalue
  cases hfull.symm.trans hvalue'
  cases htype

end Sample

end OpenctiLookup
