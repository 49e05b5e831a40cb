import OpenctiLookup.Classify
import OpenctiLookup.Opencti.Events

/-! A domain name in its canonical form. `normalize` keeps it as it is, unless `_defang`
takes three of its letters for a scheme. -/
namespace OpenctiLookup
open Python

/-- A domain name in lower case that no list of last labels turns away. -/
structure DomainName (skipTlds : List Str) (name : Str) : Prop where
  ascii : isascii name = true
  lower : name.map asciiLower = name
  pattern : domainPattern.isMatch name = true
  tld : lastLabel name ∉ skipTlds
  extension : lastLabel name ∉ fileExtensions

/-- No scheme is spelled in the name, and no newline ends it, as `$` would allow. -/
structure Schemeless (name : Str) : Prop where
  http : ¬ "hxxp".toList <:+: name
  ftp : ¬ "fxp".toList <:+: name
  newline : '\n' ∉ name

variable {rt : Runtime} {settings : Settings} {name : Str}

theorem view_name (h : DomainName settings.skipTlds name) :
    name.flatMap (lowerMask rt) = name := by
  rw [flatMap_lowerMask_of_isascii rt h.ascii, h.lower]

theorem isDomain_of_newline (h : DomainName settings.skipTlds name) (hnewline : '\n' ∉ name) :
    IsDomain name := by
  obtain ⟨body, tail, rfl, hbody, rfl | rfl⟩ := domain_of_isMatch h.pattern
  · simpa using hbody
  · simp at hnewline

theorem unmarked_name (h : DomainName settings.skipTlds name) (hkept : Schemeless name) :
    Unmarked rt name := by
  have hshape : ∀ marker ∈ defangMarkers, "hxxp".toList <:+: marker.1 ∨
      "fxp".toList <:+: marker.1 ∨ marker.1.any (fun c => !isPlain c) = true := by decide
  rw [unmarked_iff, view_name h]
  intro marker hmem hin
  rcases hshape marker hmem with hhttp | hftp | hany
  · exact hkept.http (hhttp.trans hin)
  · exact hkept.ftp (hftp.trans hin)
  · obtain ⟨c, hc, hnot⟩ := List.any_eq_true.mp hany
    have hchars := (isDomain_of_newline h hkept.newline).chars c (hin.subset hc)
    simp [(isLabelChar_or_dot hchars).2.2.1] at hnot

theorem endsPlain_name (h : DomainName settings.skipTlds name) (hnewline : '\n' ∉ name) :
    EndsPlain name := by
  intro c hc
  have hchars := (isDomain_of_newline h hnewline).chars c (List.mem_of_getLast? hc)
  have hplain := (isLabelChar_or_dot hchars).2.2.1
  simp only [isPlain, Bool.and_eq_true, Bool.not_eq_true'] at hplain
  exact hplain.1.1

theorem normalize_name (h : DomainName settings.skipTlds name) (hkept : Schemeless name) :
    settings.normalize rt name = .ok ⟨name, name, .domain, none⟩ :=
  normalize_domain h.pattern (endsPlain_name h hkept.newline) (unmarked_name h hkept) h.tld
    h.extension settings.skipPrivateIps

theorem schemeless_of_kept (h : DomainName settings.skipTlds name)
    (hkept : Returns (settings.normalize rt name) fun value =>
      value.type = .domain ∧ value.value = name) : Schemeless name := by
  obtain ⟨value, hnorm, htype, hvalue⟩ := hkept
  have hlookupable : value.lookupable = true := by
    obtain ⟨cleaned, -, rfl⟩ := classify_of_normalize hnorm (by simp [htype])
    obtain ⟨-, -, heq⟩ := classify_eq_other (.inr htype)
    rw [heq] at htype hvalue ⊢
    obtain ⟨-, -, hother⟩ := other_of_domain htype
    rw [hother] at hvalue ⊢
    obtain rfl : domainHost rt cleaned = name := hvalue
    simp [Normalized.lookupable, skipOf, h.tld]
  obtain ⟨hends, hunmarked⟩ :=
    plain_of_domain_again h.pattern ⟨value, hnorm, hlookupable, htype, hvalue⟩
  rw [unmarked_iff, view_name h] at hunmarked
  refine ⟨hunmarked ("hxxp", "http") (by decide), hunmarked ("fxp", "ftp") (by decide), ?_⟩
  have hdomain := isDomain_of_ends h.pattern hends
  intro hin
  exact absurd (hdomain.chars _ hin) (by decide)

theorem norm_name (h : DomainName settings.skipTlds name) (hkept : Schemeless name) :
    norm rt settings name = .ok (some name) :=
  norm_eq_ok_iff.mpr ⟨_, normalize_name h hkept, rfl⟩

/-- A canonical domain name is kept exactly when no scheme is spelled in it, and two such
names have keys of their own. -/
theorem domain_kept_iff (h : DomainName settings.skipTlds name) :
    (Returns (settings.normalize rt name) (fun value =>
        value.type = .domain ∧ value.value = name) ↔ Schemeless name) ∧
      (Schemeless name → ∀ other, DomainName settings.skipTlds other → Schemeless other →
        name ≠ other →
          (∃ value, settings.normalize rt name = .ok value ∧
            ∃ value', settings.normalize rt other = .ok value' ∧
              value.cacheKey ≠ value'.cacheKey) ∧
          ∃ key, norm rt settings name = .ok (some key) ∧
            ∃ key', norm rt settings other = .ok (some key') ∧ key ≠ key') := by
  constructor
  · refine ⟨schemeless_of_kept h, fun hkept => ?_⟩
    rw [normalize_name h hkept]
    exact .ok ⟨rfl, rfl⟩
  · intro hkept other hother hkept' hne
    constructor
    · refine ⟨_, normalize_name h hkept, _, normalize_name hother hkept', fun heq => hne ?_⟩
      exact (Normalized.cacheKey_injective heq).2
    · exact ⟨name, norm_name h hkept, other, norm_name hother hkept', hne⟩

section Sample

theorem domainName_evil : DomainName [] "evil.com" := by
  constructor <;> decide

theorem schemeless_evil : Schemeless "evil.com" := by
  constructor <;> decide

theorem domain_kept_evil :
    Returns (({ openctiUrl := [], skipTlds := [] } : Settings).normalize sampleRuntime "evil.com")
      fun value => value.type = .domain ∧ value.value = "evil.com".toList :=
  (domain_kept_iff domainName_evil).1.mpr schemeless_evil

/-- The name of one host is looked up as another's. -/
theorem fxp_host_renamed : ¬ ∀ (rt : Runtime) (settings : Settings) (name : Str),
    DomainName settings.skipTlds name → Returns (settings.normalize rt name) fun value =>
      value.type = .domain ∧ value.value = name := by
  intro hall
  have hname : DomainName [] "fxp.example.com" := by
    constructor <;> decide
  have hkept := hall sampleRuntime { openctiUrl := [], skipTlds := [] } "fxp.example.com" hname
  exact absurd (schemeless_of_kept hname hkept).ftp (by decide)

end Sample

end OpenctiLookup
