import OpenctiLookup.Opencti.Events
import OpenctiLookup.UrlParts

/-! A value put through `normalize` once more. The cache keeps it under one key exactly
when the first pass left nothing for the second to do. -/
namespace OpenctiLookup
open Python

section Claim

variable {rt : Runtime} {skipPrivate : Bool} {skipTlds : List Str} {raw : Str}
variable {value : Normalized}

/-- What `_defang` makes of a value leaves nothing for a second pass to do: the scope of
an address and the host of a domain end in nothing to strip and hold no marker, and the
parts of a URL read back. -/
def OnePass (rt : Runtime) (cleaned : Str) : Prop :=
  match IpAddress.parse (bareText rt cleaned) with
  | some (.v6 _ (some scope)) => EndsPlain scope ∧ Unmarked rt scope
  | some _ => True
  | none =>
      if isHash cleaned then True
      else if isUrl cleaned then
        ∀ parts hostname port, UrlReads rt cleaned parts hostname port →
          UrlSettled rt parts hostname port
      else EndsPlain (domainHost rt cleaned) ∧ Unmarked rt (domainHost rt cleaned)

/-- Normalized once more, the value is looked up under the same type and value. -/
def Repeats (rt : Runtime) (skipPrivate : Bool) (skipTlds : List Str) (value : Normalized) : Prop :=
  Returns (normalize rt skipPrivate skipTlds value.value) fun again =>
    again.lookupable = true ∧ again.type = value.type ∧ again.value = value.value

theorem lookupable_of_address (text : Str) (ip : IpAddress) :
    (Normalized.mk text text (addressType ip) none).lookupable = true := by
  have hknown : addressType ip ≠ .unknown := by
    unfold addressType
    split <;> decide
  simpa [Normalized.lookupable] using hknown

theorem repeats_of_onePass (hnorm : normalize rt skipPrivate skipTlds raw = .ok value)
    (hlookupable : value.lookupable = true)
    (hone : ∀ cleaned, defang rt raw = some cleaned → OnePass rt cleaned) :
    Repeats rt skipPrivate skipTlds value := by
  obtain ⟨cleaned, hdefang, hclassified⟩ := classified_of_normalize hnorm hlookupable
  unfold Repeats
  have hone := hone cleaned hdefang
  unfold OnePass at hone
  cases hclassified with
  | address ip hparse hskip =>
      rw [hparse] at hone
      have hundefanged : Undefanged rt ip.compressed := by
        match ip with
        | .v4 ip => exact undefanged_v4 ip
        | .v6 base none => exact undefanged_v6 base
        | .v6 base (some scope) =>
            obtain ⟨-, hne, -⟩ := IpAddress.scope_of_parse hparse
            exact undefanged_scoped hne hone.1 hone.2
      rw [normalize_address hparse hundefanged, hskip]
      exact .ok ⟨lookupable_of_address _ ip, rfl, rfl⟩
  | digest kind hparse hlength hhex =>
      have hdigest : IsDigest kind cleaned := by
        obtain ⟨body, tail, rfl, hbody, htail⟩ := mem_hexPattern hhex
        rcases htail with rfl | rfl
        · rw [List.append_nil] at hlength ⊢
          exact ⟨hlength, hbody⟩
        · have hnewline := (trimmed_of_defang hdefang).2 '\n' List.getLast?_concat
          cases hnewline
      rw [normalize_digest hdigest.lower]
      refine .ok ⟨hlookupable, rfl, ?_⟩
      rw [hdigest.lower.lower_eq, hdigest.lower_eq]
      exact map_asciiLower_of_lower
  | url text host hparse hhash hurl hnormalize htld =>
      rw [hparse, hhash, hurl] at hone
      obtain ⟨parts, hostname, port, hreads, rfl, rfl⟩ := normalizeUrl_eq_some_iff.mp hnormalize
      rw [← urlText, normalize_url hreads (hone parts hostname port hreads) htld]
      exact .ok ⟨rfl, rfl, rfl⟩
  | domain hparse hhash hurl hmatch htld hextension =>
      rw [hparse, hhash, hurl] at hone
      rw [normalize_domain hmatch hone.1 hone.2 htld hextension]
      exact .ok ⟨rfl, rfl, rfl⟩

theorem onePass_of_repeats (hnorm : normalize rt skipPrivate skipTlds raw = .ok value)
    (hlookupable : value.lookupable = true) (hurl : value.type ≠ .url)
    (hscope : '%' ∉ value.value) (h : Repeats rt skipPrivate skipTlds value) :
    ∀ cleaned, defang rt raw = some cleaned → OnePass rt cleaned := by
  obtain ⟨cleaned, hdefang, hclassified⟩ := classified_of_normalize hnorm hlookupable
  intro other hother
  cases hdefang.symm.trans hother
  unfold OnePass
  cases hclassified with
  | address ip hparse hskip =>
      rw [hparse]
      match ip with
      | .v4 ip => trivial
      | .v6 base none => trivial
      | .v6 base (some scope) =>
          rw [compressed_scoped] at hscope
          exact absurd (by simp) hscope
  | digest kind hparse hlength hhex =>
      have hhash : isHash cleaned = true := by rw [isHash, hlength, hhex]; rfl
      rw [hparse, hhash]
      trivial
  | url text host hparse hhash hmark hnormalize htld => exact absurd rfl hurl
  | domain hparse hhash hmark hmatch htld hextension =>
      rw [hparse, hhash, hmark]
      exact plain_of_domain_again hmatch h

/-- A value whose first pass left nothing to do is normalized to itself, and outside URLs
and scoped addresses no other is. -/
theorem normalize_again (hnorm : normalize rt skipPrivate skipTlds raw = .ok value)
    (hlookupable : value.lookupable = true) :
    ((∀ cleaned, defang rt raw = some cleaned → OnePass rt cleaned) →
        Repeats rt skipPrivate skipTlds value) ∧
      (value.type ≠ .url → '%' ∉ value.value → Repeats rt skipPrivate skipTlds value →
        ∀ cleaned, defang rt raw = some cleaned → OnePass rt cleaned) :=
  ⟨repeats_of_onePass hnorm hlookupable, onePass_of_repeats hnorm hlookupable⟩

end Claim

section Sample

set_option maxRecDepth 10000 in
theorem defang_evil : defang sampleRuntime "http://evil.com/x#f" =
    some "http://evil.com/x#f".toList := rfl

def partsOfEvil : SplitResult := ⟨"http", "evil.com", "/x", "", "f"⟩

theorem urlSettled_evil : UrlSettled sampleRuntime partsOfEvil "evil.com" none where
  separator := .inl (by decide)
  ending c hc := by
    obtain rfl : 'x' = c := Option.some.inj hc
    decide
  unmarked := by
    unfold Unmarked
    decide
  host_ne := by decide
  delimited := List.all_iff_forall_prop.mp (by decide)
  refused hascii := by cases hascii

set_option maxRecDepth 10000 in
theorem onePass_evil : OnePass sampleRuntime "http://evil.com/x#f" := by
  have hparse : IpAddress.parse (bareText sampleRuntime "http://evil.com/x#f") = none := rfl
  have hsplit : urlsplit sampleRuntime (candidate "http://evil.com/x#f") = some partsOfEvil := rfl
  unfold OnePass
  rw [hparse]
  refine fun parts hostname port hreads => ?_
  cases hsplit.symm.trans hreads.split
  have hhost : partsOfEvil.hostname sampleRuntime = some "evil.com".toList := rfl
  cases hhost.symm.trans hreads.hostname
  have hport : partsOfEvil.port = some none := rfl
  cases hport.symm.trans hreads.port
  exact urlSettled_evil

set_option maxRecDepth 10000 in
theorem normalize_evil_fragment : normalize sampleRuntime true [] "http://evil.com/x#f" =
    .ok ⟨"http://evil.com/x#f", "http://evil.com/x", .url, none⟩ := rfl

/-- A URL that loses its fragment and nothing else. -/
theorem normalize_again_evil : Repeats sampleRuntime true []
    ⟨"http://evil.com/x#f", "http://evil.com/x", .url, none⟩ :=
  (normalize_again normalize_evil_fragment rfl).1 fun cleaned hdefang => by
    cases defang_evil.symm.trans hdefang
    exact onePass_evil

set_option maxRecDepth 10000 in
/-- Without its fragment the URL ends in a quote, and without the quote it is another. -/
theorem fragment_hides_quote :
    ¬ ∀ (rt : Runtime) (skipPrivate : Bool) (skipTlds : List Str) (raw : Str) (value : Normalized),
      normalize rt skipPrivate skipTlds raw = .ok value → value.lookupable = true →
        Repeats rt skipPrivate skipTlds value := by
  intro hall
  obtain ⟨again, hnorm, -, -, hvalue⟩ := hall sampleRuntime true [] "http://evil.com/x'#f"
    ⟨"http://evil.com/x'#f", "http://evil.com/x'", .url, none⟩ rfl rfl
  have hagain : normalize sampleRuntime true [] "http://evil.com/x'" =
      .ok ⟨"http://evil.com/x'", "http://evil.com/x", .url, none⟩ := rfl
  cases hagain.symm.trans hnorm
  exact absurd hvalue (by decide)

end Sample

end OpenctiLookup
