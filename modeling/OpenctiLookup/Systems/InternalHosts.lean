import OpenctiLookup.Classify
import OpenctiLookup.Systems.UrlHosts

/-! Hosts that are never looked up by themselves. A URL is turned away for the last label
of its host and for nothing else, so the address of an internal host goes through. -/
namespace OpenctiLookup
open Python

def internalReasons : List Str :=
  ["private_ip", "loopback_ip", "link_local_ip", "multicast_ip", "unspecified_ip", "reserved_ip",
    "skipped_tld"]

def Normalized.Internal (value : Normalized) : Prop :=
  ∃ reason ∈ internalReasons, value.skipReason = some reason

section Hosts

variable (rt : Runtime) (skipPrivate : Bool) (skipTlds : List Str) (host : Str)

/-- The host is an address that is not public, and such addresses are skipped. -/
def InternalAddress : Prop :=
  skipPrivate = true ∧ ∃ cleaned, defang rt host = some cleaned ∧ cleaned ≠ [] ∧
    ∃ ip, IpAddress.parse (bareText rt cleaned) = some ip ∧ (isSkippableIp ip).isSome = true

def nameOf (cleaned : Str) : Option Str :=
  if isUrl cleaned then (normalizeUrl rt cleaned).map Prod.snd
  else if domainPattern.isMatch (domainHost rt cleaned) then some (domainHost rt cleaned)
  else none

/-- The host is a name under a last label that is skipped. -/
def InternalName : Prop :=
  ∃ cleaned, defang rt host = some cleaned ∧ cleaned ≠ [] ∧
    IpAddress.parse (bareText rt cleaned) = none ∧ isHash cleaned = false ∧
      ∃ name, nameOf rt cleaned = some name ∧ lastLabel name ∈ skipTlds

end Hosts

section Claim

variable {rt : Runtime} {skipPrivate : Bool} {skipTlds : List Str} {raw cleaned host : Str}
variable {value : Normalized}

theorem reason_of_isSkippableIp {ip : IpAddress} {reason : Str}
    (h : isSkippableIp ip = some reason) : reason ∈ internalReasons := by
  unfold isSkippableIp at h
  repeat' split at h
  all_goals cases h
  all_goals decide

theorem internal_other_iff :
    (classifyText.other rt raw cleaned skipTlds).Internal ↔
      ∃ name, nameOf rt cleaned = some name ∧ lastLabel name ∈ skipTlds := by
  have hnone : ∀ text kind, ¬ (Normalized.mk raw text kind none).Internal := by
    rintro text kind ⟨reason, -, hreason⟩
    cases hreason
  have hskipped : ∀ text kind, (Normalized.mk raw text kind (some "skipped_tld")).Internal :=
    fun text kind => ⟨"skipped_tld", by decide, rfl⟩
  have hother : ∀ text kind, ∀ reason ∈ (["unparseable_url".toList, "looks_like_filename".toList,
      "unclassified".toList] : List Str),
      ¬ (Normalized.mk raw text kind (some reason)).Internal := by
    rintro text kind reason hreason ⟨other, hother, heq⟩
    cases heq
    revert hother
    simp only [List.mem_cons, List.not_mem_nil, or_false] at hreason
    rcases hreason with rfl | rfl | rfl <;> decide
  rw [other_eq, nameOf]
  by_cases hurl : isUrl cleaned = true
  · rw [if_pos hurl, if_pos hurl]
    cases normalizeUrl rt cleaned with
    | none => simpa using hother _ _ _ (by simp)
    | some parsed =>
        dsimp only [Option.map_some]
        by_cases htld : lastLabel parsed.2 ∈ skipTlds
        · rw [if_pos htld]
          exact iff_of_true (hskipped _ _) ⟨_, rfl, htld⟩
        · rw [if_neg htld]
          simpa [htld] using hnone _ _
  · rw [if_neg hurl, if_neg hurl]
    by_cases hmatch : domainPattern.isMatch (domainHost rt cleaned) = true
    · rw [if_pos hmatch, if_pos hmatch]
      by_cases htld : lastLabel (domainHost rt cleaned) ∈ skipTlds
      · rw [if_pos htld]
        exact iff_of_true (hskipped _ _) ⟨_, rfl, htld⟩
      · rw [if_neg htld]
        split
        · simpa [htld] using hother _ _ _ (by simp)
        · simpa [htld] using hnone _ _
    · rw [if_neg hmatch, if_neg hmatch]
      simpa using hother _ _ _ (by simp)

theorem internal_classify_iff (hne : cleaned ≠ []) :
    (classify rt skipPrivate skipTlds raw cleaned).Internal ↔
      (skipPrivate = true ∧ ∃ ip, IpAddress.parse (bareText rt cleaned) = some ip ∧
        (isSkippableIp ip).isSome = true) ∨
      IpAddress.parse (bareText rt cleaned) = none ∧ isHash cleaned = false ∧
        ∃ name, nameOf rt cleaned = some name ∧ lastLabel name ∈ skipTlds := by
  have hbare : unpadQuad rt (stripChars "[]" cleaned) = bareText rt cleaned := rfl
  rw [classify, if_neg (by simpa using hne), hbare]
  cases IpAddress.parse (bareText rt cleaned) with
  | some ip =>
      cases skipPrivate with
      | false => simp [Normalized.Internal]
      | true =>
          cases hreason : isSkippableIp ip with
          | none => simp [Normalized.Internal, hreason]
          | some reason =>
              simp [Normalized.Internal, hreason, reason_of_isSkippableIp hreason]
  | none =>
      dsimp only
      rw [classifyText_eq, isHash]
      cases hashByLength cleaned.length with
      | none => simp [internal_other_iff]
      | some kind =>
          by_cases hhex : hexPattern.isMatch cleaned = true
          · simp [hhex, Normalized.Internal]
          · simp [hhex, internal_other_iff]

theorem defang_of_blank (h : (strip raw).isEmpty = true) : defang rt raw = some [] := by
  have hlower : rt.lower [] = [] := rfl
  have hnone : (defangMarkers.any fun marker => isIn marker.1 []) = false := by decide
  unfold defang
  rw [List.isEmpty_iff.mp h]
  change Option.map _ (if defangMarkers.any (fun marker => isIn marker.1 (rt.lower [])) then _
    else some []) = _
  rw [hlower, hnone]
  rfl

/-- A host is skipped by itself as an address or as a name. -/
theorem internal_iff :
    (Returns (normalize rt skipPrivate skipTlds host) Normalized.Internal) ↔
      InternalAddress rt skipPrivate host ∨ InternalName rt skipTlds host := by
  have hblank : ∀ original text, ¬ (Normalized.mk original text .unknown (some "empty")).Internal ∧
      ¬ (Normalized.mk original text .unknown (some "empty_after_defang")).Internal := by
    intro original text
    constructor <;>
    · rintro ⟨reason, hreason, heq⟩
      cases heq
      revert hreason
      decide
  unfold InternalAddress InternalName normalize
  by_cases hempty : (strip host).isEmpty = true
  · rw [if_pos hempty, defang_of_blank hempty]
    apply iff_of_false
    · rintro ⟨value, hvalue, hinternal⟩
      cases hvalue
      exact (hblank _ _).1 hinternal
    · rintro (⟨-, cleaned, hcleaned, hne, -⟩ | ⟨cleaned, hcleaned, hne, -⟩) <;>
      · cases hcleaned
        exact hne rfl
  · rw [if_neg hempty]
    cases hdefang : defang rt host with
    | none =>
        apply iff_of_false
        · rintro ⟨value, hvalue, -⟩
          cases hvalue
        · simp
    | some cleaned =>
        have hreturns : Returns (.ok (classify rt skipPrivate skipTlds host cleaned))
            Normalized.Internal ↔ (classify rt skipPrivate skipTlds host cleaned).Internal := by
          constructor
          · rintro ⟨value, hvalue, hinternal⟩
            cases hvalue
            exact hinternal
          · exact fun hinternal => .ok hinternal
        dsimp only
        rw [hreturns]
        by_cases hne : cleaned = []
        · subst hne
          apply iff_of_false
          · exact (hblank _ _).2
          · simp
        · rw [internal_classify_iff hne]
          simp [hne]

/-- A URL is skipped for its host exactly when the last label of the host is skipped, or
the host by itself is neither an address nor a name to skip. -/
theorem internal_host_skipped_iff (hnorm : normalize rt skipPrivate skipTlds raw = .ok value)
    (htype : value.type = .url) :
    ∃ host, hostnameOf rt raw = some host ∧
      ((Returns (normalize rt skipPrivate skipTlds host) Normalized.Internal →
          value.skipReason ≠ none) ↔
        lastLabel host ∈ skipTlds ∨
          ¬ InternalAddress rt skipPrivate host ∧ ¬ InternalName rt skipTlds host) ∧
      (value.skipReason ≠ none → ∀ (settings : Settings) (client : Client) (now mono : ℚ)
        (backend : SplitBackend), backend.lookup rt settings client now mono value =
          .ok (⟨miss, "skip"⟩, backend)) := by
  obtain ⟨cleaned, hdefang, rfl⟩ := classify_of_normalize hnorm (by simp [htype])
  obtain ⟨-, -, hother⟩ := classify_eq_other (.inl htype)
  rw [hother] at htype ⊢
  obtain ⟨text, host, -, hnormalize, heq⟩ := other_of_url htype
  have hhost : hostnameOf rt raw = some host := by
    simp [hostnameOf, hdefang, hnormalize]
  rw [heq]
  refine ⟨host, hhost, ?_, ?_⟩
  · rw [internal_iff, ← not_or]
    unfold skipOf
    by_cases htld : lastLabel host ∈ skipTlds
    · simp [htld]
    · simp [htld]
  · intro hskip settings client now mono backend
    have hlookupable : (Normalized.mk raw text .url (skipOf skipTlds host)).lookupable = false := by
      rw [Normalized.lookupable,
        Option.isNone_eq_false_iff.mpr (Option.isSome_iff_ne_none.mpr hskip)]
      rfl
    rw [SplitBackend.lookup, if_pos (by simp [hlookupable])]

end Claim

section Sample

set_option maxRecDepth 10000 in
theorem normalize_internal : normalize sampleRuntime true [] "http://10.0.0.1/x" =
    .ok ⟨"http://10.0.0.1/x", "http://10.0.0.1/x", .url, none⟩ := rfl

set_option maxRecDepth 10000 in
theorem internal_host : Returns (normalize sampleRuntime true [] "10.0.0.1")
    Normalized.Internal := by
  have hnorm : normalize sampleRuntime true [] "10.0.0.1" =
      .ok ⟨"10.0.0.1", "10.0.0.1", .ipv4, some "private_ip"⟩ := rfl
  rw [hnorm]
  exact .ok ⟨"private_ip", by decide, rfl⟩

set_option maxRecDepth 10000 in
theorem normalize_local : normalize sampleRuntime true ["local"] "http://host.local/x" =
    .ok ⟨"http://host.local/x", "http://host.local/x", .url, some "skipped_tld"⟩ := rfl

/-- The URL of a name under a skipped label is skipped. -/
theorem internal_host_skipped_local :
    ∃ host, hostnameOf sampleRuntime "http://host.local/x" = some host ∧
      (Returns (normalize sampleRuntime true ["local"] host) Normalized.Internal →
        (Normalized.mk "http://host.local/x" "http://host.local/x" .url
          (some "skipped_tld")).skipReason ≠ none) := by
  obtain ⟨host, hhost, hiff, -⟩ := internal_host_skipped_iff normalize_local rfl
  have hlocal : hostnameOf sampleRuntime "http://host.local/x" = some "host.local".toList := rfl
  cases hhost.symm.trans hlocal
  exact ⟨_, hlocal, hiff.mpr (.inl (by decide))⟩

/-- A private address is not looked up by itself, and is in a URL. -/
theorem private_url_looked_up : ¬ ∀ (rt : Runtime) (skipPrivate : Bool) (skipTlds : List Str)
    (raw : Str) (value : Normalized), normalize rt skipPrivate skipTlds raw = .ok value →
      value.type = .url → ∃ host, hostnameOf rt raw = some host ∧
        (Returns (normalize rt skipPrivate skipTlds host) Normalized.Internal →
          value.skipReason ≠ none) := by
  intro hall
  obtain ⟨host, hhost, hskipped⟩ := hall sampleRuntime true [] _ _ normalize_internal rfl
  have hinternal : hostnameOf sampleRuntime "http://10.0.0.1/x" = some "10.0.0.1".toList := rfl
  cases hhost.symm.trans hinternal
  exact hskipped internal_host rfl

end Sample

end OpenctiLookup
