import OpenctiLookup.Defang
import OpenctiLookup.Systems.Prefilter

/-! Files behind the membership set. OpenCTI finds a file under each of its digests,
while the bootstrap pages have the one it displays. -/
namespace OpenctiLookup
open Python Theory

variable {rt : Runtime} {settings : Settings} {now : ℚ}

/-- A file with the digests of some algorithms, one of which it displays. -/
structure Observable.IsFile (observable : Observable rt) : Prop where
  entityType : observable.entityType = .stixFile
  digests : ∀ hash ∈ observable.hashes, ∃ kind : IndicatorType,
    kind.hashAlgorithm = some hash.1 ∧ IsDigest kind hash.2
  displayed : observable.value ∈ observable.hashes.map Prod.snd

def digestRequest (algorithm digest : Str) : LookupRequest :=
  ⟨hashFilter algorithm digest, ["StixFile"]⟩

section Digest

variable {kind : IndicatorType} {algorithm digest : Str}

theorem request_of_hashAlgorithm (h : kind.hashAlgorithm = some algorithm) :
    LiveBackend.request settings digest kind = digestRequest algorithm digest := by
  have htypes : settings.queryTypesFor kind.value = ["StixFile".toList] := by
    cases kind with
    | hashMd5 => rfl
    | hashSha1 => rfl
    | hashSha256 => rfl
    | _ => cases h
  unfold LiveBackend.request digestRequest
  rw [h, htypes]

theorem ne_url_of_hashAlgorithm (h : kind.hashAlgorithm = some algorithm) : kind ≠ .url := by
  rintro rfl
  cases h

theorem lookupable_digest (h : kind.hashAlgorithm = some algorithm) :
    (Normalized.mk digest (rt.lower digest) kind none).lookupable = true := by
  cases kind with
  | hashMd5 => rfl
  | hashSha1 => rfl
  | hashSha256 => rfl
  | _ => cases h

variable {limit : Option ℕ} {corpus : List Str} {upstream : Upstream rt} {backend : SplitBackend}

theorem found_of_findsValue {live : LiveBackend} (huncached : live.cache.data = [])
    {value : Normalized} (hlookupable : value.lookupable = true)
    (hfinds : upstream.FindsValue settings now value) {mono : ℚ} :
    Returns (LiveBackend.lookup rt settings upstream.client now mono live value)
      (fun answer => answer.1.payload.Found) := by
  obtain ⟨payload, hfetch, hsettles⟩ := @fetch_upstream rt settings now upstream value
  rw [← lookup_upstream upstream huncached hlookupable mono] at hfetch
  refine (@returns_map_iff _ _ _ (fun answer : LookupResult × LiveBackend => answer.1.payload)
    Payload.Found).mp ⟨payload, hfetch, hsettles.found_iff.mpr hfinds⟩

theorem found_digest_iff (h : Prefiltered settings limit corpus upstream backend)
    (hkind : kind.hashAlgorithm = some algorithm) (mono : ℚ) :
    Returns (backend.lookup rt settings upstream.client now mono
        ⟨digest, rt.lower digest, kind, none⟩) (fun answer => answer.1.payload.Found) ↔
      Keyed rt settings limit corpus (rt.lower digest) ∧
        upstream.Finds settings now (digestRequest algorithm (rt.lower digest)) := by
  have hhost : LiveBackend.fallbackHost rt settings ⟨digest, rt.lower digest, kind, none⟩ =
      none := by
    rw [LiveBackend.fallbackHost, if_neg fun hurl => ne_url_of_hashAlgorithm hkind hurl.1]
  rw [found_prefiltered_iff h (lookupable_digest hkind), Passes, Upstream.FindsValue, hhost,
    request_of_hashAlgorithm hkind]
  simp

end Digest

section Files

variable {limit : Option ℕ} {corpus : List Str} {upstream : Upstream rt} {backend : SplitBackend}
variable {file : Observable rt}

theorem keyed_displayed (h : Prefiltered settings none corpus upstream backend)
    (hmem : file ∈ upstream.observables) (hfile : file.IsFile) (hhits : file.Hits settings now) :
    Keyed rt settings none corpus (rt.lower file.value) := by
  obtain ⟨hash, hhash, hvalue⟩ := List.mem_map.mp hfile.displayed
  obtain ⟨kind, hkind, hdigest⟩ := hfile.digests hash hhash
  rw [hvalue] at hdigest
  exact keyed_of_norm h hmem hhits
    (norm_eq_ok_iff.mpr ⟨_, normalize_digest hdigest _ _, by rw [if_pos (lookupable_digest hkind)]⟩)

/-- A file is found under all its digests exactly when those it does not display are
keyed all the same, and OpenCTI's first match for each is a hit. -/
theorem file_digests_found_iff (h : Prefiltered settings limit corpus upstream backend)
    (hmem : file ∈ upstream.observables) (hfile : file.IsFile) (hhits : file.Hits settings now)
    (mono : ℚ) :
    (∀ hash ∈ file.hashes, ∃ value, settings.normalize rt hash.2 = .ok value ∧
        Returns (backend.lookup rt settings upstream.client now mono value)
          fun answer => answer.1.payload.Found) ↔
      ∀ hash ∈ file.hashes,
        (limit.isSome = true ∨ rt.lower hash.2 ≠ rt.lower file.value →
          Keyed rt settings limit corpus (rt.lower hash.2)) ∧
        upstream.Finds settings now (digestRequest hash.1 (rt.lower hash.2)) := by
  refine forall₂_congr fun hash hhash => ?_
  obtain ⟨kind, hkind, hdigest⟩ := hfile.digests hash hhash
  have hnorm : settings.normalize rt hash.2 = .ok ⟨hash.2, rt.lower hash.2, kind, none⟩ :=
    normalize_digest hdigest _ _
  have hkeyed : (limit.isSome = true ∨ rt.lower hash.2 ≠ rt.lower file.value →
      Keyed rt settings limit corpus (rt.lower hash.2)) ↔
        Keyed rt settings limit corpus (rt.lower hash.2) := by
    refine ⟨fun himp => ?_, fun hkeyed _ => hkeyed⟩
    by_cases hshown : rt.lower hash.2 = rt.lower file.value
    · cases limit with
      | none => exact hshown ▸ keyed_displayed h hmem hfile hhits
      | some most => exact himp (.inl rfl)
    · exact himp (.inr hshown)
  rw [hkeyed, ← found_digest_iff h hkind mono]
  constructor
  · rintro ⟨value, hvalue, hfound⟩
    cases hnorm.symm.trans hvalue
    exact hfound
  · exact fun hfound => ⟨_, hnorm, hfound⟩

end Files

section Sample

def emptyMd5 : Str := "d41d8cd98f00b204e9800998ecf8427e"

def emptySha256 : Str := "e3b0c44298fc1c149afbf4c8996fb92427ae41e4649b934ca495991b7852b855"

def fileRuntime : Runtime :=
  Runtime.ofAscii [(emptyMd5, 12640292663980354181), (emptySha256, 1048476212847933937)]

def emptyFile (hashes : List (Str × Str)) : Observable fileRuntime where
  id := "file"
  entityType := .stixFile
  value := emptySha256
  hashes := hashes
  indicators := [{ id := "indicator" }]

theorem isDigest_emptyMd5 : IsDigest .hashMd5 emptyMd5 := ⟨rfl, List.all_eq_true.mp rfl⟩

theorem isDigest_emptySha256 : IsDigest .hashSha256 emptySha256 := ⟨rfl, List.all_eq_true.mp rfl⟩

theorem lower_emptyMd5 : fileRuntime.lower emptyMd5 = emptyMd5 := by
  rw [isDigest_emptyMd5.lower_eq]
  decide

theorem lower_emptySha256 : fileRuntime.lower emptySha256 = emptySha256 := by
  rw [isDigest_emptySha256.lower_eq]
  decide

def emptyDigests : List (Str × Str) :=
  [("MD5".toList, emptyMd5), ("SHA-256".toList, emptySha256)]

theorem isFile_emptyFile {hashes : List (Str × Str)} (hsub : hashes ⊆ emptyDigests)
    (hmem : ("SHA-256".toList, emptySha256) ∈ hashes) : (emptyFile hashes).IsFile where
  entityType := rfl
  digests hash hhash := by
    rcases List.mem_cons.mp (hsub hhash) with rfl | hlast
    · exact ⟨.hashMd5, rfl, isDigest_emptyMd5⟩
    · rw [List.mem_singleton.mp hlast]
      exact ⟨.hashSha256, rfl, isDigest_emptySha256⟩
  displayed := List.mem_map.mpr ⟨_, hmem, rfl⟩

theorem hits_emptyFile (hashes : List (Str × Str)) :
    (emptyFile hashes).Hits (sampleSettings 50000) 0 := ⟨_, List.mem_singleton_self _, rfl⟩

def shownByMd5 : Observable fileRuntime :=
  { emptyFile [("MD5".toList, emptyMd5)] with id := "shown", value := emptyMd5 }

theorem hits_shownByMd5 : shownByMd5.Hits (sampleSettings 50000) 0 :=
  ⟨_, List.mem_singleton_self _, rfl⟩

theorem finds_emptyFile {hashes : List (Str × Str)} {hash : Str × Str} (hmem : hash ∈ hashes)
    {others : List (Observable fileRuntime)}
    (hhits : ∀ other ∈ others, other.Hits (sampleSettings 50000) 0) :
    (Upstream.ofList (emptyFile hashes :: others)).Finds (sampleSettings 50000) 0
      (digestRequest hash.1 hash.2) :=
  finds_of_matches List.mem_cons_self ⟨.inr ⟨hash, hmem, rfl, rfl⟩, List.mem_singleton_self _⟩
    fun other hother _ => by
      rcases List.mem_cons.mp hother with rfl | hlast
      · exact hits_emptyFile hashes
      · exact hhits other hlast

theorem norm_emptyMd5 : norm fileRuntime (sampleSettings 50000) emptyMd5 = .ok (some emptyMd5) :=
  norm_eq_ok_iff.mpr ⟨_, normalize_digest isDigest_emptyMd5 _ _, by
    rw [lower_emptyMd5]
    rfl⟩

theorem norm_emptySha256 :
    norm fileRuntime (sampleSettings 50000) emptySha256 = .ok (some emptySha256) :=
  norm_eq_ok_iff.mpr ⟨_, normalize_digest isDigest_emptySha256 _ _, by
    rw [lower_emptySha256]
    rfl⟩

theorem prefiltered_emptyFile (hashes : List (Str × Str)) :
    ∃ backend, Prefiltered (sampleSettings 50000) none [emptySha256]
      (Upstream.ofList [emptyFile hashes]) backend := by
  refine @exists_prefiltered _ _ [emptyFile hashes] rfl fun observable hmem => ?_
  rw [List.mem_singleton.mp hmem]
  exact ⟨List.cons_ne_nil _ _, _, norm_emptySha256⟩

theorem prefiltered_shown :
    ∃ backend, Prefiltered (sampleSettings 50000) none [emptySha256, emptyMd5]
      (Upstream.ofList [emptyFile emptyDigests, shownByMd5]) backend := by
  refine @exists_prefiltered _ _ [emptyFile emptyDigests, shownByMd5] rfl fun observable hmem => ?_
  rcases List.mem_cons.mp hmem with rfl | hlast
  · exact ⟨List.cons_ne_nil _ _, _, norm_emptySha256⟩
  · rw [List.mem_singleton.mp hlast]
    exact ⟨List.cons_ne_nil _ _, _, norm_emptyMd5⟩

/-- A file with two digests is found under both when another file displays the one that it
does not. -/
theorem file_digests_found_shown :
    ∃ backend, Prefiltered (sampleSettings 50000) none [emptySha256, emptyMd5]
        (Upstream.ofList [emptyFile emptyDigests, shownByMd5]) backend ∧
      ∀ hash ∈ emptyDigests, ∃ value,
        (sampleSettings 50000).normalize fileRuntime hash.2 = .ok value ∧
        Returns (backend.lookup fileRuntime (sampleSettings 50000)
          (Upstream.ofList [emptyFile emptyDigests, shownByMd5]).client 0 0 value)
          fun answer => answer.1.payload.Found := by
  obtain ⟨backend, h⟩ := prefiltered_shown
  have hfile : (emptyFile emptyDigests).IsFile :=
    isFile_emptyFile (List.Subset.refl _) (List.mem_cons_of_mem _ List.mem_cons_self)
  have hfinds : ∀ hash ∈ emptyDigests,
      (Upstream.ofList [emptyFile emptyDigests, shownByMd5]).Finds (sampleSettings 50000) 0
        (digestRequest hash.1 hash.2) := by
    intro hash hhash
    refine finds_emptyFile hhash fun other hother => ?_
    rw [List.mem_singleton.mp hother]
    exact hits_shownByMd5
  have hshown : Keyed fileRuntime (sampleSettings 50000) none [emptySha256, emptyMd5] emptyMd5 :=
    keyed_of_norm h (List.mem_cons_of_mem _ List.mem_cons_self) hits_shownByMd5 norm_emptyMd5
  refine ⟨backend, h, (file_digests_found_iff h List.mem_cons_self hfile (hits_emptyFile _)
    0).mpr fun hash hhash => ?_⟩
  have hfound := hfinds hash hhash
  rcases List.mem_cons.mp hhash with rfl | hlast
  · rw [lower_emptyMd5]
    exact ⟨fun _ => hshown, hfound⟩
  · obtain rfl := List.mem_singleton.mp hlast
    rw [lower_emptySha256]
    refine ⟨?_, hfound⟩
    rintro (hlimit | hne)
    · cases hlimit
    · exact absurd lower_emptySha256.symm hne

/-- A file that displays its SHA-256 is a hit under its MD5, and the membership set
turns it away. -/
theorem file_digests_hidden_by_displayed :
    ¬ ∀ (rt : Runtime) (settings : Settings) (corpus : List Str) (upstream : Upstream rt)
      (backend : SplitBackend) (live : LiveBackend) (now mono : ℚ),
      Prefiltered settings none corpus upstream backend → live.cache.data = [] →
      ∀ file ∈ upstream.observables, file.IsFile → file.Hits settings now →
      ∀ hash ∈ file.hashes, ∀ value, settings.normalize rt hash.2 = .ok value →
        Returns (LiveBackend.lookup rt settings upstream.client now mono live value)
          (fun answer => answer.1.payload.Found) →
        Returns (backend.lookup rt settings upstream.client now mono value)
          fun answer => answer.1.payload.Found := by
  intro hall
  obtain ⟨backend, h⟩ := prefiltered_emptyFile emptyDigests
  have hmem : ("MD5".toList, emptyMd5) ∈ emptyDigests := List.mem_cons_self
  have hfinds := finds_emptyFile hmem fun _ hother => absurd hother List.not_mem_nil
  have hfile : (emptyFile emptyDigests).IsFile :=
    isFile_emptyFile (List.Subset.refl _) (List.mem_cons_of_mem _ List.mem_cons_self)
  have hnorm : (sampleSettings 50000).normalize fileRuntime emptyMd5 =
      .ok ⟨emptyMd5, emptyMd5, .hashMd5, none⟩ := by
    rw [Settings.normalize, normalize_digest isDigest_emptyMd5, lower_emptyMd5]
  have hlive : Returns (LiveBackend.lookup fileRuntime (sampleSettings 50000)
      (Upstream.ofList [emptyFile emptyDigests]).client 0 0 backend.live
        ⟨emptyMd5, emptyMd5, .hashMd5, none⟩) fun answer => answer.1.payload.Found :=
    found_of_findsValue h.uncached rfl (.inl hfinds)
  have hfound := hall fileRuntime (sampleSettings 50000) [emptySha256] _ backend
    backend.live 0 0 h h.uncached _ List.mem_cons_self hfile (hits_emptyFile _) _ hmem _
    hnorm hlive
  have hdigest := @found_digest_iff _ _ 0 .hashMd5 "MD5".toList emptyMd5 _ _ _ _ h rfl 0
  rw [lower_emptyMd5] at hdigest
  obtain ⟨⟨key, hkey, hfingerprint⟩, -⟩ := hdigest.mp hfound
  have hkeys : keysOf fileRuntime (sampleSettings 50000) [emptySha256] = [emptySha256] :=
    keysOf_cons_some norm_emptySha256 []
  rw [hkeys] at hkey
  rw [List.mem_singleton.mp hkey] at hfingerprint
  exact absurd hfingerprint (by decide)

end Sample

end OpenctiLookup
