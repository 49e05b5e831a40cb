import OpenctiLookup.Python.LowerLaws
import OpenctiLookup.Theory.FirstSeen
import OpenctiLookup.Wazuh

/-! `wazuh/custom-opencti.py`: the indicators of an alert. -/
namespace OpenctiLookup.Wazuh
open Python Theory

def valuePaths : List Str :=
  ["data.eventdata.DestinationIp", "data.win.eventdata.DestinationIp",
    "data.win.eventdata.destinationIp", "data.destination.ip", "data.dstip",
    "data.dns.question.name", "data.win.eventdata.queryName", "data.dns_question_name",
    "data.url", "data.http.url", "data.win.eventdata.DestinationHostname",
    "syscheck.sha256_after", "syscheck.md5_after", "syscheck.sha1_after", "data.sha256",
    "data.virustotal.source.sha1"]

def hashesPaths : List Str :=
  ["data.win.eventdata.hashes", "data.win.eventdata.Hashes", "data.eventdata.Hashes"]

def skipPaths : List Str := ["data.srcip", "data.src_ip"]

/-- `dig`: what the dotted path leads to through objects. -/
def dig (alert : Json) (dotted : Str) : Option Json :=
  (split '.' dotted).foldlM (fun node part =>
    match node with
    | .obj fields => fields.lookup part
    | _ => none) alert

def looksPrivate (value : Str) : Bool :=
  match IpAddress.parse value with
  | none => false
  | some ip =>
      ip.isPrivate || ip.isLoopback || ip.isLinkLocal || ip.isMulticast || ip.isReserved ||
        ip.isUnspecified

section HashPairs

/-- The first group of `_HASH_PAIR_RE`. -/
def hashNames : List Str := ["MD5", "SHA1", "SHA256"]

def isHexDigit (c : Char) : Bool := (hexDigitValue c).isSome

def hashPairUnder (s name : Str) : Option (Str × Str) :=
  if startsWith (name ++ "=") s then
    let digest := ((s.drop (name.length + 1)).takeWhile isHexDigit).take 64
    if 32 ≤ digest.length then some (name, digest) else none
  else none

/-- The match of `_HASH_PAIR_RE` that starts where the text does. -/
def hashPairAt (s : Str) : Option (Str × Str) := hashNames.findSome? (hashPairUnder s)

/-- `_HASH_PAIR_RE.findall`, where the first `taken` characters belong to a match. -/
def hashPairsFrom : ℕ → Str → List (Str × Str)
  | _, [] => []
  | taken + 1, _ :: s => hashPairsFrom taken s
  | 0, c :: s =>
      match hashPairAt (c :: s) with
      | some (name, digest) => (name, digest) :: hashPairsFrom (name.length + digest.length) s
      | none => hashPairsFrom 0 s

def hashPairs (blob : Str) : List (Str × Str) := hashPairsFrom 0 blob

end HashPairs

variable (rt : Runtime)

/-- What a path of `VALUE_PATHS` adds. -/
def valueAt (alert : Json) (path : Str) : List Str :=
  match dig alert path with
  | some (.str value) =>
      if (strip value).isEmpty || looksPrivate (strip value) then [] else [strip value]
  | _ => []

/-- What a path of `HASHES_PATHS` adds. -/
def digestsAt (alert : Json) (path : Str) : List Str :=
  match dig alert path with
  | some (.str blob) => (hashPairs blob).map fun pair => rt.lower pair.2
  | _ => []

def extractIndicators (alert : Json) : List Str :=
  let found := valuePaths.foldl (fun found path =>
    if path ∈ skipPaths then found else (valueAt alert path).foldl FirstSeen.enlist found) []
  let found := hashesPaths.foldl (fun found path =>
    (digestsAt rt alert path).foldl FirstSeen.enlist found) found
  found.take maxIndicatorsPerAlert

/-- All that an alert has, with what it has several times. -/
def listedIndicators (alert : Json) : List Str :=
  valuePaths.flatMap (valueAt alert) ++ hashesPaths.flatMap (digestsAt rt alert)

variable {rt}

theorem skipPaths_not_listed : ∀ path ∈ valuePaths, path ∉ skipPaths := by decide

theorem extractIndicators_eq (alert : Json) :
    extractIndicators rt alert = (listedIndicators rt alert).eraseDups.take maxIndicatorsPerAlert := by
  have hvalues : valuePaths.foldl (fun found path =>
      if path ∈ skipPaths then found else (valueAt alert path).foldl FirstSeen.enlist found) [] =
        (valuePaths.flatMap (valueAt alert)).eraseDups := by
    rw [← FirstSeen.foldl_enlist, List.foldl_flatMap]
    refine List.foldl_ext _ _ _ fun found path hpath => ?_
    rw [if_neg (skipPaths_not_listed path hpath)]
  unfold extractIndicators listedIndicators
  rw [hvalues]
  dsimp only
  rw [← List.foldl_flatMap, FirstSeen.foldl_enlist_eraseDups]

theorem length_of_hashPairAt {s : Str} {pair : Str × Str} (h : hashPairAt s = some pair) :
    32 ≤ pair.2.length := by
  obtain ⟨name, -, hname⟩ := List.exists_of_findSome?_eq_some h
  unfold hashPairUnder at hname
  split at hname
  · dsimp only at hname
    split at hname
    · next hlong =>
        cases hname
        exact hlong
    · cases hname
  · cases hname

theorem length_of_hashPairsFrom {taken : ℕ} {s : Str} :
    ∀ pair ∈ hashPairsFrom taken s, 32 ≤ pair.2.length := by
  induction s generalizing taken with
  | nil =>
      intro pair hpair
      unfold hashPairsFrom at hpair
      cases hpair
  | cons c s ih =>
      cases taken with
      | succ taken =>
          rw [hashPairsFrom]
          exact ih
      | zero =>
          rw [hashPairsFrom]
          cases hat : hashPairAt (c :: s) with
          | none => exact ih
          | some pair =>
              rw [List.forall_mem_cons]
              exact ⟨length_of_hashPairAt hat, ih⟩

theorem extractIndicators_distinct (alert : Json) : (extractIndicators rt alert).Nodup ∧
    (extractIndicators rt alert).length ≤ maxIndicatorsPerAlert ∧
      ∀ raw ∈ extractIndicators rt alert, raw ≠ [] := by
  rw [extractIndicators_eq]
  refine ⟨(List.take_sublist _ _).nodup (FirstSeen.nodup_eraseDups _), List.length_take_le _ _,
    fun raw hraw => ?_⟩
  have hmem := List.mem_eraseDups.mp (List.mem_of_mem_take hraw)
  rcases List.mem_append.mp hmem with hmem | hmem
  · obtain ⟨path, -, hvalue⟩ := List.mem_flatMap.mp hmem
    unfold valueAt at hvalue
    split at hvalue
    · split at hvalue
      · cases hvalue
      · next hkept =>
          rw [List.mem_singleton.mp hvalue]
          simp only [Bool.or_eq_true, not_or, List.isEmpty_iff] at hkept
          exact hkept.1
    · cases hvalue
  · obtain ⟨path, -, hdigest⟩ := List.mem_flatMap.mp hmem
    unfold digestsAt at hdigest
    split at hdigest
    · obtain ⟨pair, hpair, rfl⟩ := List.mem_map.mp hdigest
      have hlong := length_of_hashPairsFrom pair hpair
      exact lower_ne_nil (List.ne_nil_of_length_pos (by omega))
    · cases hdigest

end OpenctiLookup.Wazuh
