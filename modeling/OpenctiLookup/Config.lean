import OpenctiLookup.Indicators

/-! `config.py`: the settings the modelled code reads, with their defaults. -/
namespace OpenctiLookup
open Python

/-- Which indicators count as a hit. -/
inductive HitPolicy where
  | liveOnly
  | expiryAware
  | all
deriving DecidableEq, Repr

inductive MembershipMode where
  | auto
  | always
  | off
deriving DecidableEq, Repr

inductive MembershipSource where
  | observables
  | indicators
deriving DecidableEq, Repr

structure Settings where
  openctiUrl : Str
  membershipMode : MembershipMode := .auto
  membershipSource : MembershipSource := .observables
  membershipBootstrapPageSize : ℤ := 2000
  membershipOverlayMax : ℤ := 50000
  membershipShared : Bool := true
  streamEnabled : Bool := true
  streamStaleAfterS : ℤ := 120
  payloadTtlS : ℤ := 86400
  payloadTtlDegradedS : ℤ := 900
  payloadMaxEntryBytes : ℤ := 1024
  hitPolicy : HitPolicy := .expiryAware
  minScore : ℤ := 0
  urlHostnameFallback : Bool := true
  domainMatchTypes : List Str := ["Domain-Name", "Hostname"]
  cacheKeyVersion : Str := "v1"
  skipPrivateIps : Bool := true
  skipTlds : List Str := ["local", "internal", "lan", "corp", "home", "arpa"]
deriving DecidableEq

namespace Settings

def queryTypesFor (settings : Settings) (indicatorType : Str) : List Str :=
  if indicatorType = "Domain-Name" then settings.domainMatchTypes
  else if startsWith "StixFile" indicatorType then ["StixFile"]
  else [indicatorType]

/-- `normalize` with the configured skip lists, as every caller runs it. -/
def normalize (rt : Runtime) (settings : Settings) (raw : Str) : Py Normalized :=
  OpenctiLookup.normalize rt settings.skipPrivateIps settings.skipTlds raw

end Settings

section Keys

variable (rt : Runtime) (settings : Settings)

/-- The membership key of a raw value, if it can be looked up: `_norm` of
`_activate`, and what `iter_values` yields. -/
def norm (raw : Str) : Py (Option Str) := do
  let parsed ← settings.normalize rt raw
  pure (if parsed.lookupable then some parsed.value else none)

/-- The membership keys of the raw values that normalize without a fault. -/
def keysOf (raws : List Str) : List Str := raws.filterMap fun raw =>
    (norm rt settings raw).toOption.join

variable {rt settings}

theorem norm_eq_ok_iff {raw : Str} {key : Option Str} :
    norm rt settings raw = .ok key ↔ ∃ parsed, settings.normalize rt raw = .ok parsed ∧
      key = if parsed.lookupable then some parsed.value else none := by
  unfold norm
  cases settings.normalize rt raw with
  | error fault => simp [bind, Except.bind]
  | ok parsed =>
      simp only [bind, Except.bind, pure, Except.pure, Except.ok.injEq, exists_eq_left']
      exact eq_comm

theorem norm_empty : norm rt settings [] = .ok none := rfl

theorem keysOf_cons_none {raw : Str} (h : norm rt settings raw = .ok none) (raws : List Str) :
    keysOf rt settings (raw :: raws) = keysOf rt settings raws := by
  simp [keysOf, h, Except.toOption]

theorem keysOf_cons_some {raw key : Str} (h : norm rt settings raw = .ok (some key))
    (raws : List Str) : keysOf rt settings (raw :: raws) = key :: keysOf rt settings raws := by
  simp [keysOf, h, Except.toOption]

theorem mem_keysOf {raws : List Str} {key : Str} :
    key ∈ keysOf rt settings raws ↔ ∃ raw ∈ raws, norm rt settings raw = .ok (some key) := by
  unfold keysOf
  rw [List.mem_filterMap]
  refine exists_congr fun raw => and_congr_right fun _ => ?_
  cases hnorm : norm rt settings raw with
  | error fault => simp [Except.toOption]
  | ok key' => simp [Except.toOption]

theorem keysOf_filter_nonempty (raws : List Str) :
    keysOf rt settings (raws.filter fun value => !value.isEmpty) = keysOf rt settings raws := by
  induction raws with
  | nil => rfl
  | cons raw raws ih =>
      cases raw with
      | nil => simpa [keysOf_cons_none norm_empty] using ih
      | cons c raw =>
          unfold keysOf at ih ⊢
          simp [List.filterMap_cons, ih]

end Keys

end OpenctiLookup
