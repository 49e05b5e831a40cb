import OpenctiLookup.Backends.Live
import OpenctiLookup.Backends.Membership

/-! `backends/split.py`: the membership set in front, the live backend behind. -/
namespace OpenctiLookup
open Python

structure SplitBackend where
  membership : MembershipSet
  live : LiveBackend
  ready : Bool := false
  stale : Bool := false

/-- Where `SplitBackend.lookup` sends a lookupable value. -/
inductive Route where
  | live
  | membershipMiss
deriving DecidableEq, Repr

namespace SplitBackend

def markStale (backend : SplitBackend) (stale : Bool) : SplitBackend :=
  { backend with
    stale := stale
    live := { backend.live with cache := backend.live.cache.setDegraded stale } }

def streamHealth (backend : SplitBackend) (connected : Bool) (activityLagS : ℚ)
    (staleAfterS : ℤ) : SplitBackend :=
  backend.markStale (!connected || decide ((staleAfterS : ℚ) < activityLagS))

/-- `swap_membership` with a set that is another object than the served one: it
takes the served set's overlay over. -/
def swapMembership (backend : SplitBackend) (membership : MembershipSet) (ready : Bool) :
    SplitBackend :=
  { backend with membership := membership.adoptOverlay backend.membership, ready := ready }

variable (rt : Runtime) (settings : Settings)

/-- The branches of `lookup` after the `lookupable` test. -/
def route (backend : SplitBackend) (value : Normalized) : Route :=
  if !backend.ready || backend.stale then .live
  else if backend.membership.contains rt value.value then .live
  else
    match LiveBackend.fallbackHost rt settings value with
    | some host => if backend.membership.contains rt host then .live else .membershipMiss
    | none => .membershipMiss

def lookup (client : Client) (now mono : ℚ) (backend : SplitBackend) (value : Normalized) :
    Py (LookupResult × SplitBackend) :=
  if !value.lookupable then .ok (⟨miss, "skip"⟩, backend)
  else
    match backend.route rt settings value with
    | .membershipMiss => .ok (⟨miss, "membership"⟩, backend)
    | .live => do
        let (result, live) ← LiveBackend.lookup rt settings client now mono backend.live value
        pure (result, { backend with live := live })

variable {rt settings} in
theorem route_live_iff {backend : SplitBackend} (hready : backend.ready = true)
    (hcurrent : backend.stale = false) {value : Normalized} :
    backend.route rt settings value = .live ↔
      backend.membership.contains rt value.value = true ∨
        ∃ host, LiveBackend.fallbackHost rt settings value = some host ∧
          backend.membership.contains rt host = true := by
  unfold route
  rw [hready, hcurrent, if_neg (by simp)]
  by_cases hvalue : backend.membership.contains rt value.value = true
  · rw [if_pos hvalue]
    exact iff_of_true rfl (.inl hvalue)
  · rw [if_neg hvalue, or_iff_right hvalue]
    cases LiveBackend.fallbackHost rt settings value with
    | none => simp
    | some host =>
        dsimp only
        by_cases hhost : backend.membership.contains rt host = true
        · rw [if_pos hhost]
          exact iff_of_true rfl ⟨host, rfl, hhost⟩
        · rw [if_neg hhost]
          simp [hhost]

variable {rt settings} in
theorem trusted_of_route_miss {backend : SplitBackend} {value : Normalized}
    (h : backend.route rt settings value = .membershipMiss) :
    backend.ready = true ∧ backend.stale = false := by
  unfold route at h
  cases hready : backend.ready with
  | false =>
      rw [hready, if_pos (by simp)] at h
      cases h
  | true =>
      cases hstale : backend.stale with
      | false => exact ⟨rfl, rfl⟩
      | true =>
          rw [hready, hstale, if_pos (by simp)] at h
          cases h

variable {rt settings} in
theorem route_current_iff {backend : SplitBackend} (hready : backend.ready = true)
    {value : Normalized} :
    (backend.markStale false).route rt settings value = .live ↔
      backend.membership.contains rt value.value = true ∨
        ∃ host, LiveBackend.fallbackHost rt settings value = some host ∧
          backend.membership.contains rt host = true :=
  @route_live_iff rt settings (backend.markStale false) hready rfl value

end SplitBackend

end OpenctiLookup
