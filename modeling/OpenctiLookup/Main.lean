import OpenctiLookup.Memory
import OpenctiLookup.Opencti.Stream
import OpenctiLookup.Reconcile

/-! `main.py`: how the memory is split between membership and payload cache, and what
`lifespan._activate` wires together in one worker. -/
namespace OpenctiLookup
open Python

/-- What `_resolve_budgets` returns. -/
structure Budgets where
  budget : Memory.MemoryBudget
  membershipBytes : ℤ
  payloadBytes : ℤ
  note : Str

def resolveBudgets (rt : Runtime) (settings : MemorySettings) (readings : Memory.Readings) :
    Budgets :=
  let budget := Memory.detect rt readings settings.workers settings.memoryFraction
    (settings.memoryReserveMb * Memory.mb) (settings.mirrorMaxMemoryMb.map (· * Memory.mb))
  let payloadBytes :=
    match settings.payloadCacheMaxMb with
    | some most => most * Memory.mb
    -- The cache is each worker's own, the membership set is shared.
    | none => max (8 * Memory.mb) (budget.perWorker / 4)
  let membershipBytes := max 0 (budget.usable - payloadBytes * settings.workers)
  { budget, membershipBytes, payloadBytes
    note := budget.describe rt ++ " membership_budget=" ++
      Memory.intText rt (membershipBytes / Memory.mb) ++ "MB payload_budget_per_worker=" ++
      Memory.intText rt (payloadBytes / Memory.mb) ++ "MB" }

/-- The state the callbacks of a worker's stream consumer act on. Only the
builder has a reconciler. -/
structure Worker where
  split : SplitBackend
  reconciler : Option Reconciler

namespace Worker

def membership (worker : Worker) : MembershipSet := worker.split.membership

def setMembership (worker : Worker) (membership : MembershipSet) : Worker :=
  { worker with split := { worker.split with membership := membership } }

/-- `_activate` on the outcome of a first `load`, which finds an empty set. -/
def activate (loaded : LoadedMembership) (live : LiveBackend) : Worker where
  split :=
    match loaded.membership with
    | some set =>
        SplitBackend.swapMembership { membership := MembershipSet.empty, live := live } set true
    | none => { membership := MembershipSet.empty, live := live }
  reconciler := if loaded.role = .builder then some {} else none

variable (rt : Runtime) (settings : Settings)

/-- The callbacks of `_activate`. `fingerprint` encodes the value before the set changes. -/
def callbacks : Callbacks Worker where
  onAdd value worker := do
    rt.encode value
    return worker.setMembership (worker.membership.add rt value)
  onRemove value worker := do
    rt.encode value
    return worker.setMembership (worker.membership.remove rt value)
  normalize := norm rt settings
  overlayFull worker := worker.membership.overlayFull
  onOverlayFull worker :=
    { worker with reconciler := worker.reconciler.map (Reconciler.request "overlay_full") }

@[simp] theorem membership_setMembership (worker : Worker) (set : MembershipSet) :
    (worker.setMembership set).membership = set := rfl

@[simp] theorem reconciler_setMembership (worker : Worker) (set : MembershipSet) :
    (worker.setMembership set).reconciler = worker.reconciler := rfl

@[simp] theorem membership_onOverlayFull (worker : Worker) :
    ((callbacks rt settings).onOverlayFull worker).membership = worker.membership := rfl

end Worker

end OpenctiLookup
