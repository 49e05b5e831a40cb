import OpenctiLookup.Backends.Split
import OpenctiLookup.MembershipLoader

/-! `reconcile.py`: rebuilds of the membership set, in the builder process only. -/
namespace OpenctiLookup
open Python

structure ReconcileStats where
  rebuilds : ℕ := 0
  failures : ℕ := 0
  lastReason : Option Str := none
  generation : ℕ := 0
  running : Bool := false
  pendingReason : Option Str := none
deriving DecidableEq

structure Reconciler where
  stats : ReconcileStats := {}
  /-- `_trigger.is_set()`. -/
  trigger : Bool := false
deriving DecidableEq

namespace Reconciler

/-- `request`: ignored while a rebuild runs. -/
def request (reason : Str) (r : Reconciler) : Reconciler :=
  if r.stats.running then r
  else { r with stats := { r.stats with pendingReason := some reason }, trigger := true }

def nextReason (r : Reconciler) : Str :=
  if r.trigger then r.stats.pendingReason.getD "requested" else "scheduled"

/-- From the wake-up of `run` to the first suspension inside `_rebuild`. -/
def begin (r : Reconciler) : Reconciler :=
  { r with trigger := false, stats := { r.stats with pendingReason := none, running := true } }

def failed (r : Reconciler) : Reconciler :=
  { r with stats := { r.stats with running := false, failures := r.stats.failures + 1 } }

def completed (reason : Str) (generation : ℕ) (r : Reconciler) : Reconciler :=
  { r with
    stats := { r.stats with
      running := false
      rebuilds := r.stats.rebuilds + 1
      lastReason := some reason
      generation := generation } }

end Reconciler

/-- The names a rebuild's sweep keeps: the new generation, the one published
before it and the one this process served. -/
def keepAfterRebuild (generation : ℕ) (previous : Option SharedMembershipState)
    (oldName : Option Str) : List Str :=
  segmentName generation :: ((previous.map SharedMembershipState.shmName).toList ++ oldName.toList)

/-- `_rebuild` after the build: publish, swap and sweep, with no suspension in
between. -/
def installGeneration (previous : Option SharedMembershipState) (built : BuiltGeneration)
    (backend : SplitBackend) : Host × SplitBackend :=
  ((built.host.publish built.state).sweepStaleSegments
      (keepAfterRebuild built.state.generation previous backend.membership.shmName),
    backend.swapMembership built.membership true)

/-- `_rebuild` when nothing else happens between its start and its end. -/
def rebuild (rt : Runtime) (settings : Settings) (client : BootstrapClient) (now : ℚ)
    (budgetBytes : ℕ) (host : Host) (backend : SplitBackend) : Py (Host × SplitBackend) := do
  let built ←
    buildGeneration rt settings client now (maxEntriesOf budgetBytes) host.nextGeneration host
  pure (installGeneration host.read built backend)

end OpenctiLookup
