import Mathlib.Tactic.Linarith
import Mathlib.Tactic.Ring
import OpenctiLookup.Reconcile
import OpenctiLookup.Theory.Runs

/-! The loop of the reconciler, with the requests and the stop that reach it while it waits or
rebuilds. -/
namespace OpenctiLookup
open Python Theory

/-- Where `Reconciler.run` is suspended. -/
inductive LoopPhase where
  /-- In `wait_for`, from this time on. -/
  | waiting (since : ℚ)
  | rebuilding (reason : Str)
  | ended

structure Begun where
  timedOut : Bool
  reason : Str
  /-- `stop` had been called. -/
  stopped : Bool
  time : ℚ
deriving DecidableEq

structure ReconcileLoop where
  reconciler : Reconciler
  /-- `_stop.is_set()`. -/
  stopped : Bool
  phase : LoopPhase
  /-- `time.monotonic()`. -/
  now : ℚ
  begun : List Begun

inductive ReconcileStep where
  | request (reason : Str)
  | stop
  /-- The trigger ends the wait. `early` says that `_rebuild` raises before its build, when it
  reads the state file. -/
  | wake (early : Bool)
  | timeout (early : Bool)
  | complete (generation : ℕ)
  | fail
  | cancel
  | elapse (seconds : ℚ)

namespace Reconciler

variable (r : Reconciler)

/-- `pending_reason or "requested"`. -/
def requestedReason : Str :=
  match r.stats.pendingReason with
  | none | some [] => "requested"
  | some reason => reason

/-- The `finally` of the wait. -/
def cleared : Reconciler :=
  { r with trigger := false, stats := { r.stats with pendingReason := none } }

/-- A rebuild that raised before its `try`: `running` stays. -/
def failedEarly : Reconciler :=
  { r with stats := { r.stats with failures := r.stats.failures + 1 } }

def interrupted : Reconciler := { r with stats := { r.stats with running := false } }

def stop : Reconciler := { r with trigger := true }

def attempted : ℕ := r.stats.rebuilds + r.stats.failures

end Reconciler

namespace ReconcileLoop

variable (s : ReconcileLoop)

/-- `while not self._stop.is_set()`. -/
def loop : ReconcileLoop :=
  { s with phase := if s.stopped then .ended else .waiting s.now }

def begin (timedOut : Bool) (reason : Str) : ReconcileLoop :=
  { s with
    reconciler := s.reconciler.begin
    phase := .rebuilding reason
    begun := s.begun ++ [⟨timedOut, reason, s.stopped, s.now⟩] }

/-- `_rebuild` up to its first suspension. -/
def rebuild (timedOut : Bool) (reason : Str) (early : Bool) : ReconcileLoop :=
  if early then
    loop { s.begin timedOut reason with reconciler := s.reconciler.begin.failedEarly }
  else s.begin timedOut reason

/-- `run` returns, or is cancelled, in its wait. -/
def leave : ReconcileLoop := { s with reconciler := s.reconciler.cleared, phase := .ended }

def Waits : Prop := ∃ since, s.phase = .waiting since

end ReconcileLoop

/-- `run` of a reconciler made at `startedAt`, and those who call it. -/
def reconcileSystem (interval startedAt : ℚ) : System ReconcileLoop ReconcileStep where
  init s :=
    (∃ generation, s.reconciler = ⟨{ generation := generation }, false⟩) ∧ s.stopped = false ∧
      s.phase = .waiting startedAt ∧ s.now = startedAt ∧ s.begun = []
  step s a s' :=
    match a with
    | .request reason => s' = { s with reconciler := s.reconciler.request reason }
    | .stop => s' = { s with reconciler := s.reconciler.stop, stopped := true }
    | .wake early =>
        s.Waits ∧ s.reconciler.trigger = true ∧
          s' = if s.stopped then s.leave
            else s.rebuild false s.reconciler.requestedReason early
    | .timeout early =>
        ∃ since, s.phase = .waiting since ∧ since + interval ≤ s.now ∧
          s' = s.rebuild true "scheduled" early
    | .complete generation =>
        ∃ reason, s.phase = .rebuilding reason ∧
          s' = ReconcileLoop.loop
            { s with reconciler := s.reconciler.completed reason generation }
    | .fail =>
        (∃ reason, s.phase = .rebuilding reason) ∧
          s' = ReconcileLoop.loop { s with reconciler := s.reconciler.failed }
    | .cancel =>
        s.Waits ∧ s' = s.leave ∨
          (∃ reason, s.phase = .rebuilding reason) ∧
            s' = { s with reconciler := s.reconciler.interrupted, phase := .ended }
    | .elapse seconds => 0 ≤ seconds ∧ s' = { s with now := s.now + seconds }

namespace ReconcileLoop

def since (s : ReconcileLoop) : ℚ :=
  match s.phase with
  | .waiting since => since
  | _ => s.now

variable {s : ReconcileLoop} {timedOut early : Bool} {reason : Str}

@[simp]
theorem since_loop : s.loop.since = s.now := by
  unfold loop since
  cases s.stopped <;> rfl

@[simp]
theorem since_rebuild : (s.rebuild timedOut reason early).since = s.now := by
  cases early with
  | false => rfl
  | true => exact since_loop

@[simp]
theorem now_rebuild : (s.rebuild timedOut reason early).now = s.now := by
  cases early <;> rfl

@[simp]
theorem stopped_rebuild : (s.rebuild timedOut reason early).stopped = s.stopped := by
  cases early <;> rfl

@[simp]
theorem begun_rebuild :
    (s.rebuild timedOut reason early).begun =
      s.begun ++ [⟨timedOut, reason, s.stopped, s.now⟩] := by
  cases early <;> rfl

@[simp]
theorem trigger_rebuild : (s.rebuild timedOut reason early).reconciler.trigger = false := by
  cases early <;> rfl

@[simp]
theorem pending_rebuild :
    (s.rebuild timedOut reason early).reconciler.stats.pendingReason = none := by
  cases early <;> rfl

end ReconcileLoop

section Pace

variable {interval startedAt : ℚ} {s s' : ReconcileLoop} {a : ReconcileStep}
  {trace : List ReconcileStep}

/-- A rebuild that the interval begins keeps its distance from one before it. -/
def KeepsDistance (interval : ℚ) (before b : Begun) : Prop :=
  b.timedOut = true → before.time + interval ≤ b.time

/-- Rebuilds begin before the wait that follows them, and those of the interval begin at the end
of one. -/
structure Paced (interval startedAt : ℚ) (s : ReconcileLoop) : Prop where
  started : startedAt ≤ s.since
  since : s.since ≤ s.now
  before : ∀ b ∈ s.begun, b.time ≤ s.since
  first : ∀ b ∈ s.begun, b.timedOut = true → startedAt + interval ≤ b.time
  spaced : s.begun.Pairwise (KeepsDistance interval)

theorem paced_later (h : Paced interval startedAt s) (hbegun : s'.begun = s.begun)
    (hsince : s.since ≤ s'.since) (hnow : s'.since ≤ s'.now) : Paced interval startedAt s' := by
  refine ⟨h.started.trans hsince, hnow, ?_, ?_, ?_⟩
  · rw [hbegun]
    exact fun b hb => (h.before b hb).trans hsince
  · rw [hbegun]
    exact h.first
  · rw [hbegun]
    exact h.spaced

theorem paced_rebuild (h : Paced interval startedAt s) {timedOut : Bool}
    (hdue : timedOut = true → s.since + interval ≤ s.now) (reason : Str) (early : Bool) :
    Paced interval startedAt (s.rebuild timedOut reason early) := by
  have hsince := h.since
  refine ⟨?_, ?_, ?_, ?_, ?_⟩
  · rw [ReconcileLoop.since_rebuild]
    exact h.started.trans hsince
  · rw [ReconcileLoop.since_rebuild, ReconcileLoop.now_rebuild]
  · rw [ReconcileLoop.begun_rebuild, ReconcileLoop.since_rebuild, List.forall_mem_append,
      List.forall_mem_singleton]
    exact ⟨fun b hb => (h.before b hb).trans hsince, le_rfl⟩
  · rw [ReconcileLoop.begun_rebuild, List.forall_mem_append, List.forall_mem_singleton]
    refine ⟨h.first, fun htimedOut => ?_⟩
    have hstarted := h.started
    have hwaited := hdue htimedOut
    linarith
  · rw [ReconcileLoop.begun_rebuild, List.pairwise_append]
    refine ⟨h.spaced, List.pairwise_singleton _ _, fun before hbefore b hb htimedOut => ?_⟩
    rw [List.mem_singleton.mp hb] at htimedOut ⊢
    have hearlier := h.before before hbefore
    have hwaited := hdue htimedOut
    linarith

theorem paced_step (h : Paced interval startedAt s)
    (hstep : (reconcileSystem interval startedAt).step s a s') : Paced interval startedAt s' := by
  have hsince := h.since
  cases a with
  | request reason =>
      rw [show s' = _ from hstep]
      exact paced_later h rfl le_rfl hsince
  | stop =>
      rw [show s' = _ from hstep]
      exact paced_later h rfl le_rfl hsince
  | wake early =>
      obtain ⟨-, -, rfl⟩ := hstep
      split
      · exact paced_later h rfl hsince le_rfl
      · exact paced_rebuild h (fun htimedOut => by cases htimedOut) _ early
  | timeout early =>
      obtain ⟨since, hphase, hdue, rfl⟩ := hstep
      have hwait : s.since = since := by rw [ReconcileLoop.since, hphase]
      exact paced_rebuild h (fun _ => hwait ▸ hdue) _ early
  | complete generation =>
      obtain ⟨reason, hphase, rfl⟩ := hstep
      exact paced_later h rfl (by simpa using hsince) ReconcileLoop.since_loop.le
  | fail =>
      obtain ⟨-, rfl⟩ := hstep
      exact paced_later h rfl (by simpa using hsince) ReconcileLoop.since_loop.le
  | cancel =>
      rcases hstep with ⟨-, rfl⟩ | ⟨-, rfl⟩
      · exact paced_later h rfl hsince le_rfl
      · exact paced_later h rfl hsince le_rfl
  | elapse seconds =>
      obtain ⟨hseconds, rfl⟩ := hstep
      refine paced_later h rfl ?_ ?_
      · unfold ReconcileLoop.since
        cases s.phase with
        | waiting since => exact le_rfl
        | rebuilding reason => exact le_add_of_nonneg_right hseconds
        | ended => exact le_add_of_nonneg_right hseconds
      · unfold ReconcileLoop.since at hsince ⊢
        cases hphase : s.phase with
        | waiting since =>
            rw [hphase] at hsince
            exact hsince.trans (le_add_of_nonneg_right hseconds)
        | rebuilding reason => exact le_rfl
        | ended => exact le_rfl

theorem paced_init (h : (reconcileSystem interval startedAt).init s) :
    Paced interval startedAt s := by
  obtain ⟨-, -, hphase, hnow, hbegun⟩ := h
  have hsince : s.since = startedAt := by rw [ReconcileLoop.since, hphase]
  refine ⟨hsince.ge, by rw [hsince, hnow], ?_, ?_, ?_⟩
  · simp [hbegun]
  · simp [hbegun]
  · simp [hbegun]

end Pace

section Requests

variable {interval startedAt : ℚ} {s s' : ReconcileLoop} {a : ReconcileStep}
  {trace : List ReconcileStep}

def requestReason (reason : Str) : Str := if reason = [] then "requested" else reason

/-- The reason asked for, as a rebuild gives it. -/
def ReconcileStep.asks : ReconcileStep → Option Str
  | .request reason => some (requestReason reason)
  | _ => none

/-- What the rebuilds that the interval did not begin give as their reasons. -/
def ReconcileLoop.answers (s : ReconcileLoop) : List Str :=
  (s.begun.filter fun b => !b.timedOut).map Begun.reason

/-- The rebuilds that the interval did not begin answer requests, each one of its own and in
their order; one request at a time waits for a rebuild. -/
structure Asked (trace : List ReconcileStep) (s : ReconcileLoop) : Prop where
  matched : (s.answers ++ (s.reconciler.stats.pendingReason.map requestReason).toList).Sublist
    (trace.filterMap ReconcileStep.asks)
  trigger : s.reconciler.trigger = true →
    s.stopped = true ∨ s.reconciler.stats.pendingReason.isSome = true

theorem Asked.answered (h : Asked trace s) :
    s.answers.Sublist (trace.filterMap ReconcileStep.asks) :=
  (List.sublist_append_left _ _).trans h.matched

theorem asked_append (h : Asked trace s) (a : ReconcileStep) : Asked (trace ++ [a]) s := by
  refine ⟨h.matched.trans ?_, h.trigger⟩
  rw [List.filterMap_append]
  exact List.sublist_append_left _ _

theorem asked_same (h : Asked trace s) (hbegun : s'.begun = s.begun)
    (hpending : s'.reconciler.stats.pendingReason = s.reconciler.stats.pendingReason)
    (htrigger : s'.reconciler.trigger = s.reconciler.trigger) (hstopped : s'.stopped = s.stopped) :
    Asked trace s' := by
  refine ⟨?_, ?_⟩
  · rw [ReconcileLoop.answers, hbegun, hpending]
    exact h.matched
  · rw [htrigger, hstopped, hpending]
    exact h.trigger

theorem asked_cleared (hpending : s'.reconciler.stats.pendingReason = none)
    (htrigger : s'.reconciler.trigger = false)
    (hanswers : s'.answers.Sublist (trace.filterMap ReconcileStep.asks)) : Asked trace s' := by
  refine ⟨?_, ?_⟩
  · rw [hpending, Option.map_none, Option.toList_none, List.append_nil]
    exact hanswers
  · simp [htrigger]

theorem requestedReason_of_pending {r : Reconciler} {reason : Str}
    (h : r.stats.pendingReason = some reason) : r.requestedReason = requestReason reason := by
  unfold Reconciler.requestedReason requestReason
  rw [h]
  cases reason with
  | nil => rfl
  | cons c rest => rfl

theorem asked_request (h : Asked trace s) (reason : Str) :
    Asked (trace ++ [.request reason])
      { s with reconciler := s.reconciler.request reason } := by
  unfold Reconciler.request
  split
  · exact asked_append h _
  · refine ⟨?_, fun _ => .inr rfl⟩
    rw [List.filterMap_append]
    exact h.answered.append (List.Sublist.refl [requestReason reason])

theorem answers_rebuild (timedOut : Bool) (reason : Str) (early : Bool) :
    (s.rebuild timedOut reason early).answers =
      s.answers ++ if timedOut then [] else [reason] := by
  rw [ReconcileLoop.answers, ReconcileLoop.begun_rebuild, List.filter_append, List.map_append,
    List.filter_singleton]
  cases timedOut <;> rfl

theorem asked_wake (h : Asked trace s) (htrigger : s.reconciler.trigger = true)
    (hstopped : s.stopped = false) (early : Bool) :
    Asked trace (s.rebuild false s.reconciler.requestedReason early) := by
  have hsome : s.reconciler.stats.pendingReason.isSome = true := by
    rcases h.trigger htrigger with hstop | hpending
    · rw [hstopped] at hstop
      cases hstop
    · exact hpending
  obtain ⟨reason, hreason⟩ := Option.isSome_iff_exists.mp hsome
  refine asked_cleared (by simp) (by simp) ?_
  have hmatched := h.matched
  rw [hreason] at hmatched
  rw [answers_rebuild, requestedReason_of_pending hreason]
  exact hmatched

theorem asked_timeout (h : Asked trace s) (reason : Str) (early : Bool) :
    Asked trace (s.rebuild true reason early) := by
  refine asked_cleared (by simp) (by simp) ?_
  rw [answers_rebuild, if_pos rfl, List.append_nil]
  exact h.answered

theorem asked_leave (h : Asked trace s) : Asked trace s.leave := asked_cleared rfl rfl h.answered

theorem asked_step (h : Asked trace s)
    (hstep : (reconcileSystem interval startedAt).step s a s') : Asked (trace ++ [a]) s' := by
  cases a with
  | request reason =>
      rw [show s' = _ from hstep]
      exact asked_request h reason
  | stop =>
      rw [show s' = _ from hstep]
      apply asked_append
      exact ⟨h.matched, fun _ => .inl rfl⟩
  | wake early =>
      obtain ⟨-, htrigger, rfl⟩ := hstep
      apply asked_append
      cases hstopped : s.stopped with
      | true => exact asked_leave h
      | false => exact asked_wake h htrigger hstopped early
  | timeout early =>
      obtain ⟨since, -, -, rfl⟩ := hstep
      exact asked_append (asked_timeout h _ early) _
  | complete generation =>
      obtain ⟨reason, -, rfl⟩ := hstep
      apply asked_append
      exact asked_same h rfl rfl rfl rfl
  | fail =>
      obtain ⟨-, rfl⟩ := hstep
      apply asked_append
      exact asked_same h rfl rfl rfl rfl
  | cancel =>
      apply asked_append
      rcases hstep with ⟨-, rfl⟩ | ⟨-, rfl⟩
      · exact asked_leave h
      · exact asked_same h rfl rfl rfl rfl
  | elapse seconds =>
      obtain ⟨-, rfl⟩ := hstep
      apply asked_append
      exact asked_same h rfl rfl rfl rfl

theorem asked_init (h : (reconcileSystem interval startedAt).init s) : Asked [] s := by
  obtain ⟨⟨generation, hreconciler⟩, -, -, -, hbegun⟩ := h
  refine ⟨?_, ?_⟩
  · simp [ReconcileLoop.answers, hbegun, hreconciler]
  · simp [hreconciler]

end Requests

section Ends

variable {interval startedAt : ℚ} {s s' : ReconcileLoop} {a : ReconcileStep}
  {trace : List ReconcileStep}

def ReconcileLoop.underWay (s : ReconcileLoop) : ℕ :=
  match s.phase with
  | .rebuilding _ => 1
  | _ => 0

/-- Every rebuild ends in one of the two counters, except one that is cancelled. -/
structure RebuildsCounted (s : ReconcileLoop) : Prop where
  attempted_le : s.reconciler.attempted ≤ s.begun.length
  le_attempted : s.begun.length ≤ s.reconciler.attempted + 1
  attempted : s.phase ≠ .ended → s.begun.length = s.reconciler.attempted + s.underWay

theorem underWay_le : s.underWay ≤ 1 := by
  unfold ReconcileLoop.underWay
  split
  · exact le_rfl
  · exact Nat.zero_le 1

theorem underWay_waits (h : s.Waits) : s.underWay = 0 := by
  obtain ⟨since, hphase⟩ := h
  rw [ReconcileLoop.underWay, hphase]

theorem underWay_loop : s.loop.underWay = 0 := by
  unfold ReconcileLoop.loop ReconcileLoop.underWay
  cases s.stopped <;> rfl

theorem ended_ne_waits (h : s.Waits) : s.phase ≠ .ended := by
  obtain ⟨since, hphase⟩ := h
  rw [hphase]
  exact LoopPhase.noConfusion

theorem counted_of_eq (h : s.begun.length = s.reconciler.attempted + s.underWay) :
    RebuildsCounted s := by
  have hle := @underWay_le s
  exact ⟨by omega, by omega, fun _ => h⟩

theorem counted_same (h : RebuildsCounted s) (hbegun : s'.begun = s.begun)
    (hattempted : s'.reconciler.attempted = s.reconciler.attempted)
    (hphase : s'.phase = .ended ∨ s'.phase = s.phase) : RebuildsCounted s' := by
  refine ⟨?_, ?_, fun hended => ?_⟩
  · rw [hattempted, hbegun]
    exact h.attempted_le
  · rw [hattempted, hbegun]
    exact h.le_attempted
  · have hsame : s'.phase = s.phase := hphase.resolve_left hended
    have hunder : s'.underWay = s.underWay := by
      unfold ReconcileLoop.underWay
      rw [hsame]
    rw [hsame] at hended
    rw [hbegun, hattempted, hunder]
    exact h.attempted hended

theorem attempted_rebuild (timedOut : Bool) (reason : Str) (early : Bool) :
    (s.rebuild timedOut reason early).reconciler.attempted +
      (s.rebuild timedOut reason early).underWay = s.reconciler.attempted + 1 := by
  cases early with
  | false => rfl
  | true =>
      unfold ReconcileLoop.rebuild
      rw [if_pos rfl, underWay_loop]
      rfl

theorem counted_rebuild (h : RebuildsCounted s) (hwaits : s.Waits) (timedOut : Bool) (reason : Str)
    (early : Bool) : RebuildsCounted (s.rebuild timedOut reason early) := by
  have hwas := h.attempted (ended_ne_waits hwaits)
  rw [underWay_waits hwaits] at hwas
  apply counted_of_eq
  rw [attempted_rebuild, ReconcileLoop.begun_rebuild, List.length_append, List.length_singleton]
  omega

theorem counted_loop (h : RebuildsCounted s) {reason : Str}
    (hphase : s.phase = .rebuilding reason) {reconciler : Reconciler}
    (hattempted : reconciler.attempted = s.reconciler.attempted + 1) :
    RebuildsCounted (ReconcileLoop.loop { s with reconciler := reconciler }) := by
  have hwas := h.attempted (by rw [hphase]; exact LoopPhase.noConfusion)
  have hunder : s.underWay = 1 := by rw [ReconcileLoop.underWay, hphase]
  apply counted_of_eq
  rw [underWay_loop]
  change s.begun.length = reconciler.attempted + 0
  omega

theorem attempted_request (r : Reconciler) (reason : Str) :
    (r.request reason).attempted = r.attempted := by
  unfold Reconciler.request
  split <;> rfl

theorem attempted_completed (r : Reconciler) (reason : Str) (generation : ℕ) :
    (r.completed reason generation).attempted = r.attempted + 1 :=
  Nat.add_right_comm _ _ _

theorem counted_step (h : RebuildsCounted s)
    (hstep : (reconcileSystem interval startedAt).step s a s') : RebuildsCounted s' := by
  cases a with
  | request reason =>
      rw [show s' = _ from hstep]
      exact counted_same h rfl (attempted_request _ reason) (.inr rfl)
  | stop =>
      rw [show s' = _ from hstep]
      exact counted_same h rfl rfl (.inr rfl)
  | wake early =>
      obtain ⟨hwaits, -, rfl⟩ := hstep
      split
      · exact counted_same h rfl rfl (.inl rfl)
      · exact counted_rebuild h hwaits _ _ early
  | timeout early =>
      obtain ⟨since, hphase, -, rfl⟩ := hstep
      exact counted_rebuild h ⟨since, hphase⟩ _ _ early
  | complete generation =>
      obtain ⟨reason, hphase, rfl⟩ := hstep
      exact counted_loop h hphase (attempted_completed _ reason generation)
  | fail =>
      obtain ⟨⟨reason, hphase⟩, rfl⟩ := hstep
      exact counted_loop h hphase rfl
  | cancel =>
      rcases hstep with ⟨-, rfl⟩ | ⟨-, rfl⟩
      · exact counted_same h rfl rfl (.inl rfl)
      · exact counted_same h rfl rfl (.inl rfl)
  | elapse seconds =>
      obtain ⟨-, rfl⟩ := hstep
      exact counted_same h rfl rfl (.inr rfl)

theorem counted_init (h : (reconcileSystem interval startedAt).init s) :
    RebuildsCounted s := by
  obtain ⟨⟨generation, hreconciler⟩, -, hphase, -, hbegun⟩ := h
  apply counted_of_eq
  rw [hbegun, hreconciler, ReconcileLoop.underWay, hphase]
  rfl

def ReconcileLoop.begunStopped (s : ReconcileLoop) : List Begun := s.begun.filter Begun.stopped

/-- A stop lets one more rebuild begin at most, when the interval is up with it. -/
structure Halted (s : ReconcileLoop) : Prop where
  waiting : s.Waits → s.begunStopped = []
  stopped : s.begunStopped ≠ [] → s.stopped = true
  last : s.begunStopped.length ≤ 1
  timedOut : ∀ b ∈ s.begunStopped, b.timedOut = true

theorem halted_same (h : Halted s) (hbegun : s'.begun = s.begun)
    (hstopped : s.stopped = true → s'.stopped = true) (hwaits : s'.Waits → s.begunStopped = []) :
    Halted s' := by
  have hsame : s'.begunStopped = s.begunStopped := by
    unfold ReconcileLoop.begunStopped
    rw [hbegun]
  refine ⟨?_, ?_, ?_, ?_⟩
  · rw [hsame]
    exact hwaits
  · rw [hsame]
    exact fun hne => hstopped (h.stopped hne)
  · rw [hsame]
    exact h.last
  · rw [hsame]
    exact h.timedOut

theorem begunStopped_rebuild (timedOut : Bool) (reason : Str) (early : Bool) :
    (s.rebuild timedOut reason early).begunStopped =
      s.begunStopped ++ if s.stopped then [⟨timedOut, reason, s.stopped, s.now⟩] else [] := by
  unfold ReconcileLoop.begunStopped
  rw [ReconcileLoop.begun_rebuild, List.filter_append, List.filter_singleton]
  cases s.stopped <;> rfl

theorem stopped_of_waits_loop (h : s.loop.Waits) : s.stopped = false := by
  obtain ⟨since, hphase⟩ := h
  unfold ReconcileLoop.loop at hphase
  cases hstopped : s.stopped with
  | false => rfl
  | true =>
      rw [hstopped] at hphase
      cases hphase

theorem begunStopped_of_running (h : Halted s) (hstopped : s.stopped = false) :
    s.begunStopped = [] := by
  by_contra hne
  rw [h.stopped hne] at hstopped
  cases hstopped

theorem waits_rebuild {timedOut : Bool} {reason : Str} {early : Bool}
    (h : (s.rebuild timedOut reason early).Waits) : s.stopped = false := by
  cases early with
  | false =>
      obtain ⟨since, hphase⟩ := h
      cases hphase
  | true => exact stopped_of_waits_loop h

theorem halted_rebuild (h : Halted s) (hwaits : s.Waits) {timedOut : Bool}
    (hcause : s.stopped = true → timedOut = true) (reason : Str) (early : Bool) :
    Halted (s.rebuild timedOut reason early) := by
  have hnone : s.begunStopped = [] := h.waiting hwaits
  have hbegun := @begunStopped_rebuild s timedOut reason early
  rw [hnone, List.nil_append] at hbegun
  refine ⟨fun hagain => ?_, fun hne => ?_, ?_, fun b hb => ?_⟩
  · rw [hbegun, waits_rebuild hagain]
    rfl
  · rw [ReconcileLoop.stopped_rebuild]
    by_contra hstopped
    rw [hbegun, if_neg hstopped] at hne
    exact hne rfl
  · rw [hbegun]
    split <;> simp
  · rw [hbegun] at hb
    split at hb
    · rename_i hstopped
      rw [List.mem_singleton.mp hb]
      exact hcause hstopped
    · cases hb

theorem halted_loop (h : Halted s) (reconciler : Reconciler) :
    Halted (ReconcileLoop.loop { s with reconciler := reconciler }) :=
  halted_same h rfl id fun hwaits => begunStopped_of_running h (stopped_of_waits_loop hwaits)

theorem halted_step (h : Halted s)
    (hstep : (reconcileSystem interval startedAt).step s a s') : Halted s' := by
  cases a with
  | request reason =>
      rw [show s' = _ from hstep]
      exact halted_same h rfl id h.waiting
  | stop =>
      rw [show s' = _ from hstep]
      exact halted_same h rfl (fun _ => rfl) h.waiting
  | wake early =>
      obtain ⟨hwaits, -, rfl⟩ := hstep
      split
      · exact halted_same h rfl id fun _ => h.waiting hwaits
      · rename_i hstopped
        exact halted_rebuild h hwaits (fun hstop => absurd hstop hstopped) _ early
  | timeout early =>
      obtain ⟨since, hphase, -, rfl⟩ := hstep
      exact halted_rebuild h ⟨since, hphase⟩ (fun _ => rfl) _ early
  | complete generation =>
      obtain ⟨reason, -, rfl⟩ := hstep
      exact halted_loop h _
  | fail =>
      obtain ⟨-, rfl⟩ := hstep
      exact halted_loop h _
  | cancel =>
      rcases hstep with ⟨hwaits, rfl⟩ | ⟨-, rfl⟩
      · exact halted_same h rfl id fun _ => h.waiting hwaits
      · refine halted_same h rfl id fun hwaits => ?_
        obtain ⟨since, hphase⟩ := hwaits
        cases hphase
  | elapse seconds =>
      obtain ⟨-, rfl⟩ := hstep
      exact halted_same h rfl id h.waiting

theorem halted_init (h : (reconcileSystem interval startedAt).init s) : Halted s := by
  obtain ⟨-, -, -, -, hbegun⟩ := h
  have hnone : s.begunStopped = [] := by rw [ReconcileLoop.begunStopped, hbegun]; rfl
  refine ⟨fun _ => hnone, fun hne => absurd hnone hne, ?_, ?_⟩
  · simp [hnone]
  · simp [hnone]

end Ends

section Run

variable {interval startedAt : ℚ} {trace : List ReconcileStep} {s : ReconcileLoop}

theorem asked_run (hrun : Reaches (reconcileSystem interval startedAt) anyStep trace s) :
    Asked trace s := by
  induction hrun with
  | init hs => exact asked_init hs
  | step _ _ hstep ih => exact asked_step ih hstep

/-- In every run of the loop, whatever fails or is cancelled: a rebuild that its interval begins
does so that long after the start and after every rebuild before it, the other rebuilds answer
requests made before them, one each, in order and with their reasons, the two counters together
are the rebuilds that were begun, but for one that is under way or was cancelled, and after
`stop` no rebuild begins but one whose interval was up by then. -/
theorem rebuilds_accounted (hrun : Reaches (reconcileSystem interval startedAt) anyStep trace s) :
    (∀ b ∈ s.begun, b.timedOut = true → startedAt + interval ≤ b.time) ∧
      s.begun.Pairwise (KeepsDistance interval) ∧
      s.answers.Sublist (trace.filterMap ReconcileStep.asks) ∧
      (s.Waits → s.reconciler.stats.rebuilds + s.reconciler.stats.failures = s.begun.length) ∧
      s.reconciler.stats.rebuilds + s.reconciler.stats.failures ≤ s.begun.length ∧
      s.begun.length ≤ s.reconciler.stats.rebuilds + s.reconciler.stats.failures + 1 ∧
      s.begunStopped.length ≤ 1 ∧ ∀ b ∈ s.begunStopped, b.timedOut = true := by
  have hpaced : Paced interval startedAt s :=
    hrun.invariant (fun _ => paced_init) fun _ _ _ h _ => paced_step h
  have hcounted : RebuildsCounted s :=
    hrun.invariant (fun _ => counted_init) fun _ _ _ h _ => counted_step h
  have hhalted : Halted s :=
    hrun.invariant (fun _ => halted_init) fun _ _ _ h _ => halted_step h
  refine ⟨hpaced.first, hpaced.spaced, (asked_run hrun).answered, fun hwaits => ?_,
    hcounted.attempted_le, hcounted.le_attempted, hhalted.last, hhalted.timedOut⟩
  have heq := hcounted.attempted (ended_ne_waits hwaits)
  rw [underWay_waits hwaits] at heq
  exact heq.symm

/-- A rebuild that was asked for goes through, and the next one, an interval later, is stopped
in its course and fails. -/
theorem rebuilds_accounted_stopped : ∃ trace s,
    Reaches (reconcileSystem 60 0) anyStep trace s ∧
      s.begun = [⟨false, "overlay_full", false, 5⟩, ⟨true, "scheduled", false, 65⟩] ∧
      s.phase = .ended ∧ s.reconciler.stats.rebuilds = 1 ∧ s.reconciler.stats.failures = 1 ∧
      ((∀ b ∈ s.begun, b.timedOut = true → 0 + 60 ≤ b.time) ∧
        s.begun.Pairwise (KeepsDistance 60) ∧
        s.answers.Sublist (trace.filterMap ReconcileStep.asks) ∧
        (s.Waits → s.reconciler.stats.rebuilds + s.reconciler.stats.failures = s.begun.length) ∧
        s.reconciler.stats.rebuilds + s.reconciler.stats.failures ≤ s.begun.length ∧
        s.begun.length ≤ s.reconciler.stats.rebuilds + s.reconciler.stats.failures + 1 ∧
        s.begunStopped.length ≤ 1 ∧ ∀ b ∈ s.begunStopped, b.timedOut = true) := by
  let reason : Str := "overlay_full"
  let start : ReconcileLoop := ⟨⟨{ generation := 1 }, false⟩, false, .waiting 0, 0, []⟩
  let soon := { start with now := 5 }
  let asked := { soon with reconciler := soon.reconciler.request reason }
  let first := asked.rebuild false reason false
  let done := ReconcileLoop.loop { first with reconciler := first.reconciler.completed reason 2 }
  let later := { done with now := 65 }
  let second := later.rebuild true "scheduled" false
  let stopped := { second with reconciler := second.reconciler.stop, stopped := true }
  let last := ReconcileLoop.loop { stopped with reconciler := stopped.reconciler.failed }
  have hinit : (reconcileSystem 60 0).init start := ⟨⟨1, rfl⟩, rfl, rfl, rfl, rfl⟩
  have hsoon : (reconcileSystem 60 0).step start (.elapse 5) soon := by
    refine ⟨by norm_num, ?_⟩
    simp [start, soon]
  have hasked : (reconcileSystem 60 0).step soon (.request reason) asked := rfl
  have hfirst : (reconcileSystem 60 0).step asked (.wake false) first := ⟨⟨0, rfl⟩, rfl, rfl⟩
  have hdone : (reconcileSystem 60 0).step first (.complete 2) done := ⟨reason, rfl, rfl⟩
  have hlater : (reconcileSystem 60 0).step done (.elapse 60) later := by
    refine ⟨by norm_num, ?_⟩
    have htime : (65 : ℚ) = done.now + 60 := by
      change (65 : ℚ) = 5 + 60
      norm_num
    rw [← htime]
  have hsecond : (reconcileSystem 60 0).step later (.timeout false) second :=
    ⟨5, rfl, by change (5 : ℚ) + 60 ≤ 65; norm_num, rfl⟩
  have hstopped : (reconcileSystem 60 0).step second .stop stopped := rfl
  have hlast : (reconcileSystem 60 0).step stopped .fail last := ⟨⟨"scheduled", rfl⟩, rfl⟩
  have hrun : Reaches (reconcileSystem 60 0) anyStep _ later :=
    (((((Reaches.init hinit).step trivial hsoon).step trivial hasked).step trivial hfirst).step
      trivial hdone).step trivial hlater
  have hend := ((hrun.step trivial hsecond).step trivial hstopped).step trivial hlast
  exact ⟨_, last, hend, rfl, rfl, rfl, rfl, rebuilds_accounted hend⟩

end Run

end OpenctiLookup
