import Mathlib.Data.List.Induction
import Mathlib.Data.Rat.Lemmas
import Mathlib.Algebra.Order.Field.Rat
import Mathlib.Tactic.Linarith

/-! `CircuitBreaker` of `opencti/client.py`. The half-open state is never
stored: it is read off the clock, so the stored state, the failure count and
the opening time have to stay consistent over every timed sequence of calls. -/
namespace OpenctiLookup

inductive BreakerState where
  | closed
  | opened
  | halfOpen
deriving DecidableEq, Repr

structure CircuitBreaker where
  failThreshold : ℤ := 5
  resetAfterS : ℚ := 30
  /-- `_state`. -/
  stored : BreakerState := .closed
  failures : ℕ := 0
  openedAt : ℚ := 0
deriving DecidableEq

namespace CircuitBreaker

/-- The `state` property at the instant `now`. -/
def state (b : CircuitBreaker) (now : ℚ) : BreakerState :=
  if b.stored = .opened ∧ now - b.openedAt ≥ b.resetAfterS then .halfOpen else b.stored

def allows (b : CircuitBreaker) (now : ℚ) : Bool := decide (b.state now ≠ .opened)

def recordSuccess (b : CircuitBreaker) : CircuitBreaker :=
  { b with stored := .closed, failures := 0 }

def recordFailure (b : CircuitBreaker) (now : ℚ) : CircuitBreaker :=
  let b := { b with failures := b.failures + 1 }
  -- The guard reads the stored state, which is still `OPEN` while a probe runs.
  if b.failThreshold ≤ (b.failures : ℤ) ∧ b.stored ≠ .opened then
    { b with stored := .opened, openedAt := now }
  else b

end CircuitBreaker

inductive Outcome where
  | success
  | failure
deriving DecidableEq, Repr

/-- One `record_success` or `record_failure` call. -/
structure Call where
  time : ℚ
  outcome : Outcome
deriving DecidableEq

namespace CircuitBreaker

def record (b : CircuitBreaker) (call : Call) : CircuitBreaker :=
  match call.outcome with
  | .success => b.recordSuccess
  | .failure => b.recordFailure call.time

def recordAll (b : CircuitBreaker) (calls : List Call) : CircuitBreaker := calls.foldl record b

def new (failThreshold : ℤ) (resetAfterS : ℚ) : CircuitBreaker where
  failThreshold := failThreshold
  resetAfterS := resetAfterS

end CircuitBreaker

/-- What a breaker with a failed-probe rule goes by: the failures since the last
success, and when it last opened or re-opened. -/
structure History where
  failures : ℕ := 0
  lastOpened : Option ℚ := none

namespace History

/-- The history after one call: a failure opens when it reaches the threshold,
and re-opens when the breaker `b` it is recorded on is half-open. -/
def after (h : History) (b : CircuitBreaker) (call : Call) : History :=
  match call.outcome with
  | .success => { h with failures := 0 }
  | .failure =>
      let opens := ((h.failures + 1 : ℕ) : ℤ) = b.failThreshold ∨ b.state call.time = .halfOpen
      { failures := h.failures + 1
        lastOpened := if opens then some call.time else h.lastOpened }

def afterAll : History → CircuitBreaker → List Call → History
  | h, _, [] => h
  | h, b, call :: calls => afterAll (h.after b call) (b.record call) calls

def Blocked (h : History) (failThreshold : ℤ) (resetAfterS now : ℚ) : Prop :=
  failThreshold ≤ (h.failures : ℤ) ∧ ∃ opened, h.lastOpened = some opened ∧
    now - opened < resetAfterS

end History

namespace CircuitBreaker

section Calls

variable (b : CircuitBreaker) (call : Call) (calls : List Call)

theorem recordAll_snoc : b.recordAll (calls ++ [call]) = (b.recordAll calls).record call := by
  simp [recordAll]

theorem afterAll_snoc (h : History) :
    h.afterAll b (calls ++ [call]) = (h.afterAll b calls).after (b.recordAll calls) call := by
  induction calls generalizing h b with
  | nil => rfl
  | cons first calls ih =>
      rw [List.cons_append, History.afterAll, History.afterAll, ih]
      rfl

@[simp] theorem record_failThreshold : (b.record call).failThreshold = b.failThreshold := by
  unfold record recordSuccess recordFailure
  cases call.outcome with
  | success => rfl
  | failure => dsimp only; split <;> rfl

@[simp] theorem record_resetAfterS : (b.record call).resetAfterS = b.resetAfterS := by
  unfold record recordSuccess recordFailure
  cases call.outcome with
  | success => rfl
  | failure => dsimp only; split <;> rfl

theorem allows_eq_false_iff (now : ℚ) :
    b.allows now = false ↔ b.stored = .opened ∧ now - b.openedAt < b.resetAfterS := by
  unfold allows state
  by_cases hstored : b.stored = .opened
  · by_cases helapsed : now - b.openedAt ≥ b.resetAfterS
    · simp [hstored, helapsed]
    · simp [hstored, not_le.mp helapsed, not_le.mpr (not_le.mp helapsed)]
  · simp [hstored]

theorem state_eq_halfOpen_iff (hstored : b.stored ≠ .halfOpen) (now : ℚ) :
    b.state now = .halfOpen ↔ b.stored = .opened ∧ b.resetAfterS ≤ now - b.openedAt := by
  unfold state
  by_cases h : b.stored = .opened ∧ now - b.openedAt ≥ b.resetAfterS
  · simp [h]
  · rw [if_neg h]
    exact ⟨fun hs => absurd hs hstored, fun hs => absurd hs h⟩

end Calls

/-- What the breaker and the history agree on after every sequence of calls,
failed probes included. -/
structure Agrees (b : CircuitBreaker) (h : History) (done : List Call) : Prop where
  stored_ne_halfOpen : b.stored ≠ .halfOpen
  failures_eq : b.failures = h.failures
  opened_iff : b.stored = .opened ↔ b.failThreshold ≤ (b.failures : ℤ)
  openedAt_mem : b.stored = .opened → ∃ call ∈ done, call.time = b.openedAt
  lastOpened_mem : ∀ opened, h.lastOpened = some opened → ∃ call ∈ done, call.time = opened

theorem agrees_record {b : CircuitBreaker} {h : History} {done : List Call}
    (hagrees : Agrees b h done) (hthreshold : 1 ≤ b.failThreshold) (call : Call) :
    Agrees (b.record call) (h.after b call) (done ++ [call]) := by
  have hkeep : ∀ time : ℚ, (∃ c ∈ done, c.time = time) → ∃ c ∈ done ++ [call], c.time = time :=
    fun time ⟨c, hc, htime⟩ => ⟨c, List.mem_append_left _ hc, htime⟩
  have hlast : ∃ c ∈ done ++ [call], c.time = call.time := ⟨call, by simp, rfl⟩
  have hfailures := hagrees.failures_eq
  cases houtcome : call.outcome with
  | success =>
      simp only [record, History.after, houtcome, recordSuccess]
      exact ⟨by simp, rfl, by simp; omega, by simp, fun t ht =>
        hkeep t (hagrees.lastOpened_mem t ht)⟩
  | failure =>
      have hlastOpened : ∀ opened, (h.after b call).lastOpened = some opened →
          ∃ c ∈ done ++ [call], c.time = opened := by
        intro opened hopened
        simp only [History.after, houtcome] at hopened
        split at hopened
        · exact Option.some.inj hopened ▸ hlast
        · exact hkeep opened (hagrees.lastOpened_mem opened hopened)
      simp only [record, houtcome, recordFailure]
      by_cases hopens : b.failThreshold ≤ ((b.failures + 1 : ℕ) : ℤ) ∧ b.stored ≠ .opened
      · rw [if_pos hopens]
        exact ⟨by simp, by simp [History.after, houtcome, hfailures],
          ⟨fun _ => hopens.1, fun _ => rfl⟩, fun _ => hlast, hlastOpened⟩
      · rw [if_neg hopens]
        refine ⟨hagrees.stored_ne_halfOpen, by simp [History.after, houtcome, hfailures], ?_,
          fun hstored => hkeep _ (hagrees.openedAt_mem hstored), hlastOpened⟩
        have hopened := hagrees.opened_iff
        constructor
        · intro hstored
          have := hopened.mp hstored
          push_cast
          omega
        · intro hfull
          by_contra hstored
          exact hopens ⟨hfull, hstored⟩

section Run

variable {failThreshold : ℤ} {resetAfterS : ℚ}

@[simp] theorem recordAll_failThreshold (calls : List Call) (b : CircuitBreaker) :
    (b.recordAll calls).failThreshold = b.failThreshold := by
  induction calls using List.reverseRecOn with
  | nil => rfl
  | append_singleton calls call ih => rw [recordAll_snoc, record_failThreshold, ih]

@[simp] theorem recordAll_resetAfterS (calls : List Call) (b : CircuitBreaker) :
    (b.recordAll calls).resetAfterS = b.resetAfterS := by
  induction calls using List.reverseRecOn with
  | nil => rfl
  | append_singleton calls call ih => rw [recordAll_snoc, record_resetAfterS, ih]

def historyOf (failThreshold : ℤ) (resetAfterS : ℚ) (done : List Call) : History :=
  History.afterAll {} (new failThreshold resetAfterS) done

theorem agrees_run (hthreshold : 1 ≤ failThreshold) (done : List Call) :
    Agrees ((new failThreshold resetAfterS).recordAll done)
      (historyOf failThreshold resetAfterS done) done := by
  induction done using List.reverseRecOn with
  | nil =>
      refine ⟨by simp [recordAll, new], rfl, ?_, by simp [recordAll, new],
        by simp [historyOf, History.afterAll]⟩
      simp [recordAll, new]
      omega
  | append_singleton done call ih =>
      rw [historyOf, recordAll_snoc, afterAll_snoc]
      exact agrees_record ih (by simpa [new] using hthreshold) call

/-- `call` is a failure recorded while the breaker is half-open: a failed probe. -/
def FailedProbe (b : CircuitBreaker) (call : Call) : Prop :=
  call.outcome = .failure ∧ b.state call.time = .halfOpen

/-- Without failed probes the stored opening time is when the breaker last opened. -/
theorem lastOpened_eq (hthreshold : 1 ≤ failThreshold) (done : List Call)
    (hprobes : ∀ before call after, done = before ++ call :: after →
      ¬ FailedProbe ((new failThreshold resetAfterS).recordAll before) call)
    (hstored : ((new failThreshold resetAfterS).recordAll done).stored = .opened) :
    (historyOf failThreshold resetAfterS done).lastOpened =
      some ((new failThreshold resetAfterS).recordAll done).openedAt := by
  induction done using List.reverseRecOn with
  | nil => simp [recordAll, new] at hstored
  | append_singleton done call ih =>
      have hagrees : Agrees _ _ done := @agrees_run failThreshold resetAfterS hthreshold done
      have hprobe : ¬ FailedProbe ((new failThreshold resetAfterS).recordAll done) call :=
        hprobes done call [] rfl
      have ih := ih fun before c after heq =>
        hprobes before c (after ++ [call]) (by rw [heq, List.append_assoc, List.cons_append])
      rw [historyOf, recordAll_snoc, afterAll_snoc, ← historyOf] at *
      generalize hb : (new failThreshold resetAfterS).recordAll done = b at *
      have hsame : b.failThreshold = failThreshold := by rw [← hb]; simp [new]
      cases houtcome : call.outcome with
      | success => simp [record, houtcome, recordSuccess] at hstored
      | failure =>
          have hstate : b.state call.time ≠ .halfOpen := fun h => hprobe ⟨houtcome, h⟩
          have hopened := hagrees.opened_iff
          simp only [record, houtcome, recordFailure] at hstored ⊢
          simp only [History.after, houtcome, hstate, or_false, ← hagrees.failures_eq]
          by_cases hopens : b.failThreshold ≤ ((b.failures + 1 : ℕ) : ℤ) ∧ b.stored ≠ .opened
          · -- The failure that reaches the threshold.
            have hreaches : ((b.failures + 1 : ℕ) : ℤ) = b.failThreshold := by
              have := mt hopened.mpr hopens.2
              have := hopens.1
              push_cast at *
              omega
            rw [if_pos hopens, if_pos hreaches]
          · rw [if_neg hopens] at hstored ⊢
            have hpast : ((b.failures + 1 : ℕ) : ℤ) ≠ b.failThreshold := by
              have := hopened.mp hstored
              push_cast
              omega
            rw [if_neg hpast]
            exact ih hstored

/-- Right after a failed probe the breaker still lets calls through, since the opening
time has stayed where it was. -/
theorem allows_after_failedProbe (hthreshold : 1 ≤ failThreshold) {done : List Call} {call : Call}
    (hprobe : FailedProbe ((new failThreshold resetAfterS).recordAll done) call) :
    ¬ ((new failThreshold resetAfterS).recordAll (done ++ [call])).allows call.time = false := by
  obtain ⟨houtcome, hstate⟩ := hprobe
  have hagrees := @agrees_run failThreshold resetAfterS hthreshold done
  rw [state_eq_halfOpen_iff _ hagrees.stored_ne_halfOpen] at hstate
  have hsame : ((new failThreshold resetAfterS).recordAll done).record call =
      { (new failThreshold resetAfterS).recordAll done with
        failures := ((new failThreshold resetAfterS).recordAll done).failures + 1 } := by
    simp [record, houtcome, recordFailure, hstate.1]
  rw [recordAll_snoc, allows_eq_false_iff, hsame]
  exact fun hrefused => absurd hrefused.2 (not_lt.mpr hstate.2)

theorem blocked_after_failedProbe (hthreshold : 1 ≤ failThreshold) (hreset : 0 < resetAfterS)
    {done : List Call} {call : Call}
    (hprobe : FailedProbe ((new failThreshold resetAfterS).recordAll done) call) :
    (historyOf failThreshold resetAfterS (done ++ [call])).Blocked failThreshold resetAfterS
      call.time := by
  obtain ⟨houtcome, hhalf⟩ := hprobe
  have hagrees := @agrees_run failThreshold resetAfterS hthreshold done
  have hstate := (state_eq_halfOpen_iff _ hagrees.stored_ne_halfOpen call.time).mp hhalf
  have hfull := hagrees.opened_iff.mp hstate.1
  rw [hagrees.failures_eq] at hfull
  simp only [recordAll_failThreshold, new] at hfull
  rw [historyOf, afterAll_snoc, ← historyOf]
  simp only [History.Blocked, History.after, houtcome, hhalf, or_true, if_true]
  refine ⟨?_, call.time, rfl, by linarith⟩
  push_cast
  omega

theorem refuses_iff_of_reset_nonpos (hthreshold : 1 ≤ failThreshold) (hreset : resetAfterS ≤ 0)
    {done : List Call} {now : ℚ} (hpast : ∀ call ∈ done, call.time ≤ now) :
    ((new failThreshold resetAfterS).recordAll done).allows now = false ↔
      (historyOf failThreshold resetAfterS done).Blocked failThreshold resetAfterS now := by
  have hagrees := @agrees_run failThreshold resetAfterS hthreshold done
  have hsame : ((new failThreshold resetAfterS).recordAll done).resetAfterS = resetAfterS := by
    simp [new]
  rw [allows_eq_false_iff, hsame]
  apply iff_of_false
  · rintro ⟨hstored, hlt⟩
    obtain ⟨c, hc, htime⟩ := hagrees.openedAt_mem hstored
    have := hpast c hc
    linarith
  · rintro ⟨-, opened, hopened, hlt⟩
    obtain ⟨c, hc, htime⟩ := hagrees.lastOpened_mem opened hopened
    have := hpast c hc
    linarith

theorem refuses_iff_of_no_failedProbe (hthreshold : 1 ≤ failThreshold) {done : List Call}
    (hprobes : ∀ before call after, done = before ++ call :: after →
      ¬ FailedProbe ((new failThreshold resetAfterS).recordAll before) call) (now : ℚ) :
    ((new failThreshold resetAfterS).recordAll done).allows now = false ↔
      (historyOf failThreshold resetAfterS done).Blocked failThreshold resetAfterS now := by
  have hagrees := @agrees_run failThreshold resetAfterS hthreshold done
  have hlast := lastOpened_eq hthreshold done hprobes
  have hsame : ((new failThreshold resetAfterS).recordAll done).resetAfterS = resetAfterS := by
    simp [new]
  have hfull := hagrees.opened_iff
  rw [hagrees.failures_eq] at hfull
  simp only [recordAll_failThreshold, new] at hfull
  rw [allows_eq_false_iff, hsame]
  constructor
  · rintro ⟨hstored, hlt⟩
    exact ⟨hfull.mp hstored, _, hlast hstored, hlt⟩
  · rintro ⟨hfailures, opened, hopened, hlt⟩
    have hstored := hfull.mpr hfailures
    rw [hlast hstored, Option.some.injEq] at hopened
    exact ⟨hstored, hopened ▸ hlt⟩

end Run

/-- At every instant between the calls of a sequence, the breaker refuses
exactly when its history blocks. -/
def RefusesExactlyWhenBlocked (failThreshold : ℤ) (resetAfterS : ℚ) (calls : List Call) : Prop :=
  ∀ done later now, calls = done ++ later → (∀ call ∈ done, call.time ≤ now) →
    (∀ call ∈ later, now ≤ call.time) →
    (((new failThreshold resetAfterS).recordAll done).allows now = false ↔
      (historyOf failThreshold resetAfterS done).Blocked failThreshold resetAfterS now)

/-- The breaker keeps its contract exactly as long as no probe fails: a failure
recorded while half-open leaves the opening time where it was. -/
theorem refuses_exactly_when_blocked_iff (failThreshold : ℤ) (resetAfterS : ℚ)
    (calls : List Call) (hthreshold : 1 ≤ failThreshold)
    (hsorted : calls.Pairwise fun first second => first.time ≤ second.time) :
    RefusesExactlyWhenBlocked failThreshold resetAfterS calls ↔
      resetAfterS ≤ 0 ∨ ∀ done call later, calls = done ++ call :: later →
        ¬ FailedProbe ((new failThreshold resetAfterS).recordAll done) call := by
  constructor
  · intro hcontract
    by_contra hneither
    push Not at hneither
    obtain ⟨hreset, done, call, later, rfl, hprobe⟩ := hneither
    -- The instant right after the failed probe refutes the contract.
    rw [List.pairwise_append, List.pairwise_cons] at hsorted
    have hbefore : ∀ c ∈ done ++ [call], c.time ≤ call.time := by
      intro c hc
      rcases List.mem_append.mp hc with hc | hc
      · exact hsorted.2.2 c hc call List.mem_cons_self
      · rw [List.mem_singleton.mp hc]
    have hafter := hcontract (done ++ [call]) later call.time (by simp) hbefore
      fun c hc => hsorted.2.1.1 c hc
    exact allows_after_failedProbe hthreshold hprobe
      (hafter.mpr (blocked_after_failedProbe hthreshold hreset hprobe))
  · intro hcondition done later now hcalls hpast _
    rcases hcondition with hzero | hprobes
    · exact refuses_iff_of_reset_nonpos hthreshold hzero hpast
    · refine refuses_iff_of_no_failedProbe hthreshold (fun before c after heq => ?_) now
      exact hprobes before c (after ++ later) (by rw [hcalls, heq]; simp)

/-- A probe that succeeds after the reset time keeps the contract. -/
theorem refuses_exactly_when_blocked_successful_probe :
    RefusesExactlyWhenBlocked 1 30 [⟨0, .failure⟩, ⟨30, .success⟩] := by
  refine (refuses_exactly_when_blocked_iff 1 30 _ (by decide) (by simp)).mpr (.inr ?_)
  rintro done call later hcalls ⟨hfailure, hstate⟩
  rcases List.cons_eq_append_iff.mp hcalls with ⟨rfl, heq⟩ | ⟨tail, rfl, heq⟩
  · obtain ⟨rfl, -⟩ := List.cons.inj heq
    exact absurd hstate (by decide +kernel)
  · rcases List.cons_eq_append_iff.mp heq with ⟨rfl, heq⟩ | ⟨tail, rfl, heq⟩
    · obtain ⟨rfl, -⟩ := List.cons.inj heq
      cases hfailure
    · simp at heq

/-- A probe that fails at the reset time leaves the breaker half-open. -/
theorem refuses_exactly_when_blocked_failed_probe :
    ¬ ∀ (failThreshold : ℤ) (resetAfterS : ℚ) (calls : List Call), 1 ≤ failThreshold →
      (calls.Pairwise fun first second => first.time ≤ second.time) →
      RefusesExactlyWhenBlocked failThreshold resetAfterS calls := by
  intro hall
  have hcontract := hall 1 30 [⟨0, .failure⟩, ⟨30, .failure⟩] (by decide) (by simp)
  have hiff := hcontract [⟨0, .failure⟩, ⟨30, .failure⟩] [] 30 rfl (by simp) (by simp)
  have hallows : ((new 1 30).recordAll [⟨0, .failure⟩, ⟨30, .failure⟩]).allows 30 = true := by
    decide +kernel
  have hhistory : (historyOf 1 30 [⟨0, .failure⟩, ⟨30, .failure⟩]).lastOpened = some 30 := by
    decide +kernel
  have hblocked : (historyOf 1 30 [⟨0, .failure⟩, ⟨30, .failure⟩]).Blocked 1 30 30 :=
    ⟨by decide, 30, hhistory, by norm_num⟩
  rw [hallows] at hiff
  exact Bool.noConfusion (hiff.mpr hblocked)

end CircuitBreaker

end OpenctiLookup
