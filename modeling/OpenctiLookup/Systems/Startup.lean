import Mathlib.Algebra.BigOperators.Ring.Finset
import OpenctiLookup.Opencti.Breaker
import OpenctiLookup.Systems.Lifespan

/-! The start of a worker as `/readyz` shows it: its role, whether it is ready, and the retries
of a first load that has failed. -/
namespace OpenctiLookup
open Python Theory

/-- The settings of `_retry_bootstrap`, within the bounds of their fields. -/
structure BootstrapRetry where
  retryS : ℚ
  retryMaxS : ℚ
  retry_pos : 0 < retryS
  max_pos : 0 < retryMaxS

def Role.name : Role → Str
  | .builder => "builder"
  | .reader => "reader"
  | .solo => "solo"
  | .none => "none"

structure Startup where
  process : Lifespan
  /-- `app.state.membership_role`, once it is set. -/
  role : Option Str := none
  /-- The loads that have failed. -/
  attempt : ℕ := 0
  delay : ℚ := 0
  now : ℚ := 0
  /-- When the sleep of `_retry_bootstrap` is over. -/
  sleepsUntil : ℚ := 0

/-- The role `_activate` sets, read off the process it has activated. -/
def Lifespan.activatedRole (s : Lifespan) : Str :=
  match s.membership, s.loaded with
  | some _, some role => role.name
  | _, _ => if s.split then "attaching" else "none"

/-- The body of `/readyz`, as far as it is about the start. -/
structure Readiness where
  status : ℕ
  ready : Bool
  role : Str
deriving DecidableEq

namespace Startup

variable (retry : BootstrapRetry) (s : Startup)

/-- What `lifespan` does of its own beside a step of the process. -/
def follow (step : LifespanStep) (process : Lifespan) : Startup :=
  match step with
  | .load _ _ _ _ => { s with process := process, role := some process.activatedRole }
  | .loadFails =>
      let delay :=
        if s.attempt = 0 then min retry.retryS retry.retryMaxS
        else min (s.delay * 2) retry.retryMaxS
      { s with
        process := process
        role := if s.attempt = 0 then some "bootstrapping".toList else s.role
        attempt := s.attempt + 1
        delay := delay
        sleepsUntil := s.now + delay }
  | .adopt => { s with process := process, role := some "reader".toList }
  | _ => { s with process := process }

/-- `ready` of the backend that `app.state` has. -/
def ready (breaker : CircuitBreaker) : Bool :=
  if s.process.split then s.process.ready && breaker.allows s.now else breaker.allows s.now

def readyz (breaker : CircuitBreaker) : Readiness where
  status := if s.ready breaker then 200 else 503
  ready := s.ready breaker
  role := s.role.getD "none"

end Startup

inductive StartupStep where
  | process (step : LifespanStep)
  | wait (seconds : ℚ)

def LifespanStep.Loads : LifespanStep → Prop
  | .load _ _ _ _ | .loadFails => True
  | _ => False

def startupSystem (rt : Runtime) (settings : Settings) (budgetBytes : ℕ) (retry : BootstrapRetry) :
    System Startup StartupStep where
  init s := ∃ host, s = { process := .start settings host }
  step s a s' :=
    match a with
    | .wait seconds => 0 ≤ seconds ∧ s' = { s with now := s.now + seconds }
    | .process step =>
        (step.Loads → s.sleepsUntil ≤ s.now) ∧ ∃ process,
          (lifespanSystem rt settings budgetBytes).step s.process step process ∧
            s' = s.follow retry step process

section Roles

variable {rt : Runtime} {settings : Settings} {budgetBytes : ℕ} {retry : BootstrapRetry}
  {s s' : Startup} {trace : List StartupStep}

theorem reaches_process (hrun : Reaches (startupSystem rt settings budgetBytes retry) anyStep
    trace s) :
    ∃ steps, Reaches (lifespanSystem rt settings budgetBytes) anyStep steps s.process := by
  induction hrun with
  | init hinit =>
      obtain ⟨host, rfl⟩ := hinit
      exact ⟨[], .init ⟨host, rfl⟩⟩
  | @step trace s s' a _ _ hstep ih =>
      obtain ⟨steps, hsteps⟩ := ih
      cases a with
      | wait seconds =>
          obtain ⟨-, rfl⟩ := hstep
          exact ⟨steps, hsteps⟩
      | process step =>
          obtain ⟨-, process, hprocess, rfl⟩ := hstep
          have hfollow : (s.follow retry step process).process = process := by
            unfold Startup.follow
            split <;> rfl
          exact ⟨_, hfollow ▸ hsteps.step trivial hprocess⟩

/-- What the role says of the process. -/
structure Startup.Reported (s : Startup) : Prop where
  unloaded : s.process.loaded = none → s.process.ready = false ∧ s.process.watched = none ∧
    s.process.split = decide (0 < s.attempt) ∧
      s.role = if s.attempt = 0 then none else some "bootstrapping".toList
  watched : ∀ generation, s.process.watched = some generation → s.process.split = true
  active : s.process.ready = true → s.process.split = true ∧
    ∃ role : Role, role ≠ .none ∧ s.role = some role.name
  pending : s.process.loaded ≠ none → s.process.ready = false →
    s.role = some (if s.process.split then "attaching".toList else "none".toList) ∧
      (s.process.split = true → s.process.watched.isSome = true)

theorem reported_start (host : Host) :
    Startup.Reported { process := .start settings host } where
  unloaded _ := ⟨rfl, rfl, rfl, rfl⟩
  watched := nofun
  active := nofun
  pending h := absurd rfl h

theorem reported_of_same (h : s.Reported) (hrole : s'.role = s.role)
    (hattempt : s'.attempt = s.attempt) (hloaded : s'.process.loaded = s.process.loaded)
    (hready : s'.process.ready = s.process.ready)
    (hwatched : s'.process.watched = s.process.watched)
    (hsplit : s'.process.split = s.process.split) : s'.Reported where
  unloaded := by
    rw [hloaded, hready, hwatched, hsplit, hattempt, hrole]
    exact h.unloaded
  watched := by
    rw [hwatched, hsplit]
    exact h.watched
  active := by
    rw [hready, hsplit, hrole]
    exact h.active
  pending := by
    rw [hloaded, hready, hwatched, hsplit, hrole]
    exact h.pending

section Load

variable {client : BootstrapClient} {now : ℚ} {lockFree : Bool} {waited host host' : Host}
  {loaded : LoadedMembership}

theorem role_ne_none_of_load (h : load rt settings client now budgetBytes lockFree waited host =
      .ok (loaded, host')) {set : MembershipSet} (hset : loaded.membership = some set) :
    loaded.role ≠ .none := by
  rcases load_eq_ok h with ⟨built, -, rfl, -⟩ | ⟨built, report, segments, -, rfl, -⟩ |
    ⟨state, built, -, -, rfl, -⟩ | rfl
  · exact nofun
  · exact nofun
  · exact nofun
  · cases hset

/-- A load with a set makes the backend ready. Without one the backend is the live one, or waits
for a generation to attach to. -/
theorem reported_load {again : Prop} (hwired : s.process.Wired again)
    (hphase : s.process.phase = .loading)
    (hload : load rt settings client now budgetBytes lockFree waited host = .ok (loaded, host'))
    (stateDir : Bool) :
    let process := Lifespan.activate { s.process with host := host' } loaded stateDir
    Startup.Reported { s with process := process, role := some process.activatedRole } := by
  have hready := (hwired.loading hphase).2
  dsimp only
  cases hset : loaded.membership with
  | none =>
      have hrole := role_of_load hload hset
      unfold Lifespan.activate Lifespan.activatedRole
      rw [hset, hrole]
      refine ⟨nofun, ?_, ?_, ?_⟩
      · intro generation hwatched
        by_contra hdir
        dsimp only at hwatched hdir
        rw [if_neg fun hdir' => hdir hdir'.1] at hwatched
        cases hwatched
      · intro hserves
        cases hready.symm.trans hserves
      · intro _ _
        dsimp only
        cases stateDir <;> simp
  | some set =>
      have hrole := role_ne_none_of_load hload hset
      have hlt : (Lifespan.mk host' s.process.phase s.process.sets s.process.made s.process.served
        s.process.ready s.process.split s.process.membership s.process.loaded s.process.watched
          s.process.reconciler).served < s.process.made := hwired.served_lt
      unfold Lifespan.activate Lifespan.activatedRole
      rw [hset]
      dsimp only
      rw [Lifespan.swapIn_eq hlt]
      refine ⟨nofun, fun _ _ => rfl, fun _ => ⟨rfl, loaded.role, hrole, rfl⟩, nofun⟩

end Load

theorem reported_loadFails {again : Prop} (h : s.Reported) (hwired : s.process.Wired again)
    (hphase : s.process.phase = .loading) :
    (s.follow retry .loadFails { s.process with split := true }).Reported := by
  obtain ⟨hloaded, hready⟩ := hwired.loading hphase
  obtain ⟨-, hwatched, -, hrole⟩ := h.unloaded hloaded
  unfold Startup.follow
  refine ⟨fun _ => ⟨hready, hwatched, ?_, ?_⟩, fun _ _ => rfl, ?_, fun hnot => absurd hloaded hnot⟩
  · simp
  · dsimp only
    rw [hrole, if_neg (Nat.succ_ne_zero _)]
    split <;> rfl
  · intro hserves
    cases hready.symm.trans hserves

theorem reported_adopt {again : Prop} (h : s.Reported) (hwired : s.process.Wired again)
    {generation : ℕ} (hwatched : s.process.watched = some generation) (set : MembershipSet)
    (adopted : ℕ) :
    Startup.Reported
      { s with process := s.process.adopt set adopted, role := some "reader".toList } := by
  have hsplit := h.watched generation hwatched
  have hloaded : s.process.loaded ≠ none := fun hnone => by
    cases hwatched.symm.trans (h.unloaded hnone).2.1
  unfold Lifespan.adopt
  rw [Lifespan.swapIn_eq hwired.served_lt]
  exact ⟨fun hnone => absurd hnone hloaded, fun _ _ => hsplit,
    fun _ => ⟨hsplit, .reader, nofun, rfl⟩, nofun⟩

theorem reported_install {again : Prop} (h : s.Reported) (hwired : s.process.Wired again)
    (hreconciler : s.process.reconciler = true) (previous : Option SharedMembershipState)
    (built : BuiltGeneration) :
    Startup.Reported { s with process := s.process.install previous built } := by
  have hbuilder := hwired.reconciler hreconciler
  have hready : s.process.ready = true := by
    by_contra hinactive
    exact (hwired.inactive (Bool.eq_false_iff.mpr hinactive)).2 hbuilder
  unfold Lifespan.install
  rw [Lifespan.swapIn_eq hwired.served_lt]
  have hloaded : s.process.loaded ≠ none := fun hnone => by cases hbuilder.symm.trans hnone
  exact ⟨fun hnone => absurd hnone hloaded, h.watched, fun _ => h.active hready, nofun⟩

theorem reported_step {a : StartupStep} {again : Prop} (h : s.Reported)
    (hwired : s.process.Wired again)
    (hstep : (startupSystem rt settings budgetBytes retry).step s a s') : s'.Reported := by
  cases a with
  | wait seconds =>
      obtain ⟨-, rfl⟩ := hstep
      exact reported_of_same h rfl rfl rfl rfl rfl rfl
  | process step =>
      obtain ⟨-, process, hprocess, rfl⟩ := hstep
      cases step with
      | load client now lockFree waited =>
          obtain ⟨hphase, corpus, loaded, host, -, hload, rfl⟩ := hprocess
          exact reported_load hwired hphase hload _
      | loadFails =>
          obtain ⟨hphase, rfl⟩ := hprocess
          exact reported_loadFails h hwired hphase
      | adopt =>
          obtain ⟨-, generation, set, adopted, hwatched, -, rfl⟩ := hprocess
          exact reported_adopt h hwired hwatched set adopted
      | rebuild client now =>
          obtain ⟨-, hreconciler, built, -, rfl⟩ := hprocess
          exact reported_install h hwired hreconciler _ built
      | add value =>
          obtain ⟨-, rfl⟩ := hprocess
          exact reported_of_same h rfl rfl rfl rfl rfl rfl
      | remove value =>
          obtain ⟨-, rfl⟩ := hprocess
          exact reported_of_same h rfl rfl rfl rfl rfl rfl
      | others host =>
          obtain rfl := hprocess
          exact reported_of_same h rfl rfl rfl rfl rfl rfl
      | shutdown =>
          obtain ⟨-, rfl⟩ := hprocess
          unfold Lifespan.shutdown
          split
          · exact reported_of_same h rfl rfl rfl rfl rfl rfl
          · exact reported_of_same h rfl rfl rfl rfl rfl rfl
      | exit =>
          obtain rfl := hprocess
          exact reported_of_same h rfl rfl rfl rfl rfl rfl

theorem reported_run (hrun : Reaches (startupSystem rt settings budgetBytes retry) anyStep
    trace s) : s.Reported := by
  induction hrun with
  | init hinit =>
      obtain ⟨host, rfl⟩ := hinit
      exact reported_start host
  | step hbefore _ hstep ih =>
      obtain ⟨steps, hsteps⟩ := reaches_process hbefore
      exact reported_step ih (wired_run hsteps) hstep

/-- In every state a worker can reach, `/readyz` is 200 exactly when the breaker lets requests
through and the role is neither of the two that wait for a set. A worker that waits for a set
reads `bootstrapping` until a load goes through and `attaching` from then on, with a watcher that
runs. Only one without a split backend reads `none`. -/
theorem readyz_reports (hrun : Reaches (startupSystem rt settings budgetBytes retry) anyStep
    trace s) (breaker : CircuitBreaker) :
    let answer := s.readyz breaker
    (answer.status = 200 ↔ breaker.allows s.now = true ∧ answer.role ≠ "bootstrapping" ∧
      answer.role ≠ "attaching") ∧
      (answer.role = "bootstrapping" ↔ s.process.loaded = none ∧ 0 < s.attempt) ∧
      (answer.role = "attaching" → s.process.loaded ≠ none ∧ s.process.watched.isSome = true) ∧
      (answer.role = "none" ↔ s.process.split = false) := by
  have h := reported_run hrun
  dsimp only
  unfold Startup.readyz Startup.ready
  dsimp only
  cases hloaded : s.process.loaded with
  | none =>
      obtain ⟨hready, -, hsplit, hrole⟩ := h.unloaded hloaded
      rw [hready, hsplit, hrole]
      rcases Nat.eq_zero_or_pos s.attempt with hattempt | hattempt
      · rw [hattempt]
        cases breaker.allows s.now <;> simp
      · rw [if_neg hattempt.ne', decide_eq_true hattempt, if_pos rfl]
        simp [hattempt]
  | some role =>
      have hsome : s.process.loaded ≠ none := by simp [hloaded]
      cases hready : s.process.ready with
      | true =>
          obtain ⟨hsplit, name, hname, hrole⟩ := h.active hready
          rw [hsplit, hrole, if_pos rfl]
          have hnames : name.name ≠ "bootstrapping".toList ∧ name.name ≠ "attaching".toList ∧
              name.name ≠ "none".toList := by
            cases name with
            | none => exact absurd rfl hname
            | builder | reader | solo => decide
          simp only [String.reduceToList] at hnames
          cases breaker.allows s.now <;> simp [hnames]
      | false =>
          obtain ⟨hrole, hwatched⟩ := h.pending hsome hready
          rw [hrole]
          cases hsplit : s.process.split with
          | true => simp [hwatched hsplit]
          | false => cases breaker.allows s.now <;> simp

end Roles

section Retries

/-- The delay before attempt `n + 2`. -/
def bootstrapDelay (retry : BootstrapRetry) (n : ℕ) : ℚ :=
  min (retry.retryS * 2 ^ n) retry.retryMaxS

def elapsed (trace : List StartupStep) : ℚ :=
  (trace.map fun step => match step with
    | .wait seconds => seconds
    | .process _ => 0).sum

def failedLoads (trace : List StartupStep) : ℕ :=
  trace.countP fun step => match step with
    | .process .loadFails => true
    | _ => false

variable {rt : Runtime} {settings : Settings} {budgetBytes : ℕ} {retry : BootstrapRetry}
  {s s' : Startup} {trace before after : List StartupStep} {step : LifespanStep}

theorem bootstrapDelay_zero : bootstrapDelay retry 0 = min retry.retryS retry.retryMaxS := by
  rw [bootstrapDelay, pow_zero, mul_one]

theorem bootstrapDelay_succ (n : ℕ) :
    min (bootstrapDelay retry n * 2) retry.retryMaxS = bootstrapDelay retry (n + 1) := by
  have hmax := retry.max_pos
  unfold bootstrapDelay
  rw [pow_succ, ← mul_assoc]
  rcases le_total (retry.retryS * 2 ^ n) retry.retryMaxS with hle | hle
  · rw [min_eq_left hle]
  · rw [min_eq_right hle, min_eq_right (by linarith), min_eq_right (by linarith)]

/-- What the retries have to do with the trace. -/
structure Startup.Paced (retry : BootstrapRetry) (trace : List StartupStep) (s : Startup) :
    Prop where
  clock : s.now = elapsed trace
  attempts : s.attempt = failedLoads trace
  delay : 0 < s.attempt → s.delay = bootstrapDelay retry (s.attempt - 1)
  slept : ∑ n ∈ Finset.range s.attempt, bootstrapDelay retry n ≤ s.sleepsUntil
  /-- The sleep of each failed load, or of one after it, is still to be kept. -/
  gaps : ∀ earlier, earlier ++ [.process .loadFails] <+: trace →
    elapsed earlier + bootstrapDelay retry (failedLoads earlier) ≤ s.sleepsUntil

theorem bootstrapDelay_nonneg (n : ℕ) : 0 ≤ bootstrapDelay retry n :=
  le_min (mul_nonneg retry.retry_pos.le (by positivity)) retry.max_pos.le

theorem elapsed_append (trace more : List StartupStep) :
    elapsed (trace ++ more) = elapsed trace + elapsed more := by
  simp [elapsed]

theorem elapsed_process (step : LifespanStep) :
    elapsed (trace ++ [.process step]) = elapsed trace := by
  simp [elapsed]

theorem elapsed_wait (seconds : ℚ) :
    elapsed (trace ++ [.wait seconds]) = elapsed trace + seconds := by
  simp [elapsed]

theorem paced_start (host : Host) :
    Startup.Paced retry [] { process := .start settings host } where
  clock := rfl
  attempts := rfl
  delay := fun h => absurd h (Nat.lt_irrefl 0)
  slept := le_rfl
  gaps := fun earlier h => absurd (List.prefix_nil.mp h) (by simp)

theorem paced_wait (h : s.Paced retry trace) (seconds : ℚ) :
    Startup.Paced retry (trace ++ [.wait seconds]) { s with now := s.now + seconds } where
  clock := by rw [elapsed_wait, ← h.clock]
  attempts := by simp [failedLoads, h.attempts]
  delay := h.delay
  slept := h.slept
  gaps := by
    intro earlier hearlier
    rcases List.prefix_concat_iff.mp hearlier with heq | hearlier
    · cases (List.append_inj' heq rfl).2
    · exact h.gaps earlier hearlier

/-- A load that fails is followed by twice the last delay, or the longest one. -/
theorem paced_loadFails (h : s.Paced retry trace) (hslept : s.sleepsUntil ≤ s.now)
    (process : Lifespan) :
    (s.follow retry .loadFails process).Paced retry (trace ++ [.process .loadFails]) := by
  have hdelay : (s.follow retry .loadFails process).delay = bootstrapDelay retry s.attempt := by
    unfold Startup.follow
    dsimp only
    split
    · next hfirst => rw [hfirst, bootstrapDelay_zero]
    · next hagain =>
        have hpos := Nat.pos_of_ne_zero hagain
        rw [h.delay hpos, bootstrapDelay_succ, Nat.sub_add_cancel hpos]
  have hsleeps : (s.follow retry .loadFails process).sleepsUntil =
      s.now + (s.follow retry .loadFails process).delay := rfl
  have hattempt : (s.follow retry .loadFails process).attempt = s.attempt + 1 := rfl
  constructor
  · rw [elapsed_process, ← h.clock]
    rfl
  · rw [hattempt, h.attempts]
    simp [failedLoads]
  · intro _
    rw [hdelay, hattempt, Nat.add_sub_cancel]
  · rw [hattempt, Finset.sum_range_succ, hsleeps, hdelay]
    have hbefore := h.slept
    linarith
  · rw [hsleeps, hdelay]
    have hpositive := @bootstrapDelay_nonneg retry s.attempt
    intro earlier hearlier
    rcases List.prefix_concat_iff.mp hearlier with heq | hearlier
    · rw [(List.append_inj' heq rfl).1, h.clock, h.attempts]
    · have hgap := h.gaps earlier hearlier
      linarith

theorem paced_follow (h : s.Paced retry trace) {step : LifespanStep}
    (hslept : step.Loads → s.sleepsUntil ≤ s.now) (process : Lifespan) :
    (s.follow retry step process).Paced retry (trace ++ [.process step]) := by
  have hother : ∀ s' : Startup, step ≠ .loadFails → s'.now = s.now → s'.attempt = s.attempt →
      s'.delay = s.delay → s'.sleepsUntil = s.sleepsUntil →
        s'.Paced retry (trace ++ [.process step]) := by
    intro s' hstep hnow hattempt hdelay hsleeps
    constructor
    · rw [elapsed_process, hnow, h.clock]
    · rw [hattempt, h.attempts]
      cases step with
      | loadFails => exact absurd rfl hstep
      | _ => simp [failedLoads]
    · rw [hattempt, hdelay]
      exact h.delay
    · rw [hattempt, hsleeps]
      exact h.slept
    · rw [hsleeps]
      intro earlier hearlier
      rcases List.prefix_concat_iff.mp hearlier with heq | hearlier
      · cases (List.append_inj' heq rfl).2
        exact absurd rfl hstep
      · exact h.gaps earlier hearlier
  cases step with
  | loadFails => exact paced_loadFails h (hslept trivial) process
  | _ => exact hother _ nofun rfl rfl rfl rfl

theorem paced_run (hrun : Reaches (startupSystem rt settings budgetBytes retry) anyStep
    trace s) : s.Paced retry trace := by
  induction hrun with
  | init hinit =>
      obtain ⟨host, rfl⟩ := hinit
      exact paced_start host
  | @step trace s s' a _ _ hstep ih =>
      cases a with
      | wait seconds =>
          obtain ⟨-, rfl⟩ := hstep
          exact paced_wait ih seconds
      | process step =>
          obtain ⟨hslept, process, -, rfl⟩ := hstep
          exact paced_follow ih hslept process

/-- In every run the delays between the attempts at the first load double up to the longest one:
no attempt is made within the delay of a load that failed before it, nor, after `k` failures,
before the first `k` of these delays have passed. -/
theorem retries_spaced (hrun : Reaches (startupSystem rt settings budgetBytes retry) anyStep
      (before ++ .process step :: after) s) (hloads : step.Loads) :
    (∀ earlier between, before = earlier ++ .process .loadFails :: between →
      min (retry.retryS * 2 ^ failedLoads earlier) retry.retryMaxS ≤ elapsed between) ∧
      ∑ n ∈ Finset.range (failedLoads before),
        min (retry.retryS * 2 ^ n) retry.retryMaxS ≤ elapsed before := by
  obtain ⟨s₁, s₂, hbefore, -, hslept, -⟩ := hrun.split
  have h := paced_run hbefore
  have hwoken := hslept hloads
  rw [h.clock] at hwoken
  refine ⟨fun earlier between heq => ?_, ?_⟩
  · have hgap := h.gaps earlier ⟨between, by rw [heq]; simp⟩
    have htime : elapsed before = elapsed earlier + elapsed between := by
      rw [heq, List.append_cons, elapsed_append, elapsed_process]
    rw [bootstrapDelay] at hgap
    linarith
  · rw [← h.attempts]
    exact h.slept.trans hwoken

end Retries

section Sample

def sampleRetry : BootstrapRetry := ⟨5, 300, by norm_num, by norm_num⟩

def failedOnce : Startup :=
  Startup.follow sampleRetry { process := .start (sampleSettings 50000) bareHost } .loadFails
    { Lifespan.start (sampleSettings 50000) bareHost with split := true }

theorem reaches_failedOnce :
    Reaches (startupSystem sampleRuntime (sampleSettings 50000) 1024 sampleRetry) anyStep
      [.process .loadFails] failedOnce := by
  have hstart : Reaches (startupSystem sampleRuntime (sampleSettings 50000) 1024 sampleRetry)
      anyStep [] { process := .start (sampleSettings 50000) bareHost } := .init ⟨bareHost, rfl⟩
  exact hstart.step trivial (show (startupSystem _ _ _ _).step _ (.process .loadFails) _ from
    ⟨fun _ => le_rfl, _, ⟨rfl, rfl⟩, rfl⟩)

theorem reaches_failedTwice : ∃ s,
    Reaches (startupSystem sampleRuntime (sampleSettings 50000) 1024 sampleRetry) anyStep
      [.process .loadFails, .wait 5, .process .loadFails] s := by
  have hdelay : failedOnce.sleepsUntil = 5 := by
    have hmin : min (5 : ℚ) 300 = 5 := by norm_num
    exact (zero_add _).trans hmin
  have hwaited := reaches_failedOnce.step trivial
    (show (startupSystem _ _ _ _).step failedOnce (.wait 5) _ from ⟨by norm_num, rfl⟩)
  refine ⟨_, hwaited.step trivial ⟨fun _ => ?_, _, ⟨rfl, rfl⟩, rfl⟩⟩
  rw [hdelay]
  exact (zero_add (5 : ℚ)).ge

/-- It waits for a set, though the breaker is closed. -/
theorem readyz_reports_failedOnce :
    (failedOnce.readyz {}).role = "bootstrapping" ∧ (failedOnce.readyz {}).status ≠ 200 := by
  obtain ⟨hready, hrole, -⟩ := readyz_reports reaches_failedOnce {}
  have hbootstrapping := hrole.mpr ⟨rfl, by decide⟩
  exact ⟨hbootstrapping, fun hstatus => (hready.mp hstatus).2.1 hbootstrapping⟩

theorem retries_spaced_twice :
    (∀ earlier between, [.process .loadFails, .wait 5] = earlier ++ .process .loadFails :: between →
      min (sampleRetry.retryS * 2 ^ failedLoads earlier) sampleRetry.retryMaxS ≤
        elapsed between) ∧
      ∑ n ∈ Finset.range 1, min (sampleRetry.retryS * 2 ^ n) sampleRetry.retryMaxS ≤
        elapsed [.process .loadFails, .wait 5] := by
  obtain ⟨s, hrun⟩ := reaches_failedTwice
  have hcount : failedLoads [.process .loadFails, .wait 5] = 1 := rfl
  rw [← hcount]
  exact @retries_spaced _ _ _ _ _ [.process .loadFails, .wait 5] [] .loadFails hrun trivial

end Sample

end OpenctiLookup
