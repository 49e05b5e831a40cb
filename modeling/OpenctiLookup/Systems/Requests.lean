import OpenctiLookup.Opencti.Client
import OpenctiLookup.Theory.Runs

/-! The concurrent `execute` calls of one client. A call asks the breaker once, before it
waits for a slot and before it sleeps ahead of a retry, and meanwhile the others go on telling
the breaker of their failures. -/
namespace OpenctiLookup
open Python Theory

/-- Where an `execute` is suspended. -/
inductive CallPhase where
  /-- On the semaphore, the breaker check behind it. -/
  | queued (retryConnect : Bool)
  /-- On a `post`, with a slot. -/
  | posting (retryConnect : Bool) (attempt : ℕ)
  /-- In the sleep before the next attempt, still with the slot. -/
  | asleep (retryConnect : Bool) (attempt : ℕ) (wakeAt : ℚ)
  | returned (result : Py Json)

namespace CallPhase

/-- A `post` may follow that the breaker is not asked about. -/
def Pending : CallPhase → Prop
  | .queued _ | .asleep _ _ _ => True
  | _ => False

def holdsSlot : CallPhase → Bool
  | .posting _ _ | .asleep _ _ _ => true
  | _ => false

theorem not_pending_posting (retryConnect : Bool) (attempt : ℕ) :
    ¬ (posting retryConnect attempt).Pending := id

theorem not_pending_returned (result : Py Json) : ¬ (returned result).Pending := id

end CallPhase

structure ClientState where
  breaker : CircuitBreaker
  /-- `time.monotonic()`. -/
  now : ℚ
  /-- The value of the semaphore. -/
  slots : ℕ
  calls : ℕ → Option CallPhase
  /-- The breaker's state at the start of each `post`. -/
  posts : List BreakerState

inductive ClientStep where
  | call (id : ℕ) (retryConnect : Bool)
  | acquire (id : ℕ)
  | reply (id : ℕ) (reply : Reply)
  | wake (id : ℕ)
  /-- The task of a call is cancelled, or its `post` raises what `execute` does not catch. -/
  | abort (id : ℕ) (fault : Fault)
  | elapse (seconds : ℚ)

def retryDelay : ℚ := 1 / 20

/-- `attempts` of `execute`. -/
def attemptsOf (retryConnect : Bool) : ℕ := if retryConnect then 2 else 1

def CircuitBreaker.tell (b : CircuitBreaker) (now : ℚ) (reports : List Report) : CircuitBreaker :=
  reports.foldl (fun b report =>
    match report with
    | .success => b.recordSuccess
    | .failure _ => b.recordFailure now) b

namespace ClientState

variable (rt : Runtime) (s : ClientState)

def breakerState : BreakerState := s.breaker.state s.now

def set (id : ℕ) (phase : CallPhase) : ClientState :=
  { s with calls := Function.update s.calls id (some phase) }

def post (id : ℕ) (retryConnect : Bool) (attempt : ℕ) : ClientState :=
  { s.set id (.posting retryConnect attempt) with posts := s.posts ++ [s.breakerState] }

/-- `Semaphore.locked`: a waiter goes before a newcomer. -/
def Locked : Prop := s.slots = 0 ∨ ∃ id retryConnect, s.calls id = some (.queued retryConnect)

def leave (id : ℕ) (execution : Execution) : ClientState :=
  { s.set id (.returned execution.result) with
    breaker := s.breaker.tell s.now execution.reports
    slots := s.slots + 1 }

def retries (retryConnect : Bool) (attempt : ℕ) : Reply → Bool
  | .connectError _ => decide (attempt + 1 < attemptsOf retryConnect)
  | _ => false

def afterReply (id : ℕ) (retryConnect : Bool) (attempt : ℕ) (reply : Reply) : ClientState :=
  if retries retryConnect attempt reply then
    s.set id (.asleep retryConnect attempt (s.now + retryDelay))
  else s.leave id (attempts rt [reply])

def afterAbort (id : ℕ) (phase : CallPhase) (fault : Fault) : ClientState :=
  if phase.holdsSlot then s.leave id ⟨[], .error fault⟩ else s.set id (.returned (.error fault))

end ClientState

variable (rt : Runtime)

theorem execute_eq_afterReply {exchange : Exchange} (hallowed : exchange.refused = false)
    (retryConnect : Bool) :
    execute rt retryConnect exchange =
      if ClientState.retries retryConnect 0 (exchange.replies 0) then
        attempts rt [exchange.replies 1]
      else attempts rt [exchange.replies 0] := by
  rw [execute, hallowed, if_neg Bool.false_ne_true]
  cases retryConnect with
  | false =>
      have hone : (List.range 1).map exchange.replies = [exchange.replies 0] := rfl
      rw [if_neg Bool.false_ne_true, hone]
      cases exchange.replies 0 <;> rfl
  | true =>
      have hpair : (List.range 2).map exchange.replies =
          [exchange.replies 0, exchange.replies 1] := rfl
      rw [if_pos rfl, hpair]
      cases exchange.replies 0 <;> rfl

/-- The calls of a client from its construction on. The lock of the breaker is never
waited for: nothing suspends under it. -/
def clientSystem : System ClientState ClientStep where
  init s :=
    (∃ failThreshold resetAfterS, s.breaker = CircuitBreaker.new failThreshold resetAfterS) ∧
      (∀ id, s.calls id = none) ∧ s.posts = []
  step s a s' :=
    match a with
    | .call id retryConnect =>
        s.calls id = none ∧
          (s.breaker.allows s.now = false ∧
              s' = s.set id (.returned (.error (breakerOpenError "circuit breaker open"))) ∨
            s.breaker.allows s.now = true ∧
              (s.Locked ∧ s' = s.set id (.queued retryConnect) ∨
                ¬ s.Locked ∧ s' = { s.post id retryConnect 0 with slots := s.slots - 1 }))
    | .acquire id =>
        ∃ retryConnect, s.calls id = some (.queued retryConnect) ∧ 0 < s.slots ∧
          s' = { s.post id retryConnect 0 with slots := s.slots - 1 }
    | .reply id reply =>
        ∃ retryConnect attempt, s.calls id = some (.posting retryConnect attempt) ∧
          s' = s.afterReply rt id retryConnect attempt reply
    | .wake id =>
        ∃ retryConnect attempt wakeAt,
          s.calls id = some (.asleep retryConnect attempt wakeAt) ∧ wakeAt ≤ s.now ∧
            s' = s.post id retryConnect (attempt + 1)
    | .abort id fault =>
        ∃ phase, s.calls id = some phase ∧ (∀ result, phase ≠ .returned result) ∧
          s' = s.afterAbort id phase fault
    | .elapse seconds => 0 ≤ seconds ∧ s' = { s with now := s.now + seconds }

/-- No `post` has been started while the breaker was open. -/
def ClientState.NoneWhileOpen (s : ClientState) : Prop := BreakerState.opened ∉ s.posts

/-- The failure `reply` ends a call with opens the breaker. -/
def ClientState.OpensBreaker (s : ClientState) (reply : Reply) : Prop :=
  s.breaker.stored ≠ .opened ∧ s.breaker.failThreshold ≤ (s.breaker.failures : ℤ) + 1 ∧
    ∃ reason, (attempts rt [reply]).reports = [.failure reason]

/-- Nothing opens the breaker while another call waits for a slot or sleeps ahead of its
retry, and no call goes to sleep ahead of a retry while the breaker is open. -/
def NoneBehindCheck (s : ClientState) : ClientStep → Prop
  | .reply id reply =>
      ∀ retryConnect attempt, s.calls id = some (.posting retryConnect attempt) →
        if ClientState.retries retryConnect attempt reply then s.breakerState ≠ .opened
        else s.OpensBreaker rt reply →
          ∀ other phase, other ≠ id → s.calls other = some phase → ¬ phase.Pending
  | _ => True

section Breaker

variable {b : CircuitBreaker} {now : ℚ}

theorem allows_iff : b.allows now = true ↔ b.state now ≠ .opened := by
  rw [CircuitBreaker.allows, decide_eq_true_iff]

theorem state_ne_opened_later (h : b.state now ≠ .opened) {seconds : ℚ} (hseconds : 0 ≤ seconds) :
    b.state (now + seconds) ≠ .opened := by
  rw [← allows_iff, ← Bool.not_eq_false, CircuitBreaker.allows_eq_false_iff] at h ⊢
  rintro ⟨hstored, hlt⟩
  exact h ⟨hstored, by linarith⟩

theorem state_recordSuccess : b.recordSuccess.state now ≠ .opened := by
  simp [CircuitBreaker.state, CircuitBreaker.recordSuccess]

/-- A failure short of the threshold, or on a breaker that is open already, changes nothing
about its state. -/
theorem state_recordFailure
    (h : ¬ (b.stored ≠ .opened ∧ b.failThreshold ≤ (b.failures : ℤ) + 1)) (now' : ℚ) :
    (b.recordFailure now).state now' = b.state now' := by
  have hopens : ¬ (b.failThreshold ≤ ((b.failures + 1 : ℕ) : ℤ) ∧ b.stored ≠ .opened) := by
    push_cast
    exact fun hopens => h hopens.symm
  unfold CircuitBreaker.recordFailure
  rw [if_neg hopens]
  rfl

end Breaker

section Invariant

variable {rt} {s s' : ClientState} {id : ℕ}

/-- No call is past the check with a `post` to come while the breaker is open. -/
structure ClientState.Guarded (s : ClientState) : Prop where
  posts : s.NoneWhileOpen
  pending : ∀ id phase, s.calls id = some phase → phase.Pending → s.breakerState ≠ .opened

def Told (reports : List Report) : Prop :=
  reports = [] ∨ reports = [.success] ∨ ∃ reason, reports = [.failure reason]

theorem told_readBody (body : Json) : Told (readBody rt body).reports := by
  unfold readBody
  split
  · exact .inl rfl
  · split
    · split
      · exact .inl rfl
      · exact .inr (.inr ⟨_, rfl⟩)
    · exact .inr (.inl rfl)

theorem told_attempts (reply : Reply) : Told (attempts rt [reply]).reports := by
  cases reply with
  | connectError detail => exact .inr (.inr ⟨_, rfl⟩)
  | timeout detail => exact .inr (.inr ⟨_, rfl⟩)
  | httpError detail => exact .inr (.inr ⟨_, rfl⟩)
  | response status body =>
      unfold attempts
      split
      · exact .inr (.inr ⟨_, rfl⟩)
      · cases body with
        | none => exact .inr (.inr ⟨_, rfl⟩)
        | some body => exact told_readBody body

theorem calls_set (phase : CallPhase) (other : ℕ) :
    (s.set id phase).calls other = if other = id then some phase else s.calls other :=
  Function.update_apply _ _ _ _

theorem guarded_set (h : s.Guarded) {phase : CallPhase}
    (hphase : phase.Pending → s.breakerState ≠ .opened) : (s.set id phase).Guarded where
  posts := h.posts
  pending other phase' hother hpending := by
    rw [calls_set] at hother
    split at hother
    · obtain rfl := Option.some.inj hother
      exact hphase hpending
    · exact h.pending other phase' hother hpending

theorem guarded_post (h : s.Guarded) (hstate : s.breakerState ≠ .opened) (retryConnect : Bool)
    (attempt slots : ℕ) :
    ClientState.Guarded { s.post id retryConnect attempt with slots := slots } where
  posts := by
    intro hopened
    rcases List.mem_append.mp hopened with hold | hnew
    · exact h.posts hold
    · exact hstate (List.mem_singleton.mp hnew).symm
  pending := (guarded_set h fun hpending =>
    absurd hpending (CallPhase.not_pending_posting _ _)).pending

theorem guarded_leave (h : s.Guarded) {execution : Execution}
    (hothers : ∀ other phase, other ≠ id → s.calls other = some phase → phase.Pending →
      (s.breaker.tell s.now execution.reports).state s.now ≠ .opened) :
    (s.leave id execution).Guarded where
  posts := h.posts
  pending other phase hother hpending := by
    have hset : (s.set id (.returned execution.result)).calls other = some phase := hother
    rw [calls_set] at hset
    split at hset
    · obtain rfl := Option.some.inj hset
      exact absurd hpending (CallPhase.not_pending_returned _)
    · rename_i hne
      exact hothers other phase hne hset hpending

theorem guarded_afterReply {retryConnect : Bool} {attempt : ℕ} {reply : Reply} (h : s.Guarded)
    (hcall : s.calls id = some (.posting retryConnect attempt))
    (hbehind : NoneBehindCheck rt s (.reply id reply)) :
    (s.afterReply rt id retryConnect attempt reply).Guarded := by
  have hbehind := hbehind retryConnect attempt hcall
  unfold ClientState.afterReply
  by_cases hretries : ClientState.retries retryConnect attempt reply = true
  · rw [if_pos hretries] at hbehind ⊢
    exact guarded_set h fun _ => hbehind
  · rw [if_neg hretries] at hbehind ⊢
    refine guarded_leave h fun other phase hne hother hpending => ?_
    have hstate : s.breakerState ≠ .opened := h.pending other phase hother hpending
    rcases @told_attempts rt reply with hreports | hreports | ⟨reason, hreports⟩
    · rw [hreports]
      exact hstate
    · rw [hreports]
      exact state_recordSuccess
    · have hshort : ¬ (s.breaker.stored ≠ .opened ∧
          s.breaker.failThreshold ≤ (s.breaker.failures : ℤ) + 1) := fun hfills =>
        hbehind ⟨hfills.1, hfills.2, reason, hreports⟩ other phase hne hother hpending
      rw [hreports]
      exact fun hopened => hstate ((state_recordFailure hshort s.now).symm.trans hopened)

theorem guarded_step {a : ClientStep} (h : s.Guarded) (hbehind : NoneBehindCheck rt s a)
    (hstep : (clientSystem rt).step s a s') : s'.Guarded := by
  cases a with
  | call id retryConnect =>
      rcases hstep with ⟨-, ⟨-, rfl⟩ | ⟨hallows, ⟨-, rfl⟩ | ⟨-, rfl⟩⟩⟩
      · exact guarded_set h fun hpending => absurd hpending (CallPhase.not_pending_returned _)
      · exact guarded_set h fun _ => allows_iff.mp hallows
      · exact guarded_post h (allows_iff.mp hallows) _ _ _
  | acquire id =>
      obtain ⟨retryConnect, hcall, -, rfl⟩ := hstep
      exact guarded_post h (h.pending id _ hcall trivial) _ _ _
  | reply id reply =>
      obtain ⟨retryConnect, attempt, hcall, rfl⟩ := hstep
      exact guarded_afterReply h hcall hbehind
  | wake id =>
      obtain ⟨retryConnect, attempt, wakeAt, hcall, -, rfl⟩ := hstep
      exact guarded_post h (h.pending id _ hcall trivial) _ _ s.slots
  | abort id fault =>
      obtain ⟨phase, hcall, -, rfl⟩ := hstep
      unfold ClientState.afterAbort
      split
      · refine guarded_leave h fun other phase _ hother hpending => ?_
        exact h.pending other phase hother hpending
      · exact guarded_set h fun hpending => absurd hpending (CallPhase.not_pending_returned _)
  | elapse seconds =>
      obtain ⟨hseconds, rfl⟩ := hstep
      exact ⟨h.posts, fun id phase hcall hpending =>
        state_ne_opened_later (h.pending id phase hcall hpending) hseconds⟩

theorem guarded_init (h : (clientSystem rt).init s) : s.Guarded := by
  obtain ⟨-, hcalls, hposts⟩ := h
  refine ⟨?_, fun id phase hcall => ?_⟩
  · rw [ClientState.NoneWhileOpen, hposts]
    exact List.not_mem_nil
  · rw [hcalls] at hcall
    cases hcall

end Invariant

/-- As long as nobody is behind the check when the breaker opens, or goes to sleep behind it
while it is open, no `post` is started while it is open. -/
theorem no_post_while_open {trace : List ClientStep} {s : ClientState}
    (hrun : Reaches (clientSystem rt) (NoneBehindCheck rt) trace s) : s.NoneWhileOpen :=
  (hrun.invariant (fun _ => guarded_init) fun _ _ _ hguarded hbehind hstep =>
    guarded_step hguarded hbehind hstep).posts

section RaceSample

def sampleClient : ClientState := ⟨.new 1 30, 0, 1, fun _ => none, []⟩

def oneCall : ClientState := { sampleClient.post 0 true 0 with slots := 0 }

theorem init_sampleClient : (clientSystem rt).init sampleClient :=
  ⟨⟨1, 30, rfl⟩, fun _ => rfl, rfl⟩

theorem step_oneCall : (clientSystem rt).step sampleClient (.call 0 true) oneCall := by
  refine ⟨rfl, .inr ⟨by decide +kernel, .inr ⟨?_, rfl⟩⟩⟩
  rintro (hslots | ⟨id, retryConnect, hcall⟩)
  · exact absurd hslots Nat.one_ne_zero
  · cases hcall

def asleepCall : ClientState := oneCall.afterReply (.ofAscii []) 0 true 0 (.connectError "")

def retriedCall : ClientState := ClientState.post { asleepCall with now := 0 + retryDelay } 0 true 1

theorem reaches_retriedCall : ∃ trace,
    Reaches (clientSystem (.ofAscii [])) (NoneBehindCheck (.ofAscii [])) trace retriedCall := by
  have hasleep : (clientSystem (.ofAscii [])).step oneCall (.reply 0 (.connectError ""))
      asleepCall := ⟨true, 0, rfl, rfl⟩
  have hlater : (clientSystem (.ofAscii [])).step asleepCall (.elapse retryDelay)
      { asleepCall with now := 0 + retryDelay } := ⟨by decide +kernel, rfl⟩
  have hwoken : (clientSystem (.ofAscii [])).step { asleepCall with now := 0 + retryDelay }
      (.wake 0) retriedCall := ⟨true, 0, 0 + retryDelay, rfl, le_rfl, rfl⟩
  have hclosed : NoneBehindCheck (.ofAscii []) oneCall (.reply 0 (.connectError "")) := by
    intro retryConnect attempt hcall
    cases hcall
    exact fun hopened => BreakerState.noConfusion hopened
  have hslept : Reaches _ (NoneBehindCheck (.ofAscii [])) _ asleepCall :=
    ((Reaches.init (init_sampleClient (.ofAscii []))).step trivial (step_oneCall _)).step
      hclosed hasleep
  exact ⟨_, (hslept.step (show NoneBehindCheck _ _ (.elapse retryDelay) from trivial)
    hlater).step (show NoneBehindCheck _ _ (.wake 0) from trivial) hwoken⟩

/-- A second call waits behind the retried one and opens the breaker, a third is refused, and a
fourth probes. -/
theorem no_post_while_open_after_opening : ∃ trace s,
    Reaches (clientSystem (.ofAscii [])) (NoneBehindCheck (.ofAscii [])) trace s ∧
      s.calls 2 = some (.returned (.error (breakerOpenError "circuit breaker open"))) ∧
      s.posts = [.closed, .closed, .closed, .halfOpen] ∧ s.NoneWhileOpen := by
  let ok : Reply := .response 200 (some (.obj [("data", .obj [])]))
  let late : Reply := .timeout ""
  let queued := retriedCall.set 1 (.queued false)
  let answered := queued.afterReply (.ofAscii []) 0 true 1 ok
  let resumed : ClientState := { answered.post 1 false 0 with slots := 0 }
  let opened := resumed.afterReply (.ofAscii []) 1 false 0 late
  let refused := opened.set 2 (.returned (.error (breakerOpenError "circuit breaker open")))
  let later : ClientState := { refused with now := refused.now + 30 }
  let last : ClientState := { later.post 3 false 0 with slots := 0 }
  obtain ⟨trace, hretried⟩ := reaches_retriedCall
  have hqueued : (clientSystem (.ofAscii [])).step retriedCall (.call 1 false) queued :=
    ⟨rfl, .inr ⟨by decide +kernel, .inl ⟨.inl rfl, rfl⟩⟩⟩
  have hanswered : (clientSystem (.ofAscii [])).step queued (.reply 0 ok) answered :=
    ⟨true, 1, rfl, rfl⟩
  have hresumed : (clientSystem (.ofAscii [])).step answered (.acquire 1) resumed :=
    ⟨false, rfl, Nat.one_pos, rfl⟩
  have hopened : (clientSystem (.ofAscii [])).step resumed (.reply 1 late) opened :=
    ⟨false, 0, rfl, rfl⟩
  have hrefused : (clientSystem (.ofAscii [])).step opened (.call 2 false) refused :=
    ⟨rfl, .inl ⟨by decide +kernel, rfl⟩⟩
  have hlater : (clientSystem (.ofAscii [])).step refused (.elapse 30) later :=
    ⟨by decide +kernel, rfl⟩
  have hlast : (clientSystem (.ofAscii [])).step later (.call 3 false) last := by
    refine ⟨rfl, .inr ⟨by decide +kernel, .inr ⟨?_, rfl⟩⟩⟩
    rintro (hslots | ⟨id, retryConnect, hcall⟩)
    · cases hslots
    · rcases id with _ | _ | _ | id <;> cases hcall
  -- The success opens nothing, and nobody waits when the timeout opens the breaker.
  have hsuccess : NoneBehindCheck (.ofAscii []) queued (.reply 0 ok) := by
    intro retryConnect attempt hcall
    cases hcall
    rintro ⟨-, -, reason, hreports⟩
    cases hreports
  have htimeout : NoneBehindCheck (.ofAscii []) resumed (.reply 1 late) := by
    intro retryConnect attempt hcall
    cases hcall
    intro _ other phase hne hother
    rcases other with _ | _ | other
    · cases hother
      exact CallPhase.not_pending_returned _
    · exact absurd rfl hne
    · cases hother
  have hprobed := ((((((hretried.step (show NoneBehindCheck _ _ (.call 1 false) from trivial)
    hqueued).step hsuccess hanswered).step (show NoneBehindCheck _ _ (.acquire 1) from trivial)
    hresumed).step htimeout hopened).step
    (show NoneBehindCheck _ _ (.call 2 false) from trivial) hrefused).step
    (show NoneBehindCheck _ _ (.elapse 30) from trivial) hlater).step
    (show NoneBehindCheck _ _ (.call 3 false) from trivial) hlast
  have hposts : last.posts = [.closed, .closed, .closed, .halfOpen] := by decide +kernel
  exact ⟨_, last, hprobed, rfl, hposts, no_post_while_open _ hprobed⟩

/-- The call ahead fails and opens the breaker, and the one behind takes its slot. -/
theorem post_from_queue_while_open :
    ¬ ∀ (rt : Runtime) (trace : List ClientStep) (s : ClientState),
      Reaches (clientSystem rt) anyStep trace s → s.NoneWhileOpen := by
  intro hall
  let queued := oneCall.set 1 (.queued true)
  let opened := queued.afterReply (.ofAscii []) 0 true 0 (.timeout "")
  have hqueued : (clientSystem (.ofAscii [])).step oneCall (.call 1 true) queued :=
    ⟨rfl, .inr ⟨by decide +kernel, .inl ⟨.inl rfl, rfl⟩⟩⟩
  have hopened : (clientSystem (.ofAscii [])).step queued (.reply 0 (.timeout "")) opened :=
    ⟨true, 0, rfl, rfl⟩
  have hposted : (clientSystem (.ofAscii [])).step opened (.acquire 1)
      { opened.post 1 true 0 with slots := 0 } := ⟨true, rfl, Nat.one_pos, rfl⟩
  have hrun : Reaches _ anyStep _ _ := ((((Reaches.init (init_sampleClient (.ofAscii []))).step
    trivial (step_oneCall _)).step trivial hqueued).step trivial hopened).step trivial hposted
  refine hall _ _ _ hrun ?_
  decide +kernel

end RaceSample

end OpenctiLookup
