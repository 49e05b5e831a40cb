import OpenctiLookup.Systems.Requests
import OpenctiLookup.Theory.Permits

/-! What a client puts on its upstream. The semaphore bounds the requests in flight, and the
retries the requests of a call, whichever calls fail, are retried or are cancelled. -/
namespace OpenctiLookup
open Python Theory

namespace CallPhase

def remaining : CallPhase → ℕ
  | .queued retryConnect => attemptsOf retryConnect
  | .posting retryConnect attempt => attemptsOf retryConnect - (attempt + 1)
  | .asleep retryConnect attempt _ => attemptsOf retryConnect - (attempt + 1)
  | .returned _ => 0

def InBounds : CallPhase → Prop
  | .posting retryConnect attempt => attempt < attemptsOf retryConnect
  | .asleep retryConnect attempt _ => attempt + 1 < attemptsOf retryConnect
  | _ => True

end CallPhase

namespace ClientState

/-- A call is between its entry into the semaphore and its way out. -/
def HoldsSlot (s : ClientState) (id : ℕ) : Prop :=
  ∃ phase, s.calls id = some phase ∧ phase.holdsSlot = true

/-- A `post` of this call is in flight. -/
def InFlight (s : ClientState) (id : ℕ) : Prop :=
  ∃ retryConnect attempt, s.calls id = some (.posting retryConnect attempt)

end ClientState

def remainingOf (phase : Option CallPhase) : ℕ := (phase.map CallPhase.remaining).getD 0

def requested (trace : List ClientStep) : ℕ :=
  (trace.map fun
    | .call _ retryConnect => attemptsOf retryConnect
    | _ => 0).sum

variable (rt : Runtime)

def boundedClient (maxConcurrency : ℕ) : System ClientState ClientStep where
  init s := (clientSystem rt).init s ∧ s.slots = maxConcurrency
  step := (clientSystem rt).step

section Slots

variable {rt} {s s' : ClientState} {id maxConcurrency : ℕ} {trace : List ClientStep}

theorem holdsSlot_set (phase : CallPhase) (other : ℕ) :
    (s.set id phase).HoldsSlot other ↔
      other = id ∧ phase.holdsSlot = true ∨ other ≠ id ∧ s.HoldsSlot other := by
  unfold ClientState.HoldsSlot
  rw [calls_set]
  by_cases hother : other = id
  · simp [hother]
  · simp [hother]

theorem not_holdsSlot {phase : Option CallPhase} (hcall : s.calls id = phase)
    (hphase : ∀ p, phase = some p → p.holdsSlot = false) : ¬ s.HoldsSlot id := by
  intro hholds
  obtain ⟨p, hp, hslot⟩ := hholds
  rw [hphase p (hcall ▸ hp)] at hslot
  cases hslot

theorem holdsSlot_inFlight (h : s.InFlight id) : s.HoldsSlot id := by
  obtain ⟨retryConnect, attempt, hcall⟩ := h
  exact ⟨_, hcall, rfl⟩

def ClientState.SlotsKept (s : ClientState) (maxConcurrency : ℕ) : Prop :=
  Balanced s.HoldsSlot s.slots maxConcurrency

theorem slotsKept_set (h : s.SlotsKept maxConcurrency) {phase : CallPhase}
    (hsame : phase.holdsSlot = true ↔ s.HoldsSlot id) :
    Balanced (s.set id phase).HoldsSlot s.slots maxConcurrency := by
  apply h.congr
  intro other
  rw [holdsSlot_set, hsame]
  by_cases hother : other = id
  · simp [hother]
  · simp [hother]

theorem slotsKept_post (h : s.SlotsKept maxConcurrency) (hfree : 0 < s.slots)
    (hid : ¬ s.HoldsSlot id) (retryConnect : Bool) (attempt : ℕ) :
    ClientState.SlotsKept { s.post id retryConnect attempt with slots := s.slots - 1 }
      maxConcurrency := by
  apply Balanced.acquire h hfree hid
  intro other
  have hset : (s.set id (.posting retryConnect attempt)).HoldsSlot other ↔
      other = id ∨ s.HoldsSlot other := by
    rw [holdsSlot_set]
    by_cases hother : other = id
    · simp [hother, CallPhase.holdsSlot]
    · simp [hother]
  exact hset

theorem slotsKept_leave (h : s.SlotsKept maxConcurrency) (hid : s.HoldsSlot id)
    (execution : Execution) : (s.leave id execution).SlotsKept maxConcurrency := by
  apply Balanced.release h hid
  intro other
  have hset : (s.set id (.returned execution.result)).HoldsSlot other ↔
      other ≠ id ∧ s.HoldsSlot other := by
    rw [holdsSlot_set]
    simp [CallPhase.holdsSlot]
  exact hset

theorem slotsKept_step {a : ClientStep} (h : s.SlotsKept maxConcurrency)
    (hstep : (clientSystem rt).step s a s') : s'.SlotsKept maxConcurrency := by
  cases a with
  | call id retryConnect =>
      obtain ⟨hnone, hcase⟩ := hstep
      have hid : ¬ s.HoldsSlot id := not_holdsSlot hnone (by simp)
      rcases hcase with ⟨-, rfl⟩ | ⟨-, ⟨-, rfl⟩ | ⟨hfree, rfl⟩⟩
      · exact slotsKept_set h (by simp [CallPhase.holdsSlot, hid])
      · exact slotsKept_set h (by simp [CallPhase.holdsSlot, hid])
      · have hslots : s.slots ≠ 0 := fun hzero => hfree (.inl hzero)
        exact slotsKept_post h (Nat.pos_of_ne_zero hslots) hid _ _
  | acquire id =>
      obtain ⟨retryConnect, hcall, hfree, rfl⟩ := hstep
      have hid : ¬ s.HoldsSlot id := not_holdsSlot hcall (by simp [CallPhase.holdsSlot])
      exact slotsKept_post h hfree hid _ _
  | reply id reply =>
      obtain ⟨retryConnect, attempt, hcall, rfl⟩ := hstep
      have hid : s.HoldsSlot id := ⟨_, hcall, rfl⟩
      unfold ClientState.afterReply
      split
      · exact slotsKept_set h (by simp [CallPhase.holdsSlot, hid])
      · exact slotsKept_leave h hid _
  | wake id =>
      obtain ⟨retryConnect, attempt, wakeAt, hcall, -, rfl⟩ := hstep
      have hid : s.HoldsSlot id := ⟨_, hcall, rfl⟩
      exact slotsKept_set h (by simp [CallPhase.holdsSlot, hid])
  | abort id fault =>
      obtain ⟨phase, hcall, -, rfl⟩ := hstep
      unfold ClientState.afterAbort
      by_cases hslot : phase.holdsSlot = true
      · rw [if_pos hslot]
        exact slotsKept_leave h ⟨phase, hcall, hslot⟩ _
      · rw [if_neg hslot]
        have hid : ¬ s.HoldsSlot id := not_holdsSlot hcall fun p hp => by
          rw [← Option.some.inj hp]
          exact Bool.eq_false_iff.mpr hslot
        exact slotsKept_set h (by simp [CallPhase.holdsSlot, hid])
  | elapse seconds =>
      obtain ⟨-, rfl⟩ := hstep
      exact h

theorem slotsKept_run (hrun : Reaches (boundedClient rt maxConcurrency) anyStep trace s) :
    s.SlotsKept maxConcurrency := by
  apply hrun.invariant
  · rintro s ⟨⟨-, hcalls, -⟩, rfl⟩
    exact Balanced.of_none fun id => not_holdsSlot (hcalls id) (by simp)
  · intro s a s' h _ hstep
    exact slotsKept_step h hstep

end Slots

section Load

variable {rt} {s s' : ClientState} {id maxConcurrency : ℕ} {trace : List ClientStep}

/-- The requests that have been started, and those the calls may still start, are within what
the calls came with. -/
structure ClientState.WithinBudget (s : ClientState) (trace : List ClientStep) : Prop where
  spent : ∃ called : Finset ℕ, (∀ id, id ∈ called ↔ s.calls id ≠ none) ∧
    s.posts.length + ∑ id ∈ called, remainingOf (s.calls id) ≤ requested trace
  inBounds : ∀ id phase, s.calls id = some phase → phase.InBounds

theorem inBounds_set (h : ∀ id phase, s.calls id = some phase → phase.InBounds)
    {phase : CallPhase} (hphase : phase.InBounds) {other : ℕ} {phase' : CallPhase}
    (hother : (s.set id phase).calls other = some phase') : phase'.InBounds := by
  rw [calls_set] at hother
  split at hother
  · obtain rfl := Option.some.inj hother
    exact hphase
  · exact h other phase' hother

theorem withinBudget_move (h : s.WithinBudget trace) {phase : CallPhase} (phase' : CallPhase)
    (hcall : s.calls id = some phase) (hinBounds : phase'.InBounds)
    (hcalls : s'.calls = (s.set id phase').calls)
    (hspent : s'.posts.length + phase'.remaining ≤ s.posts.length + phase.remaining) :
    s'.WithinBudget trace := by
  obtain ⟨called, hcalled, hle⟩ := h.spent
  have hid : id ∈ called := (hcalled id).mpr (by simp [hcall])
  refine ⟨⟨called, fun other => ?_, ?_⟩, ?_⟩
  · rw [hcalls, calls_set, hcalled]
    by_cases hother : other = id
    · simp [hother, hcall]
    · simp [hother]
  · have hsum := sum_update_add (f := s.calls) remainingOf (some phase') hid
    rw [hcall] at hsum
    have hnew : remainingOf (some phase') = phase'.remaining := rfl
    have hold : remainingOf (some phase) = phase.remaining := rfl
    have hset : (s.set id phase').calls = Function.update s.calls id (some phase') := rfl
    rw [hcalls, hset]
    omega
  · intro other phase'' hother
    rw [hcalls] at hother
    exact inBounds_set h.inBounds hinBounds hother

theorem withinBudget_new (h : s.WithinBudget trace) (phase : CallPhase) {retryConnect : Bool}
    (hcall : s.calls id = none) (hinBounds : phase.InBounds)
    (hcalls : s'.calls = (s.set id phase).calls)
    (hspent : s'.posts.length + phase.remaining ≤ s.posts.length + attemptsOf retryConnect) :
    s'.WithinBudget (trace ++ [.call id retryConnect]) := by
  obtain ⟨called, hcalled, hle⟩ := h.spent
  have hid : id ∉ called := fun hmem => (hcalled id).mp hmem hcall
  refine ⟨⟨insert id called, fun other => ?_, ?_⟩, ?_⟩
  · rw [hcalls, calls_set, Finset.mem_insert, hcalled]
    by_cases hother : other = id
    · simp [hother]
    · simp [hother]
  · have hsum := sum_update_insert (f := s.calls) remainingOf (some phase) hid
    have hnew : remainingOf (some phase) = phase.remaining := rfl
    have hset : (s.set id phase).calls = Function.update s.calls id (some phase) := rfl
    have htrace : requested (trace ++ [.call id retryConnect]) =
        requested trace + attemptsOf retryConnect := by
      simp [requested]
    rw [hcalls, hset, htrace]
    omega
  · intro other phase' hother
    rw [hcalls] at hother
    exact inBounds_set h.inBounds hinBounds hother

theorem withinBudget_append (h : s.WithinBudget trace) (a : ClientStep) :
    s.WithinBudget (trace ++ [a]) := by
  obtain ⟨called, hcalled, hle⟩ := h.spent
  refine ⟨⟨called, hcalled, ?_⟩, h.inBounds⟩
  unfold requested at hle ⊢
  rw [List.map_append, List.sum_append]
  omega

theorem attemptsOf_pos (retryConnect : Bool) : 0 < attemptsOf retryConnect := by
  cases retryConnect <;> decide

theorem lt_attemptsOf_of_retries {retryConnect : Bool} {attempt : ℕ} {reply : Reply}
    (h : ClientState.retries retryConnect attempt reply = true) :
    attempt + 1 < attemptsOf retryConnect := by
  cases reply with
  | connectError detail => exact of_decide_eq_true h
  | timeout detail => cases h
  | httpError detail => cases h
  | response status body => cases h

theorem withinBudget_step {a : ClientStep} (h : s.WithinBudget trace)
    (hstep : (clientSystem rt).step s a s') : s'.WithinBudget (trace ++ [a]) := by
  cases a with
  | call id retryConnect =>
      have hpos := attemptsOf_pos retryConnect
      obtain ⟨hnone, hcase⟩ := hstep
      rcases hcase with ⟨-, rfl⟩ | ⟨-, ⟨-, rfl⟩ | ⟨-, rfl⟩⟩
      · exact withinBudget_new h (.returned _) hnone trivial rfl
          (Nat.add_le_add_left (Nat.zero_le _) _)
      · exact withinBudget_new h (.queued retryConnect) hnone trivial rfl le_rfl
      · refine withinBudget_new h (.posting retryConnect 0) hnone hpos rfl ?_
        simp only [ClientState.post, CallPhase.remaining, List.length_append,
          List.length_singleton]
        omega
  | acquire id =>
      obtain ⟨retryConnect, hcall, -, rfl⟩ := hstep
      have hpos := attemptsOf_pos retryConnect
      apply withinBudget_append
      refine withinBudget_move h (.posting retryConnect 0) hcall hpos rfl ?_
      simp only [ClientState.post, CallPhase.remaining, List.length_append,
        List.length_singleton]
      omega
  | reply id reply =>
      obtain ⟨retryConnect, attempt, hcall, rfl⟩ := hstep
      apply withinBudget_append
      unfold ClientState.afterReply
      by_cases hretries : ClientState.retries retryConnect attempt reply = true
      · rw [if_pos hretries]
        exact withinBudget_move h (.asleep retryConnect attempt _) hcall
          (lt_attemptsOf_of_retries hretries) rfl le_rfl
      · rw [if_neg hretries]
        exact withinBudget_move h (.returned _) hcall trivial rfl
          (Nat.add_le_add_left (Nat.zero_le _) _)
  | wake id =>
      obtain ⟨retryConnect, attempt, wakeAt, hcall, -, rfl⟩ := hstep
      have hlt : attempt + 1 < attemptsOf retryConnect := h.inBounds id _ hcall
      apply withinBudget_append
      refine withinBudget_move h (.posting retryConnect (attempt + 1)) hcall hlt rfl ?_
      simp only [ClientState.post, CallPhase.remaining, List.length_append,
        List.length_singleton]
      omega
  | abort id fault =>
      obtain ⟨phase, hcall, -, rfl⟩ := hstep
      apply withinBudget_append
      unfold ClientState.afterAbort
      split
      · exact withinBudget_move h (.returned _) hcall trivial rfl
          (Nat.add_le_add_left (Nat.zero_le _) _)
      · exact withinBudget_move h (.returned _) hcall trivial rfl
          (Nat.add_le_add_left (Nat.zero_le _) _)
  | elapse seconds =>
      obtain ⟨-, rfl⟩ := hstep
      apply withinBudget_append
      exact ⟨h.spent, h.inBounds⟩

theorem withinBudget_run (hrun : Reaches (boundedClient rt maxConcurrency) anyStep trace s) :
    s.WithinBudget trace := by
  induction hrun with
  | init hs =>
      obtain ⟨⟨-, hcalls, hposts⟩, -⟩ := hs
      refine ⟨⟨∅, fun id => ?_, ?_⟩, fun id phase hcall => ?_⟩
      · simp [hcalls]
      · simp [hposts]
      · rw [hcalls] at hcall
        cases hcall
  | step _ _ hstep ih => exact withinBudget_step ih hstep

/-- In every run, whatever fails, is retried or is cancelled on the way: no more calls than
`max_concurrency` have a request in flight, all the slots are free again once every call is
through or waits for one, and no more requests have been started than the calls have attempts,
two for one that retries a connection and one otherwise. -/
theorem load_bounded (hrun : Reaches (boundedClient rt maxConcurrency) anyStep trace s) :
    (∀ ids : List ℕ, ids.Nodup → (∀ id ∈ ids, s.InFlight id) →
        ids.length + s.slots ≤ maxConcurrency) ∧
      ((∀ id, ¬ s.HoldsSlot id) → s.slots = maxConcurrency) ∧
      s.posts.length ≤ requested trace := by
  have hkept := slotsKept_run hrun
  obtain ⟨called, -, hle⟩ := (withinBudget_run hrun).spent
  refine ⟨fun ids hnodup hids => ?_, fun hnone => hkept.free_of_none hnone, by omega⟩
  exact hkept.length_le hnodup fun id hid => holdsSlot_inFlight (hids id hid)

/-- With one slot, a call is cancelled in its sleep ahead of a retry, and the one behind it goes
on. -/
theorem load_bounded_cancelled : ∃ trace s,
    Reaches (boundedClient (.ofAscii []) 1) anyStep trace s ∧ s.InFlight 1 ∧ s.slots = 0 ∧
      requested trace = 4 ∧ s.posts.length = 2 ∧
      ((∀ ids : List ℕ, ids.Nodup → (∀ id ∈ ids, s.InFlight id) → ids.length + s.slots ≤ 1) ∧
        ((∀ id, ¬ s.HoldsSlot id) → s.slots = 1) ∧ s.posts.length ≤ requested trace) := by
  let refused : Reply := .connectError ""
  let fault : Fault := .raised (.custom "CancelledError" [])
  let asleep := oneCall.afterReply (.ofAscii []) 0 true 0 refused
  let queued := asleep.set 1 (.queued true)
  let cancelled := queued.afterAbort 0 (.asleep true 0 (0 + retryDelay)) fault
  let last : ClientState := { cancelled.post 1 true 0 with slots := 0 }
  have hinit : (boundedClient (.ofAscii []) 1).init sampleClient := ⟨init_sampleClient _, rfl⟩
  have hfirst : (boundedClient (.ofAscii []) 1).step sampleClient (.call 0 true) oneCall :=
    step_oneCall (.ofAscii [])
  have hasleep : (boundedClient (.ofAscii []) 1).step oneCall (.reply 0 refused) asleep :=
    ⟨true, 0, rfl, rfl⟩
  have hqueued : (boundedClient (.ofAscii []) 1).step asleep (.call 1 true) queued :=
    ⟨rfl, .inr ⟨by decide +kernel, .inl ⟨.inl rfl, rfl⟩⟩⟩
  have hcancelled : (boundedClient (.ofAscii []) 1).step queued (.abort 0 fault) cancelled :=
    ⟨.asleep true 0 (0 + retryDelay), rfl, (fun _ h => by cases h), rfl⟩
  have hlast : (boundedClient (.ofAscii []) 1).step cancelled (.acquire 1) last :=
    ⟨true, rfl, Nat.one_pos, rfl⟩
  have hrun : Reaches (boundedClient (.ofAscii []) 1) anyStep _ cancelled :=
    ((((Reaches.init hinit).step trivial hfirst).step trivial
    hasleep).step trivial hqueued).step trivial hcancelled
  have hlater := hrun.step trivial hlast
  exact ⟨_, last, hlater, ⟨true, 0, rfl⟩, rfl, rfl, rfl, load_bounded hlater⟩

end Load

end OpenctiLookup
