import Mathlib.Tactic.Linarith
import Mathlib.Tactic.NormNum
import OpenctiLookup.Opencti.Events
import OpenctiLookup.Opencti.Reconnect

/-! How long the stream's loop waits between two connections. The delay depends on the
past only through how many attempts in a row have ended in an exception. -/
namespace OpenctiLookup
open Python

/-- The base of the delay after `n` doublings. -/
def backoffBase (n : ℕ) : ℚ := min (2 ^ n) 60

theorem backoffBase_zero : backoffBase 0 = 1 := by norm_num [backoffBase]

theorem backoffBase_succ (n : ℕ) : min (backoffBase n * 2) 60 = backoffBase (n + 1) := by
  unfold backoffBase
  rw [pow_succ]
  rcases le_total ((2 : ℚ) ^ n) 60 with hle | hle
  · rw [min_eq_left hle]
  · rw [min_eq_right hle, min_eq_right (by linarith), min_eq_right (by linarith)]

theorem one_le_backoffBase (n : ℕ) : 1 ≤ backoffBase n :=
  le_min (one_le_pow₀ (by norm_num)) (by norm_num)

theorem backoffBase_le (n : ℕ) : backoffBase n ≤ 60 := min_le_right _ _

/-- Whether `seconds` is within the jitter's reach of a base. -/
def Jittered (base seconds : ℚ) : Prop := 1 / 2 * base ≤ seconds ∧ seconds ≤ 3 / 2 * base

theorem jittered_reconnectDelay {base : ℚ} (hpos : 0 ≤ base) (hle : base ≤ 60) (draw : Draw) :
    Jittered base (reconnectDelay base draw) := by
  unfold Jittered reconnectDelay
  rw [min_eq_left hle]
  have hlow := mul_nonneg hpos draw.nonneg
  have hhigh := mul_le_mul_of_nonneg_left draw.lt_one.le hpos
  constructor <;> linarith

section Counting

def raisedInRow (log : List LoopRound) : ℕ :=
  (log.reverse.takeWhile fun round => round.outcome ≠ .closed).length

/-- How many attempts in a row, the latest included, have failed before establishing a
connection. -/
def refusedInRow (log : List LoopRound) : ℕ :=
  (log.reverse.takeWhile fun round => round.outcome = .refused).length

variable {log failures older : List LoopRound} {round : LoopRound}

theorem raisedInRow_closed (h : round.outcome = .closed) : raisedInRow (log ++ [round]) = 0 := by
  simp [raisedInRow, h]

theorem raisedInRow_raised (h : round.outcome ≠ .closed) :
    raisedInRow (log ++ [round]) = raisedInRow log + 1 := by
  simp [raisedInRow, h]

theorem raisedInRow_append (h : ∀ round ∈ failures, round.outcome ≠ .closed) :
    raisedInRow (log ++ failures) = raisedInRow log + failures.length := by
  induction failures using List.reverseRecOn with
  | nil => simp
  | append_singleton failures round ih =>
      have hround := h round (by simp)
      have hrest := ih fun r hr => h r (by simp [hr])
      rw [← List.append_assoc, raisedInRow_raised hround, hrest, List.length_append,
        List.length_singleton, Nat.add_assoc]

end Counting

def WaitsFrom (before : List LoopRound) (round : LoopRound) : Prop :=
  if round.outcome = .closed then round.wait = 0
  else Jittered (backoffBase (raisedInRow before)) round.wait

variable {rt : Runtime} {τ : Type} {callbacks : Callbacks τ} {describe : PyErr → Str}

namespace ConsumerLoop

variable {loop after : ConsumerLoop τ} {attempt : Attempt} {draw : Draw} {round : LoopRound}

theorem backoff_consumeOnce :
    (loop.consumeOnce rt callbacks describe attempt).1.backoff = loop.backoff := by
  cases attempt with
  | unreachable error => rfl
  | answered status reasonPhrase events broken =>
      by_cases h : status = 200 <;> simp [consumeOnce, h, afterEvents, setConnected]

theorem turn_cases (h : loop.turn rt callbacks describe attempt draw = some (round, after)) :
    (round.outcome = .closed ∧ round.wait = 0 ∧ after.backoff = 1) ∨
    (round.outcome ≠ .closed ∧ round.wait = reconnectDelay loop.backoff draw ∧
      after.backoff = min (loop.backoff * 2) 60) := by
  have hbackoff := @backoff_consumeOnce rt τ callbacks describe loop attempt
  unfold turn at h
  split at h
  · cases h
  · cases h
    exact .inl ⟨rfl, rfl, rfl⟩
  · next consumed error heq =>
      cases h
      rw [heq] at hbackoff
      refine .inr ⟨?_, by rw [hbackoff], by rw [afterRaise, hbackoff]⟩
      cases attempt.establishes <;> simp

theorem turn_waits {before : List LoopRound}
    (hbackoff : loop.backoff = backoffBase (raisedInRow before))
    (h : loop.turn rt callbacks describe attempt draw = some (round, after)) :
    WaitsFrom before round ∧ after.backoff = backoffBase (raisedInRow (before ++ [round])) := by
  rcases turn_cases h with ⟨hclosed, hwait, hafter⟩ | ⟨hraised, hwait, hafter⟩
  · rw [WaitsFrom, if_pos hclosed, raisedInRow_closed hclosed, backoffBase_zero]
    exact ⟨hwait, hafter⟩
  · rw [WaitsFrom, if_neg hraised, raisedInRow_raised hraised, hwait, hafter, hbackoff]
    refine ⟨jittered_reconnectDelay ?_ (backoffBase_le _) draw, backoffBase_succ _⟩
    linarith [one_le_backoffBase (raisedInRow before)]

/-- Induction on the attempts; `past` is the log of the turns already made. -/
theorem turns_waits (past : List LoopRound) (attempts : List (Attempt × Draw))
    (hbackoff : loop.backoff = backoffBase (raisedInRow past)) (before later : List LoopRound)
    (h : (loop.turns rt callbacks describe attempts).1 = before ++ round :: later) :
    WaitsFrom (past ++ before) round := by
  induction attempts generalizing loop past before with
  | nil => simp [turns] at h
  | cons attempt rest ih =>
      obtain ⟨attempt, draw⟩ := attempt
      unfold turns at h
      split at h
      · simp at h
      · next first after heq =>
          have hturn := turn_waits hbackoff heq
          cases before with
          | nil =>
              obtain ⟨rfl, -⟩ := List.cons.inj h
              simpa using hturn.1
          | cons head before =>
              obtain ⟨rfl, htail⟩ := List.cons.inj h
              have hrest := ih (past ++ [first]) hturn.2 before htail
              simpa using hrest

theorem run_waits {consumer : StreamConsumer} {target : τ} {attempts : List (Attempt × Draw)}
    {before later : List LoopRound}
    (h : run rt callbacks describe consumer target attempts = before ++ round :: later) :
    WaitsFrom before round := by
  have hwaits := turns_waits [] attempts backoffBase_zero.symm before later h
  rwa [List.nil_append] at hwaits

def FreshStreak (older failures : List LoopRound) : Prop :=
  (older = [] ∨ ∃ past last, older = past ++ [last] ∧ last.outcome = .closed) ∧
    ∀ round ∈ failures, round.outcome = .refused

theorem FreshStreak.raisedInRow_eq {older failures : List LoopRound}
    (h : FreshStreak older failures) : raisedInRow (older ++ failures) = failures.length := by
  have hraised : ∀ round ∈ failures, round.outcome ≠ .closed := fun round hround => by
    rw [h.2 round hround]
    decide
  rw [raisedInRow_append hraised]
  rcases h.1 with rfl | ⟨past, last, rfl, hclosed⟩
  · simp [raisedInRow]
  · rw [raisedInRow_closed hclosed, Nat.zero_add]

/-- The delays of a run. The first refusal of a streak is followed by the shortest one, so
the exponent counts the refusals before it. -/
structure WaitsByDesign (log : List LoopRound) : Prop where
  /-- After every attempt that raised there is a wait. -/
  pause : ∀ before round later, log = before ++ round :: later → round.outcome ≠ .closed →
    1 / 2 ≤ round.wait ∧ round.wait ≤ 90
  /-- It doubles with every refusal, and starts again after a closed stream. -/
  doubling : ∀ older failures round later, log = older ++ failures ++ round :: later →
    FreshStreak older failures → round.outcome = .refused →
    Jittered (backoffBase failures.length) round.wait
  /-- A connection that breaks at the head of a streak is followed by the shortest. -/
  broken : ∀ older round later, log = older ++ round :: later →
    FreshStreak older [] → round.outcome = .broken → Jittered (backoffBase 0) round.wait

/-- Before every attempt but the first there is a wait, whose exponent counts the attempts
refused since the last connection. -/
def WaitsAsClaimed (log : List LoopRound) : Prop :=
  ∀ before round later, log = before ++ round :: later →
    Jittered (backoffBase (refusedInRow (before ++ [round]))) round.wait

theorem run_waits_by_design (rt : Runtime) {τ : Type} (callbacks : Callbacks τ)
    (describe : PyErr → Str) (consumer : StreamConsumer) (target : τ)
    (attempts : List (Attempt × Draw)) :
    WaitsByDesign (run rt callbacks describe consumer target attempts) where
  pause before round later h hraised := by
    have hwaits := run_waits h
    rw [WaitsFrom, if_neg hraised] at hwaits
    obtain ⟨hlow, hhigh⟩ := hwaits
    have hone := one_le_backoffBase (raisedInRow before)
    have hsixty := backoffBase_le (raisedInRow before)
    constructor <;> linarith
  doubling older failures round later h hstreak hrefused := by
    have hwaits := run_waits h
    rw [WaitsFrom, if_neg (by rw [hrefused]; decide), hstreak.raisedInRow_eq] at hwaits
    exact hwaits
  broken older round later h hstreak hbroken := by
    have hwaits := run_waits h
    have hnone := hstreak.raisedInRow_eq
    rw [List.append_nil, List.length_nil] at hnone
    rw [WaitsFrom, if_neg (by rw [hbroken]; decide), hnone] at hwaits
    exact hwaits

def refusedOnce : List (Attempt × Draw) :=
  [(.unreachable "connection refused", ⟨1 / 5, by norm_num, by norm_num⟩)]

theorem first_wait_under_a_second :
    ¬ ∀ (rt : Runtime) (τ : Type) (callbacks : Callbacks τ) (describe : PyErr → Str)
      (consumer : StreamConsumer) (target : τ) (attempts : List (Attempt × Draw)),
      WaitsAsClaimed (run rt callbacks describe consumer target attempts) := by
  intro hall
  have hwaits := hall sampleRuntime Unit
    ⟨fun _ t => .ok t, fun _ t => .ok t, fun _ => .ok none, fun _ => false, id⟩ (fun _ => []) {} ()
    refusedOnce [] _ [] rfl
  obtain ⟨hlow, -⟩ := hwaits
  norm_num [backoffBase, refusedInRow, reconnectDelay, consumeOnce, refusedOnce,
    Attempt.establishes] at hlow

end ConsumerLoop

end OpenctiLookup
