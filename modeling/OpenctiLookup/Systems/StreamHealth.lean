import Mathlib.Tactic.Linarith
import OpenctiLookup.Systems.Deliveries

/-! How old a change can be that the served set still lacks. The health watcher looks
at the connection and at its last traffic every thirty seconds; a heartbeat is traffic
too, whatever the stream has still to deliver. -/
namespace OpenctiLookup
open Python Theory

/-- A change of OpenCTI's data, as the stream sends it. -/
structure Emitted where
  event : StreamEvent
  madeAt : ℚ

structure Streaming where
  /-- `time.monotonic()`. -/
  clock : ℚ
  /-- When the health watcher wakes up. -/
  nextCheck : ℚ
  consumer : StreamConsumer
  worker : Worker
  /-- Whether a connection is open. -/
  attached : Bool
  /-- The changes the stream has still to deliver, oldest first. -/
  backlog : List Emitted
  /-- Those whose handling raised after the cursor had moved past them. -/
  lost : List Emitted

inductive StreamingStep where
  | pass (seconds : ℚ)
  | change (event : StreamEvent)
  | connect
  | deliver
  /-- A heartbeat, metrics, or whatever else changes nothing. -/
  | traffic (event : StreamEvent)
  /-- The connection ends, with an exception or without. -/
  | drop (clean : Bool)
  | check
  /-- Whatever else the worker does, a lookup or a swap say. -/
  | other (worker : Worker)

/-- The sleep of `_watch_stream_health`. -/
def checkPeriod : ℚ := 30

namespace Streaming

variable (rt : Runtime) (settings : Settings) (s : Streaming)

def unapplied : List Emitted := s.lost ++ s.backlog

def handled (event : StreamEvent) : Handled Worker :=
  StreamConsumer.handle rt (Worker.callbacks rt settings) s.clock event s.consumer s.worker

def afterEvent (event : StreamEvent) : Streaming :=
  { s with
    consumer :=
      if (s.handled rt settings event).fault.isSome then
        (s.handled rt settings event).consumer.setConnected false
      else (s.handled rt settings event).consumer
    worker := (s.handled rt settings event).target
    attached := (s.handled rt settings event).fault.isNone }

def afterDelivery (change : Emitted) (rest : List Emitted) : Streaming :=
  { s.afterEvent rt settings change.event with
    backlog := rest
    lost := if (s.handled rt settings change.event).fault.isSome then s.lost ++ [change]
      else s.lost }

def afterConnect : Streaming :=
  { s with
    consumer := s.consumer.setConnected true
    attached := true
    backlog := if s.consumer.cursor.isSome then s.backlog else [] }

def activityLagS : ℚ := s.clock - s.consumer.stats.lastActivityAt

/-- `_watch_stream_health` after its sleep. -/
def afterCheck : Streaming :=
  { s with
    nextCheck := s.clock + checkPeriod
    worker := { s.worker with
      split := s.worker.split.streamHealth s.consumer.stats.connected s.activityLagS
        settings.streamStaleAfterS } }

def afterPeriod : Streaming := { s with clock := s.clock + checkPeriod }

end Streaming

variable (rt : Runtime) (settings : Settings)

/-- A worker from the start of its stream. The watcher is on time, and OpenCTI gives
every change an id. A handling that never returns is the last thing that happens. -/
def streamingSystem : System Streaming StreamingStep where
  init s := s.nextCheck = s.clock + checkPeriod ∧ 
    s.consumer = { stats := { lastActivityAt := s.clock, lastEventAt := s.clock } } ∧
    s.attached = false ∧ s.backlog = [] ∧ s.lost = []
  step s a s' :=
    match a with
    | .pass seconds =>
        0 ≤ seconds ∧ s.clock + seconds ≤ s.nextCheck ∧
          s' = { s with clock := s.clock + seconds }
    | .change event =>
        event.Changes ∧ event.movesCursor = true ∧
          s' = { s with backlog := s.backlog ++ [⟨event, s.clock⟩] }
    | .connect => s.attached = false ∧ s' = s.afterConnect
    | .deliver =>
        s.attached = true ∧ ∃ change rest, s.backlog = change :: rest ∧
          (s.handled rt settings change.event).fault ≠ some .diverges ∧
          s' = s.afterDelivery rt settings change rest
    | .traffic event =>
        s.attached = true ∧ ¬ event.Changes ∧ s' = s.afterEvent rt settings event
    | .drop clean =>
        s.attached = true ∧ s' = { s with
          consumer := if clean then s.consumer else s.consumer.setConnected false
          attached := false }
    | .check => s.clock = s.nextCheck ∧ s' = s.afterCheck settings
    | .other worker =>
        worker.split.stale = s.worker.split.stale ∧ s' = { s with worker := worker }

/-- No change the set lacks is older than the threshold and one period, while the set
is trusted, nor when it answers a lookup with a miss. -/
structure Streaming.Fresh (s : Streaming) : Prop where
  applied : s.worker.split.ready = true → s.worker.split.stale = false →
    ∀ change ∈ s.unapplied, s.clock - change.madeAt ≤ settings.streamStaleAfterS + checkPeriod
  miss : ∀ value, s.worker.split.route rt settings value = .membershipMiss →
    ∀ change ∈ s.unapplied, s.clock - change.madeAt ≤ settings.streamStaleAfterS + checkPeriod

def Streaming.Alive (s : Streaming) : Prop :=
  s.consumer.stats.connected = true ∧ s.activityLagS ≤ settings.streamStaleAfterS

/-- The threshold is not negative, and a check that sees a live connection comes when
every change older than the threshold has been applied. -/
def CaughtUp (s : Streaming) (a : StreamingStep) : Prop :=
  0 ≤ settings.streamStaleAfterS ∧ (a = .check → s.Alive settings →
    ∀ change ∈ s.unapplied, s.clock - change.madeAt ≤ settings.streamStaleAfterS)

section Run

variable {rt settings} {s s' : Streaming}

/-- Between two checks: what the trusted set lacks will not be too old at the next. -/
structure Streaming.Bounded (settings : Settings) (s : Streaming) : Prop where
  early : s.clock ≤ s.nextCheck
  late : s.nextCheck ≤ s.clock + checkPeriod
  young : s.worker.split.stale = false → ∀ change ∈ s.unapplied,
    s.nextCheck - change.madeAt ≤ settings.streamStaleAfterS + checkPeriod

theorem fresh_of_bounded (h : s.Bounded settings) : s.Fresh rt settings := by
  have hcurrent : s.worker.split.stale = false → ∀ change ∈ s.unapplied,
      s.clock - change.madeAt ≤ settings.streamStaleAfterS + checkPeriod := by
    intro hstale change hmem
    have hyoung := h.young hstale change hmem
    have hearly := h.early
    linarith
  exact ⟨fun _ => hcurrent,
    fun value hmiss => hcurrent (SplitBackend.trusted_of_route_miss hmiss).2⟩

theorem bounded_init (h : (streamingSystem rt settings).init s) : s.Bounded settings := by
  obtain ⟨hcheck, -, -, hbacklog, hlost⟩ := h
  have hnone : s.unapplied = [] := by
    rw [Streaming.unapplied, hbacklog, hlost]
    rfl
  refine ⟨?_, hcheck.le, fun _ change hmem => ?_⟩
  · rw [hcheck, checkPeriod]
    linarith
  · rw [hnone] at hmem
    cases hmem

theorem bounded_of_subset (h : s.Bounded settings) (hclock : s'.clock = s.clock)
    (hcheck : s'.nextCheck = s.nextCheck) (hstale : s'.worker.split.stale = s.worker.split.stale)
    (hsubset : s'.unapplied ⊆ s.unapplied) : s'.Bounded settings := by
  constructor
  · rw [hclock, hcheck]
    exact h.early
  · rw [hclock, hcheck]
    exact h.late
  · rw [hcheck, hstale]
    exact fun hfalse change hmem => h.young hfalse change (hsubset hmem)

theorem stale_afterEvent (event : StreamEvent) :
    (s.afterEvent rt settings event).worker.split.stale = s.worker.split.stale := by
  obtain ⟨keys, hsplit⟩ := @split_handle rt settings event s.consumer s.worker s.clock
  change (s.handled rt settings event).target.split.stale = _
  rw [Streaming.handled, hsplit]

theorem stale_afterCheck :
    (s.afterCheck settings).worker.split.stale = false ↔ s.Alive settings := by
  unfold Streaming.Alive
  change (!s.consumer.stats.connected ||
    decide ((settings.streamStaleAfterS : ℚ) < s.activityLagS)) = false ↔ _
  rw [Bool.or_eq_false_iff, decide_eq_false_iff_not, not_lt, Bool.not_eq_false']

theorem bounded_step {a : StreamingStep} (h : s.Bounded settings) (hcaught : CaughtUp settings s a)
    (hstep : (streamingSystem rt settings).step s a s') : s'.Bounded settings := by
  cases a with
  | pass seconds =>
      obtain ⟨hnonneg, hcheck, rfl⟩ := hstep
      refine ⟨hcheck, ?_, h.young⟩
      have hlate := h.late
      change s.nextCheck ≤ s.clock + seconds + checkPeriod
      linarith
  | change event =>
      obtain ⟨-, -, rfl⟩ := hstep
      refine ⟨h.early, h.late, fun hstale change hmem => ?_⟩
      rw [Streaming.unapplied, ← List.append_assoc] at hmem
      rcases List.mem_append.mp hmem with hold | hnew
      · exact h.young hstale change hold
      · -- What is made now is at most a period old at the next check.
        cases List.mem_singleton.mp hnew
        have hlate := h.late
        have hnonneg : (0 : ℚ) ≤ settings.streamStaleAfterS := Int.cast_nonneg hcaught.1
        change s.nextCheck - s.clock ≤ _
        linarith
  | connect =>
      obtain ⟨-, rfl⟩ := hstep
      refine bounded_of_subset h rfl rfl rfl fun change hmem => ?_
      rcases List.mem_append.mp hmem with hlost | hbacklog
      · exact List.mem_append_left _ hlost
      · refine List.mem_append_right _ ?_
        change change ∈ if s.consumer.cursor.isSome then s.backlog else [] at hbacklog
        split at hbacklog
        · exact hbacklog
        · cases hbacklog
  | deliver =>
      obtain ⟨-, change, rest, hbacklog, -, rfl⟩ := hstep
      refine bounded_of_subset h rfl rfl (stale_afterEvent change.event) fun other hmem => ?_
      rw [Streaming.unapplied, hbacklog]
      rcases List.mem_append.mp hmem with hlost | hrest
      · change other ∈ if (s.handled rt settings change.event).fault.isSome then
          s.lost ++ [change] else s.lost at hlost
        split at hlost
        · rcases List.mem_append.mp hlost with hold | hnew
          · exact List.mem_append_left _ hold
          · rw [List.mem_singleton.mp hnew]
            exact List.mem_append_right _ List.mem_cons_self
        · exact List.mem_append_left _ hlost
      · exact List.mem_append_right _ (List.mem_cons_of_mem _ hrest)
  | traffic event =>
      obtain ⟨-, -, rfl⟩ := hstep
      exact bounded_of_subset h rfl rfl (stale_afterEvent event) (List.Subset.refl _)
  | drop clean =>
      obtain ⟨-, rfl⟩ := hstep
      exact bounded_of_subset h rfl rfl rfl (List.Subset.refl _)
  | check =>
      obtain ⟨hclock, rfl⟩ := hstep
      refine ⟨?_, le_rfl, fun hstale change hmem => ?_⟩
      · change s.clock ≤ s.clock + checkPeriod
        rw [checkPeriod]
        linarith
      · have hyoung := hcaught.2 rfl (stale_afterCheck.mp hstale) change hmem
        change s.clock + checkPeriod - change.madeAt ≤ _
        linarith
  | other worker =>
      obtain ⟨hstale, rfl⟩ := hstep
      exact bounded_of_subset h rfl rfl hstale (List.Subset.refl _)

end Run

/-- The condition is what the watcher misses: a check that trusts a set with something
overdue is followed by a period in which the set is trusted too long. -/
theorem not_fresh_of_overdue {s : Streaming} (hready : s.worker.split.ready = true)
    (halive : s.Alive settings) {change : Emitted} (hmem : change ∈ s.unapplied)
    (hoverdue : settings.streamStaleAfterS < s.clock - change.madeAt) :
    ¬ (s.afterCheck settings).afterPeriod.Fresh rt settings := by
  intro h
  have hage := h.applied hready (stale_afterCheck.mpr halive) change hmem
  change s.clock + checkPeriod - change.madeAt ≤ _ at hage
  linarith

/-- In a run whose checks find a live connection only when it has caught up, nothing
old is missing from a set that is trusted. -/
theorem fresh_of_caughtUp {trace : List StreamingStep} {s : Streaming}
    (hrun : Reaches (streamingSystem rt settings) (CaughtUp settings) trace s) :
    s.Fresh rt settings :=
  fresh_of_bounded (hrun.invariant (fun _ hinit => bounded_init hinit)
    fun _ _ _ h hcaught hstep => bounded_step h hcaught hstep)

section Sample

def heartbeat : StreamEvent := ⟨"heartbeat", some "1-0", .ok .null⟩

def startedStream : Streaming where
  clock := 0
  nextCheck := 0 + checkPeriod
  consumer := {}
  worker := sampleWorker 50000
  attached := false
  backlog := []
  lost := []

def heardStream : Streaming :=
  startedStream.afterConnect.afterEvent sampleRuntime (sampleSettings 50000) heartbeat

def droppedStream : Streaming :=
  { heardStream with
    consumer := heardStream.consumer.setConnected false
    attached := false
    backlog := [⟨createEvil, 0⟩] }

def idleStream : ℕ → Streaming
  | 0 => droppedStream
  | n + 1 => (idleStream n).afterPeriod.afterCheck (sampleSettings 50000)

def resumedStream : Streaming :=
  (idleStream 5).afterConnect.afterEvent sampleRuntime (sampleSettings 50000) heartbeat

theorem reaches_afterPeriod {trace : List StreamingStep} {s : Streaming}
    (hcheck : s.nextCheck = s.clock + checkPeriod)
    (hrun : Reaches (streamingSystem sampleRuntime (sampleSettings 50000)) anyStep trace s) :
    Reaches (streamingSystem sampleRuntime (sampleSettings 50000)) anyStep
      (trace ++ [.pass checkPeriod]) s.afterPeriod :=
  hrun.step trivial ⟨by norm_num [checkPeriod], hcheck.ge, rfl⟩

theorem init_startedStream :
    (streamingSystem sampleRuntime (sampleSettings 50000)).init startedStream :=
  ⟨rfl, rfl, rfl, rfl, rfl⟩

def pendingStream : Streaming :=
  { startedStream.afterConnect with backlog := [⟨createEvil, 0⟩] }

/-- A check finds the creation still to be delivered, but young. -/
theorem fresh_of_caughtUp_pending :
    (pendingStream.afterPeriod.afterCheck (sampleSettings 50000)).worker.split.stale = false ∧
      (pendingStream.afterPeriod.afterCheck (sampleSettings 50000)).Fresh sampleRuntime
        (sampleSettings 50000) := by
  have hthreshold : (0 : ℤ) ≤ (sampleSettings 50000).streamStaleAfterS := by decide
  have halive : pendingStream.afterPeriod.Alive (sampleSettings 50000) := by
    refine ⟨rfl, ?_⟩
    change (0 : ℚ) + checkPeriod - 0 ≤ ((120 : ℤ) : ℚ)
    norm_num [checkPeriod]
  have hconnect : Reaches (streamingSystem sampleRuntime (sampleSettings 50000))
      (CaughtUp (sampleSettings 50000)) [.connect] startedStream.afterConnect :=
    (Reaches.init init_startedStream).step ⟨hthreshold, nofun⟩ ⟨rfl, rfl⟩
  have hchange : Reaches (streamingSystem sampleRuntime (sampleSettings 50000))
      (CaughtUp (sampleSettings 50000)) [.connect, .change createEvil] pendingStream :=
    hconnect.step ⟨hthreshold, nofun⟩ ⟨.inl (by decide), rfl, rfl⟩
  have hpass : Reaches (streamingSystem sampleRuntime (sampleSettings 50000))
      (CaughtUp (sampleSettings 50000)) [.connect, .change createEvil, .pass checkPeriod]
      pendingStream.afterPeriod :=
    hchange.step ⟨hthreshold, nofun⟩ ⟨by norm_num [checkPeriod], le_rfl, rfl⟩
  have hcheck : Reaches (streamingSystem sampleRuntime (sampleSettings 50000))
      (CaughtUp (sampleSettings 50000)) [.connect, .change createEvil, .pass checkPeriod, .check]
      (pendingStream.afterPeriod.afterCheck (sampleSettings 50000)) := by
    refine hpass.step ⟨hthreshold, fun _ _ change hmem => ?_⟩ ⟨rfl, rfl⟩
    rw [List.mem_singleton.mp hmem]
    change (0 : ℚ) + checkPeriod - 0 ≤ ((120 : ℤ) : ℚ)
    norm_num [checkPeriod]
  exact ⟨stale_afterCheck.mpr halive, fresh_of_caughtUp _ _ hcheck⟩

theorem reaches_droppedStream :
    Reaches (streamingSystem sampleRuntime (sampleSettings 50000)) anyStep
      [.connect, .traffic heartbeat, .drop false, .change createEvil] droppedStream := by
  have hconnect : Reaches (streamingSystem sampleRuntime (sampleSettings 50000)) anyStep
      [.connect] startedStream.afterConnect :=
    (Reaches.init init_startedStream).step trivial ⟨rfl, rfl⟩
  have hheard : Reaches (streamingSystem sampleRuntime (sampleSettings 50000)) anyStep
      [.connect, .traffic heartbeat] heardStream :=
    hconnect.step trivial ⟨rfl, by unfold StreamEvent.Changes; decide, rfl⟩
  have hdrop : Reaches (streamingSystem sampleRuntime (sampleSettings 50000)) anyStep
      [.connect, .traffic heartbeat, .drop false] { heardStream with
        consumer := heardStream.consumer.setConnected false, attached := false } :=
    hheard.step trivial ⟨rfl, rfl⟩
  exact hdrop.step trivial ⟨.inl (by decide), rfl, rfl⟩

theorem clock_idleStream (n : ℕ) : (idleStream n).clock = 30 * n := by
  induction n with
  | zero =>
      change (0 : ℚ) = 30 * (0 : ℕ)
      norm_num
  | succ n ih =>
      change (idleStream n).clock + checkPeriod = _
      rw [ih, checkPeriod]
      push_cast
      ring

theorem idleStream_waits (n : ℕ) : (idleStream n).nextCheck = (idleStream n).clock + checkPeriod ∧
    (idleStream n).attached = false ∧ (idleStream n).backlog = [⟨createEvil, 0⟩] := by
  induction n with
  | zero => exact ⟨rfl, rfl, rfl⟩
  | succ n ih => exact ⟨rfl, ih.2⟩

theorem reaches_idleStream (n : ℕ) : ∃ trace,
    Reaches (streamingSystem sampleRuntime (sampleSettings 50000)) anyStep trace
      (idleStream n) := by
  induction n with
  | zero => exact ⟨_, reaches_droppedStream⟩
  | succ n ih =>
      obtain ⟨trace, hrun⟩ := ih
      have hcheck := (idleStream_waits n).1
      have hchecked : Reaches (streamingSystem sampleRuntime (sampleSettings 50000)) anyStep
          (trace ++ [.pass checkPeriod] ++ [.check]) (idleStream (n + 1)) :=
        (reaches_afterPeriod hcheck hrun).step trivial ⟨hcheck.symm, rfl⟩
      exact ⟨_, hchecked⟩

/-- A heartbeat ahead of an old backlog makes the set trusted. -/
theorem backlog_behind_heartbeat : ¬ ∀ (rt : Runtime) (settings : Settings)
    (trace : List StreamingStep) (s : Streaming),
    Reaches (streamingSystem rt settings) anyStep trace s → s.Fresh rt settings := by
  intro hclaim
  obtain ⟨trace, hrun⟩ := reaches_idleStream 5
  obtain ⟨hcheck, hattached, hbacklog⟩ := idleStream_waits 5
  have hconnect : Reaches (streamingSystem sampleRuntime (sampleSettings 50000)) anyStep
      (trace ++ [.connect]) (idleStream 5).afterConnect :=
    hrun.step trivial ⟨hattached, rfl⟩
  have hresume : Reaches (streamingSystem sampleRuntime (sampleSettings 50000)) anyStep
      (trace ++ [.connect] ++ [.traffic heartbeat]) resumedStream :=
    hconnect.step trivial ⟨rfl, by unfold StreamEvent.Changes; decide, rfl⟩
  have hdue := reaches_afterPeriod (s := resumedStream) hcheck hresume
  have hchecked : Reaches (streamingSystem sampleRuntime (sampleSettings 50000)) anyStep
      (trace ++ [.connect] ++ [.traffic heartbeat] ++ [.pass checkPeriod] ++ [.check])
      (resumedStream.afterPeriod.afterCheck (sampleSettings 50000)) :=
    hdue.step trivial ⟨hcheck.symm, rfl⟩
  have hfresh := hclaim _ _ _ _ (reaches_afterPeriod rfl hchecked)
  have hready : resumedStream.afterPeriod.worker.split.ready = true := rfl
  have halive : resumedStream.afterPeriod.Alive (sampleSettings 50000) := by
    refine ⟨rfl, ?_⟩
    change (idleStream 5).clock + checkPeriod - (idleStream 5).clock ≤ ((120 : ℤ) : ℚ)
    rw [add_sub_cancel_left, checkPeriod]
    norm_num
  have hmem : (⟨createEvil, 0⟩ : Emitted) ∈ resumedStream.afterPeriod.unapplied :=
    List.mem_append_right _ (hbacklog ▸ List.mem_singleton_self _)
  refine not_fresh_of_overdue _ _ hready halive hmem ?_ hfresh
  change ((120 : ℤ) : ℚ) < (idleStream 5).clock + checkPeriod - 0
  rw [clock_idleStream, checkPeriod]
  norm_num

end Sample

end OpenctiLookup
