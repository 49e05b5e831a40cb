import OpenctiLookup.Opencti.Legible
import OpenctiLookup.Theory.Runs

/-! One consumer over a stream of any events. The cursor moves before an event is
handled, so a reconnect after an event that could not be handled resumes behind it. -/
namespace OpenctiLookup
open Python Theory

/-- An event handed to `_handle`, and the state it was handed to. -/
structure Delivery where
  index : ℕ
  event : StreamEvent
  now : ℚ
  consumer : StreamConsumer
  worker : Worker

structure StreamRun where
  consumer : StreamConsumer
  worker : Worker
  /-- Whether a connection is open. -/
  attached : Bool
  /-- The event sent next on it. -/
  next : ℕ
  /-- Where a reconnect resumes: behind the event that set the cursor. -/
  resumeAt : ℕ
  deliveries : List Delivery

inductive StreamStep where
  | connect
  | deliver (now : ℚ)
  /-- The connection ends, with an exception or without. -/
  | drop (clean : Bool)
  /-- Whatever else the worker does between two events, a swap of its set say. -/
  | other (worker : Worker)

variable (rt : Runtime) (settings : Settings)

def Delivery.handled (d : Delivery) : Handled Worker :=
  StreamConsumer.handle rt (Worker.callbacks rt settings) d.now d.event d.consumer d.worker

/-- The event is applied in full, or skipped, or carries nothing. -/
def Delivery.Settled (d : Delivery) : Prop :=
  Accounted rt settings d.event d.consumer d.worker (d.handled rt settings)

/-- `_handle` takes the event's id for its cursor. -/
def StreamEvent.movesCursor (event : StreamEvent) : Bool := event.id.any fun id => !id.isEmpty

def StreamConsumer.setConnected (connected : Bool) (consumer : StreamConsumer) : StreamConsumer :=
  { consumer with stats := { consumer.stats with connected := connected } }

namespace StreamRun

variable (s : StreamRun)

def delivery (now : ℚ) (event : StreamEvent) : Delivery :=
  ⟨s.next, event, now, s.consumer, s.worker⟩

def afterDelivery (d : Delivery) : StreamRun where
  consumer :=
    if (d.handled rt settings).fault.isSome then (d.handled rt settings).consumer.setConnected false
    else (d.handled rt settings).consumer
  worker := (d.handled rt settings).target
  attached := (d.handled rt settings).fault.isNone
  next := s.next + 1
  resumeAt := if d.event.movesCursor then s.next + 1 else s.resumeAt
  deliveries := s.deliveries ++ [d]

end StreamRun

/-- A consumer and the events OpenCTI has for it, the first one after its cursor
first. A delivery that never returns is the last thing that happens. -/
def streamSystem (log : List StreamEvent) : System StreamRun StreamStep where
  init s := s.attached = false ∧ s.next = 0 ∧ s.resumeAt = 0 ∧ s.deliveries = []
  step s a s' :=
    match a with
    | .connect =>
        s.attached = false ∧
          (∀ d ∈ s.deliveries, (d.handled rt settings).fault ≠ some .diverges) ∧
          s' = { s with
            consumer := s.consumer.setConnected true, attached := true, next := s.resumeAt }
    | .deliver now =>
        s.attached = true ∧ ∃ event, log[s.next]? = some event ∧
          s' = s.afterDelivery rt settings (s.delivery now event)
    | .drop clean =>
        s.attached = true ∧
          s' = { s with
            consumer := if clean then s.consumer else s.consumer.setConnected false
            attached := false }
    | .other worker => s' = { s with worker := worker }

/-- Every event handed over was dealt with, and so was every event the cursor has
moved past. -/
structure StreamRun.Complete (s : StreamRun) : Prop where
  settled : ∀ d ∈ s.deliveries, d.Settled rt settings
  passed : ∀ i < s.resumeAt, ∃ d ∈ s.deliveries, d.index = i ∧ d.Settled rt settings

section Run

variable {rt settings} {log : List StreamEvent} {s s' : StreamRun}

/-- The cursor and the connection are only ever past events handed over. -/
structure StreamRun.Tracked (s : StreamRun) : Prop where
  next : ∀ i < s.next, ∃ d ∈ s.deliveries, d.index = i
  resumeAt : ∀ i < s.resumeAt, ∃ d ∈ s.deliveries, d.index = i

theorem tracked_afterDelivery (h : s.Tracked) (now : ℚ) (event : StreamEvent) :
    (s.afterDelivery rt settings (s.delivery now event)).Tracked := by
  have hnext : ∀ i < s.next + 1, ∃ d ∈ s.deliveries ++ [s.delivery now event], d.index = i := by
    intro i hi
    rcases Nat.lt_succ_iff_lt_or_eq.mp hi with hlt | rfl
    · obtain ⟨d, hd, rfl⟩ := h.next i hlt
      exact ⟨d, List.mem_append_left _ hd, rfl⟩
    · exact ⟨_, List.mem_append_right _ (List.mem_singleton_self _), rfl⟩
  refine ⟨hnext, fun i hi => ?_⟩
  change i < if (s.delivery now event).event.movesCursor then s.next + 1 else s.resumeAt at hi
  split at hi
  · exact hnext i hi
  · obtain ⟨d, hd, rfl⟩ := h.resumeAt i hi
    exact ⟨d, List.mem_append_left _ hd, rfl⟩

theorem tracked_step {a : StreamStep} (h : s.Tracked)
    (hstep : (streamSystem rt settings log).step s a s') : s'.Tracked := by
  cases a with
  | connect =>
      obtain ⟨-, -, rfl⟩ := hstep
      exact ⟨h.resumeAt, h.resumeAt⟩
  | deliver now =>
      obtain ⟨-, event, -, rfl⟩ := hstep
      exact tracked_afterDelivery h now event
  | drop clean =>
      obtain ⟨-, rfl⟩ := hstep
      exact ⟨h.next, h.resumeAt⟩
  | other worker =>
      cases hstep
      exact ⟨h.next, h.resumeAt⟩

theorem tracked_of_reaches {trace : List StreamStep}
    (hrun : Reaches (streamSystem rt settings log) anyStep trace s) : s.Tracked := by
  refine hrun.invariant (fun s hinit => ?_) fun _ _ _ h _ hstep => tracked_step h hstep
  obtain ⟨-, hnext, hresume, -⟩ := hinit
  constructor
  · rw [hnext]
    exact fun i hi => absurd hi (Nat.not_lt_zero i)
  · rw [hresume]
    exact fun i hi => absurd hi (Nat.not_lt_zero i)

/-- Every event is dealt with, and none lost behind the cursor, exactly when every
event handed over is legible. -/
theorem events_settled_iff {trace : List StreamStep}
    (hrun : Reaches (streamSystem rt settings log) anyStep trace s) :
    s.Complete rt settings ↔ ∀ d ∈ s.deliveries, d.event.Legible rt settings := by
  constructor
  · exact fun h d hd => accounted_iff.mp (h.settled d hd)
  · intro hlegible
    have hsettled : ∀ d ∈ s.deliveries, d.Settled rt settings :=
      fun d hd => accounted_iff.mpr (hlegible d hd)
    refine ⟨hsettled, fun i hi => ?_⟩
    obtain ⟨d, hd, rfl⟩ := (tracked_of_reaches hrun).resumeAt i hi
    exact ⟨d, hd, rfl, hsettled d hd⟩

end Run

section Sample

def sampleRun : StreamRun := ⟨{}, sampleWorker 50000, false, 0, 0, []⟩

def connectedRun : StreamRun :=
  { sampleRun with consumer := StreamConsumer.setConnected true {}, attached := true }

def deliveredRun (event : StreamEvent) : StreamRun :=
  connectedRun.afterDelivery sampleRuntime (sampleSettings 50000) (connectedRun.delivery 0 event)

theorem reaches_first (event : StreamEvent) :
    Reaches (streamSystem sampleRuntime (sampleSettings 50000) [event]) anyStep
      [.connect, .deliver 0] (deliveredRun event) := by
  have hstart : Reaches (streamSystem sampleRuntime (sampleSettings 50000) [event]) anyStep []
      sampleRun := .init ⟨rfl, rfl, rfl, rfl⟩
  have hconnect : (streamSystem sampleRuntime (sampleSettings 50000) [event]).step sampleRun
      .connect connectedRun := ⟨rfl, fun d hd => absurd hd List.not_mem_nil, rfl⟩
  have hdeliver : (streamSystem sampleRuntime (sampleSettings 50000) [event]).step connectedRun
      (.deliver 0) (deliveredRun event) := ⟨rfl, event, rfl, rfl⟩
  exact (hstart.step trivial hconnect).step trivial hdeliver

def createEvil : StreamEvent := changeEvent .create (some "1-0") (sampleObject ["evil.com"])

theorem legible_createEvil : createEvil.Legible sampleRuntime (sampleSettings 50000) := by
  refine ⟨fun h => absurd h (by decide), fun hchanges => ?_⟩
  have hfault := @fault_handled sampleRuntime (sampleSettings 50000)
    ⟨.create, "a", some "1-0", sampleObject ["evil.com"], 0⟩ {} (sampleWorker 50000)
    fun raw hraw => by
      rw [rawValues_sampleObject] at hraw
      rw [List.mem_singleton.mp hraw]
      exact ⟨_, norm_evil 50000, fun _ _ => rfl⟩
  exact @legible_of_changes _ _ createEvil {} (sampleWorker 50000) 0 hchanges hfault

/-- A well-formed creation is applied, and the cursor is behind it. -/
theorem events_settled_create :
    ∃ trace s, Reaches (streamSystem sampleRuntime (sampleSettings 50000) [createEvil]) anyStep
      trace s ∧ s.resumeAt = 1 ∧ s.Complete sampleRuntime (sampleSettings 50000) := by
  refine ⟨_, _, reaches_first createEvil, rfl, (events_settled_iff (reaches_first _)).mpr ?_⟩
  intro d hd
  rw [List.mem_singleton.mp hd]
  exact legible_createEvil

def illegibleEvent : StreamEvent where
  kind := "create"
  id := some "1-0"
  data := .ok (.obj [("data", .obj [("type", .str "indicator"),
    ("extensions", .obj [("ext", .obj [("observable_values", .int 5)])])])])

/-- It raises when the cursor is already behind it. -/
theorem illegible_event_lost :
    ¬ ∀ (rt : Runtime) (settings : Settings) (log : List StreamEvent) (trace : List StreamStep)
      (s : StreamRun), Reaches (streamSystem rt settings log) anyStep trace s →
      s.Complete rt settings := by
  intro hall
  have hcomplete := hall _ _ _ _ _ (reaches_first illegibleEvent)
  obtain ⟨d, hd, -, hsettled⟩ := hcomplete.passed 0 Nat.one_pos
  rw [List.mem_singleton.mp hd] at hsettled
  have hdata := (accounted_iff.mp hsettled).data (.inl (by decide))
  obtain ⟨fields, hfields, hextensions⟩ := ((hdata.2 _ rfl).1 _ rfl).extensions rfl
  cases hfields
  exact hextensions _ List.mem_cons_self

end Sample

end OpenctiLookup
