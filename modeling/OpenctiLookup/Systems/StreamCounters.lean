import OpenctiLookup.Systems.Deliveries

/-! What the counters of the stream say. An event may raise half way through its values, and
what it had written by then is written. -/
namespace OpenctiLookup
open Python Theory

variable (rt : Runtime) (settings : Settings)

/-- The keys of some values up to one that cannot be normalized or encoded, and what that
raises. -/
def keysUntil : List Str → List Str × Option Fault
  | [] => ([], none)
  | raw :: rest =>
      match norm rt settings raw with
      | .error fault => ([], some fault)
      | .ok none => keysUntil rest
      | .ok (some key) =>
          match rt.encode key with
          | .error fault => ([], some fault)
          | .ok _ => (key :: (keysUntil rest).1, (keysUntil rest).2)

/-- The keys an event writes, or removes, before it raises if it does. -/
def StreamEvent.written (event : StreamEvent) : List Str :=
  if event.kind ∈ addEvents ∨ event.kind ∈ removeEvents then
    (keysUntil rt settings (event.values rt)).1
  else []

structure EventCounted (event : StreamEvent) (fault : Option Fault) (before after : StreamStats) :
    Prop where
  heartbeats : after.heartbeats =
    before.heartbeats + if event.kind ∈ heartbeatEvents then 1 else 0
  applied : after.eventsApplied =
    before.eventsApplied + if fault = none ∧ event.written rt settings ≠ [] then 1 else 0
  skipped : after.eventsSkipped = before.eventsSkipped +
    if fault = none ∧ event.kind ∉ controlEvents ∧ event.written rt settings = [] then 1 else 0
  adds : after.adds =
    before.adds + if event.kind ∈ removeEvents then 0 else (event.written rt settings).length
  removes : after.removes =
    before.removes + if event.kind ∈ removeEvents then (event.written rt settings).length else 0

section Event

variable {rt settings} {event : StreamEvent} {consumer : StreamConsumer} {worker : Worker} {now : ℚ}

theorem applyValues_eq (removing : Bool) (raws : List Str) (touched : ℕ) (worker : Worker) :
    StreamConsumer.applyValues (Worker.callbacks rt settings) removing raws touched worker =
      (touched + (keysUntil rt settings raws).1.length,
        worker.setMembership (MembershipSet.writeAll rt (!removing) (keysUntil rt settings raws).1
          worker.membership), (keysUntil rt settings raws).2) := by
  induction raws generalizing touched worker with
  | nil => rfl
  | cons raw raws ih =>
      have hnorm : (Worker.callbacks rt settings).normalize raw = norm rt settings raw := rfl
      rw [StreamConsumer.applyValues, hnorm, keysUntil]
      cases norm rt settings raw with
      | error fault => rfl
      | ok key =>
          cases key with
          | none => exact ih touched worker
          | some key =>
              simp only [write_callbacks, Runtime.encode]
              by_cases hencodes : rt.encodes key = true
              · simp only [if_pos hencodes]
                rw [ih, List.length_cons, Nat.add_right_comm, Nat.add_assoc]
                rfl
              · simp only [if_neg hencodes]
                rfl

theorem received_stats : (consumer.received now event).stats =
    { consumer.stats with
      lastEventId := if event.movesCursor then event.id else consumer.stats.lastEventId
      lastActivityAt := now } := by
  unfold StreamConsumer.received StreamEvent.movesCursor
  cases event.id with
  | none => rfl
  | some id =>
      dsimp only
      cases id with
      | nil => rfl
      | cons c id => rfl

theorem received_cursor : (consumer.received now event).cursor =
    if event.movesCursor then event.id else consumer.cursor := by
  unfold StreamConsumer.received StreamEvent.movesCursor
  cases event.id with
  | none => rfl
  | some id =>
      dsimp only
      cases id with
      | nil => rfl
      | cons c id => rfl

theorem written_of_not_changes (h : ¬ event.Changes) : event.written rt settings = [] := if_neg h

def StreamConsumer.beat (consumer : StreamConsumer) : StreamConsumer :=
  { consumer with stats := { consumer.stats with heartbeats := consumer.stats.heartbeats + 1 } }

/-- An event that changes nothing is a heartbeat, another one of the connection's own, or of
no known kind. -/
theorem handle_quiet (h : ¬ event.Changes) :
    StreamConsumer.handle rt (Worker.callbacks rt settings) now event consumer worker =
      ⟨if event.kind ∈ heartbeatEvents then (consumer.received now event).beat
        else if event.kind ∈ controlEvents then consumer.received now event
        else (consumer.received now event).skip, worker,
        if event.kind ∈ metricsEvents then StreamConsumer.timeLagFault event.data else none⟩ := by
  have hunknown : event.kind ∉ addEvents ∧ event.kind ∉ removeEvents := not_or.mp h
  have hcontrol : event.kind ∈ controlEvents ↔
      event.kind = "connected" ∨ event.kind ∈ heartbeatEvents ∨ event.kind ∈ metricsEvents := by
    rw [controlEvents, List.mem_cons, List.mem_append]
  unfold StreamConsumer.handle
  dsimp only
  rw [if_pos hunknown]
  split
  · rename_i hheartbeat
    have hdisjoint : ∀ kind ∈ heartbeatEvents, kind ∉ metricsEvents := by decide
    rw [if_neg (hdisjoint _ hheartbeat)]
    rfl
  · rename_i hheartbeat
    split
    · rename_i hmetrics
      rw [if_pos (hcontrol.mpr (.inr (.inr hmetrics)))]
      rfl
    · rename_i hmetrics
      split
      · rename_i hconnected
        rw [if_pos (hcontrol.mpr (.inl hconnected))]
        rfl
      · rename_i hconnected
        rw [if_neg]
        · rfl
        · rw [hcontrol]
          rintro (hkind | hkind | hkind)
          · exact hconnected hkind
          · exact hheartbeat hkind
          · exact hmetrics hkind

def StreamConsumer.SamePlace (consumer before : StreamConsumer) : Prop :=
  consumer.cursor = before.cursor ∧ consumer.stats.lastEventId = before.stats.lastEventId

theorem counted_quiet (h : ¬ event.Changes) {before after : StreamConsumer} {fault : Option Fault}
    (hafter : after = if event.kind ∈ heartbeatEvents then before.beat
      else if event.kind ∈ controlEvents then before else before.skip)
    (hfault : event.kind ∉ controlEvents → fault = none) :
    EventCounted rt settings event fault before.stats after.stats ∧ after.SamePlace before := by
  have hwritten : event.written rt settings = [] := written_of_not_changes h
  have hremoves : event.kind ∉ removeEvents := (not_or.mp h).2
  rw [hafter]
  by_cases hheartbeat : event.kind ∈ heartbeatEvents
  · have hcontrol : event.kind ∈ controlEvents :=
      List.mem_cons_of_mem _ (List.mem_append_left _ hheartbeat)
    rw [if_pos hheartbeat]
    refine ⟨?_, rfl, rfl⟩
    constructor <;> simp [StreamConsumer.beat, hheartbeat, hcontrol, hwritten]
  · rw [if_neg hheartbeat]
    by_cases hcontrol : event.kind ∈ controlEvents
    · rw [if_pos hcontrol]
      refine ⟨?_, rfl, rfl⟩
      constructor <;> simp [hheartbeat, hcontrol, hwritten]
    · rw [if_neg hcontrol]
      refine ⟨?_, rfl, rfl⟩
      constructor <;> simp [StreamConsumer.skip, hheartbeat, hcontrol, hwritten, hfault hcontrol]

theorem handle_changing (h : event.Changes) :
    StreamConsumer.handle rt (Worker.callbacks rt settings) now event consumer worker =
      match event.data with
      | .ok (.obj payload) =>
          StreamConsumer.apply rt (Worker.callbacks rt settings) now
            (decide (event.kind ∈ removeEvents)) payload (consumer.received now event) worker
      | .ok _ => ⟨(consumer.received now event).skip, worker, none⟩
      | .error (.raised .valueError) => ⟨(consumer.received now event).skip, worker, none⟩
      | .error fault => ⟨consumer.received now event, worker, some fault⟩ := by
  have hkind : ∀ kind ∈ addEvents ++ removeEvents, kind ∉ heartbeatEvents ∧
      kind ∉ metricsEvents ∧ kind ≠ "connected" := by decide
  obtain ⟨hheartbeat, hmetrics, hconnected⟩ := hkind event.kind (List.mem_append.mpr h)
  have hknown : ¬ (event.kind ∉ addEvents ∧ event.kind ∉ removeEvents) :=
    fun hnot => h.elim hnot.1 hnot.2
  unfold StreamConsumer.handle
  simp only [if_neg hheartbeat, if_neg hmetrics, if_neg hconnected, if_neg hknown]
  rfl

theorem kind_of_changes (h : event.Changes) :
    event.kind ∉ heartbeatEvents ∧ event.kind ∉ controlEvents := by
  have hkind : ∀ kind ∈ addEvents ++ removeEvents, kind ∉ heartbeatEvents ∧
      kind ∉ controlEvents := by decide
  exact hkind event.kind (List.mem_append.mpr h)

variable (rt settings) in
/-- An event is dealt with: what it writes goes to the set, and all of it is counted. -/
structure Dealt (event : StreamEvent) (before : StreamConsumer) (worker : Worker)
    (handled : Handled Worker) : Prop where
  counted : EventCounted rt settings event handled.fault before.stats handled.consumer.stats
  place : handled.consumer.SamePlace before
  membership : handled.target.membership = MembershipSet.writeAll rt
    (decide (event.kind ∉ removeEvents)) (event.written rt settings) worker.membership

theorem dealt_skip (h : event.Changes) (hwritten : event.written rt settings = [])
    (before : StreamConsumer) (worker : Worker) :
    Dealt rt settings event before worker ⟨before.skip, worker, none⟩ := by
  obtain ⟨hheartbeat, hcontrol⟩ := kind_of_changes h
  refine ⟨?_, ⟨rfl, rfl⟩, ?_⟩
  · constructor <;> simp [StreamConsumer.skip, hheartbeat, hcontrol, hwritten]
  · rw [hwritten]
    rfl

theorem dealt_apply (h : event.Changes) {payload : List (Str × Json)}
    (hdata : event.data = .ok (.obj payload)) (before : StreamConsumer) (worker : Worker) :
    Dealt rt settings event before worker
      (StreamConsumer.apply rt (Worker.callbacks rt settings) now
        (decide (event.kind ∈ removeEvents)) payload before worker) := by
  obtain ⟨hheartbeat, hcontrol⟩ := kind_of_changes h
  have hwritten : event.written rt settings =
      (keysUntil rt settings (extractValues rt payload).1).1 := by
    rw [StreamEvent.written, if_pos (show _ ∨ _ from h), StreamEvent.values, hdata]
  unfold StreamConsumer.apply
  dsimp only
  rw [applyValues_eq, ← hwritten, Nat.zero_add, ← decide_not]
  dsimp only
  -- What has been counted before the loop ended one way or the other.
  have hcounted : ∀ fault : Option Fault, fault ≠ none →
      EventCounted rt settings event fault before.stats
        (if event.kind ∈ removeEvents then
          { before.stats with
            removes := before.stats.removes + (event.written rt settings).length }
        else { before.stats with
          adds := before.stats.adds + (event.written rt settings).length }) := by
    intro fault hfault
    by_cases hremoves : event.kind ∈ removeEvents
    · constructor <;> simp [hheartbeat, hfault, hremoves]
    · constructor <;> simp [hheartbeat, hfault, hremoves]
  have hplace : (if event.kind ∈ removeEvents then
      { before.stats with
        removes := before.stats.removes + (event.written rt settings).length }
      else { before.stats with
        adds := before.stats.adds + (event.written rt settings).length }).lastEventId =
      before.stats.lastEventId := by
    split <;> rfl
  simp only [decide_eq_true_eq]
  split
  · exact ⟨hcounted _ (Option.some_ne_none _), ⟨rfl, hplace⟩, rfl⟩
  · exact ⟨hcounted _ (Option.some_ne_none _), ⟨rfl, hplace⟩, rfl⟩
  · unfold StreamConsumer.finish
    split
    · rename_i hnone
      rw [List.length_eq_zero_iff] at hnone
      refine ⟨?_, ⟨rfl, hplace⟩, rfl⟩
      by_cases hremoves : event.kind ∈ removeEvents
      · constructor <;> simp [StreamConsumer.skip, hheartbeat, hcontrol, hremoves, hnone]
      · constructor <;> simp [StreamConsumer.skip, hheartbeat, hcontrol, hremoves, hnone]
    · rename_i hsome
      rw [List.length_eq_zero_iff] at hsome
      refine ⟨?_, ⟨rfl, hplace⟩, ?_⟩
      · by_cases hremoves : event.kind ∈ removeEvents
        · constructor <;> simp [hheartbeat, hremoves, hsome]
        · constructor <;> simp [hheartbeat, hremoves, hsome]
      · dsimp only
        split <;> rfl

/-- Every event is dealt with behind the first statements of `_handle`. -/
theorem dealt_handle : Dealt rt settings event (consumer.received now event) worker
    (StreamConsumer.handle rt (Worker.callbacks rt settings) now event consumer worker) := by
  by_cases hchanges : event.Changes
  · rw [handle_changing hchanges]
    have hvalues : ∀ data, event.data = data → (∀ payload, data ≠ .ok (.obj payload)) →
        event.written rt settings = [] := by
      intro data hdata hother
      have hnone : event.values rt = [] := by
        unfold StreamEvent.values
        split
        · rename_i payload hobj
          exact absurd (hdata.symm.trans hobj) (hother payload)
        · rfl
      rw [StreamEvent.written, hnone]
      split <;> rfl
    obtain ⟨hheartbeat, hcontrol⟩ := kind_of_changes hchanges
    split
    · rename_i payload hdata
      exact dealt_apply hchanges hdata _ worker
    · rename_i value hother hdata
      exact dealt_skip hchanges (hvalues _ hdata fun payload heq => hother payload
        (Except.ok.inj heq)) _ worker
    · rename_i hdata
      exact dealt_skip hchanges (hvalues _ hdata nofun) _ worker
    · rename_i fault hother hdata
      have hwritten := hvalues _ hdata nofun
      refine ⟨?_, ⟨rfl, rfl⟩, ?_⟩
      · constructor <;> simp [hheartbeat, hwritten]
      · rw [hwritten]
        rfl
  · rw [handle_quiet hchanges]
    have hmetrics : event.kind ∉ controlEvents → event.kind ∉ metricsEvents := fun hcontrol hkind =>
      hcontrol (List.mem_cons_of_mem _ (List.mem_append_right _ hkind))
    obtain ⟨hcounted, hplace⟩ := @counted_quiet rt settings event hchanges
      (consumer.received now event) _
      (if event.kind ∈ metricsEvents then StreamConsumer.timeLagFault event.data else none) rfl
      fun hcontrol => if_neg (hmetrics hcontrol)
    refine ⟨hcounted, hplace, ?_⟩
    rw [written_of_not_changes hchanges]
    rfl

end Event

/-- `streamSystem` from a consumer that has just been made. -/
def freshStream (log : List StreamEvent) : System StreamRun StreamStep where
  init s := (streamSystem rt settings log).init s ∧ ∃ now,
    s.consumer = { stats := { lastActivityAt := now, lastEventAt := now } }
  step := (streamSystem rt settings log).step

namespace Delivery

variable (d : Delivery)

def applied : Bool :=
  decide ((d.handled rt settings).fault = none ∧ d.event.written rt settings ≠ [])

def skipped : Bool :=
  decide ((d.handled rt settings).fault = none ∧ d.event.kind ∉ controlEvents ∧
    d.event.written rt settings = [])

/-- The event is a change, or an unknown kind, and did not raise. -/
def done : Bool :=
  decide ((d.handled rt settings).fault = none ∧ d.event.kind ∉ controlEvents)

def added : ℕ :=
  if d.event.kind ∈ removeEvents then 0 else (d.event.written rt settings).length

def removed : ℕ :=
  if d.event.kind ∈ removeEvents then (d.event.written rt settings).length else 0

end Delivery

def lastId (deliveries : List Delivery) : Option Str :=
  (deliveries.filter fun d => d.event.movesCursor).getLast?.bind fun d => d.event.id

/-- The counters say what has become of the events handed over. -/
structure StreamRun.Counted (s : StreamRun) : Prop where
  heartbeats : s.consumer.stats.heartbeats =
    s.deliveries.countP fun d => decide (d.event.kind ∈ heartbeatEvents)
  applied : s.consumer.stats.eventsApplied =
    s.deliveries.countP fun d => d.applied rt settings
  skipped : s.consumer.stats.eventsSkipped =
    s.deliveries.countP fun d => d.skipped rt settings
  adds : s.consumer.stats.adds = (s.deliveries.map fun d => d.added rt settings).sum
  removes : s.consumer.stats.removes = (s.deliveries.map fun d => d.removed rt settings).sum
  cursor : s.consumer.cursor = lastId s.deliveries
  lastEventId : s.consumer.stats.lastEventId = lastId s.deliveries

section Run

variable {rt settings} {log : List StreamEvent} {s s' : StreamRun}

theorem lastId_append (deliveries : List Delivery) (d : Delivery) :
    lastId (deliveries ++ [d]) = if d.event.movesCursor then d.event.id else lastId deliveries := by
  unfold lastId
  rw [List.filter_append]
  by_cases hmoves : d.event.movesCursor = true
  · have hlast : [d].filter (fun d => d.event.movesCursor) = [d] := List.filter_cons_of_pos hmoves
    rw [if_pos hmoves, hlast, List.getLast?_concat, Option.bind_some]
  · have hnone : [d].filter (fun d => d.event.movesCursor) = [] := List.filter_cons_of_neg hmoves
    rw [if_neg hmoves, hnone, List.append_nil]

theorem dealt_delivery (d : Delivery) :
    Dealt rt settings d.event (d.consumer.received d.now d.event) d.worker
      (d.handled rt settings) :=
  dealt_handle

/-- One more event is counted in each of the counters it belongs to. -/
theorem counted_afterDelivery (h : s.Counted rt settings) (now : ℚ) (event : StreamEvent) :
    (s.afterDelivery rt settings (s.delivery now event)).Counted rt settings := by
  have hdealt := @dealt_delivery rt settings (s.delivery now event)
  obtain ⟨hheartbeats, happlied, hskipped, hadds, hremoves⟩ := hdealt.counted
  obtain ⟨hcursor, hlast⟩ := hdealt.place
  have hconsumer : ∀ {α : Type} (f : StreamConsumer → α),
      (∀ consumer, f (consumer.setConnected false) = f consumer) →
      f (s.afterDelivery rt settings (s.delivery now event)).consumer =
        f ((s.delivery now event).handled rt settings).consumer := by
    intro α f hf
    unfold StreamRun.afterDelivery
    dsimp only
    split
    · exact hf _
    · rfl
  have hdeliveries : (s.afterDelivery rt settings (s.delivery now event)).deliveries =
      s.deliveries ++ [s.delivery now event] := rfl
  have hbefore : (s.delivery now event).consumer = s.consumer := rfl
  rw [received_stats] at hheartbeats happlied hskipped hadds hremoves hlast
  rw [received_cursor] at hcursor
  constructor
  · rw [hconsumer (fun consumer => consumer.stats.heartbeats) fun _ => rfl, hdeliveries,
      List.countP_append, List.countP_singleton, ← h.heartbeats, hheartbeats]
    simp only [decide_eq_true_eq, hbefore]
  · rw [hconsumer (fun consumer => consumer.stats.eventsApplied) fun _ => rfl, hdeliveries,
      List.countP_append, List.countP_singleton, ← h.applied, happlied]
    simp only [Delivery.applied, decide_eq_true_eq, hbefore]
  · rw [hconsumer (fun consumer => consumer.stats.eventsSkipped) fun _ => rfl, hdeliveries,
      List.countP_append, List.countP_singleton, ← h.skipped, hskipped]
    simp only [Delivery.skipped, decide_eq_true_eq, hbefore]
  · rw [hconsumer (fun consumer => consumer.stats.adds) fun _ => rfl, hdeliveries,
      List.map_append, List.sum_append, ← h.adds, hadds]
    rfl
  · rw [hconsumer (fun consumer => consumer.stats.removes) fun _ => rfl, hdeliveries,
      List.map_append, List.sum_append, ← h.removes, hremoves]
    rfl
  · rw [hconsumer (fun consumer => consumer.cursor) fun _ => rfl, hdeliveries, lastId_append,
      ← h.cursor, hcursor]
    rfl
  · rw [hconsumer (fun consumer => consumer.stats.lastEventId) fun _ => rfl, hdeliveries,
      lastId_append, ← h.lastEventId, hlast]
    rfl

theorem counted_stream {a : StreamStep} (h : s.Counted rt settings)
    (hstep : (freshStream rt settings log).step s a s') : s'.Counted rt settings := by
  have hbefore := h
  obtain ⟨hheartbeats, happlied, hskipped, hadds, hremoves, hcursor, hlast⟩ := hbefore
  cases a with
  | connect =>
      obtain ⟨-, -, rfl⟩ := hstep
      exact ⟨hheartbeats, happlied, hskipped, hadds, hremoves, hcursor, hlast⟩
  | deliver now =>
      obtain ⟨-, event, -, rfl⟩ := hstep
      exact counted_afterDelivery h now event
  | drop clean =>
      obtain ⟨-, rfl⟩ := hstep
      cases clean <;> exact ⟨hheartbeats, happlied, hskipped, hadds, hremoves, hcursor, hlast⟩
  | other worker =>
      cases hstep
      exact ⟨hheartbeats, happlied, hskipped, hadds, hremoves, hcursor, hlast⟩

theorem counted_of_reaches {trace : List StreamStep}
    (hrun : Reaches (freshStream rt settings log) anyStep trace s) : s.Counted rt settings := by
  apply hrun.invariant
  · rintro s ⟨⟨-, -, -, hdeliveries⟩, now, hconsumer⟩
    constructor <;> rw [hconsumer, hdeliveries] <;> rfl
  · exact fun s a s' h _ hstep => counted_stream h hstep

theorem countP_applied_add_skipped (deliveries : List Delivery) :
    deliveries.countP (fun d => d.applied rt settings) +
        deliveries.countP (fun d => d.skipped rt settings) =
      deliveries.countP fun d => d.done rt settings := by
  induction deliveries with
  | nil => rfl
  | cons d deliveries ih =>
      have hchange : d.event.written rt settings ≠ [] → d.event.kind ∉ controlEvents := by
        intro hwritten
        by_contra hcontrol
        apply hwritten (written_of_not_changes _)
        intro hchanges
        exact (kind_of_changes hchanges).2 hcontrol
      have hone : (if d.applied rt settings then 1 else 0) +
          (if d.skipped rt settings then 1 else 0) = if d.done rt settings then 1 else 0 := by
        simp only [Delivery.applied, Delivery.skipped, Delivery.done, decide_eq_true_eq]
        by_cases hwritten : d.event.written rt settings = []
        · simp [hwritten]
        · simp [hwritten, hchange hwritten]
      simp only [List.countP_cons]
      omega

/-- Over any run the counters say what became of every event handed over, and what they count
as written is what went into the set or out of it. -/
theorem events_counted {trace : List StreamStep}
    (hrun : Reaches (freshStream rt settings log) anyStep trace s) :
    s.Counted rt settings ∧
      s.consumer.stats.eventsApplied + s.consumer.stats.eventsSkipped =
        s.deliveries.countP (fun d => d.done rt settings) ∧
      ∀ d ∈ s.deliveries, (d.handled rt settings).target.membership =
        MembershipSet.writeAll rt (decide (d.event.kind ∉ removeEvents))
          (d.event.written rt settings) d.worker.membership := by
  have hcounted := counted_of_reaches hrun
  refine ⟨hcounted, ?_, fun d _ => (dealt_delivery d).membership⟩
  rw [hcounted.applied, hcounted.skipped, countP_applied_add_skipped]

end Run

section Sample

theorem written_createEvil :
    createEvil.written sampleRuntime (sampleSettings 50000) = ["evil.com".toList] := by
  have hvalues : createEvil.values sampleRuntime = ["evil.com".toList] := by
    rw [StreamEvent.values, createEvil, changeEvent]
    dsimp only
    rw [extractValues_toJson, rawValues_sampleObject]
    rfl
  have hnorm := @norm_evil 50000
  rw [StreamEvent.written, if_pos (.inl (by decide)), hvalues]
  unfold keysUntil
  rw [hnorm]
  rfl

theorem reaches_fresh (event : StreamEvent) :
    Reaches (freshStream sampleRuntime (sampleSettings 50000) [event]) anyStep
      [.connect, .deliver 0] (deliveredRun event) := by
  have hstart : Reaches (freshStream sampleRuntime (sampleSettings 50000) [event]) anyStep []
      sampleRun := .init ⟨⟨rfl, rfl, rfl, rfl⟩, 0, rfl⟩
  have hconnect : (freshStream sampleRuntime (sampleSettings 50000) [event]).step sampleRun
      .connect connectedRun := ⟨rfl, fun d hd => absurd hd List.not_mem_nil, rfl⟩
  have hdeliver : (freshStream sampleRuntime (sampleSettings 50000) [event]).step connectedRun
      (.deliver 0) (deliveredRun event) := ⟨rfl, event, rfl, rfl⟩
  exact (hstart.step trivial hconnect).step trivial hdeliver

/-- One creation: one event applied, one value added. -/
theorem events_counted_create :
    ∃ trace s, Reaches (freshStream sampleRuntime (sampleSettings 50000) [createEvil]) anyStep
      trace s ∧ s.consumer.stats.adds = 1 ∧ s.Counted sampleRuntime (sampleSettings 50000) := by
  have hcounted := (events_counted (reaches_fresh createEvil)).1
  refine ⟨_, _, reaches_fresh createEvil, ?_, hcounted⟩
  have hadded : (connectedRun.delivery 0 createEvil).added sampleRuntime (sampleSettings 50000) =
      1 := by
    have hkind : (connectedRun.delivery 0 createEvil).event.kind ∉ removeEvents := by decide
    rw [Delivery.added, if_neg hkind]
    exact congrArg List.length written_createEvil
  rw [hcounted.adds]
  exact congrArg List.sum (congrArg (fun n => [n]) hadded)

end Sample

end OpenctiLookup
