import OpenctiLookup.Opencti.Events

/-! What `_handle` makes of an arbitrary event. Its data may be any JSON value, and
which values can be read decides whether the handling returns. -/
namespace OpenctiLookup
open Python

namespace Python.Json

def Hashable : Json → Prop
  | .arr _ => False
  | .obj _ => False
  | _ => True

end Python.Json

def LegibleExtensions (extensions : List Json) : Prop :=
  ∀ fields, .obj fields ∈ extensions →
    ((Json.field fields "observable_values").orElse (.arr [])).Iterable

/-- `extract_values` reads the object without raising. -/
structure LegibleStix (stix : List (Str × Json)) : Prop where
  type : (Json.field stix "type").Hashable
  extensions : Json.field stix "type" = .str "indicator" →
    ∃ fields, (Json.field stix "extensions").orElse (.obj []) = .obj fields ∧
      LegibleExtensions (fields.map Prod.snd)

/-- The data of a metrics event has a lag that `float` takes. -/
def LegibleLag (data : Py Json) : Prop :=
  (∀ fault, data = .error fault → fault = .raised .valueError) ∧
    ∀ fields n, data = .ok (.obj fields) → Json.field fields "timeLag" = .int n →
      n.natAbs < 2 ^ 1024 - 2 ^ 970

variable (rt : Runtime) (settings : Settings)

/-- The data of a change event has an object that can be read, of values that can be
normalized and encoded. -/
def LegibleData (data : Py Json) : Prop :=
  (∀ fault, data = .error fault → fault = .raised .valueError) ∧
    ∀ payload, data = .ok (.obj payload) →
      (∀ stix, Json.field payload "data" = .obj stix → LegibleStix stix) ∧
        ∀ raw ∈ (extractValues rt payload).1, Applicable rt settings raw

namespace StreamEvent

def Changes (event : StreamEvent) : Prop := event.kind ∈ addEvents ∨ event.kind ∈ removeEvents

/-- The values `extract_values` finds in a change event. -/
def values (event : StreamEvent) : List Str :=
  match event.data with
  | .ok (.obj payload) => (extractValues rt payload).1
  | _ => []

def keys (event : StreamEvent) : List Str := keysOf rt settings (event.values rt)

/-- Nothing in the event keeps `_handle` from returning. -/
structure Legible (event : StreamEvent) : Prop where
  lag : event.kind ∈ metricsEvents → LegibleLag event.data
  data : event.Changes → LegibleData rt settings event.data

end StreamEvent

section Extract

variable {rt settings}

theorem extensionValues_fault_iff (extensions : List Json) :
    (extensionValues rt extensions).2 = none ↔ LegibleExtensions extensions := by
  induction extensions with
  | nil => simp [extensionValues, LegibleExtensions]
  | cons extension rest ih =>
      cases extension with
      | obj fields =>
          have hcons : LegibleExtensions (.obj fields :: rest) ↔
              ((Json.field fields "observable_values").orElse (.arr [])).Iterable ∧
                LegibleExtensions rest := by
            simp [LegibleExtensions]
          rw [hcons, ← ih, Json.iterable_iff, extensionValues]
          cases hiter : ((Json.field fields "observable_values").orElse (.arr [])).iter with
          | error fault => simp
          | ok items => simp
      | _ => simpa [extensionValues, LegibleExtensions] using ih

theorem extractValues_fault_iff (payload : List (Str × Json)) :
    (extractValues rt payload).2 = none ↔
      ∀ stix, Json.field payload "data" = .obj stix → LegibleStix stix := by
  unfold extractValues
  cases hdata : Json.field payload "data" with
  | obj stix =>
      simp only [Json.obj.injEq, forall_eq']
      cases htype : Json.field stix "type" with
      | str stixType =>
          dsimp only
          by_cases hindicator : stixType = "indicator"
          · rw [if_pos hindicator]
            have hstix : LegibleStix stix ↔ ∃ fields,
                (Json.field stix "extensions").orElse (.obj []) = .obj fields ∧
                  LegibleExtensions (fields.map Prod.snd) :=
              ⟨fun h => h.extensions (hindicator ▸ htype),
                fun h => ⟨by rw [htype]; trivial, fun _ => h⟩⟩
            rw [hstix]
            cases (Json.field stix "extensions").orElse (.obj []) with
            | obj fields =>
                rw [Json.values_obj]
                dsimp only
                rw [extensionValues_fault_iff]
                simp
            | _ => simp [Json.values]
          · rw [if_neg hindicator]
            have hstix : LegibleStix stix :=
              ⟨by rw [htype]; trivial,
                fun h => absurd (Json.str.inj (htype.symm.trans h)) hindicator⟩
            split <;> simp [hstix]
      | arr items =>
          refine iff_of_false (by simp) fun h => ?_
          have htypes := h.type
          rw [htype] at htypes
          exact htypes
      | obj fields =>
          refine iff_of_false (by simp) fun h => ?_
          have htypes := h.type
          rw [htype] at htypes
          exact htypes
      | _ => exact iff_of_true rfl ⟨by rw [htype]; trivial, fun h => by rw [htype] at h; cases h⟩
  | _ => simp

end Extract

/-! ### What handling an event leaves -/

/-- The first statements of `_handle`: the cursor and the time of the last traffic. -/
def StreamConsumer.received (now : ℚ) (event : StreamEvent) (consumer : StreamConsumer) :
    StreamConsumer :=
  let consumer :=
    match event.id with
    | some id =>
        if id.isEmpty then consumer
        else
          { consumer with
            cursor := some id
            stats := { consumer.stats with lastEventId := some id } }
    | none => consumer
  { consumer with stats := { consumer.stats with lastActivityAt := now } }

def StreamConsumer.Counts (consumer before : StreamConsumer) (applied skipped : ℕ) : Prop :=
  consumer.stats.eventsApplied = before.stats.eventsApplied + applied ∧
    consumer.stats.eventsSkipped = before.stats.eventsSkipped + skipped

def controlEvents : List Str := "connected".toList :: (heartbeatEvents ++ metricsEvents)

/-- An event has been dealt with: all its keys are written in order, or it is
counted as skipped, or it is one of the connection's own. -/
inductive Accounted (event : StreamEvent) (consumer : StreamConsumer) (worker : Worker) :
    Handled Worker → Prop
  | applied {consumer' : StreamConsumer} : event.Changes → consumer'.Counts consumer 1 0 →
      Accounted event consumer worker ⟨consumer', worker.changed rt settings
        (decide (event.kind ∉ removeEvents)) (event.keys rt settings), none⟩
  | skipped {consumer' : StreamConsumer} : consumer'.Counts consumer 0 1 →
      Accounted event consumer worker ⟨consumer', worker, none⟩
  | control {consumer' : StreamConsumer} : event.kind ∈ controlEvents →
      consumer'.Counts consumer 0 0 → Accounted event consumer worker ⟨consumer', worker, none⟩

section Handle

variable {rt settings} {event : StreamEvent} {consumer : StreamConsumer} {worker : Worker} {now : ℚ}

theorem StreamConsumer.Counts.skip {before : StreamConsumer} {applied : ℕ}
    (h : consumer.Counts before applied 0) : consumer.skip.Counts before applied 1 :=
  ⟨h.1, congrArg (· + 1) h.2⟩

theorem counts_received (now : ℚ) (event : StreamEvent) (consumer : StreamConsumer) :
    (consumer.received now event).Counts consumer 0 0 := by
  unfold StreamConsumer.received
  cases event.id with
  | none => exact ⟨rfl, rfl⟩
  | some id =>
      dsimp only
      split <;> exact ⟨rfl, rfl⟩

theorem handle_of_changes (h : event.Changes) :
    ∃ consumer' : StreamConsumer, consumer'.Counts consumer 0 0 ∧
      StreamConsumer.handle rt (Worker.callbacks rt settings) now event consumer worker =
        match event.data with
        | .ok (.obj payload) =>
            StreamConsumer.apply rt (Worker.callbacks rt settings) now
              (decide (event.kind ∈ removeEvents)) payload consumer' worker
        | .ok _ => ⟨consumer'.skip, worker, none⟩
        | .error (.raised .valueError) => ⟨consumer'.skip, worker, none⟩
        | .error fault => ⟨consumer', worker, some fault⟩ := by
  have hkind : ∀ kind ∈ addEvents ++ removeEvents, kind ∉ heartbeatEvents ∧
      kind ∉ metricsEvents ∧ kind ≠ "connected" := by decide
  obtain ⟨hheartbeat, hmetrics, hconnected⟩ := hkind event.kind (List.mem_append.mpr h)
  have hknown : ¬ (event.kind ∉ addEvents ∧ event.kind ∉ removeEvents) :=
    fun hnot => h.elim hnot.1 hnot.2
  unfold StreamConsumer.handle
  simp only [if_neg hheartbeat, if_neg hmetrics, if_neg hconnected, if_neg hknown]
  exact ⟨consumer.received now event, counts_received now event consumer, rfl⟩

theorem timeLagFault_iff (data : Py Json) :
    StreamConsumer.timeLagFault data = none ↔ LegibleLag data := by
  unfold StreamConsumer.timeLagFault
  split
  · rename_i fields
    split
    · rename_i n hlag
      split
      · rename_i hlarge
        refine iff_of_false nofun fun h => ?_
        exact absurd (h.2 fields n rfl hlag) (Nat.not_lt.mpr hlarge)
      · rename_i hsmall
        refine iff_of_true rfl ⟨nofun, fun fields' m hfields hm => ?_⟩
        cases hfields
        cases hlag.symm.trans hm
        exact Nat.lt_of_not_le hsmall
    · rename_i hother
      refine iff_of_true rfl ⟨nofun, fun fields' m hfields hm => ?_⟩
      cases hfields
      exact absurd hm (hother m)
  · rename_i value hother
    refine iff_of_true rfl ⟨nofun, fun fields m hfields _ => ?_⟩
    exact absurd (Except.ok.inj hfields) (hother fields)
  · refine iff_of_true rfl ⟨fun fault hfault => ?_, nofun⟩
    exact (Except.error.inj hfault).symm
  · rename_i fault hother
    refine iff_of_false nofun fun h => ?_
    exact hother (h.1 fault rfl)

theorem fault_apply_iff (removing : Bool) (payload : List (Str × Json)) :
    (StreamConsumer.apply rt (Worker.callbacks rt settings) now removing payload consumer
      worker).fault = none ↔
      (∀ stix, Json.field payload "data" = .obj stix → LegibleStix stix) ∧
        ∀ raw ∈ (extractValues rt payload).1, Applicable rt settings raw := by
  rw [← @extractValues_fault_iff rt, ← applyValues_fault_iff removing _ 0 worker]
  unfold StreamConsumer.apply
  dsimp only
  split
  · rename_i hloop
    simp [hloop]
  · rename_i hloop hraised
    simp [hloop, hraised]
  · rename_i hloop hraised
    rw [hloop, hraised]
    unfold StreamConsumer.finish
    split <;> simp

theorem accounted_finish {consumer' : StreamConsumer} (hchanges : event.Changes)
    (hcounts : consumer'.Counts consumer 0 0) :
    Accounted rt settings event consumer worker
      (StreamConsumer.finish (Worker.callbacks rt settings) now (event.keys rt settings).length
        consumer' (worker.setMembership (MembershipSet.writeAll rt
          (decide (event.kind ∉ removeEvents)) (event.keys rt settings) worker.membership))) := by
  unfold StreamConsumer.finish
  by_cases hempty : event.keys rt settings = []
  · rw [hempty, List.length_nil, if_pos rfl]
    exact .skipped hcounts.skip
  · rw [if_neg (by simpa using hempty)]
    have hchanged : worker.changed rt settings (decide (event.kind ∉ removeEvents))
        (event.keys rt settings) = _ := if_neg hempty
    refine hchanged ▸ Accounted.applied hchanges ?_
    exact ⟨congrArg (· + 1) hcounts.1, hcounts.2⟩

theorem accounted_apply {payload : List (Str × Json)} {consumer' : StreamConsumer}
    (hchanges : event.Changes) (hdata : event.data = .ok (.obj payload))
    (hcounts : consumer'.Counts consumer 0 0) (hlegible : LegibleData rt settings event.data) :
    Accounted rt settings event consumer worker
      (StreamConsumer.apply rt (Worker.callbacks rt settings) now
        (decide (event.kind ∈ removeEvents)) payload consumer' worker) := by
  obtain ⟨hstix, hnorm⟩ := hlegible.2 payload hdata
  have hvalues : extractValues rt payload = (event.values rt, none) := by
    refine Prod.ext ?_ ((extractValues_fault_iff payload).mpr hstix)
    rw [StreamEvent.values, hdata]
  rw [hvalues] at hnorm
  unfold StreamConsumer.apply
  rw [hvalues]
  dsimp only
  rw [applyValues_of_fault_none _ _ _ _ ((applyValues_fault_iff _ _ _ _).mpr hnorm), Nat.zero_add,
    ← StreamEvent.keys, ← decide_not]
  dsimp only
  refine accounted_finish hchanges ?_
  split <;> exact hcounts

theorem accounted_of_changes (hchanges : event.Changes)
    (hlegible : LegibleData rt settings event.data) :
    Accounted rt settings event consumer worker
      (StreamConsumer.handle rt (Worker.callbacks rt settings) now event consumer worker) := by
  obtain ⟨consumer', hcounts, hhandle⟩ :=
    @handle_of_changes rt settings event consumer worker now hchanges
  rw [hhandle]
  split
  · rename_i payload hdata
    exact accounted_apply hchanges hdata hcounts hlegible
  · exact .skipped hcounts.skip
  · exact .skipped hcounts.skip
  · rename_i fault hother hdata
    exact absurd (hlegible.1 fault hdata) fun h => hother h

theorem legible_of_changes (hchanges : event.Changes)
    (hfault : (StreamConsumer.handle rt (Worker.callbacks rt settings) now event consumer
      worker).fault = none) : LegibleData rt settings event.data := by
  obtain ⟨consumer', hcounts, hhandle⟩ :=
    @handle_of_changes rt settings event consumer worker now hchanges
  rw [hhandle] at hfault
  cases hdata : event.data with
  | error fault =>
      rw [hdata] at hfault
      refine ⟨fun other hother => ?_, nofun⟩
      cases hother
      cases fault with
      | diverges => cases hfault
      | raised error => cases error <;> first | rfl | cases hfault
  | ok value =>
      refine ⟨nofun, fun payload hpayload => ?_⟩
      cases hpayload
      rw [hdata] at hfault
      exact (fault_apply_iff _ _).mp hfault

theorem handle_of_not_changes (h : ¬ event.Changes) :
    ∃ consumer' : StreamConsumer,
      StreamConsumer.handle rt (Worker.callbacks rt settings) now event consumer worker =
        ⟨consumer', worker,
          if event.kind ∈ metricsEvents then StreamConsumer.timeLagFault event.data else none⟩ ∧
        (event.kind ∈ controlEvents ∧ consumer'.Counts consumer 0 0 ∨
          consumer'.Counts consumer 0 1) := by
  have hunknown : event.kind ∉ addEvents ∧ event.kind ∉ removeEvents := not_or.mp h
  have hcounts := counts_received now event consumer
  unfold StreamConsumer.handle
  dsimp only
  rw [if_pos hunknown]
  split
  · rename_i hheartbeat
    have hdisjoint : ∀ kind ∈ heartbeatEvents, kind ∉ metricsEvents := by decide
    rw [if_neg (hdisjoint _ hheartbeat)]
    exact ⟨_, rfl, .inl ⟨List.mem_cons_of_mem _ (List.mem_append_left _ hheartbeat), hcounts⟩⟩
  · split
    · rename_i hmetrics
      exact ⟨_, rfl, .inl ⟨List.mem_cons_of_mem _ (List.mem_append_right _ hmetrics), hcounts⟩⟩
    · split
      · rename_i hconnected
        exact ⟨_, rfl, .inl ⟨by rw [hconnected]; exact List.mem_cons_self, hcounts⟩⟩
      · exact ⟨_, rfl, .inr (StreamConsumer.Counts.skip hcounts)⟩

theorem Accounted.fault {handled : Handled Worker}
    (h : Accounted rt settings event consumer worker handled) : handled.fault = none := by
  cases h <;> rfl

/-- An event is dealt with exactly when it is legible. -/
theorem accounted_iff :
    Accounted rt settings event consumer worker
        (StreamConsumer.handle rt (Worker.callbacks rt settings) now event consumer worker) ↔
      event.Legible rt settings := by
  have hdisjoint : ∀ kind ∈ metricsEvents, kind ∉ addEvents ++ removeEvents := by decide
  by_cases hchanges : event.Changes
  · constructor
    · intro hsettles
      refine ⟨fun hmetrics => ?_, fun _ => legible_of_changes hchanges hsettles.fault⟩
      exact absurd (List.mem_append.mpr hchanges) (hdisjoint _ hmetrics)
    · exact fun hlegible => accounted_of_changes hchanges (hlegible.data hchanges)
  · obtain ⟨consumer', hhandle, hcounts⟩ :=
      @handle_of_not_changes rt settings event consumer worker now hchanges
    rw [hhandle]
    constructor
    · intro hsettles
      refine ⟨fun hmetrics => ?_, fun h => absurd h hchanges⟩
      have hlag := hsettles.fault
      rw [if_pos hmetrics] at hlag
      exact (timeLagFault_iff _).mp hlag
    · intro hlegible
      have hfault : (if event.kind ∈ metricsEvents then StreamConsumer.timeLagFault event.data
          else none) = none := by
        split
        · rename_i hmetrics
          exact (timeLagFault_iff _).mpr (hlegible.lag hmetrics)
        · rfl
      rw [hfault]
      rcases hcounts with ⟨hcontrol, hcounts⟩ | hcounts
      · exact .control hcontrol hcounts
      · exact .skipped hcounts

theorem target_applyValues (removing : Bool) (raws : List Str) (touched : ℕ) (worker : Worker) :
    ∃ keys, (StreamConsumer.applyValues (Worker.callbacks rt settings) removing raws touched
      worker).2.1 = worker.setMembership (MembershipSet.writeAll rt (!removing) keys
        worker.membership) := by
  induction raws generalizing touched worker with
  | nil => exact ⟨[], rfl⟩
  | cons raw raws ih =>
      rw [StreamConsumer.applyValues]
      cases (Worker.callbacks rt settings).normalize raw with
      | error fault => exact ⟨[], rfl⟩
      | ok key =>
          cases key with
          | none => exact ih touched worker
          | some key =>
              simp only [write_callbacks]
              by_cases hencodes : rt.encodes key = true
              · rw [if_pos hencodes]
                obtain ⟨keys, hkeys⟩ := ih (touched + 1) (worker.setMembership
                  (MembershipSet.writeAll rt (!removing) [key] worker.membership))
                exact ⟨key :: keys, hkeys⟩
              · rw [if_neg hencodes]
                exact ⟨[], rfl⟩

/-- Any event only writes keys to the served set, all of them the same way. -/
theorem split_handle (event : StreamEvent) (consumer : StreamConsumer) (worker : Worker) (now : ℚ) :
    ∃ keys, (StreamConsumer.handle rt (Worker.callbacks rt settings) now event consumer
        worker).target.split =
      { worker.split with
        membership :=
          MembershipSet.writeAll rt (decide (event.kind ∉ removeEvents)) keys
            worker.membership } := by
  by_cases hchanges : event.Changes
  · obtain ⟨consumer', -, hhandle⟩ :=
      @handle_of_changes rt settings event consumer worker now hchanges
    rw [hhandle]
    split
    · rename_i payload hdata
      obtain ⟨keys, hkeys⟩ := @target_applyValues rt settings
        (decide (event.kind ∈ removeEvents)) (extractValues rt payload).1 0 worker
      refine ⟨keys, ?_⟩
      rw [decide_not]
      unfold StreamConsumer.apply
      dsimp only
      split
      · exact congrArg Worker.split hkeys
      · exact congrArg Worker.split hkeys
      · unfold StreamConsumer.finish
        split
        · exact congrArg Worker.split hkeys
        · dsimp only
          split <;> exact congrArg Worker.split hkeys
    · exact ⟨[], rfl⟩
    · exact ⟨[], rfl⟩
    · exact ⟨[], rfl⟩
  · obtain ⟨consumer', hhandle, -⟩ :=
      @handle_of_not_changes rt settings event consumer worker now hchanges
    rw [hhandle]
    exact ⟨[], rfl⟩

end Handle

end OpenctiLookup
