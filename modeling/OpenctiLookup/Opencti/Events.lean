import OpenctiLookup.Main

/-! Well-formed stream events: what OpenCTI sends when an entity changes, and
what a worker makes of it. -/
namespace OpenctiLookup
open Python

/-- An entity whose events carry observable values: an indicator, with the values
inline under its extensions, or a plain observable. -/
inductive StixObject where
  /-- Per extension, the `type` and `value` pairs of `observable_values`. -/
  | indicator (extensions : List (Str × List (Str × Str)))
  | observable (stixType : {text : Str // text ∈ observableTypes}) (value : Str)

namespace StixObject

def rawValues : StixObject → List Str
  | indicator extensions => extensions.flatMap fun extension => extension.2.map Prod.snd
  | observable _ value => [value]

def pairToJson (pair : Str × Str) : Json := .obj [("type", .str pair.1), ("value", .str pair.2)]

def extensionToJson (extension : Str × List (Str × Str)) : Str × Json :=
  (extension.1, .obj [("observable_values", .arr (extension.2.map pairToJson))])

def toJson : StixObject → Json
  | indicator extensions =>
      .obj [("type", .str "indicator"), ("extensions", .obj (extensions.map extensionToJson))]
  | observable stixType value => .obj [("type", .str stixType.val), ("value", .str value)]

/-- The membership keys an entity carries: its values normalized, those that can
never be looked up dropped. -/
def keys (rt : Runtime) (settings : Settings) (object : StixObject) : List Str :=
  keysOf rt settings object.rawValues

end StixObject

inductive ChangeKind where
  | create
  | update
  | merge
  | delete
deriving DecidableEq, Repr

namespace ChangeKind

def text : ChangeKind → Str
  | create => "create"
  | update => "update"
  | merge => "merge"
  | delete => "delete"

def adds (kind : ChangeKind) : Bool := decide (kind ≠ .delete)

end ChangeKind

/-- The event of a change, `eventId` being its place in the stream. -/
def changeEvent (kind : ChangeKind) (eventId : Option Str) (object : StixObject) : StreamEvent where
  kind := kind.text
  id := eventId
  data := .ok (.obj [("data", object.toJson)])

/-- A change of the entity `id`, as a consumer receives it at `now`. -/
structure Change where
  kind : ChangeKind
  id : Str
  eventId : Option Str
  object : StixObject
  now : ℚ

namespace Change

variable (rt : Runtime) (settings : Settings) (change : Change)

def keys : List Str := change.object.keys rt settings

def touched : Finset Word := ((change.keys rt settings).map (fingerprint rt)).toFinset

/-- `_handle` on the change, through the callbacks of a worker. -/
def handled (consumer : StreamConsumer) (worker : Worker) : Handled Worker :=
  StreamConsumer.handle rt (Worker.callbacks rt settings) change.now
    (changeEvent change.kind change.eventId change.object) consumer worker

end Change

section Extract

variable (rt : Runtime)

theorem observableValues_pairs (pairs : List (Str × Str)) :
    observableValues rt (pairs.map StixObject.pairToJson) =
      (pairs.map Prod.snd).filter (fun value => !value.isEmpty) := by
  induction pairs with
  | nil => rfl
  | cons pair pairs ih =>
      have hvalue : Json.field [("type", .str pair.1), ("value", .str pair.2)] "value" =
          .str pair.2 := rfl
      rw [List.map_cons, List.map_cons, List.filter_cons, ← ih]
      simp only [observableValues, StixObject.pairToJson, List.filterMap_cons, hvalue, Json.truthy]
      by_cases hempty : pair.2.isEmpty = true <;> simp [hempty, Runtime.strOf]

theorem extensionValues_extensions (extensions : List (Str × List (Str × Str))) :
    extensionValues rt (extensions.map fun extension => (StixObject.extensionToJson extension).2) =
      ((extensions.flatMap fun extension => extension.2.map Prod.snd).filter
        (fun value => !value.isEmpty), none) := by
  induction extensions with
  | nil => rfl
  | cons extension extensions ih =>
      have hfield : Json.field [("observable_values",
          .arr (extension.2.map StixObject.pairToJson))] "observable_values" =
            .arr (extension.2.map StixObject.pairToJson) := rfl
      rw [List.map_cons, StixObject.extensionToJson]
      simp only [extensionValues, hfield, Json.iter_orElse_arr, List.flatMap_cons,
        List.filter_append, ih, observableValues_pairs]

/-- From a well-formed event the consumer extracts the entity's values, those
that are empty apart. -/
theorem extractValues_toJson (object : StixObject) :
    extractValues rt [("data", object.toJson)] =
      (object.rawValues.filter (fun value => !value.isEmpty), none) := by
  have hdata : Json.field [("data", object.toJson)] "data" = object.toJson := rfl
  unfold extractValues
  rw [hdata]
  cases object with
  | indicator extensions =>
      have hvalues : ((Json.obj (extensions.map StixObject.extensionToJson)).orElse
        (.obj [])).values =
          .ok (extensions.map fun extension => (StixObject.extensionToJson extension).2) := by
        cases extensions <;> simp [Json.orElse, Json.truthy, Function.comp_def]
      have htype : Json.field [("type", .str "indicator"), ("extensions",
          .obj (extensions.map StixObject.extensionToJson))] "type" = .str "indicator" := rfl
      have hextensions : Json.field [("type", .str "indicator"), ("extensions",
          .obj (extensions.map StixObject.extensionToJson))] "extensions" =
            .obj (extensions.map StixObject.extensionToJson) := rfl
      simp only [StixObject.toJson, htype, hextensions, if_true, hvalues,
        extensionValues_extensions, StixObject.rawValues]
  | observable stixType value =>
      obtain ⟨text, hmem⟩ := stixType
      have htype : Json.field [("type", .str text), ("value", .str value)] "type" = .str text := rfl
      have hvalue : Json.field [("type", .str text), ("value", .str value)] "value" = .str value :=
        rfl
      have hne : text ≠ "indicator" := by
        rintro rfl
        exact absurd hmem (by decide)
      simp only [StixObject.toJson, htype, hvalue, hne, if_false, hmem, true_and, Json.truthy,
        StixObject.rawValues, Runtime.strOf]
      cases value <;> rfl

end Extract

section Apply

variable {rt : Runtime} {settings : Settings}

variable (rt settings) in
def Applicable (raw : Str) : Prop :=
  ∃ key, norm rt settings raw = .ok key ∧ ∀ value ∈ key, rt.encodes value = true

theorem write_callbacks (removing : Bool) (value : Str) (worker : Worker) :
    (if removing then (Worker.callbacks rt settings).onRemove value worker
      else (Worker.callbacks rt settings).onAdd value worker) =
      if rt.encodes value then
        .ok (worker.setMembership
          (MembershipSet.writeAll rt (!removing) [value] worker.membership))
      else .error (.raised .unicodeEncodeError) := by
  cases removing <;> by_cases hencodes : rt.encodes value = true <;>
    simp only [Worker.callbacks, Runtime.encode, hencodes, if_true, if_false, Bool.false_eq_true] <;>
    rfl

/-- When no value makes the loop stop, it writes the keys in order. -/
theorem applyValues_of_fault_none (removing : Bool) (raws : List Str) (touched : ℕ)
    (worker : Worker)
    (h : (StreamConsumer.applyValues (Worker.callbacks rt settings) removing raws touched
      worker).2.2 = none) :
    StreamConsumer.applyValues (Worker.callbacks rt settings) removing raws touched worker =
      (touched + (keysOf rt settings raws).length,
        worker.setMembership
          (MembershipSet.writeAll rt (!removing) (keysOf rt settings raws) worker.membership),
        none) := by
  induction raws generalizing touched worker with
  | nil => rfl
  | cons raw raws ih =>
      have hnorm : (Worker.callbacks rt settings).normalize raw = norm rt settings raw := rfl
      rw [StreamConsumer.applyValues, hnorm] at h ⊢
      cases hraw : norm rt settings raw with
      | error fault => simp [hraw] at h
      | ok key =>
          rw [hraw] at h
          cases key with
          | none =>
              dsimp only at h ⊢
              rw [keysOf_cons_none hraw]
              exact ih touched worker h
          | some key =>
              simp only [write_callbacks] at h ⊢
              by_cases hencodes : rt.encodes key = true
              · rw [if_pos hencodes] at h ⊢
                dsimp only at h ⊢
                rw [ih _ _ h, keysOf_cons_some hraw, List.length_cons, Nat.add_right_comm,
                  Nat.add_assoc]
                rfl
              · simp [hencodes] at h

def Worker.checkOverlay (rt : Runtime) (settings : Settings) (keys : List Str) (worker : Worker) :
    Worker :=
  if keys = [] then worker
  else if worker.membership.overlayFull then (Worker.callbacks rt settings).onOverlayFull worker
  else worker

/-- What a change does to a worker: its keys are written, then the overlay is
checked. -/
def Worker.changed (rt : Runtime) (settings : Settings) (present : Bool) (keys : List Str)
    (worker : Worker) : Worker :=
  (worker.setMembership (MembershipSet.writeAll rt present keys worker.membership)).checkOverlay
    rt settings keys

@[simp] theorem Worker.membership_changed (present : Bool) (keys : List Str) (worker : Worker) :
    (worker.changed rt settings present keys).membership =
      MembershipSet.writeAll rt present keys worker.membership := by
  unfold changed checkOverlay
  split
  · rfl
  · split <;> rfl

theorem handle_eq_apply (now : ℚ) (kind : ChangeKind) (eventId : Option Str)
    (object : StixObject) (consumer : StreamConsumer) (worker : Worker) :
    ∃ consumer' : StreamConsumer,
      StreamConsumer.handle rt (Worker.callbacks rt settings) now (changeEvent kind eventId object)
        consumer worker =
      StreamConsumer.apply rt (Worker.callbacks rt settings) now (!kind.adds)
        [("data", object.toJson)] consumer' worker := by
  have hkind : kind.text ∉ heartbeatEvents ∧ kind.text ∉ metricsEvents ∧
      kind.text ≠ "connected" ∧ ¬ (kind.text ∉ addEvents ∧ kind.text ∉ removeEvents) ∧
      decide (kind.text ∈ removeEvents) = !kind.adds := by
    cases kind <;> decide
  obtain ⟨hheartbeat, hmetrics, hconnected, hknown, hremoving⟩ := hkind
  unfold StreamConsumer.handle changeEvent
  simp only [if_neg hheartbeat, if_neg hmetrics, if_neg hconnected, if_neg hknown, hremoving]
  exact ⟨_, rfl⟩

theorem target_handled (change : Change) (consumer : StreamConsumer) (worker : Worker)
    (h : (change.handled rt settings consumer worker).fault = none) :
    (change.handled rt settings consumer worker).target =
      worker.changed rt settings change.kind.adds (change.keys rt settings) := by
  obtain ⟨consumer', heq⟩ := @handle_eq_apply rt settings change.now change.kind
    change.eventId change.object consumer worker
  rw [Change.handled, heq] at h ⊢
  unfold StreamConsumer.apply at h ⊢
  rw [extractValues_toJson] at h ⊢
  dsimp only at h ⊢
  have hloop : (StreamConsumer.applyValues (Worker.callbacks rt settings) (!change.kind.adds)
      (change.object.rawValues.filter fun value => !value.isEmpty) 0 worker).2.2 = none := by
    by_contra hne
    obtain ⟨fault, hfault⟩ := Option.ne_none_iff_exists'.mp hne
    simp [hfault] at h
  rw [applyValues_of_fault_none _ _ _ _ hloop, keysOf_filter_nonempty, Bool.not_not, Nat.zero_add,
    ← StixObject.keys, ← Change.keys]
  dsimp only
  unfold StreamConsumer.finish Worker.changed Worker.checkOverlay
  by_cases hempty : change.keys rt settings = []
  · simp [hempty]
  · simp only [List.length_eq_zero_iff, hempty, if_false]
    rfl

theorem applyValues_fault_iff (removing : Bool) (raws : List Str) (touched : ℕ) (worker : Worker) :
    (StreamConsumer.applyValues (Worker.callbacks rt settings) removing raws touched
      worker).2.2 = none ↔ ∀ raw ∈ raws, Applicable rt settings raw := by
  induction raws generalizing touched worker with
  | nil => simp [StreamConsumer.applyValues]
  | cons raw raws ih =>
      have hnorm : (Worker.callbacks rt settings).normalize raw = norm rt settings raw := rfl
      rw [StreamConsumer.applyValues, hnorm, List.forall_mem_cons]
      unfold Applicable
      cases hraw : norm rt settings raw with
      | error fault => simp
      | ok key =>
          cases key with
          | none =>
              rw [and_iff_right ⟨none, rfl, nofun⟩]
              exact ih touched worker
          | some key =>
              simp only [write_callbacks]
              by_cases hencodes : rt.encodes key = true
              · rw [if_pos hencodes,
                  and_iff_right ⟨some key, rfl, fun value hvalue => by cases hvalue; exact hencodes⟩]
                exact ih _ _
              · rw [if_neg hencodes]
                refine iff_of_false nofun fun h => ?_
                obtain ⟨key', hkey, hall⟩ := h.1
                cases hkey
                exact hencodes (hall key rfl)

theorem fault_handled (change : Change) (consumer : StreamConsumer) (worker : Worker)
    (h : ∀ raw ∈ change.object.rawValues, Applicable rt settings raw) :
    (change.handled rt settings consumer worker).fault = none := by
  obtain ⟨consumer', heq⟩ := @handle_eq_apply rt settings change.now change.kind
    change.eventId change.object consumer worker
  rw [Change.handled, heq]
  unfold StreamConsumer.apply
  rw [extractValues_toJson]
  have hnone := (applyValues_fault_iff (!change.kind.adds)
    (change.object.rawValues.filter fun value => !value.isEmpty) 0 worker).mpr
    fun raw hraw => h raw (List.mem_filter.mp hraw).1
  dsimp only
  rw [hnone]
  dsimp only
  unfold StreamConsumer.finish
  split <;> rfl

end Apply

section Sample

/-- Two domain names with their digests, and the settings of a default install
but for the overlay cap. -/
def sampleRuntime : Runtime :=
  Runtime.ofAscii [("evil.com", 16947394969838961699), ("good.com", 17018455182199376841)]

def sampleSettings (overlayMax : ℤ) : Settings where
  openctiUrl := "https://opencti.test"
  membershipOverlayMax := overlayMax

def sampleObject (domains : List Str) : StixObject :=
  .indicator [("ext", domains.map fun domain => ("Domain-Name", domain))]

def sampleChange (kind : ChangeKind) (id : Str) (domains : List Str) : Change :=
  ⟨kind, id, none, sampleObject domains, 0⟩

def sampleWorker (overlayMax : ℤ) : Worker where
  split :=
    { membership := MembershipSet.init none 0 true overlayMax
      live := ⟨PayloadCache.init 1048576 1024 86400 900⟩
      ready := true }
  reconciler := some {}

variable (overlayMax : ℤ)

set_option maxRecDepth 10000 in
theorem norm_evil : norm sampleRuntime (sampleSettings overlayMax) "evil.com" =
    .ok (some "evil.com") :=
  rfl

set_option maxRecDepth 10000 in
theorem norm_good : norm sampleRuntime (sampleSettings overlayMax) "good.com" =
    .ok (some "good.com") :=
  rfl

theorem keysOf_evil :
    keysOf sampleRuntime (sampleSettings overlayMax) ["evil.com"] = ["evil.com".toList] := by
  rw [keysOf_cons_some (norm_evil overlayMax)]
  rfl

theorem keysOf_good :
    keysOf sampleRuntime (sampleSettings overlayMax) ["good.com"] = ["good.com".toList] := by
  rw [keysOf_cons_some (norm_good overlayMax)]
  rfl

theorem keysOf_both :
    keysOf sampleRuntime (sampleSettings overlayMax) ["evil.com", "good.com"] =
      ["evil.com".toList, "good.com".toList] := by
  rw [keysOf_cons_some (norm_evil overlayMax), keysOf_cons_some (norm_good overlayMax)]
  rfl

theorem rawValues_sampleObject (domains : List Str) :
    (sampleObject domains).rawValues = domains := by
  simp [sampleObject, StixObject.rawValues, Function.comp_def]

theorem keys_sampleObject (domains : List Str) :
    (sampleObject domains).keys sampleRuntime (sampleSettings overlayMax) =
      keysOf sampleRuntime (sampleSettings overlayMax) domains := by
  rw [StixObject.keys, rawValues_sampleObject]

theorem fault_sample (kind : ChangeKind) (id : Str) {domains : List Str}
    (hdomains : domains ⊆ ["evil.com", "good.com"]) (consumer : StreamConsumer) (worker : Worker) :
    ((sampleChange kind id domains).handled sampleRuntime (sampleSettings overlayMax) consumer
      worker).fault = none := by
  refine fault_handled _ consumer worker fun raw hraw => ?_
  rw [sampleChange, rawValues_sampleObject] at hraw
  rcases List.mem_cons.mp (hdomains hraw) with rfl | hraw
  · exact ⟨_, norm_evil overlayMax, fun _ _ => rfl⟩
  · rw [List.mem_singleton.mp hraw]
    exact ⟨_, norm_good overlayMax, fun _ _ => rfl⟩

end Sample

end OpenctiLookup
