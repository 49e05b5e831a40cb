import OpenctiLookup.Main
import OpenctiLookup.Systems.Published

/-! The sets of one process from its start to its shutdown. A set is an object here:
`swap_membership` closes the one it replaces, and the shutdown closes the one that
`app.state` has, which need not be the one the backend has. -/
namespace OpenctiLookup
open Python Theory

/-- Where `lifespan` is: before `_activate`, after it, or over. -/
inductive LifespanPhase where
  | loading
  | up
  | down
deriving DecidableEq

structure Lifespan where
  host : Host
  phase : LifespanPhase
  /-- The objects by the order in which they were made. -/
  sets : ℕ → MembershipSet
  made : ℕ
  /-- What the split backend has. -/
  served : ℕ
  ready : Bool
  /-- Whether `app.state.backend` is the split backend. -/
  split : Bool
  /-- `app.state.membership`. -/
  membership : Option ℕ
  /-- The role of `loaded`. -/
  loaded : Option Role
  /-- The generation of the watcher, if one runs. -/
  watched : Option ℕ
  reconciler : Bool

/-- Whether the result of `load` comes with a state directory. -/
def loadedStateDir (settings : Settings) (budgetBytes : ℕ) (corpus : ℤ) : Bool :=
  affordable settings corpus budgetBytes && settings.membershipShared

namespace Lifespan

/-- Before the first load. The backend that is not ready has the first object. -/
def start (settings : Settings) (host : Host) : Lifespan where
  host := host
  phase := if settings.membershipMode = .off then .up else .loading
  sets _ := .empty
  made := 1
  served := 0
  ready := false
  split := false
  membership := none
  loaded := none
  watched := none
  reconciler := false

variable (s : Lifespan)

def servedSet : MembershipSet := s.sets s.served

def backend (live : LiveBackend) (stale : Bool) : SplitBackend :=
  ⟨s.servedSet, live, s.ready, stale⟩

def put (id : ℕ) (set : MembershipSet) : Lifespan :=
  { s with sets := Function.update s.sets id set }

def hold (set : MembershipSet) : Lifespan := { s.put s.made set with made := s.made + 1 }

def close (id : ℕ) (unlink : Option Bool) : Lifespan :=
  let closed := (s.sets id).close unlink s.host.segments
  { s.put id closed.1 with host := { s.host with segments := closed.2 } }

/-- `swap_membership`. -/
def swap (id : ℕ) : Lifespan :=
  if s.served = id then { s with ready := true }
  else
    Lifespan.close
      { s.put id ((s.sets id).adoptOverlay s.servedSet) with served := id, ready := true }
      s.served (some false)

def swapIn (set : MembershipSet) : Lifespan := (s.hold set).swap s.made

def activate (loaded : LoadedMembership) (stateDir : Bool) : Lifespan :=
  let s : Lifespan :=
    match loaded.membership with
    | some set => { s.swapIn set with split := true, membership := some s.made }
    | none => { s with split := stateDir, membership := none }
  { s with
    phase := .up
    loaded := some loaded.role
    watched :=
      if stateDir = true ∧ loaded.role ≠ .builder then some loaded.generation else none
    reconciler := stateDir && decide (loaded.role = .builder) }

def adopt (set : MembershipSet) (generation : ℕ) : Lifespan :=
  { s.swapIn set with membership := some s.made, watched := some generation }

/-- `_rebuild` after its build: publish, swap and sweep. -/
def install (previous : Option SharedMembershipState) (built : BuiltGeneration) : Lifespan :=
  { s.swapIn built.membership with
    host := (built.host.publish built.state).sweepStaleSegments
      (keepAfterRebuild built.state.generation previous s.servedSet.shmName) }

/-- The end of `lifespan`, once its tasks are cancelled. -/
def shutdown : Lifespan :=
  match s.membership with
  | some id => { s.close id none with phase := .down }
  | none => { s with phase := .down }

end Lifespan

inductive LifespanStep where
  /-- The first load or a retry goes through. -/
  | load (client : BootstrapClient) (now : ℚ) (lockFree : Bool) (waited : Host)
  | loadFails
  /-- The watcher finds a new generation. -/
  | adopt
  /-- A rebuild of the reconciler goes through. -/
  | rebuild (client : BootstrapClient) (now : ℚ)
  | add (value : Str)
  | remove (value : Str)
  /-- The other processes of the host. -/
  | others (host : Host)
  | shutdown
  /-- The process ends in any other way. -/
  | exit

def LifespanStep.Rebuilds : LifespanStep → Prop
  | .rebuild _ _ => True
  | _ => False

variable (rt : Runtime) (settings : Settings) (budgetBytes : ℕ)

/-- Only the process itself makes, swaps and closes its objects, and between two steps of
a load or a rebuild it is for the other processes to change the host. -/
def lifespanSystem : System Lifespan LifespanStep where
  init s := ∃ host, s = .start settings host
  step s a s' :=
    match a with
    | .load client now lockFree waited =>
        s.phase = .loading ∧ ∃ corpus loaded host, countObservables rt client = .ok corpus ∧
          load rt settings client now budgetBytes lockFree waited s.host = .ok (loaded, host) ∧
          s' = Lifespan.activate { s with host := host } loaded
            (loadedStateDir settings budgetBytes corpus)
    | .loadFails => s.phase = .loading ∧ s' = { s with split := true }
    | .adopt =>
        s.phase = .up ∧ ∃ generation set adopted, s.watched = some generation ∧
          pollGeneration settings s.host generation = some (set, adopted) ∧
          s' = s.adopt set adopted
    | .rebuild client now =>
        s.phase = .up ∧ s.reconciler = true ∧ ∃ built,
          buildGeneration rt settings client now (maxEntriesOf budgetBytes) s.host.nextGeneration
            s.host = .ok built ∧
          s' = s.install s.host.read built
    | .add value => s.phase = .up ∧ s' = s.put s.served (s.servedSet.add rt value)
    | .remove value => s.phase = .up ∧ s' = s.put s.served (s.servedSet.remove rt value)
    | .others host => s' = { s with host := host }
    | .shutdown => s.phase ≠ .down ∧ s' = s.shutdown
    | .exit => s' = { s with phase := .down }

section Swap

variable {s : Lifespan} {id : ℕ} {set : MembershipSet}

namespace Lifespan

theorem close_false (s : Lifespan) (id : ℕ) :
    s.close id (some false) = s.put id ((s.sets id).close (some false) s.host.segments).1 := by
  unfold close
  dsimp only
  rw [MembershipSet.segments_close_false]
  rfl

theorem swap_of_ne (h : s.served ≠ id) :
    s.swap id =
      { s with
        sets := Function.update
          (Function.update s.sets id ((s.sets id).adoptOverlay s.servedSet)) s.served
          (s.servedSet.close (some false) s.host.segments).1
        served := id
        ready := true } := by
  have hold : (s.put id ((s.sets id).adoptOverlay s.servedSet)).sets s.served = s.servedSet :=
    Function.update_of_ne h ..
  unfold swap
  rw [if_neg h, close_false]
  dsimp only
  rw [hold]
  rfl

theorem swapIn_eq (h : s.served < s.made) :
    s.swapIn set =
      { s with
        sets := Function.update
          (Function.update s.sets s.made (set.adoptOverlay s.servedSet)) s.served
          (s.servedSet.close (some false) s.host.segments).1
        made := s.made + 1
        served := s.made
        ready := true } := by
  have hserved : (s.hold set).servedSet = s.servedSet := Function.update_of_ne h.ne ..
  have hmade : (s.hold set).sets s.made = set := Function.update_self ..
  have hsets : (s.hold set).sets = Function.update s.sets s.made set := rfl
  have hne : (s.hold set).served ≠ s.made := h.ne
  rw [swapIn, swap_of_ne hne, hserved, hmade, hsets, Function.update_idem]
  rfl

theorem shutdown_of_some (h : s.membership = some id) :
    s.shutdown = { s.close id none with phase := .down } := by
  unfold shutdown
  split
  · rename_i other hother
    cases h.symm.trans hother
    rfl
  · rename_i hnone
    cases h.symm.trans hnone

theorem shutdown_of_none (h : s.membership = none) : s.shutdown = { s with phase := .down } := by
  unfold shutdown
  split
  · rename_i id hid
    cases h.symm.trans hid
  · rfl

theorem servedSet_swapIn (h : s.served < s.made) :
    (s.swapIn set).servedSet = set.adoptOverlay s.servedSet := by
  rw [swapIn_eq h]
  unfold servedSet
  dsimp only
  rw [Function.update_of_ne h.ne', Function.update_self]

theorem backend_swapIn (h : s.served < s.made) (live : LiveBackend) (stale : Bool) :
    (s.swapIn set).backend live stale = (s.backend live stale).swapMembership set true := by
  have hready : (s.swapIn set).ready = true := by rw [swapIn_eq h]
  unfold backend
  rw [servedSet_swapIn h, hready]
  rfl

theorem backend_activate (settings : Settings) (host : Host) (loaded : LoadedMembership)
    (stateDir : Bool) (live : LiveBackend) :
    ((start settings host).activate loaded stateDir).backend live false =
      (Worker.activate loaded live).split := by
  have hserved : (start settings host).served < (start settings host).made := Nat.one_pos
  obtain ⟨membership, role, generation⟩ := loaded
  cases membership with
  | none => rfl
  | some set => exact @backend_swapIn _ set hserved live false

theorem install_eq (h : s.served < s.made) (previous : Option SharedMembershipState)
    (built : BuiltGeneration) (live : LiveBackend) (stale : Bool) :
    ((s.install previous built).host, (s.install previous built).backend live stale) =
      installGeneration previous built (s.backend live stale) :=
  Prod.ext rfl (backend_swapIn h live stale)

end Lifespan

end Swap

section Invariant

variable {rt settings budgetBytes} {s s' : Lifespan} {id : ℕ} {set : MembershipSet}

/-- What is so in every state, be there a rebuild behind it or not. -/
structure Lifespan.Wired (s : Lifespan) (again : Prop) : Prop where
  served_lt : s.served < s.made
  loading : s.phase = .loading → s.loaded = none ∧ s.ready = false
  inactive : s.ready = false → s.membership = none ∧ s.loaded ≠ some .builder
  reconciler : s.reconciler = true → s.loaded = some .builder
  watched : ∀ generation, s.watched = some generation → s.loaded ≠ some .builder
  owner : s.loaded = some .builder → s.servedSet.owner = true
  rebuilt : again → s.loaded = some .builder
  served : ¬ again → s.ready = true → s.membership = some s.served
  stranded : again → ∃ id, s.membership = some id ∧ id < s.served ∧ (s.sets id).shmName = none

variable {again : Prop}

theorem wired_start (host : Host) : (Lifespan.start settings host).Wired False where
  served_lt := Nat.one_pos
  loading _ := ⟨rfl, rfl⟩
  inactive _ := ⟨rfl, nofun⟩
  reconciler := nofun
  watched := nofun
  owner := nofun
  rebuilt := False.elim
  served _ := nofun
  stranded := False.elim

theorem wired_others (h : s.Wired again) (host : Host) :
    Lifespan.Wired { s with host := host } again :=
  { h with }

theorem wired_down (h : s.Wired again) : Lifespan.Wired { s with phase := .down } again :=
  { h with loading := nofun }

theorem wired_put (h : s.Wired again) (howner : set.owner = s.servedSet.owner) :
    (s.put s.served set).Wired again where
  served_lt := h.served_lt
  loading := h.loading
  inactive := h.inactive
  reconciler := h.reconciler
  watched := h.watched
  owner hbuilder := by
    have hset : (s.put s.served set).servedSet = set := Function.update_self ..
    rw [hset, howner]
    exact h.owner hbuilder
  rebuilt := h.rebuilt
  served := h.served
  stranded hagain := by
    obtain ⟨id, hid, hlt, hclosed⟩ := h.stranded hagain
    have hset : (s.put s.served set).sets id = s.sets id := Function.update_of_ne hlt.ne ..
    exact ⟨id, hid, hlt, by rw [hset]; exact hclosed⟩

/-- A rebuild strands the object that `app.state` has. -/
theorem wired_install (h : s.Wired again) (hreconciler : s.reconciler = true)
    (previous : Option SharedMembershipState) {built : BuiltGeneration}
    (howner : built.membership.owner = true) : (s.install previous built).Wired True := by
  have hbuilder := h.reconciler hreconciler
  have hready : s.ready = true := by
    by_contra hinactive
    exact (h.inactive (Bool.eq_false_iff.mpr hinactive)).2 hbuilder
  have hloading : s.phase ≠ .loading := fun hphase => by
    cases (h.loading hphase).1.symm.trans hbuilder
  have hserved := @Lifespan.servedSet_swapIn _ built.membership h.served_lt
  unfold Lifespan.install
  rw [Lifespan.swapIn_eq h.served_lt] at hserved ⊢
  exact
    { served_lt := Nat.lt_succ_self _
      loading := fun hphase => absurd hphase hloading
      inactive := nofun
      reconciler := fun _ => hbuilder
      watched := h.watched
      owner := fun _ => (congrArg MembershipSet.owner hserved).trans howner
      rebuilt := fun _ => hbuilder
      served := fun hnone => absurd trivial hnone
      stranded := by
        intro _
        by_cases hagain : again
        · obtain ⟨id, hid, hlt, hclosed⟩ := h.stranded hagain
          refine ⟨id, hid, hlt.trans h.served_lt, ?_⟩
          dsimp only
          rw [Function.update_of_ne hlt.ne, Function.update_of_ne (hlt.trans h.served_lt).ne]
          exact hclosed
        · refine ⟨s.served, h.served hagain hready, h.served_lt, ?_⟩
          dsimp only
          rw [Function.update_self]
          exact MembershipSet.shmName_close .. }

theorem wired_adopt (h : s.Wired again) {generation : ℕ} (hwatched : s.watched = some generation)
    (adopted : ℕ) (hphase : s.phase = .up) : (s.adopt set adopted).Wired again := by
  have hreader := h.watched generation hwatched
  unfold Lifespan.adopt
  rw [Lifespan.swapIn_eq h.served_lt]
  exact
    { served_lt := Nat.lt_succ_self _
      loading := fun hloading => by cases hphase.symm.trans hloading
      inactive := nofun
      reconciler := h.reconciler
      watched := fun _ _ => hreader
      owner := fun hbuilder => absurd hbuilder hreader
      rebuilt := h.rebuilt
      served := fun _ _ => rfl
      stranded := fun hagain => absurd (h.rebuilt hagain) hreader }

theorem owner_buildMembership {client : BootstrapClient} {maxEntries : Option ℕ}
    {name : Option Str} {segments segments' : Segments} {report : BootstrapReport}
    (h : buildMembership rt settings client maxEntries name segments =
      .ok (set, report, segments')) : set.owner = true := by
  obtain ⟨values, truncated, -, hbuild⟩ := buildMembership_eq_ok h
  exact MembershipSet.owner_build hbuild

section Load

variable {client : BootstrapClient} {now : ℚ} {lockFree : Bool} {waited host host' : Host}
  {loaded : LoadedMembership}

theorem role_of_load (h : load rt settings client now budgetBytes lockFree waited host =
      .ok (loaded, host')) (hnone : loaded.membership = none) : loaded.role = .none := by
  rcases load_eq_ok h with ⟨built, -, rfl, -⟩ | ⟨built, report, segments, -, rfl, -⟩ |
    ⟨state, built, -, -, rfl, -⟩ | rfl
  · cases hnone
  · cases hnone
  · cases hnone
  · rfl

theorem wired_activate_none (h : s.Wired again) (hphase : s.phase = .loading)
    (hset : loaded.membership = none) (hrole : loaded.role = .none) (stateDir : Bool) :
    (s.activate loaded stateDir).Wired again := by
  obtain ⟨hloaded, hready⟩ := h.loading hphase
  have hagain : ¬ again := fun hagain => by cases hloaded.symm.trans (h.rebuilt hagain)
  unfold Lifespan.activate
  rw [hset, hrole]
  exact
    { served_lt := h.served_lt
      loading := nofun
      inactive := fun _ => ⟨rfl, nofun⟩
      reconciler := by simp
      watched := nofun
      owner := nofun
      rebuilt := fun h => absurd h hagain
      served := fun _ hserves => by cases hready.symm.trans hserves
      stranded := fun h => absurd h hagain }

theorem wired_activate_some (h : s.Wired again) (hphase : s.phase = .loading)
    (hset : loaded.membership = some set) (howner : loaded.role = .builder → set.owner = true)
    (stateDir : Bool) : (s.activate loaded stateDir).Wired again := by
  obtain ⟨hloaded, -⟩ := h.loading hphase
  have hagain : ¬ again := fun hagain => by cases hloaded.symm.trans (h.rebuilt hagain)
  have hserved := @Lifespan.servedSet_swapIn _ set h.served_lt
  unfold Lifespan.activate
  rw [hset]
  dsimp only
  rw [Lifespan.swapIn_eq h.served_lt] at hserved ⊢
  exact
    { served_lt := Nat.lt_succ_self _
      loading := nofun
      inactive := nofun
      reconciler := by
        intro hreconciler
        simp only [Bool.and_eq_true, decide_eq_true_eq] at hreconciler
        exact congrArg some hreconciler.2
      watched := by
        intro generation hwatched hbuilder
        rw [if_neg (fun hreader => hreader.2 (Option.some.inj hbuilder))] at hwatched
        cases hwatched
      owner := by
        intro hbuilder
        have hnew : set.owner = true := howner (Option.some.inj hbuilder)
        exact (congrArg MembershipSet.owner hserved).trans hnew
      rebuilt := fun h => absurd h hagain
      served := fun _ _ => rfl
      stranded := fun h => absurd h hagain }

theorem wired_activate (h : s.Wired again) (hphase : s.phase = .loading)
    (hload : load rt settings client now budgetBytes lockFree waited host = .ok (loaded, host'))
    (stateDir : Bool) : (s.activate loaded stateDir).Wired again := by
  cases hset : loaded.membership with
  | none => exact wired_activate_none h hphase hset (role_of_load hload hset) stateDir
  | some set =>
      refine wired_activate_some h hphase hset (fun hrole => ?_) stateDir
      obtain ⟨name, segments, report, segments', hbuild⟩ :=
        buildMembership_of_load hload (by simp [hrole]) hset
      exact owner_buildMembership hbuild

end Load

theorem owner_close (unlink : Option Bool) (set : MembershipSet) (segments : Segments) :
    (set.close unlink segments).1.owner = set.owner := by
  unfold MembershipSet.close
  split <;> rfl

theorem shutdown_of_again (h : s.Wired again) (hagain : again) :
    s.shutdown = { s with phase := .down } := by
  obtain ⟨id, hid, -, hclosed⟩ := h.stranded hagain
  have hput : s.put id (s.sets id) = s := by
    unfold Lifespan.put
    rw [Function.update_eq_self]
  rw [Lifespan.shutdown_of_some hid]
  unfold Lifespan.close
  dsimp only
  rw [MembershipSet.close_of_closed hclosed, hput]

theorem wired_shutdown (h : s.Wired again) : s.shutdown.Wired again := by
  by_cases hagain : again
  · rw [shutdown_of_again h hagain]
    exact wired_down h
  · cases hid : s.membership with
    | none =>
        rw [Lifespan.shutdown_of_none hid]
        exact wired_down h
    | some id =>
        have hready : s.ready = true := by
          by_contra hinactive
          cases hid.symm.trans (h.inactive (Bool.eq_false_iff.mpr hinactive)).1
        obtain rfl := Option.some.inj (hid.symm.trans (h.served hagain hready))
        rw [Lifespan.shutdown_of_some hid]
        exact wired_down (wired_others (wired_put h (owner_close ..)) _)

theorem wired_step {a : LifespanStep} (h : s.Wired again)
    (hstep : (lifespanSystem rt settings budgetBytes).step s a s') :
    s'.Wired (again ∨ a.Rebuilds) := by
  have hsame : ¬ a.Rebuilds → again = (again ∨ a.Rebuilds) := fun hnot => by simp [hnot]
  cases a with
  | load client now lockFree waited =>
      obtain ⟨hphase, corpus, loaded, host, -, hload, rfl⟩ := hstep
      rw [← hsame id]
      exact wired_activate (wired_others h host) hphase hload _
  | loadFails =>
      obtain ⟨-, rfl⟩ := hstep
      rw [← hsame id]
      exact { h with }
  | adopt =>
      obtain ⟨hphase, generation, set, adopted, hwatched, -, rfl⟩ := hstep
      rw [← hsame id]
      exact wired_adopt h hwatched adopted hphase
  | rebuild client now =>
      obtain ⟨-, hreconciler, built, hbuilt, rfl⟩ := hstep
      obtain ⟨report, segments, hbuild, -⟩ := buildGeneration_eq_ok hbuilt
      rw [eq_true (show again ∨ LifespanStep.Rebuilds (.rebuild client now) from .inr trivial)]
      exact wired_install h hreconciler _ (owner_buildMembership hbuild)
  | add value =>
      obtain ⟨-, rfl⟩ := hstep
      rw [← hsame id]
      exact wired_put h rfl
  | remove value =>
      obtain ⟨-, rfl⟩ := hstep
      rw [← hsame id]
      exact wired_put h rfl
  | others host =>
      obtain rfl := hstep
      rw [← hsame id]
      exact wired_others h host
  | shutdown =>
      obtain ⟨-, rfl⟩ := hstep
      rw [← hsame id]
      exact wired_shutdown h
  | exit =>
      obtain rfl := hstep
      rw [← hsame id]
      exact wired_down h

theorem wired_run {trace : List LifespanStep}
    (hrun : Reaches (lifespanSystem rt settings budgetBytes) anyStep trace s) :
    s.Wired (∃ a ∈ trace, a.Rebuilds) := by
  induction hrun with
  | init hinit =>
      obtain ⟨host, rfl⟩ := hinit
      simpa using wired_start host
  | step _ _ hstep ih => simpa [or_and_right, exists_or] using wired_step ih hstep

/-- The shutdown would unmap the served set and leave no segment of its name. -/
def Lifespan.Releases (s : Lifespan) : Prop :=
  s.shutdown.servedSet.shmName = none ∧
    ∀ name, s.servedSet.shmName = some name → s.shutdown.host.segments.find name = none

/-- Once a set is active, `app.state` and the backend have the same object, which the shutdown
of a builder closes and unlinks, exactly as long as no rebuild has gone through. -/
theorem shutdown_closes_served {trace : List LifespanStep}
    (hrun : Reaches (lifespanSystem rt settings budgetBytes) anyStep trace s)
    (hready : s.ready = true) :
    s.membership = some s.served ∧ (s.loaded = some .builder → s.Releases) ↔
      ∀ a ∈ trace, ¬ a.Rebuilds := by
  have h := wired_run hrun
  constructor
  · rintro ⟨hserved, -⟩ a ha hrebuilds
    obtain ⟨id, hid, hlt, -⟩ := h.stranded ⟨a, ha, hrebuilds⟩
    exact hlt.ne (Option.some.inj (hid.symm.trans hserved))
  · intro hnone
    have hserved := h.served (fun ⟨a, ha, hrebuilds⟩ => hnone a ha hrebuilds) hready
    refine ⟨hserved, fun hbuilder => ?_⟩
    unfold Lifespan.Releases
    rw [Lifespan.shutdown_of_some hserved]
    constructor
    · exact (congrArg MembershipSet.shmName (Function.update_self ..)).trans
        (MembershipSet.shmName_close ..)
    · exact fun name hname => MembershipSet.find_close hname (h.owner hbuilder) _

end Invariant

section LifespanSample

def firstLoaded (built : BuiltGeneration) : Lifespan :=
  Lifespan.activate
    { Lifespan.start (sampleSettings 50000) bareHost with
      host := built.host.publish built.state }
    ⟨some built.membership, .builder, built.state.generation⟩ true

theorem reaches_firstLoaded : ∃ built, attempt sampleRuntime (sampleSettings 50000)
      (.onePage ["evil.com"]) 0 .load (maxEntriesOf 1024) bareHost = .ok built ∧
    built.membership.shmName.isSome = true ∧
    Reaches (lifespanSystem sampleRuntime (sampleSettings 50000) 1024) anyStep
      [.load (.onePage ["evil.com"]) 0 true bareHost] (firstLoaded built) := by
  obtain ⟨built, hbuilt, hsegment, -⟩ := attempt_evil
  have hload : load sampleRuntime (sampleSettings 50000) (.onePage ["evil.com"]) 0 1024 true
      bareHost bareHost = .ok (⟨some built.membership, .builder, built.state.generation⟩,
        built.host.publish built.state) := by
    rw [load_lockFree rfl rfl rfl]
    exact bind_eq_ok_iff.mpr ⟨built, hbuilt, rfl⟩
  have hstart : Reaches (lifespanSystem sampleRuntime (sampleSettings 50000) 1024) anyStep []
      (.start (sampleSettings 50000) bareHost) := .init ⟨bareHost, rfl⟩
  refine ⟨built, hbuilt, hsegment, hstart.step trivial
    (show (lifespanSystem sampleRuntime (sampleSettings 50000) 1024).step _ (.load _ _ _ _) _ from
      ⟨rfl, 1, _, _, rfl, hload, rfl⟩)⟩

/-- Before any rebuild the builder takes its segment with it. -/
theorem shutdown_closes_served_first : ∃ built, (firstLoaded built).membership = some 1 ∧
    (firstLoaded built).served = 1 ∧ (firstLoaded built).Releases := by
  obtain ⟨built, -, -, hrun⟩ := reaches_firstLoaded
  obtain ⟨hserved, hreleases⟩ := (shutdown_closes_served hrun rfl).mpr
    (by simp [LifespanStep.Rebuilds])
  exact ⟨built, hserved, rfl, hreleases rfl⟩

/-- After one, `app.state` has the closed set, and the segment that is served stays behind. -/
theorem rebuild_strands_segment :
    (¬ ∀ (rt : Runtime) (settings : Settings) (budgetBytes : ℕ) (trace : List LifespanStep)
      (s : Lifespan), Reaches (lifespanSystem rt settings budgetBytes) anyStep trace s →
      s.ready = true → s.membership = some s.served) ∧
    ¬ ∀ (rt : Runtime) (settings : Settings) (budgetBytes : ℕ) (trace : List LifespanStep)
      (s : Lifespan), Reaches (lifespanSystem rt settings budgetBytes) anyStep trace s →
      s.ready = true → s.loaded = some .builder → s.Releases := by
  obtain ⟨built, hbuilt, hsegment, hrun⟩ := reaches_firstLoaded
  have hnumbered : bareHost.Numbered := numbered_init (init_bareHost sampleRuntime)
  obtain ⟨next, hnext⟩ :=
    (@attempt_healthy _ _ _ 0 1024 _ (stopped .load bareHost built .published)
      (healthy_sample 50000) .rebuild).mpr
      (.inr ((free_stopped_iff hnumbered hbuilt hsegment .published).mpr rfl))
  have hrebuilt := hrun.step trivial
    (show (lifespanSystem sampleRuntime (sampleSettings 50000) 1024).step (firstLoaded built)
      (.rebuild (.onePage ["evil.com"]) 0) _ from ⟨rfl, rfl, next, hnext, rfl⟩)
  have hwired := wired_run hrebuilt
  have hagain : ∃ a ∈ [LifespanStep.load (.onePage ["evil.com"]) 0 true bareHost] ++
      [.rebuild (.onePage ["evil.com"]) 0], a.Rebuilds :=
    ⟨_, List.mem_append_right _ (List.mem_singleton_self _), trivial⟩
  constructor
  · intro hall
    obtain ⟨id, hid, hlt, -⟩ := hwired.stranded hagain
    have hserved := hall _ _ _ _ _ hrebuilt rfl
    exact hlt.ne (Option.some.inj (hid.symm.trans hserved))
  · intro hall
    have hreleases := (hall _ _ _ _ _ hrebuilt rfl rfl).1
    rw [shutdown_of_again hwired hagain] at hreleases
    have hpacked : next.membership.packed ≠ [] := by
      rw [ne_eq, packed_attempt_eq_nil_iff (healthy_sample 50000).serves hnext, keysOf_evil]
      exact List.cons_ne_nil _ _
    have hname := isSome_shmName hnext hpacked
    have hserved : next.membership.shmName = none := hreleases
    rw [hserved] at hname
    cases hname

end LifespanSample

end OpenctiLookup
