import OpenctiLookup.Systems.Recovery

/-! The workers of one host. They share the packed words; each keeps an overlay
of the changes its own stream has delivered since it connected. A change made
before a worker connected reaches it only through a later snapshot, so two
workers agree as long as the published words make up for what one of them
missed. A dropped stream resumes from its cursor, which only delays it. -/
namespace OpenctiLookup
open Python Theory

structure Replica where
  worker : Worker
  consumer : StreamConsumer := {}
  /-- The generation it serves, 0 before it has one. -/
  generation : ℕ
  /-- How many upstream changes came before its stream connected. -/
  connectedAt : Option ℕ := none
  /-- How many upstream changes it is past. -/
  handled : ℕ := 0

/-- The upstream changes so far, and the workers that share a state directory. -/
structure Cluster where
  host : Host
  changes : List Change
  replicas : ℕ → Option Replica
  /-- The worker that holds the builder lock. -/
  builder : Option ℕ
  /-- The words of the generation published last. -/
  packed : List Word

/-- A build counts as one step, its publish: what its client answers may come from
any time before. -/
inductive ClusterStep where
  | change (change : Change)
  | start (id : ℕ) (client : BootstrapClient) (now : ℚ) (live : LiveBackend)
  | connect (id : ℕ)
  | handle (id : ℕ) (now : ℚ)
  | adopt (id : ℕ)
  | rebuild (id : ℕ) (client : BootstrapClient) (now : ℚ) (reason : Str)
  /-- The process ends, and may unlink the segment it owns. -/
  | stop (id : ℕ) (kept : Segments)

namespace Replica

def received (r : Replica) (changes : List Change) : List Change :=
  match r.connectedAt with
  | none => []
  | some start => (changes.take r.handled).drop start

def membership (r : Replica) : MembershipSet := r.worker.membership

def activate (loaded : LoadedMembership) (live : LiveBackend) : Replica where
  worker := Worker.activate loaded live
  generation := loaded.generation

def adopt (r : Replica) (set : MembershipSet) (generation : ℕ) : Replica :=
  { r with
    worker := { r.worker with split := r.worker.split.swapMembership set true }
    generation := generation }

/-- The builder's side of `_rebuild`. -/
def rebuilt (r : Replica) (reason : Str) (built : BuiltGeneration) : Replica :=
  { r with
    worker :=
      { split := r.worker.split.swapMembership built.membership true
        reconciler := r.worker.reconciler.map fun reconciler =>
          reconciler.begin.completed reason built.state.generation }
    generation := built.state.generation }

def connect (r : Replica) (start : ℕ) : Replica :=
  { r with connectedAt := some start, handled := start }

def afterChange (rt : Runtime) (settings : Settings) (r : Replica) (change : Change) : Replica :=
  { r with
    worker := (change.handled rt settings r.consumer r.worker).target
    consumer := (change.handled rt settings r.consumer r.worker).consumer
    handled := r.handled + 1 }

end Replica

namespace Cluster

def set (s : Cluster) (id : ℕ) (r : Replica) : Cluster :=
  { s with replicas := Function.update s.replicas id (some r) }

def afterStart (s : Cluster) (id : ℕ) (loaded : LoadedMembership) (host : Host)
    (live : LiveBackend) :
    Cluster where
  host := host
  changes := s.changes
  replicas := Function.update s.replicas id (some (.activate loaded live))
  builder := if loaded.role = .builder then some id else s.builder
  packed := if loaded.role = .builder then (loaded.membership.map MembershipSet.packed).getD
    [] else s.packed

def afterRebuild (s : Cluster) (id : ℕ) (r : Replica) (reason : Str) (built : BuiltGeneration) :
    Cluster where
  host := (installGeneration s.host.read built r.worker.split).1
  changes := s.changes
  replicas := Function.update s.replicas id (some (r.rebuilt reason built))
  builder := s.builder
  packed := built.membership.packed

@[simp] theorem replicas_set (s : Cluster) (id other : ℕ) (r : Replica) :
    (s.set id r).replicas other = if other = id then some r else s.replicas other :=
  Function.update_apply _ _ _ _

@[simp] theorem replicas_afterStart (s : Cluster) (id other : ℕ)
    (loaded : LoadedMembership) (host : Host)
    (live : LiveBackend) : (s.afterStart id loaded host live).replicas other =
      if other = id then some (.activate loaded live) else s.replicas other :=
  Function.update_apply _ _ _ _

def afterStop (s : Cluster) (id : ℕ) (kept : Segments) : Cluster where
  host := { s.host with segments := kept }
  changes := s.changes
  replicas := Function.update s.replicas id none
  builder := if s.builder = some id then none else s.builder
  packed := s.packed

end Cluster

variable (rt : Runtime) (settings : Settings) (budgetBytes : ℕ)

def clusterSystem : System Cluster ClusterStep where
  init s :=
    (hostSystem rt).init s.host ∧ s.changes = [] ∧ (∀ id, s.replicas id = none) ∧
      s.builder = none ∧ s.packed = []
  step s a s' :=
    match a with
    | .change change => s' = { s with changes := s.changes ++ [change] }
    | .start id client now live =>
        s.replicas id = none ∧ (∀ n, countObservables rt client = .ok n →
          affordable settings n budgetBytes = true) ∧
          ∃ loaded host, load rt settings client now budgetBytes s.builder.isNone s.host s.host =
            .ok (loaded, host) ∧ s' = s.afterStart id loaded host live
    | .connect id =>
        ∃ r, s.replicas id = some r ∧ r.connectedAt = none ∧
          s' = s.set id (r.connect s.changes.length)
    | .handle id now =>
        ∃ r change, s.replicas id = some r ∧ r.connectedAt.isSome = true ∧
          s.changes[r.handled]? = some change ∧
          (({ change with now := now } : Change).handled rt settings r.consumer
            r.worker).fault = none ∧
          s' = s.set id (r.afterChange rt settings { change with now := now })
    | .adopt id =>
        ∃ r set generation, s.replicas id = some r ∧ s.builder ≠ some id ∧
          pollGeneration settings s.host r.generation = some (set, generation) ∧
          s' = s.set id (r.adopt set generation)
    | .rebuild id client now reason =>
        ∃ r built, s.replicas id = some r ∧ s.builder = some id ∧
          buildGeneration rt settings client now
            (maxEntriesOf budgetBytes) s.host.nextGeneration s.host =
            .ok built ∧ s' = s.afterRebuild id r reason built
    | .stop id kept => kept ⊆ s.host.segments ∧ s' = s.afterStop id kept

def writesOfChanges (changes : List Change) : List (Write Word) :=
  changes.flatMap fun change => MembershipSet.writesOf rt change.kind.adds (change.keys rt settings)

/-! ### Publishing -/

section Publish

variable {rt settings budgetBytes} {s : Cluster} {host host' : Host} {packed : List Word}

/-- What a host keeps about its segments, `packed` being the words published
last. -/
structure Host.Serves (host : Host) (packed : List Word) : Prop where
  sorted : packed.Pairwise (· < ·)
  unpublished : host.nextGeneration = 1 → packed = []
  numbered : ∀ segment ∈ host.segments, ∀ generation, segment.name = segmentName generation →
    generation < host.nextGeneration
  published : ∀ state, host.stateFile = some state →
    state.shmName = segmentName state.generation ∧ state.count = packed.length ∧
      ∀ segment ∈ host.segments, segment.name = state.shmName → segment.words = packed

theorem nextGeneration_pos (host : Host) : 0 < host.nextGeneration := by
  unfold Host.nextGeneration
  split <;> omega

theorem Host.Serves.remove (h : host.Serves packed) {kept : Segments}
    (hkept : kept ⊆ host.segments) :
    Host.Serves { host with segments := kept } packed where
  sorted := h.sorted
  unpublished := h.unpublished
  numbered segment hsegment := h.numbered segment (hkept hsegment)
  published state hstate := by
    obtain ⟨hname, hcount, hwords⟩ := h.published state hstate
    exact ⟨hname, hcount, fun segment hsegment => hwords segment (hkept hsegment)⟩

theorem Host.Serves.publish (path : BuildPath) {client : BootstrapClient} {now : ℚ}
    {maxEntries : Option ℕ} {built : BuiltGeneration} (h : host.Serves packed)
    (hbuilt : attempt rt settings client now path maxEntries host = .ok built) :
    (built.host.publish built.state).Serves built.membership.packed ∧
      (built.host.publish built.state).nextGeneration = host.nextGeneration + 1 ∧
      built.state.generation = host.nextGeneration ∧ built.membership.Ok ∧
        built.membership.Fresh := by
  obtain ⟨hgeneration, hname, hcount, values, hset⟩ := build_of_attempt hbuilt
  obtain ⟨-, hnames, hsegments⟩ := attempt_spec hbuilt
  obtain ⟨hok, hfresh, -, -⟩ := MembershipSet.build_spec hset
  have hnext : (built.host.publish built.state).nextGeneration = host.nextGeneration + 1 :=
    congrArg (· + 1) hgeneration
  have hshm : built.state.shmName = segmentName host.nextGeneration := by
    rw [hname]
    cases hmembership : built.membership.shmName with
    | none => rfl
    | some name => exact hnames name hmembership
  refine ⟨⟨hok.sorted, fun hfirst => ?_, fun segment hsegment generation hsegmentName => ?_,
    fun state hstate => ?_⟩, hnext, hgeneration, hok, hfresh⟩
  · rw [hnext] at hfirst
    exact absurd (nextGeneration_pos host) (by omega)
  · rw [hnext]
    rcases hsegments segment hsegment with hold | rfl
    · exact (h.numbered segment hold generation hsegmentName).trans (Nat.lt_succ_self _)
    · rw [← segmentName_injective hsegmentName]
      exact Nat.lt_succ_self _
  · obtain rfl := Option.some.inj hstate
    refine ⟨by rw [hshm, hgeneration], hcount.trans hok.count_eq, fun segment hsegment hnamed => ?_⟩
    rcases hsegments segment hsegment with hold | rfl
    · exact absurd (h.numbered segment hold _ (hnamed.trans hshm)) (Nat.lt_irrefl _)
    · rfl

theorem Host.Serves.attach (h : host.Serves packed) {state : SharedMembershipState}
    (hstate : host.read = some state) {set : MembershipSet}
    (hset : attachTo settings state host.segments = some set) :
    set.Ok ∧ set.Fresh ∧ set.packed = packed := by
  obtain ⟨-, hcount, hwords⟩ := h.published state hstate
  unfold attachTo MembershipSet.attach at hset
  cases hfind : host.segments.find state.shmName with
  | none => simp [hfind, Except.toOption] at hset
  | some segment =>
      rw [hfind] at hset
      obtain rfl := Option.some.inj hset
      have hwords := hwords segment (List.mem_of_find?_eq_some hfind)
        (by simpa using List.find?_some hfind)
      refine ⟨MembershipSet.ok_init _ _ ?_ (by rw [hwords, hcount]), ⟨rfl, rfl⟩, ?_⟩
      · rw [hwords]
        exact h.sorted
      · rw [MembershipSet.packed_init_some, hwords, hcount, List.take_length]

/-- What `load` returns to a worker that may build, and to one that waits. -/
theorem load_cases {client : BootstrapClient} {now : ℚ} {lockFree : Bool}
    {loaded : LoadedMembership}
    (hshared : settings.membershipShared = true)
    (haffordable : ∀ n, countObservables rt client = .ok n →
      affordable settings n budgetBytes = true)
    (h : load rt settings client now budgetBytes lockFree host host = .ok (loaded, host')) :
    (∃ built, attempt rt settings client now .load (maxEntriesOf budgetBytes) host = .ok built ∧
        loaded = ⟨some built.membership, .builder, built.state.generation⟩ ∧
        host' = built.host.publish built.state) ∨
      host' = host ∧ ((∃ state set, host.read = some state ∧
        attachTo settings state host.segments = some set ∧
        loaded = ⟨some set, .reader, state.generation⟩) ∨ loaded = ⟨none, .none, 0⟩) := by
  have hcount : ∃ n, countObservables rt client = .ok n := by
    unfold load at h
    obtain ⟨n, hn, -⟩ := bind_eq_ok_iff.mp h
    exact ⟨n, hn⟩
  obtain ⟨n, hn⟩ := hcount
  cases lockFree with
  | true =>
      rw [load_lockFree hshared hn (haffordable n hn)] at h
      obtain ⟨built, hbuilt, h⟩ := bind_eq_ok_iff.mp h
      cases h
      exact .inl ⟨built, hbuilt, rfl, rfl⟩
  | false =>
      right
      rw [load_locked hshared hn (haffordable n hn)] at h
      split at h
      · rename_i set generation hfound
        cases h
        obtain ⟨state, hread, hattach⟩ := Option.bind_eq_some_iff.mp hfound
        obtain ⟨set', hset', hpair⟩ := Option.map_eq_some_iff.mp hattach
        cases hpair
        exact ⟨rfl, .inl ⟨state, set, hread, hset', rfl⟩⟩
      · cases h
        exact ⟨rfl, .inr rfl⟩

end Publish

/-! ### What a worker serves -/

section Invariant

variable {rt settings budgetBytes} {s s' : Cluster} {r : Replica}

/-- A worker's overlay records the changes it has received, over the words of its
generation. -/
structure Cluster.Tracks (rt : Runtime) (settings : Settings) (s : Cluster)
    (r : Replica) : Prop where
  follows : r.membership.Follows (writesOfChanges rt settings (r.received s.changes))
  handled_le : r.handled ≤ s.changes.length
  connected_le : ∀ start, r.connectedAt = some start → start ≤ r.handled
  generation_lt : r.generation < s.host.nextGeneration
  packed : r.generation + 1 = s.host.nextGeneration → r.membership.packed = s.packed

structure Cluster.Sound (rt : Runtime) (settings : Settings) (s : Cluster) : Prop where
  serves : s.host.Serves s.packed
  tracks : ∀ id r, s.replicas id = some r → s.Tracks rt settings r

theorem nextGeneration_of_read {host : Host} {state : SharedMembershipState}
    (h : host.read = some state) : host.nextGeneration = state.generation + 1 := by
  unfold Host.nextGeneration
  rw [h]

theorem received_append (r : Replica) {changes : List Change} (h : r.handled ≤ changes.length)
    (later : List Change) : r.received (changes ++ later) = r.received changes := by
  unfold Replica.received
  rw [List.take_append_of_le_length h]

/-- Whatever happens elsewhere, a worker keeps following as long as the published
generation only moves on. -/
theorem Cluster.Tracks.elsewhere (h : s.Tracks rt settings r) (later : List Change)
    (hchanges : s'.changes = s.changes ++ later)
    (hnext : s.host.nextGeneration ≤ s'.host.nextGeneration)
    (hpacked : s.host.nextGeneration = s'.host.nextGeneration → s'.packed = s.packed) :
    s'.Tracks rt settings r where
  follows := by
    rw [hchanges, received_append r h.handled_le]
    exact h.follows
  handled_le := by
    rw [hchanges, List.length_append]
    exact h.handled_le.trans (Nat.le_add_right _ _)
  connected_le := h.connected_le
  generation_lt := h.generation_lt.trans_le hnext
  packed hcurrent := by
    have hsame : s.host.nextGeneration = s'.host.nextGeneration := by
      have hlt := h.generation_lt
      omega
    rw [hpacked hsame]
    exact h.packed (hcurrent.trans hsame.symm)

theorem Cluster.Sound.update {id : ℕ} {new : Option Replica} (h : s.Sound rt settings)
    (hserves : s'.host.Serves s'.packed)
    (hreplicas : s'.replicas = Function.update s.replicas id new)
    (hothers : ∀ r, s.Tracks rt settings r → s'.Tracks rt settings r)
    (hnew : ∀ r, new = some r → s'.Tracks rt settings r) : s'.Sound rt settings := by
  refine ⟨hserves, fun other r hr => ?_⟩
  rw [hreplicas, Function.update_apply] at hr
  split at hr
  · exact hnew r hr
  · exact hothers r (h.tracks other r hr)

theorem sound_init_cluster (h : (clusterSystem rt settings budgetBytes).init s) :
    s.Sound rt settings := by
  obtain ⟨⟨hstate, hforeign⟩, -, hreplicas, -, hpacked⟩ := h
  refine ⟨⟨by simp [hpacked], fun _ => hpacked, fun segment hsegment generation hname => ?_,
    fun state hsome => ?_⟩, fun id r hr => ?_⟩
  · have hother := hforeign segment hsegment
    rw [hname, startsWith_segmentName] at hother
    cases hother
  · rw [hstate] at hsome
    cases hsome
  · rw [hreplicas id] at hr
    cases hr

theorem follows_activate {loaded : LoadedMembership} (live : LiveBackend)
    (h : ∀ set, loaded.membership = some set → set.Ok ∧ set.Fresh) :
    (Replica.activate loaded live).membership.Follows [] := by
  have hempty := MembershipSet.follows_fresh MembershipSet.ok_empty ⟨rfl, rfl⟩
  unfold Replica.activate Replica.membership Worker.membership Worker.activate
  dsimp only
  cases hset : loaded.membership with
  | none => exact hempty
  | some set =>
      obtain ⟨hok, hfresh⟩ := h set hset
      exact MembershipSet.follows_adoptOverlay hok hfresh hempty

theorem sound_start (h : s.Sound rt settings) (hshared : settings.membershipShared = true) {id : ℕ}
    {client : BootstrapClient} {now : ℚ} {loaded : LoadedMembership} {host : Host}
    (live : LiveBackend)
    (haffordable : ∀ n, countObservables rt client = .ok n →
      affordable settings n budgetBytes = true)
    (hload : load rt settings client now budgetBytes s.builder.isNone s.host s.host =
      .ok (loaded, host)) : (s.afterStart id loaded host live).Sound rt settings := by
  rcases load_cases hshared haffordable hload with ⟨built, hbuilt, rfl, rfl⟩ | ⟨rfl, hreader⟩
  · obtain ⟨hserves, hnext, hgeneration, hok, hfresh⟩ := h.serves.publish .load hbuilt
    refine h.update hserves rfl (fun r hr => ?_) fun r hr => ?_
    · refine hr.elsewhere [] (List.append_nil _).symm ?_ fun hsame => ?_
      · exact hnext.symm ▸ Nat.le_succ _
      · exact absurd (hsame.trans hnext) (Nat.lt_succ_self _).ne
    · obtain rfl := Option.some.inj hr
      refine ⟨follows_activate live fun set hset => ?_, Nat.zero_le _,
        fun _ hnone => (by cases hnone), ?_, fun _ => rfl⟩
      · obtain rfl := Option.some.inj hset
        exact ⟨hok, hfresh⟩
      · exact hgeneration.trans_lt (hnext.symm ▸ Nat.lt_succ_self _)
  · -- A worker that waited leaves the host and the published words as they are.
    have hothers : ∀ {loaded : LoadedMembership}, loaded.role ≠ .builder →
        ∀ r, s.Tracks rt settings r → (s.afterStart id loaded s.host live).Tracks rt
          settings r := by
      intro loaded hrole r hr
      exact hr.elsewhere [] (List.append_nil _).symm le_rfl fun _ => if_neg hrole
    rcases hreader with ⟨state, set, hstate, hset, rfl⟩ | rfl
    · obtain ⟨hok, hfresh, hpacked⟩ := h.serves.attach hstate hset
      refine h.update h.serves rfl (hothers nofun) fun r hr => ?_
      obtain rfl := Option.some.inj hr
      refine ⟨follows_activate live fun set' hset' => ?_, Nat.zero_le _,
        fun _ hnone => (by cases hnone), ?_, fun _ => hpacked⟩
      · obtain rfl := Option.some.inj hset'
        exact ⟨hok, hfresh⟩
      · exact (nextGeneration_of_read hstate).symm ▸ Nat.lt_succ_self _
    · refine h.update h.serves rfl (hothers nofun) fun r hr => ?_
      obtain rfl := Option.some.inj hr
      refine ⟨follows_activate live fun _ hnone => (by cases hnone), Nat.zero_le _,
        fun _ hnone => (by cases hnone), nextGeneration_pos _, fun hfirst => ?_⟩
      exact (MembershipSet.packed_init_none _ _ _).trans (h.serves.unpublished hfirst.symm).symm

theorem tracks_connect (h : s.Tracks rt settings r) (hidle : r.connectedAt = none) :
    s.Tracks rt settings (r.connect s.changes.length) where
  follows := by
    have hnothing : (r.connect s.changes.length).received s.changes = r.received s.changes := by
      unfold Replica.received Replica.connect
      rw [hidle]
      simp
    rw [hnothing]
    exact h.follows
  handled_le := le_rfl
  connected_le start hstart := (Option.some.inj hstart).ge
  generation_lt := h.generation_lt
  packed := h.packed

theorem tracks_afterChange (h : s.Tracks rt settings r) {start : ℕ}
    (hstart : r.connectedAt = some start)
    {change : Change} (hchange : s.changes[r.handled]? = some change) (now : ℚ)
    (hfault : (({ change with now := now } : Change).handled rt settings r.consumer
      r.worker).fault =
      none) :
    s.Tracks rt settings (r.afterChange rt settings { change with now := now }) := by
  obtain ⟨hlt, hget⟩ := List.getElem?_eq_some_iff.mp hchange
  have hmembership : (r.afterChange rt settings { change with now := now }).membership =
      MembershipSet.writeAll rt change.kind.adds (change.keys rt settings) r.membership := by
    unfold Replica.afterChange Replica.membership
    dsimp only
    rw [target_handled _ _ _ hfault, Worker.membership_changed]
    rfl
  have hreceived : (r.afterChange rt settings { change with now := now }).received s.changes =
      r.received s.changes ++ [change] := by
    unfold Replica.received Replica.afterChange
    dsimp only
    rw [hstart]
    dsimp only
    rw [List.take_succ_eq_append_getElem hlt, hget, List.drop_append_of_le_length]
    rw [List.length_take, Nat.min_eq_left hlt.le]
    exact h.connected_le start hstart
  refine ⟨?_, hlt, fun other hother => (h.connected_le other hother).trans (Nat.le_succ _),
    h.generation_lt, fun hcurrent => ?_⟩
  · rw [hmembership, hreceived, writesOfChanges, List.flatMap_append, List.flatMap_singleton]
    exact MembershipSet.follows_writeAll h.follows _ _
  · rw [hmembership, (MembershipSet.writeAll_packed _ _).1]
    exact h.packed hcurrent

theorem sound_set (h : s.Sound rt settings) {id : ℕ} (hr : s.Tracks rt settings r) :
    (s.set id r).Sound rt settings :=
  h.update h.serves rfl
    (fun _ hother => hother.elsewhere [] (List.append_nil _).symm le_rfl fun _ => rfl)
    fun other hother => by
      obtain rfl := Option.some.inj hother
      exact hr.elsewhere [] (List.append_nil _).symm le_rfl fun _ => rfl

theorem tracks_adopt (h : s.Sound rt settings) (hr : s.Tracks rt settings r) {set : MembershipSet}
    {generation : ℕ} (hpoll : pollGeneration settings s.host r.generation =
      some (set, generation)) :
    s.Tracks rt settings (r.adopt set generation) := by
  unfold pollGeneration at hpoll
  cases hstate : s.host.read with
  | none => simp [hstate] at hpoll
  | some state =>
      rw [hstate] at hpoll
      dsimp only at hpoll
      split at hpoll
      · cases hpoll
      · obtain ⟨attached, hattach, hpair⟩ := Option.map_eq_some_iff.mp hpoll
        obtain ⟨rfl, rfl⟩ := Prod.mk.inj hpair
        obtain ⟨hok, hfresh, hpacked⟩ := h.serves.attach hstate hattach
        exact ⟨MembershipSet.follows_adoptOverlay hok hfresh hr.follows, hr.handled_le,
          hr.connected_le,
          (nextGeneration_of_read hstate).symm ▸ Nat.lt_succ_self _, fun _ => hpacked⟩

theorem sound_rebuild (h : s.Sound rt settings) {id : ℕ} (hr : s.replicas id = some r)
    {client : BootstrapClient} {now : ℚ} (reason : Str) {built : BuiltGeneration}
    (hbuilt : buildGeneration rt settings client now
      (maxEntriesOf budgetBytes) s.host.nextGeneration
      s.host = .ok built) : (s.afterRebuild id r reason built).Sound rt settings := by
  obtain ⟨hserves, hnext, hgeneration, hok, hfresh⟩ := h.serves.publish .rebuild hbuilt
  have htracks := h.tracks id r hr
  have hmoved : (s.afterRebuild id r reason built).host.nextGeneration =
    s.host.nextGeneration + 1 := hnext
  refine h.update (hserves.remove (List.filter_subset_self _)) rfl (fun r hr => ?_) fun r' hr' => ?_
  · refine hr.elsewhere [] (List.append_nil _).symm ?_ fun hsame => ?_
    · exact hmoved.symm ▸ Nat.le_succ _
    · exact absurd (hsame.trans hmoved) (Nat.lt_succ_self _).ne
  · obtain rfl := Option.some.inj hr'
    exact ⟨MembershipSet.follows_adoptOverlay hok hfresh htracks.follows, htracks.handled_le,
      htracks.connected_le, hgeneration.trans_lt (hmoved.symm ▸ Nat.lt_succ_self _), fun _ => rfl⟩

theorem sound_stop (h : s.Sound rt settings) (id : ℕ) {kept : Segments}
    (hkept : kept ⊆ s.host.segments) :
    (s.afterStop id kept).Sound rt settings :=
  h.update (h.serves.remove hkept) rfl
    (fun _ hr => hr.elsewhere [] (List.append_nil _).symm le_rfl fun _ => rfl)
    fun _ hnone => (by cases hnone)

theorem sound_cluster_step {a : ClusterStep} (hshared : settings.membershipShared = true)
    (h : s.Sound rt settings) (hstep : (clusterSystem rt settings budgetBytes).step s a s') :
    s'.Sound rt settings := by
  cases a with
  | change change =>
      obtain rfl := hstep
      exact ⟨h.serves, fun id r hr => (h.tracks id r hr).elsewhere [change] rfl le_rfl fun _ => rfl⟩
  | start id client now live =>
      obtain ⟨-, haffordable, loaded, host, hload, rfl⟩ := hstep
      exact sound_start h hshared live haffordable hload
  | connect id =>
      obtain ⟨r, hr, hidle, rfl⟩ := hstep
      exact sound_set h (tracks_connect (h.tracks id r hr) hidle)
  | handle id now =>
      obtain ⟨r, change, hr, hconnected, hchange, hfault, rfl⟩ := hstep
      obtain ⟨start, hstart⟩ := Option.isSome_iff_exists.mp hconnected
      exact sound_set h (tracks_afterChange (h.tracks id r hr) hstart hchange now hfault)
  | adopt id =>
      obtain ⟨r, set, generation, hr, -, hpoll, rfl⟩ := hstep
      exact sound_set h (tracks_adopt h (h.tracks id r hr) hpoll)
  | rebuild id client now reason =>
      obtain ⟨r, built, hr, -, hbuilt, rfl⟩ := hstep
      exact sound_rebuild h hr reason hbuilt
  | stop id kept =>
      obtain ⟨hkept, rfl⟩ := hstep
      exact sound_stop h id hkept

theorem cluster_sound {trace : List ClusterStep} (hshared : settings.membershipShared = true)
    (hrun : Reaches (clusterSystem rt settings budgetBytes) anyStep trace s) :
      s.Sound rt settings :=
  hrun.invariant (fun _ => sound_init_cluster) fun _ _ _ hsound _ hstep =>
    sound_cluster_step hshared hsound hstep

end Invariant

/-! ### When the workers agree -/

/-- Every connected worker is past every change and serves the published
generation. -/
def Settled (s : Cluster) : Prop :=
  ∀ id r, s.replicas id = some r → r.connectedAt.isSome = true → r.handled = s.changes.length ∧
    s.host.read.map SharedMembershipState.generation = some r.generation

/-- Any two connected workers give the same answers. -/
def Agree (s : Cluster) : Prop :=
  ∀ id id' r r', s.replicas id = some r → s.replicas id' = some r' →
    r.connectedAt.isSome = true → r'.connectedAt.isSome = true →
    ∀ value, r.membership.contains rt value = r'.membership.contains rt value

/-- Where a worker received changes of a value that another, connected later,
missed, and no change of it has reached both, the published words say what the
last missed change said. -/
def MissedPublished (s : Cluster) : Prop :=
  ∀ id id' r r' start start', s.replicas id = some r → s.replicas id' = some r' →
    r.connectedAt = some start → r'.connectedAt = some start' → start ≤ start' →
    ∀ value present,
      lastWrite (writesOfChanges rt settings (s.changes.drop start'))
        (fingerprint rt value) = none →
      lastWrite (writesOfChanges rt settings ((s.changes.take start').drop start))
        (fingerprint rt value) = some present →
      (fingerprint rt value ∈ s.packed ↔ present = true)

section Agreement

variable {rt settings budgetBytes} {s : Cluster}

/-- A settled worker answers by the changes since it connected, and by the
published words where there are none. -/
theorem contains_settled (h : s.Sound rt settings) (hsettled : Settled s) {id : ℕ} {r : Replica}
    (hr : s.replicas id = some r) {start : ℕ} (hstart : r.connectedAt = some start) (value : Str) :
    r.membership.contains rt value = true ↔
      (match lastWrite (writesOfChanges rt settings (s.changes.drop start))
        (fingerprint rt value) with
        | some present => present = true
        | none => fingerprint rt value ∈ s.packed) := by
  have htracks := h.tracks id r hr
  obtain ⟨hhandled, hgeneration⟩ := hsettled id r hr (by rw [hstart]; rfl)
  obtain ⟨state, hstate, hstateGeneration⟩ := Option.map_eq_some_iff.mp hgeneration
  have hpacked := htracks.packed (by rw [nextGeneration_of_read hstate, hstateGeneration])
  have hreceived : r.received s.changes = s.changes.drop start := by
    unfold Replica.received
    rw [hstart]
    dsimp only
    rw [hhandled, List.take_length]
  have hcontains := @MembershipSet.contains_of_follows rt _ _ htracks.follows value
  rw [hreceived, hpacked] at hcontains
  exact hcontains

theorem lastWrite_drop_of_le {start start' : ℕ} (h : start ≤ start')
    (changes : List Change) (fp : Word) :
    lastWrite (writesOfChanges rt settings (changes.drop start)) fp =
      (lastWrite (writesOfChanges rt settings (changes.drop start')) fp).or
        (lastWrite (writesOfChanges rt settings ((changes.take start').drop start)) fp) := by
  rw [← lastWrite_append, writesOfChanges, writesOfChanges, writesOfChanges, ← List.flatMap_append]
  have hsplit : (changes.take start').drop start ++ changes.drop start' = changes.drop start := by
    conv_rhs => rw [← List.take_append_drop start' changes, List.drop_append]
    rw [List.length_take]
    rcases Nat.le_total start' changes.length with hle | hle
    · rw [Nat.min_eq_left hle, Nat.sub_eq_zero_of_le h, List.drop_zero]
    · rw [List.drop_eq_nil_of_le hle, List.drop_nil]
  rw [hsplit]

theorem contains_eq_of_missedPublished (h : s.Sound rt settings) (hsettled : Settled s)
    (hmissed : MissedPublished rt settings s) {id id' : ℕ} {r r' : Replica}
    (hr : s.replicas id = some r) (hr' : s.replicas id' = some r') {start start' : ℕ}
    (hstart : r.connectedAt = some start) (hstart' : r'.connectedAt = some start')
    (hle : start ≤ start') (value : Str) :
    r.membership.contains rt value = r'.membership.contains rt value := by
  rw [Bool.eq_iff_iff, contains_settled h hsettled hr hstart,
    contains_settled h hsettled hr' hstart',
    lastWrite_drop_of_le hle]
  have hmissed := hmissed id id' r r' start start' hr hr' hstart hstart' hle value
  cases hlater : lastWrite (writesOfChanges rt settings (s.changes.drop start'))
    (fingerprint rt value) with
  | some present => rfl
  | none =>
      rw [Option.none_or]
      cases hbetween : lastWrite (writesOfChanges rt settings ((s.changes.take start').drop start))
          (fingerprint rt value) with
      | none => rfl
      | some present => exact (hmissed present hlater hbetween).symm

end Agreement

/-- In every settled state of every run the connected workers agree exactly when
the published words say what the changes one of them missed said last. -/
theorem workers_agree_iff {trace : List ClusterStep} {s : Cluster}
    (hshared : settings.membershipShared = true)
    (hrun : Reaches (clusterSystem rt settings budgetBytes) anyStep trace s)
    (hsettled : Settled s) :
    Agree rt s ↔ MissedPublished rt settings s := by
  have hsound := cluster_sound hshared hrun
  constructor
  · intro hagree id id' r r' start start' hr hr' hstart hstart' hle value present hlater hbetween
    have hsame := hagree id id' r r' hr hr' (by rw [hstart]; rfl) (by rw [hstart']; rfl) value
    rw [Bool.eq_iff_iff, contains_settled hsound hsettled hr hstart,
      contains_settled hsound hsettled hr' hstart', lastWrite_drop_of_le hle, hlater,
        hbetween] at hsame
    exact hsame.symm
  · intro hmissed id id' r r' hr hr' hconnected hconnected' value
    obtain ⟨start, hstart⟩ := Option.isSome_iff_exists.mp hconnected
    obtain ⟨start', hstart'⟩ := Option.isSome_iff_exists.mp hconnected'
    rcases Nat.le_total start start' with hle | hle
    · exact contains_eq_of_missedPublished hsound hsettled hmissed hr hr' hstart hstart' hle value
    · exact (contains_eq_of_missedPublished hsound hsettled hmissed hr' hr hstart'
        hstart hle value).symm

section WorkersSample

variable {s : Cluster}

theorem attach_built {rt : Runtime} {settings settings' : Settings}
    {client : BootstrapClient} {now : ℚ}
    {path : BuildPath} {maxEntries : Option ℕ} {host : Host} {built : BuiltGeneration}
    (hbuilt : attempt rt settings client now path maxEntries host = .ok built)
    (hsegment : built.membership.shmName.isSome = true) :
    ∃ set, attachTo settings' built.state built.host.segments = some set := by
  obtain ⟨-, hname, -, values, hset⟩ := build_of_attempt hbuilt
  rcases segments_build hset with ⟨hnone, -⟩ | ⟨hshm, hsegments⟩
  · rw [hnone] at hsegment
    cases hsegment
  · have hfound : (built.host.segments.find built.state.shmName).isSome = true := by
      refine MembershipSet.find_isSome_iff.mpr ⟨⟨segmentName host.nextGeneration,
        built.membership.packed⟩, ?_, ?_⟩
      · rw [hsegments]
        exact List.mem_append_right _ (List.mem_singleton_self _)
      · rw [hname, hshm]
        rfl
    obtain ⟨segment, hfind⟩ := Option.isSome_iff_exists.mp hfound
    refine ⟨MembershipSet.init (some segment) built.state.count false
      settings'.membershipOverlayMax, ?_⟩
    unfold attachTo MembershipSet.attach
    rw [hfind]
    rfl

def sampleLive : LiveBackend := ⟨PayloadCache.init 1048576 1024 86400 900⟩

theorem step_startBuilder (id : ℕ) {host : Host} {built : BuiltGeneration}
    (hid : s.replicas id = none)
    (hfree : s.builder = none) (hhost : s.host = host)
    (hbuilt : attempt sampleRuntime (sampleSettings 50000) (.onePage ["evil.com"]) 0 .load
      (maxEntriesOf 1024) host = .ok built) :
    (clusterSystem sampleRuntime (sampleSettings 50000) 1024).step s
      (.start id (.onePage ["evil.com"]) 0 sampleLive)
      (s.afterStart id ⟨some built.membership, .builder, built.state.generation⟩
        (built.host.publish built.state) sampleLive) := by
  refine ⟨hid, affordable_evil, _, _, ?_, rfl⟩
  rw [hfree, hhost]
  refine (load_lockFree rfl (show _ = Except.ok 1 from rfl) rfl host).trans ?_
  exact bind_eq_ok_iff.mpr ⟨built, hbuilt, rfl⟩

theorem step_startReader (id : ℕ) {state : SharedMembershipState} {set : MembershipSet}
    (hid : s.replicas id = none) (hheld : s.builder.isNone = false)
    (hstate : s.host.read = some state)
    (hset : attachTo (sampleSettings 50000) state s.host.segments = some set) :
    (clusterSystem sampleRuntime (sampleSettings 50000) 1024).step s
      (.start id (.onePage ["evil.com"]) 0 sampleLive)
      (s.afterStart id ⟨some set, .reader, state.generation⟩ s.host sampleLive) := by
  refine ⟨hid, affordable_evil, _, _, ?_, rfl⟩
  rw [hheld]
  refine (load_locked rfl (show _ = Except.ok 1 from rfl) rfl s.host).trans ?_
  rw [hstate, Option.bind_some, hset]
  rfl

theorem step_connect (id : ℕ) {r : Replica} (hr : s.replicas id = some r)
    (hidle : r.connectedAt = none) :
    (clusterSystem sampleRuntime (sampleSettings 50000) 1024).step s (.connect id)
      (s.set id (r.connect s.changes.length)) := ⟨r, hr, hidle, rfl⟩

theorem step_change (change : Change) :
    (clusterSystem sampleRuntime (sampleSettings 50000) 1024).step s (.change change)
      { s with changes := s.changes ++ [change] } := rfl

theorem step_handle (id : ℕ) {r : Replica} {domains : List Str}
    (hdomains : domains ⊆ ["evil.com", "good.com"])
    (hr : s.replicas id = some r) (hconnected : r.connectedAt.isSome = true)
    (hchange : s.changes[r.handled]? = some (sampleChange .create "b" domains)) :
    (clusterSystem sampleRuntime (sampleSettings 50000) 1024).step s (.handle id 0)
      (s.set id (r.afterChange sampleRuntime (sampleSettings 50000)
        (sampleChange .create "b" domains))) :=
  ⟨r, _, hr, hconnected, hchange, fault_sample 50000 .create "b" hdomains _ _, rfl⟩

def bareCluster : Cluster := ⟨bareHost, [], fun _ => none, none, []⟩

theorem init_bareCluster :
    (clusterSystem sampleRuntime (sampleSettings 50000) 1024).init bareCluster :=
  ⟨init_bareHost _, rfl, fun _ => rfl, rfl, rfl⟩

def builderReplica (built : BuiltGeneration) : Replica :=
  (Replica.activate ⟨some built.membership, .builder, built.state.generation⟩ sampleLive).connect 0

def readerReplica (built : BuiltGeneration) (set : MembershipSet) (start : ℕ) : Replica :=
  (Replica.activate ⟨some set, .reader, built.state.generation⟩ sampleLive).connect start

def builderCluster (built : BuiltGeneration) : Cluster :=
  (bareCluster.afterStart 0 ⟨some built.membership, .builder, built.state.generation⟩
    (built.host.publish built.state) sampleLive).set 0 (builderReplica built)

theorem replicas_builderCluster (built : BuiltGeneration) :
    (builderCluster built).replicas 0 = some (builderReplica built) := Cluster.replicas_set _ _ _ _

def joinReader (built : BuiltGeneration) (set : MembershipSet) (s : Cluster) : Cluster :=
  (s.afterStart 1 ⟨some set, .reader, built.state.generation⟩ s.host sampleLive).set 1
    (readerReplica built set s.changes.length)

def goodChange : Change := sampleChange .create "b" ["good.com"]

def handleGood (id : ℕ) (r : Replica) (s : Cluster) : Cluster :=
  s.set id (r.afterChange sampleRuntime (sampleSettings 50000) goodChange)

theorem reaches_builderCluster {built : BuiltGeneration}
    (hbuilt : attempt sampleRuntime (sampleSettings 50000) (.onePage ["evil.com"]) 0 .load
      (maxEntriesOf 1024) bareHost = .ok built) :
    ∃ trace, Reaches (clusterSystem sampleRuntime (sampleSettings 50000) 1024) anyStep trace
      (builderCluster built) := by
  have hinit : Reaches (clusterSystem sampleRuntime (sampleSettings 50000) 1024) anyStep
    [] bareCluster :=
    .init init_bareCluster
  have hstart := hinit.step trivial (step_startBuilder 0 rfl rfl rfl hbuilt)
  exact ⟨_, hstart.step trivial (step_connect 0 (Cluster.replicas_afterStart _ _ _ _ _ _) rfl)⟩

theorem reaches_joinReader {built : BuiltGeneration} {set : MembershipSet}
    {trace : List ClusterStep}
    (hrun : Reaches (clusterSystem sampleRuntime (sampleSettings 50000) 1024) anyStep trace s)
    (hid : s.replicas 1 = none) (hbuilder : s.builder = some 0)
    (hhost : s.host = built.host.publish built.state)
    (hset : attachTo (sampleSettings 50000) built.state built.host.segments = some set) :
    ∃ trace, Reaches (clusterSystem sampleRuntime (sampleSettings 50000) 1024) anyStep trace
      (joinReader built set s) := by
  have hstart := hrun.step trivial (step_startReader 1 hid (by rw [hbuilder]; rfl)
    (by rw [hhost]; rfl) (by rw [hhost]; exact hset))
  exact ⟨_, hstart.step trivial (step_connect 1 (Cluster.replicas_afterStart _ _ _ _ _ _) rfl)⟩

theorem reaches_handleGood (id : ℕ) (r : Replica) {trace : List ClusterStep}
    (hrun : Reaches (clusterSystem sampleRuntime (sampleSettings 50000) 1024) anyStep trace s)
    (hr : s.replicas id = some r) (hconnected : r.connectedAt.isSome = true)
    (hchange : s.changes[r.handled]? = some goodChange) :
    ∃ trace, Reaches (clusterSystem sampleRuntime (sampleSettings 50000) 1024) anyStep trace
      (handleGood id r s) :=
  ⟨_, hrun.step trivial (step_handle id (by simp) hr hconnected hchange)⟩

def earlyCluster (built : BuiltGeneration) (set : MembershipSet) : Cluster :=
  handleGood 1 (readerReplica built set 0) (handleGood 0 (builderReplica built)
    { joinReader built set (builderCluster built) with changes := [goodChange] })

theorem reaches_earlyCluster {built : BuiltGeneration} {set : MembershipSet}
    (hbuilt : attempt sampleRuntime (sampleSettings 50000) (.onePage ["evil.com"]) 0 .load
      (maxEntriesOf 1024) bareHost = .ok built)
    (hset : attachTo (sampleSettings 50000) built.state built.host.segments = some set) :
    ∃ trace, Reaches (clusterSystem sampleRuntime (sampleSettings 50000) 1024) anyStep trace
      (earlyCluster built set) := by
  obtain ⟨_, hrun⟩ := reaches_builderCluster hbuilt
  obtain ⟨_, hrun⟩ := reaches_joinReader hrun rfl rfl rfl hset
  obtain ⟨_, hrun⟩ := reaches_handleGood 0 (builderReplica built)
    (hrun.step trivial (step_change goodChange)) (replicas_builderCluster built) rfl rfl
  exact reaches_handleGood 1 (readerReplica built set 0) hrun
    (Cluster.replicas_set _ _ _ _) rfl rfl

theorem replicas_earlyCluster {built : BuiltGeneration} {set : MembershipSet} {id : ℕ} {r : Replica}
    (hr : (earlyCluster built set).replicas id = some r) :
    r.connectedAt = some 0 ∧ r.handled = 1 ∧ r.generation = built.state.generation := by
  simp only [earlyCluster, joinReader, handleGood, builderCluster, Cluster.replicas_set,
    Cluster.replicas_afterStart] at hr
  split at hr
  · obtain rfl := Option.some.inj hr
    exact ⟨rfl, rfl, rfl⟩
  · split at hr
    · obtain rfl := Option.some.inj hr
      exact ⟨rfl, rfl, rfl⟩
    · cases hr

/-- Two workers connected before a change agree after it. -/
theorem workers_agree_after_change : ∃ trace s,
    Reaches (clusterSystem sampleRuntime (sampleSettings 50000) 1024) anyStep trace s ∧
      s.changes = [goodChange] ∧ Agree sampleRuntime s := by
  obtain ⟨built, hbuilt, hsegment, -⟩ := attempt_evil
  obtain ⟨set, hset⟩ : ∃ set, attachTo (sampleSettings 50000) built.state
    built.host.segments = some set :=
    attach_built hbuilt hsegment
  obtain ⟨trace, hrun⟩ := reaches_earlyCluster hbuilt hset
  have hsettled : Settled (earlyCluster built set) := by
    intro id r hr _
    obtain ⟨-, hhandled, hgeneration⟩ := replicas_earlyCluster hr
    exact ⟨hhandled, congrArg some hgeneration.symm⟩
  refine ⟨trace, _, hrun, rfl, (workers_agree_iff _ _ _ rfl hrun hsettled).mpr ?_⟩
  intro id id' r r' start start' hr hr' hstart hstart' _ value present _ hbetween
  obtain rfl : 0 = start' := Option.some.inj ((replicas_earlyCluster hr').1.symm.trans hstart')
  rw [List.take_zero, List.drop_nil] at hbetween
  cases hbetween

def lateCluster (built : BuiltGeneration) (set : MembershipSet) : Cluster :=
  joinReader built set (handleGood 0 (builderReplica built)
    { builderCluster built with changes := [goodChange] })

theorem reaches_lateCluster {built : BuiltGeneration} {set : MembershipSet}
    (hbuilt : attempt sampleRuntime (sampleSettings 50000) (.onePage ["evil.com"]) 0 .load
      (maxEntriesOf 1024) bareHost = .ok built)
    (hset : attachTo (sampleSettings 50000) built.state built.host.segments = some set) :
    ∃ trace, Reaches (clusterSystem sampleRuntime (sampleSettings 50000) 1024) anyStep trace
      (lateCluster built set) := by
  obtain ⟨_, hrun⟩ := reaches_builderCluster hbuilt
  obtain ⟨_, hrun⟩ := reaches_handleGood 0 (builderReplica built)
    (hrun.step trivial (step_change goodChange)) (replicas_builderCluster built) rfl rfl
  exact reaches_joinReader hrun rfl rfl rfl hset

theorem settled_lateCluster (built : BuiltGeneration) (set : MembershipSet) :
    Settled (lateCluster built set) := by
  intro id r hr _
  simp only [lateCluster, joinReader, handleGood, builderCluster, Cluster.replicas_set,
    Cluster.replicas_afterStart] at hr
  split at hr
  · obtain rfl := Option.some.inj hr
    exact ⟨rfl, rfl⟩
  · split at hr
    · obtain rfl := Option.some.inj hr
      exact ⟨rfl, rfl⟩
    · cases hr

theorem writes_goodChange :
    writesOfChanges sampleRuntime (sampleSettings 50000) [goodChange] =
      [⟨fingerprint sampleRuntime "good.com", true⟩] := by
  rw [writesOfChanges, List.flatMap_singleton, goodChange, Change.keys, sampleChange,
    keys_sampleObject,
    keysOf_good]
  rfl

/-- A reader that starts after a change reached the builder never learns of it. -/
theorem workers_disagree_after_late_start :
    ¬ ∀ (rt : Runtime) (settings : Settings) (budgetBytes : ℕ) (trace : List ClusterStep)
      (s : Cluster),
      settings.membershipShared = true →
      Reaches (clusterSystem rt settings budgetBytes) anyStep trace s → Settled s → Agree rt s := by
  intro hall
  obtain ⟨built, hbuilt, hsegment, hpacked⟩ := attempt_evil
  obtain ⟨set, hset⟩ : ∃ set, attachTo (sampleSettings 50000) built.state
    built.host.segments = some set :=
    attach_built hbuilt hsegment
  obtain ⟨trace, hrun⟩ := reaches_lateCluster hbuilt hset
  have hsettled := settled_lateCluster built set
  have hmissed := (workers_agree_iff _ _ _ rfl hrun hsettled).mp (hall _ _ _ _ _ rfl hrun hsettled)
  have hgood := hmissed 0 1 _ _ 0 1 (Cluster.replicas_set _ _ _ _)
    (Cluster.replicas_set _ _ _ _) rfl rfl
    (Nat.zero_le 1) "good.com" true rfl (by
      rw [show ((lateCluster built set).changes.take 1).drop 0 = [goodChange] from rfl,
        writes_goodChange]
      rfl)
  exact absurd ((hpacked _).mp (hgood.mpr rfl)) (by decide)

end WorkersSample

end OpenctiLookup
