import OpenctiLookup.Systems.Recovery

/-! The builders of a host, one after another, step by step. A builder reads the
state file, numbers its generation, sweeps and builds; a rebuild sweeps after it has
published instead. Between any two of these its process may die and another worker
take the lock. -/
namespace OpenctiLookup
open Python Theory

inductive Job where
  | read (previous : Option SharedMembershipState)
  /-- Of a load, before its sweep. -/
  | numbered (previous : Option SharedMembershipState) (generation : ℕ)
  | building (previous : Option SharedMembershipState) (generation : ℕ)
  | built (previous : Option SharedMembershipState) (built : BuiltGeneration)
  | published (previous : Option SharedMembershipState) (built : BuiltGeneration)
  /-- Of a rebuild, before its sweep. -/
  | swapped (previous : Option SharedMembershipState) (built : BuiltGeneration)
    (oldName : Option Str)

/-- What a worker is doing, with the name of the segment it serves. -/
inductive Activity where
  | idle
  | follower (generation : ℕ)
  | elected
  | working (path : BuildPath) (served : Option Str) (job : Job)
  | serving (served : Option Str)

namespace Activity

def Locks : Activity → Prop
  | idle => False
  | follower _ => False
  | _ => True

def generation : Activity → Option ℕ
  | working _ _ (.numbered _ generation) => some generation
  | working _ _ (.building _ generation) => some generation
  | working _ _ (.built _ built) => some built.state.generation
  | working _ _ (.published _ built) => some built.state.generation
  | working _ _ (.swapped _ built _) => some built.state.generation
  | _ => none

def job : Activity → Option Job
  | working _ _ job => some job
  | _ => none

def begins : Activity → Option (BuildPath × Option Str)
  | elected => some (.load, none)
  | serving served => some (.rebuild, served)
  | _ => none

end Activity

def BuildPath.numbered (path : BuildPath) (previous : Option SharedMembershipState)
    (generation : ℕ) : Job :=
  match path with
  | .load => .numbered previous generation
  | .rebuild => .building previous generation

structure Failover where
  host : Host
  /-- The worker whose process has the lock file locked. -/
  lock : Option ℕ
  workers : ℕ → Activity
  /-- The states published, and the one there was at the start. -/
  published : List SharedMembershipState

inductive FailoverStep where
  | lose (id : ℕ)
  | poll (id : ℕ)
  | elect (id : ℕ)
  /-- Writing the pid raises: the lock stays, and nobody builds. -/
  | strand (id : ℕ)
  | read (id : ℕ)
  | number (id : ℕ)
  | sweepBefore (id : ℕ) (kept : Segments)
  | build (id : ℕ) (client : BootstrapClient) (now : ℚ)
  | publish (id : ℕ)
  | serve (id : ℕ)
  | swap (id : ℕ)
  | sweepAfter (id : ℕ) (kept : Segments)
  /-- Any statement of the build raises, or is cancelled. -/
  | fail (id : ℕ)
  /-- The process ends, in whatever way. -/
  | exit (id : ℕ)
  /-- Everything but the sweeps: half-built segments, unlinks at shutdown, other programs. -/
  | touch (segments : Segments)

def Host.Swept (host : Host) (keep : List Str) (kept : Segments) : Prop :=
  (host.sweepStaleSegments keep).segments ⊆ kept ∧ kept ⊆ host.segments

namespace Failover

variable (s : Failover)

def act (id : ℕ) (activity : Activity) : Failover :=
  { s with workers := Function.update s.workers id activity }

@[simp] theorem workers_act (id : ℕ) (activity : Activity) :
    (s.act id activity).workers id = activity := Function.update_self ..

def withSegments (segments : Segments) : Failover :=
  { s with host := { s.host with segments := segments } }

/-- `load` releases the lock when it raises, a reconciler tries again later. -/
def afterFail (id : ℕ) (path : BuildPath) (served : Option Str) : Failover :=
  match path with
  | .load => { s.act id .idle with lock := none }
  | .rebuild => s.act id (.serving served)

end Failover

variable (rt : Runtime) (settings : Settings) (budgetBytes : ℕ)

/-- `flock` is exclusive and ends with its process, and only `publish` writes the
state file. -/
def failoverSystem : System Failover FailoverStep where
  init s :=
    s.lock = none ∧ (∀ id, s.workers id = .idle) ∧ s.published = s.host.stateFile.toList
  step s a s' :=
    match a with
    | .lose id => s.workers id = .idle ∧ s.lock.isSome = true ∧ s' = s.act id (.follower 0)
    | .poll id =>
        ∃ generation set adopted, s.workers id = .follower generation ∧
          pollGeneration settings s.host generation = some (set, adopted) ∧
          s' = s.act id (.follower adopted)
    | .elect id =>
        s.workers id = .idle ∧ s.lock = none ∧ s' = { s.act id .elected with lock := some id }
    | .strand id => s.workers id = .elected ∧ s' = s.act id .idle
    | .read id =>
        ∃ path served, (s.workers id).begins = some (path, served) ∧
          s' = s.act id (.working path served (.read s.host.read))
    | .number id =>
        ∃ path served previous, s.workers id = .working path served (.read previous) ∧
          s' = s.act id (.working path served (path.numbered previous s.host.nextGeneration))
    | .sweepBefore id kept =>
        ∃ served previous generation,
          s.workers id = .working .load served (.numbered previous generation) ∧
          s.host.Swept
            (segmentName generation :: (previous.map SharedMembershipState.shmName).toList) kept ∧
          s' = (s.withSegments kept).act id (.working .load served (.building previous generation))
    | .build id client now =>
        ∃ path served previous generation built,
          s.workers id = .working path served (.building previous generation) ∧
          buildGeneration rt settings client now (maxEntriesOf budgetBytes) generation s.host =
            .ok built ∧
          s' = { s.act id (.working path served (.built previous built)) with host := built.host }
    | .publish id =>
        ∃ path served previous built, s.workers id = .working path served (.built previous built) ∧
          s' = { s.act id (.working path served (.published previous built)) with
            host := s.host.publish built.state
            published := s.published ++ [built.state] }
    | .serve id =>
        ∃ served previous built,
          s.workers id = .working .load served (.published previous built) ∧
          s' = s.act id (.serving built.membership.shmName)
    | .swap id =>
        ∃ served previous built,
          s.workers id = .working .rebuild served (.published previous built) ∧
          s' = s.act id (.working .rebuild built.membership.shmName
            (.swapped previous built served))
    | .sweepAfter id kept =>
        ∃ served previous built oldName,
          s.workers id = .working .rebuild served (.swapped previous built oldName) ∧
          s.host.Swept (keepAfterRebuild built.state.generation previous oldName) kept ∧
          s' = (s.withSegments kept).act id (.serving served)
    | .fail id =>
        (s.workers id = .elected ∧ s' = s.afterFail id .load none) ∨
          ∃ path served job, s.workers id = .working path served job ∧
            s' = s.afterFail id path served
    | .exit id =>
        s' = { s.act id .idle with lock := if s.lock = some id then none else s.lock }
    | .touch segments => s' = s.withSegments segments

section Invariant

variable {rt settings budgetBytes} {s s' : Failover} {id : ℕ}

/-- What the holder of the lock has read is still so, or was until its own publish. -/
def Job.Fits (s : Failover) : Job → Prop
  | .read previous => previous = s.host.read
  | .numbered previous generation => previous = s.host.read ∧ generation = s.host.nextGeneration
  | .building previous generation => previous = s.host.read ∧ generation = s.host.nextGeneration
  | .built previous made =>
      previous = s.host.read ∧ made.state.generation = s.host.nextGeneration ∧
        made.state.shmName = segmentName made.state.generation
  | .published previous made =>
      made.state.shmName = segmentName made.state.generation ∧
        ∃ before, s.published = before ++ [made.state] ∧ before.getLast? = previous
  | .swapped previous made _ =>
      made.state.shmName = segmentName made.state.generation ∧
        ∃ before, s.published = before ++ [made.state] ∧ before.getLast? = previous

structure Failover.Sound (s : Failover) : Prop where
  locks : ∀ id, (s.workers id).Locks → s.lock = some id
  last : s.host.read = s.published.getLast?
  below : ∀ state ∈ s.published, state.generation < s.host.nextGeneration
  increasing : (s.published.map SharedMembershipState.generation).Pairwise (· < ·)
  fits : ∀ id path served job, s.workers id = .working path served job → job.Fits s

theorem failover_sound_init (h : (failoverSystem rt settings budgetBytes).init s) : s.Sound := by
  obtain ⟨hlock, hidle, hpublished⟩ := h
  constructor
  · intro id hlocks
    rw [hidle id] at hlocks
    exact hlocks.elim
  · unfold Host.read
    rw [hpublished]
    cases s.host.stateFile <;> rfl
  · intro state hstate
    rw [hpublished, Option.mem_toList] at hstate
    unfold Host.nextGeneration Host.read
    rw [Option.mem_def.mp hstate]
    exact Nat.lt_succ_self _
  · rw [hpublished]
    cases s.host.stateFile <;> simp
  · intro id path served job hworker
    rw [hidle id] at hworker
    cases hworker

theorem Job.Fits.congr {job : Job} (h : job.Fits s) (hstate : s'.host.stateFile = s.host.stateFile)
    (hpublished : s'.published = s.published) : job.Fits s' := by
  have hread : s'.host.read = s.host.read := hstate
  have hnext : s'.host.nextGeneration = s.host.nextGeneration := by
    unfold Host.nextGeneration
    rw [hread]
  cases job <;> simpa only [Job.Fits, hread, hnext, hpublished] using h

theorem Failover.Sound.update (h : s.Sound) {activity : Activity}
    (hworkers : s'.workers = Function.update s.workers id activity)
    (hstate : s'.host.stateFile = s.host.stateFile) (hpublished : s'.published = s.published)
    (hothers : ∀ other, other ≠ id → s.lock = some other → s'.lock = some other)
    (hlocks : activity.Locks → s'.lock = some id)
    (hfits : ∀ path served job, activity = .working path served job → job.Fits s) : s'.Sound := by
  have hread : s'.host.read = s.host.read := hstate
  constructor
  · intro other hother
    rw [hworkers, Function.update_apply] at hother
    split at hother
    · rename_i heq
      rw [heq]
      exact hlocks hother
    · rename_i hne
      exact hothers other hne (h.locks other hother)
  · rw [hread, hpublished]
    exact h.last
  · unfold Host.nextGeneration
    rw [hread, hpublished]
    exact h.below
  · rw [hpublished]
    exact h.increasing
  · intro other path served job hworker
    rw [hworkers, Function.update_apply] at hworker
    split at hworker
    · exact (hfits path served job hworker).congr hstate hpublished
    · exact (h.fits other path served job hworker).congr hstate hpublished

theorem failover_sound_touch (h : s.Sound) (segments : Segments) :
    (s.withSegments segments).Sound where
  locks := h.locks
  last := h.last
  below := h.below
  increasing := h.increasing
  fits id path served job hworker := (h.fits id path served job hworker).congr rfl rfl

theorem Failover.Sound.settle (h : s.Sound) {activity : Activity}
    (hworkers : s'.workers = Function.update s.workers id activity)
    (hstate : s'.host.stateFile = s.host.stateFile) (hpublished : s'.published = s.published)
    (hothers : ∀ other, other ≠ id → s.lock = some other → s'.lock = some other)
    (hlocks : activity.Locks → s'.lock = some id) (hjob : activity.job = none) : s'.Sound := by
  refine h.update hworkers hstate hpublished hothers hlocks fun path served job heq => ?_
  rw [heq] at hjob
  cases hjob

theorem failover_sound_fail (h : s.Sound) (hlocks : (s.workers id).Locks) (path : BuildPath)
    (served : Option Str) : (s.afterFail id path served).Sound := by
  have hheld := h.locks id hlocks
  cases path with
  | load =>
      have hworkers : (s.afterFail id .load served).workers =
        Function.update s.workers id .idle := rfl
      refine h.settle hworkers rfl rfl (fun other hne hother => ?_) False.elim rfl
      rw [hheld] at hother
      exact absurd (Option.some.inj hother).symm hne
  | rebuild =>
      have hworkers : (s.afterFail id .rebuild served).workers =
        Function.update s.workers id (.serving served) := rfl
      exact h.settle hworkers rfl rfl (fun _ _ hother => hother) (fun _ => hheld) rfl

theorem failover_sound_publish (h : s.Sound) {path : BuildPath} {served : Option Str}
    {previous : Option SharedMembershipState} {built : BuiltGeneration}
    (hworker : s.workers id = .working path served (.built previous built)) :
    Failover.Sound
      { s.act id (.working path served (.published previous built)) with
        host := s.host.publish built.state
        published := s.published ++ [built.state] } := by
  obtain ⟨hprevious, hgeneration, hname⟩ := h.fits id path served _ hworker
  have hheld : s.lock = some id := h.locks id (by rw [hworker]; trivial)
  have hnext : (s.host.publish built.state).nextGeneration = s.host.nextGeneration + 1 :=
    congrArg (· + 1) hgeneration
  constructor
  · intro other hother
    dsimp only [Failover.act] at hother ⊢
    rw [Function.update_apply] at hother
    split at hother
    · rename_i heq
      rw [heq, hheld]
    · exact h.locks other hother
  · exact List.getLast?_concat.symm
  · intro state hstate
    dsimp only
    rw [hnext]
    rcases List.mem_append.mp hstate with hold | hnew
    · exact (h.below state hold).trans (Nat.lt_succ_self _)
    · rw [List.mem_singleton.mp hnew, hgeneration]
      exact Nat.lt_succ_self _
  · rw [List.map_append, List.pairwise_append]
    refine ⟨h.increasing, List.pairwise_singleton _ _, fun generation hmem other hother => ?_⟩
    obtain ⟨state, hstate, rfl⟩ := List.mem_map.mp hmem
    rw [List.mem_singleton.mp hother, hgeneration]
    exact h.below state hstate
  · intro other path' served' job hjob
    dsimp only [Failover.act] at hjob
    rw [Function.update_apply] at hjob
    split at hjob
    · cases hjob
      exact ⟨hname, s.published, rfl, by rw [← h.last, hprevious]⟩
    · -- Nobody else builds.
      rename_i hne
      have hother := h.locks other (by rw [hjob]; trivial)
      exact absurd (Option.some.inj (hother.symm.trans hheld)) hne

theorem locks_of_begins {activity : Activity} {path : BuildPath} {served : Option Str}
    (h : activity.begins = some (path, served)) : activity.Locks := by
  cases activity with
  | elected => trivial
  | serving served => trivial
  | _ => cases h

theorem shmName_of_build {client : BootstrapClient} {now : ℚ} {maxEntries : Option ℕ}
    {host : Host} {built : BuiltGeneration}
    (h : buildGeneration rt settings client now maxEntries host.nextGeneration host = .ok built) :
    built.state.generation = host.nextGeneration ∧
      built.state.shmName = segmentName built.state.generation := by
  have hattempt : attempt rt settings client now .rebuild maxEntries host = .ok built := h
  obtain ⟨hgeneration, hshmName, -⟩ := build_of_attempt hattempt
  obtain ⟨-, hname, -⟩ := attempt_spec hattempt
  refine ⟨hgeneration, ?_⟩
  rw [hshmName, hgeneration]
  cases hset : built.membership.shmName with
  | none => rfl
  | some name => exact hname name hset

theorem failover_sound_step {a : FailoverStep} (h : s.Sound)
    (hstep : (failoverSystem rt settings budgetBytes).step s a s') : s'.Sound := by
  cases a with
  | lose id =>
      obtain ⟨-, -, rfl⟩ := hstep
      exact h.settle rfl rfl rfl (fun _ _ hother => hother) False.elim rfl
  | poll id =>
      obtain ⟨generation, set, adopted, -, -, rfl⟩ := hstep
      exact h.settle rfl rfl rfl (fun _ _ hother => hother) False.elim rfl
  | elect id =>
      obtain ⟨-, hfree, rfl⟩ := hstep
      refine h.settle rfl rfl rfl (fun other _ hother => ?_) (fun _ => rfl) rfl
      rw [hfree] at hother
      cases hother
  | strand id =>
      obtain ⟨-, rfl⟩ := hstep
      exact h.settle rfl rfl rfl (fun _ _ hother => hother) False.elim rfl
  | read id =>
      obtain ⟨path, served, hbegins, rfl⟩ := hstep
      have hheld := h.locks id (locks_of_begins hbegins)
      refine h.update rfl rfl rfl (fun _ _ hother => hother) (fun _ => hheld) ?_
      intro path served job hjob
      cases hjob
      rfl
  | number id =>
      obtain ⟨path, served, previous, hworker, rfl⟩ := hstep
      have hheld := h.locks id (by rw [hworker]; trivial)
      have hprevious := h.fits id path served _ hworker
      refine h.update rfl rfl rfl (fun _ _ hother => hother) (fun _ => hheld) ?_
      intro path' served' job hjob
      cases hjob
      cases path <;> exact ⟨hprevious, rfl⟩
  | sweepBefore id kept =>
      obtain ⟨served, previous, generation, hworker, -, rfl⟩ := hstep
      have hheld := h.locks id (by rw [hworker]; trivial)
      have hfits := h.fits id .load served _ hworker
      refine h.update rfl rfl rfl (fun _ _ hother => hother) (fun _ => hheld) ?_
      intro path served' job hjob
      cases hjob
      exact hfits
  | build id client now =>
      obtain ⟨path, served, previous, generation, built, hworker, hbuilt, rfl⟩ := hstep
      have hheld := h.locks id (by rw [hworker]; trivial)
      obtain ⟨hprevious, rfl⟩ := h.fits id path served _ hworker
      obtain ⟨report, segments, -, hhost, -⟩ := buildGeneration_eq_ok hbuilt
      refine h.update rfl (by rw [hhost]) rfl (fun _ _ hother => hother) (fun _ => hheld) ?_
      intro path' served' job hjob
      cases hjob
      exact ⟨hprevious, shmName_of_build hbuilt⟩
  | publish id =>
      obtain ⟨path, served, previous, built, hworker, rfl⟩ := hstep
      exact failover_sound_publish h hworker
  | serve id =>
      obtain ⟨served, previous, built, hworker, rfl⟩ := hstep
      have hheld := h.locks id (by rw [hworker]; trivial)
      exact h.settle rfl rfl rfl (fun _ _ hother => hother) (fun _ => hheld) rfl
  | swap id =>
      obtain ⟨served, previous, built, hworker, rfl⟩ := hstep
      have hheld := h.locks id (by rw [hworker]; trivial)
      have hfits := h.fits id .rebuild served _ hworker
      refine h.update rfl rfl rfl (fun _ _ hother => hother) (fun _ => hheld) ?_
      intro path served' job hjob
      cases hjob
      exact hfits
  | sweepAfter id kept =>
      obtain ⟨served, previous, built, oldName, hworker, -, rfl⟩ := hstep
      have hheld := h.locks id (by rw [hworker]; trivial)
      exact h.settle rfl rfl rfl (fun _ _ hother => hother) (fun _ => hheld) rfl
  | fail id =>
      rcases hstep with ⟨hworker, rfl⟩ | ⟨path, served, job, hworker, rfl⟩
      · exact failover_sound_fail h (by rw [hworker]; trivial) .load none
      · exact failover_sound_fail h (by rw [hworker]; trivial) path served
  | exit id =>
      obtain rfl := hstep
      refine h.settle rfl rfl rfl (fun other hne hother => ?_) False.elim rfl
      dsimp only
      rw [hother, if_neg (by simpa using hne)]
  | touch segments =>
      obtain rfl := hstep
      exact failover_sound_touch h segments

theorem sound_of_failover {trace : List FailoverStep}
    (hrun : Reaches (failoverSystem rt settings budgetBytes) anyStep trace s) : s.Sound :=
  hrun.invariant (fun _ hinit => failover_sound_init hinit)
    fun _ _ _ h _ hstep => failover_sound_step h hstep

end Invariant

/-! ### What the sweeps keep -/

section Sweeps

variable {rt settings budgetBytes} {s s' : Failover} {id : ℕ}

/-- No segment of that name goes. -/
def Failover.Keeps (s s' : Failover) (name : Str) : Prop :=
  ∀ segment ∈ s.host.segments, segment.name = name → segment ∈ s'.host.segments

/-- The name in the state file is kept, and that of a build under way or just done. -/
structure Failover.KeepsCurrent (s s' : Failover) : Prop where
  published : ∀ state, s.host.read = some state → s.Keeps s' state.shmName
  built : ∀ id generation, (s.workers id).generation = some generation →
    s.Keeps s' (segmentName generation)

theorem mem_of_swept {host : Host} {keep : List Str} {kept : Segments} (h : host.Swept keep kept)
    {segment : Segment} (hmem : segment ∈ host.segments) (hname : segment.name ∈ keep) :
    segment ∈ kept := by
  refine h.1 (List.mem_filter.mpr ⟨hmem, ?_⟩)
  rw [decide_eq_true hname, Bool.or_true]

theorem locks_of_generation {activity : Activity} {generation : ℕ}
    (h : activity.generation = some generation) : activity.Locks := by
  cases activity with
  | working path served job => trivial
  | _ => cases h

theorem generation_unique (h : s.Sound) (hlocks : (s.workers id).Locks) {other generation : ℕ}
    (hother : (s.workers other).generation = some generation) :
    (s.workers id).generation = some generation := by
  have hheld := (h.locks id hlocks).symm.trans (h.locks other (locks_of_generation hother))
  rw [Option.some.inj hheld]
  exact hother

theorem keepsCurrent_sweepBefore (h : s.Sound) {kept : Segments}
    (hstep : (failoverSystem rt settings budgetBytes).step s (.sweepBefore id kept) s') :
    s.KeepsCurrent s' := by
  obtain ⟨served, previous, generation, hworker, hswept, rfl⟩ := hstep
  obtain ⟨rfl, -⟩ := h.fits id .load served _ hworker
  constructor
  · intro state hstate segment hmem hname
    refine mem_of_swept hswept hmem ?_
    rw [hname, hstate]
    exact List.mem_cons_of_mem _ List.mem_cons_self
  · intro other number hother segment hmem hname
    refine mem_of_swept hswept hmem ?_
    have hsame := generation_unique h (by rw [hworker]; trivial) hother
    rw [hworker] at hsame
    cases hsame
    rw [hname]
    exact List.mem_cons_self

theorem keepsCurrent_sweepAfter (h : s.Sound) {kept : Segments}
    (hstep : (failoverSystem rt settings budgetBytes).step s (.sweepAfter id kept) s') :
    s.KeepsCurrent s' ∧ ∀ earlier superseded current,
      s.published = earlier ++ [superseded, current] → s.Keeps s' superseded.shmName := by
  obtain ⟨served, previous, built, oldName, hworker, hswept, rfl⟩ := hstep
  obtain ⟨hshmName, before, hpublished, hprevious⟩ := h.fits id .rebuild served _ hworker
  refine ⟨⟨fun state hstate segment hmem hname => ?_, fun other number hother segment hmem hname =>
    ?_⟩, fun earlier superseded current hsplit segment hmem hname => ?_⟩
  · rw [h.last, hpublished, List.getLast?_concat] at hstate
    cases hstate
    refine mem_of_swept hswept hmem ?_
    rw [hname, hshmName]
    exact List.mem_cons_self
  · have hsame := generation_unique h (by rw [hworker]; trivial) hother
    rw [hworker] at hsame
    cases hsame
    refine mem_of_swept hswept hmem ?_
    rw [hname]
    exact List.mem_cons_self
  · refine mem_of_swept hswept hmem ?_
    have hbefore : before = earlier ++ [superseded] := by
      have hsame : before ++ [built.state] = (earlier ++ [superseded]) ++ [current] := by
        rw [← hpublished, hsplit]
        simp
      exact (List.append_inj' hsame rfl).1
    rw [hbefore, List.getLast?_concat] at hprevious
    rw [hname, ← hprevious]
    exact List.mem_cons_of_mem _ (List.mem_append_left _ List.mem_cons_self)

/-- Whatever the workers do and whenever they die, no sweep takes the published segment
or the one being built, that of a rebuild not the one superseded either, and each
publish has a greater number than all before. -/
theorem sweeps_keep_generations {trace : List FailoverStep}
    (hrun : Reaches (failoverSystem rt settings budgetBytes) anyStep trace s) :
    (s.published.map SharedMembershipState.generation).Pairwise (· < ·) ∧
      ∀ id kept s',
        ((failoverSystem rt settings budgetBytes).step s (.sweepBefore id kept) s' →
          s.KeepsCurrent s') ∧
        ((failoverSystem rt settings budgetBytes).step s (.sweepAfter id kept) s' →
          s.KeepsCurrent s' ∧ ∀ earlier superseded current,
            s.published = earlier ++ [superseded, current] → s.Keeps s' superseded.shmName) := by
  have h := sound_of_failover hrun
  exact ⟨h.increasing, fun id kept s' =>
    ⟨keepsCurrent_sweepBefore h, keepsCurrent_sweepAfter h⟩⟩

end Sweeps

/-! ### Builds that nothing interrupts -/

section Uninterrupted

variable {rt settings budgetBytes} {s : Failover} {id : ℕ} {trace : List FailoverStep}

theorem swept_sweep (host : Host) (keep : List Str) :
    host.Swept keep (host.sweepStaleSegments keep).segments :=
  ⟨List.Subset.refl _, List.filter_subset_self _⟩

/-- `_build_and_publish` is a run of steps. -/
theorem reaches_buildAndPublish
    (hrun : Reaches (failoverSystem rt settings budgetBytes) anyStep trace s)
    (hidle : s.workers id = .idle) (hfree : s.lock = none) {client : BootstrapClient} {now : ℚ}
    {loaded : LoadedMembership} {host : Host}
    (hbuild : buildAndPublish rt settings client now (maxEntriesOf budgetBytes) s.host =
      .ok (loaded, host)) :
    ∃ trace s', Reaches (failoverSystem rt settings budgetBytes) anyStep trace s' ∧
      s'.host = host ∧ s'.lock = some id ∧
      s'.workers id = .serving (loaded.membership.bind MembershipSet.shmName) := by
  obtain ⟨built, hprepare, hbuild⟩ := bind_eq_ok_iff.mp hbuild
  cases hbuild
  have helected := hrun.step trivial
    (show (failoverSystem rt settings budgetBytes).step _ (.elect id) _ from ⟨hidle, hfree, rfl⟩)
  have hread := helected.step trivial
    (show (failoverSystem rt settings budgetBytes).step _ (.read id) _ from
      ⟨.load, none, congrArg Activity.begins (s.workers_act id _), rfl⟩)
  have hnumbered := hread.step trivial
    (show (failoverSystem rt settings budgetBytes).step _ (.number id) _ from
      ⟨_, _, _, Failover.workers_act _ id _, rfl⟩)
  have hswept := hnumbered.step trivial
    (show (failoverSystem rt settings budgetBytes).step _ (.sweepBefore id _) _ from
      ⟨_, _, _, Failover.workers_act _ id _, swept_sweep _ _, rfl⟩)
  have hbuilt := hswept.step trivial
    (show (failoverSystem rt settings budgetBytes).step _ (.build id client now) _ from
      ⟨_, _, _, _, built, Failover.workers_act _ id _, hprepare, rfl⟩)
  have hpublished := hbuilt.step trivial
    (show (failoverSystem rt settings budgetBytes).step _ (.publish id) _ from
      ⟨_, _, _, _, Failover.workers_act _ id _, rfl⟩)
  have hserving := hpublished.step trivial
    (show (failoverSystem rt settings budgetBytes).step _ (.serve id) _ from
      ⟨_, _, _, Failover.workers_act _ id _, rfl⟩)
  exact ⟨_, _, hserving, rfl, rfl, Failover.workers_act _ id _⟩

/-- So is `_rebuild`. -/
theorem reaches_rebuild (hrun : Reaches (failoverSystem rt settings budgetBytes) anyStep trace s)
    {backend backend' : SplitBackend}
    (hserving : s.workers id = .serving backend.membership.shmName)
    {client : BootstrapClient} {now : ℚ} {host : Host}
    (hrebuild : rebuild rt settings client now budgetBytes s.host backend = .ok (host, backend')) :
    ∃ trace s', Reaches (failoverSystem rt settings budgetBytes) anyStep trace s' ∧
      s'.host = host ∧ s'.lock = s.lock ∧
      s'.workers id = .serving backend'.membership.shmName := by
  obtain ⟨built, hprepare, hrebuild⟩ := bind_eq_ok_iff.mp hrebuild
  have hread := hrun.step trivial
    (show (failoverSystem rt settings budgetBytes).step _ (.read id) _ from
      ⟨.rebuild, _, congrArg Activity.begins hserving, rfl⟩)
  have hnumbered := hread.step trivial
    (show (failoverSystem rt settings budgetBytes).step _ (.number id) _ from
      ⟨_, _, _, Failover.workers_act _ id _, rfl⟩)
  have hbuilt := hnumbered.step trivial
    (show (failoverSystem rt settings budgetBytes).step _ (.build id client now) _ from
      ⟨_, _, _, _, built, Failover.workers_act _ id _, hprepare, rfl⟩)
  have hpublished := hbuilt.step trivial
    (show (failoverSystem rt settings budgetBytes).step _ (.publish id) _ from
      ⟨_, _, _, _, Failover.workers_act _ id _, rfl⟩)
  have hswapped := hpublished.step trivial
    (show (failoverSystem rt settings budgetBytes).step _ (.swap id) _ from
      ⟨_, _, _, Failover.workers_act _ id _, rfl⟩)
  have hswept := hswapped.step trivial
    (show (failoverSystem rt settings budgetBytes).step _ (.sweepAfter id _) _ from
      ⟨_, _, _, _, Failover.workers_act _ id _, swept_sweep _ _, rfl⟩)
  unfold installGeneration at hrebuild
  cases hrebuild
  exact ⟨_, _, hswept, rfl, rfl, Failover.workers_act _ id _⟩

end Uninterrupted

section FailoverSample

def leftHost : Host :=
  ⟨[⟨segmentName 1, []⟩, ⟨segmentName 9, []⟩], some ⟨segmentName 1, 0, 1, 0, 0⟩⟩

/-- The next builder sweeps one of them and keeps the other. -/
theorem sweeps_keep_generations_failover :
    ∃ s s' : Failover, s.host = leftHost ∧ s.KeepsCurrent s' ∧
      s'.host.segments = [⟨segmentName 1, []⟩] := by
  have hstart : Reaches (failoverSystem sampleRuntime (sampleSettings 50000) 1024) anyStep []
      ⟨leftHost, none, fun _ => .idle, leftHost.stateFile.toList⟩ :=
    .init ⟨rfl, fun _ => rfl, rfl⟩
  have helected := hstart.step trivial
    (show (failoverSystem sampleRuntime (sampleSettings 50000) 1024).step _ (.elect 0) _ from
      ⟨rfl, rfl, rfl⟩)
  have hread := helected.step trivial
    (show (failoverSystem sampleRuntime (sampleSettings 50000) 1024).step _ (.read 0) _ from
      ⟨.load, none, rfl, rfl⟩)
  have hnumbered := hread.step trivial
    (show (failoverSystem sampleRuntime (sampleSettings 50000) 1024).step _ (.number 0) _ from
      ⟨_, _, _, Failover.workers_act _ 0 _, rfl⟩)
  have hsweep : (leftHost.sweepStaleSegments [segmentName 2, segmentName 1]).segments =
      [⟨segmentName 1, []⟩] := by decide
  refine ⟨_, _, rfl, ((sweeps_keep_generations hnumbered).2 0 [⟨segmentName 1, []⟩] _).1
    ⟨_, _, _, Failover.workers_act _ 0 _, ?_, rfl⟩, rfl⟩
  rw [← hsweep]
  exact swept_sweep leftHost _

end FailoverSample

end OpenctiLookup
