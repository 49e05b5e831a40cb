import Mathlib.Logic.Function.Basic
import OpenctiLookup.Theory.Runs

/-! The builder lock, system call by system call. `flock` belongs to an open file
description: it goes when that is unlocked or closed, or with the process, and a load
that forgets its descriptor keeps it. -/
namespace OpenctiLookup
open Theory

/-- The lock file as the kernel sees it. -/
structure LockFile where
  /-- The process that has a descriptor of it open. -/
  opened : ℕ → Option ℕ
  /-- The descriptor that has the lock. -/
  holder : Option ℕ

namespace LockFile

variable (file : LockFile)

def openBy (id fd : ℕ) : LockFile :=
  { file with opened := Function.update file.opened fd (some id) }

def lock (fd : ℕ) : LockFile := { file with holder := some fd }

def unlock (fd : ℕ) : LockFile :=
  { file with holder := if file.holder = some fd then none else file.holder }

/-- Whether `close` reports an error or not, the descriptor is gone. -/
def close (fd : ℕ) : LockFile :=
  { file.unlock fd with opened := Function.update file.opened fd none }

def exit (id : ℕ) : LockFile where
  opened fd := if file.opened fd = some id then none else file.opened fd
  holder := if file.holder.bind file.opened = some id then none else file.holder

end LockFile

inductive LoadPhase where
  /-- None is running: before the first, between two attempts, or after one has raised. -/
  | outside
  | starting
  /-- In `try_become_builder`. -/
  | opened (fd : ℕ)
  | refused (fd : ℕ)
  | locked (fd : ℕ)
  | truncated (fd : ℕ)
  /-- In the `try` of `load`. -/
  | building (fd : ℕ)
  /-- In `release_builder`, and in its `finally`. -/
  | releasing (fd : ℕ)
  | closing (fd : ℕ) (locked : Bool)
  | waiting
  /-- With the descriptor its `SharedStateDir` keeps if the role is builder. -/
  | returned (builder : Option ℕ)
  | gone
deriving DecidableEq

namespace LoadPhase

def fd : LoadPhase → Option ℕ
  | opened fd => some fd
  | refused fd => some fd
  | locked fd => some fd
  | truncated fd => some fd
  | building fd => some fd
  | releasing fd => some fd
  | closing fd _ => some fd
  | returned builder => builder
  | _ => none

def builder : LoadPhase → Option ℕ
  | locked fd => some fd
  | truncated fd => some fd
  | building fd => some fd
  | releasing fd => some fd
  | closing fd true => some fd
  | returned builder => builder
  | _ => none

end LoadPhase

structure Loads where
  file : LockFile
  phase : ℕ → LoadPhase

/-- A call that may raise says whether it does. -/
inductive LoadStep where
  | begin (id : ℕ)
  | openFile (id fd : ℕ)
  | flock (id : ℕ)
  /-- `flock` raises, as it must while another descriptor has the lock. -/
  | refuse (id : ℕ)
  | lose (id : ℕ) (raises : Bool)
  | truncate (id : ℕ) (raises : Bool)
  | write (id : ℕ) (raises : Bool)
  /-- `_build_and_publish`, which may also be cancelled. -/
  | build (id : ℕ) (raises : Bool)
  | unlock (id : ℕ) (raises : Bool)
  | close (id : ℕ)
  /-- A load that has no part in building ends. -/
  | finish (id : ℕ) (raises : Bool)
  /-- The shutdown of a worker that is the builder. -/
  | stop (id : ℕ)
  | exit (id : ℕ)
deriving DecidableEq

def Loads.at (s : Loads) (id : ℕ) (phase : LoadPhase) : Loads :=
  { s with phase := Function.update s.phase id phase }

def loadSystem : System Loads LoadStep where
  init s := s.file = ⟨fun _ => none, none⟩ ∧ ∀ id, s.phase id = .outside
  step s a s' :=
    match a with
    | .begin id => s.phase id = .outside ∧ s' = s.at id .starting
    | .openFile id fd =>
        s.phase id = .starting ∧ s.file.opened fd = none ∧
          s' = { s.at id (.opened fd) with file := s.file.openBy id fd }
    | .flock id =>
        ∃ fd, s.phase id = .opened fd ∧ s.file.holder = none ∧
          s' = { s.at id (.locked fd) with file := s.file.lock fd }
    | .refuse id => ∃ fd, s.phase id = .opened fd ∧ s' = s.at id (.refused fd)
    | .lose id raises =>
        ∃ fd, s.phase id = .refused fd ∧
          s' = { s.at id (if raises then .outside else .waiting) with file := s.file.close fd }
    | .truncate id raises =>
        ∃ fd, s.phase id = .locked fd ∧
          s' = s.at id (if raises then .outside else .truncated fd)
    | .write id raises =>
        ∃ fd, s.phase id = .truncated fd ∧
          s' = s.at id (if raises then .outside else .building fd)
    | .build id raises =>
        ∃ fd, s.phase id = .building fd ∧
          s' = s.at id (if raises then .releasing fd else .returned (some fd))
    | .unlock id raises =>
        ∃ fd, s.phase id = .releasing fd ∧
          s' = { s.at id (.closing fd raises) with
            file := if raises then s.file else s.file.unlock fd }
    | .close id =>
        ∃ fd locked, s.phase id = .closing fd locked ∧
          s' = { s.at id .outside with file := s.file.close fd }
    | .finish id raises =>
        (s.phase id = .starting ∨ s.phase id = .waiting) ∧
          s' = s.at id (if raises then .outside else .returned none)
    | .stop id => ∃ fd, s.phase id = .returned (some fd) ∧ s' = s.at id (.releasing fd)
    | .exit id => s' = { s.at id .gone with file := s.file.exit id }

/-- No write of the pid raises. -/
def PidWritten (_ : Loads) (a : LoadStep) : Prop :=
  ∀ id, a ≠ .truncate id true ∧ a ≠ .write id true

/-- One builder at most, nobody else has the lock, and no process whose load is over. -/
structure Loads.LockKept (s : Loads) : Prop where
  one : ∀ id other, (s.phase id).builder.isSome = true → (s.phase other).builder.isSome = true →
    id = other
  held : ∀ fd, s.file.holder = some fd → ∃ id, s.file.opened fd = some id ∧
    (s.phase id).builder = some fd
  released : ∀ id fd, s.phase id = .outside → s.file.holder = some fd → s.file.opened fd ≠ some id

section Invariant

variable {s s' : Loads} {id : ℕ}

structure Loads.Sound (s : Loads) : Prop where
  opened : ∀ id fd, (s.phase id).fd = some fd → s.file.opened fd = some id
  builds : ∀ id fd, (s.phase id).builder = some fd → s.file.holder = some fd
  held : ∀ fd, s.file.holder = some fd → ∃ id, (s.phase id).builder = some fd

theorem fd_of_builder {phase : LoadPhase} {fd : ℕ} (h : phase.builder = some fd) :
    phase.fd = some fd := by
  cases phase with
  | closing fd' locked =>
      cases locked with
      | true => exact h
      | false => cases h
  | _ => first | exact h | cases h

theorem phase_at (other : ℕ) (phase : LoadPhase) :
    (s.at id phase).phase other = if other = id then phase else s.phase other :=
  Function.update_apply _ _ _ _

theorem lockKept_of_sound (h : s.Sound) : s.LockKept where
  one id other hid hother := by
    obtain ⟨fd, hfd⟩ := Option.isSome_iff_exists.mp hid
    obtain ⟨fd', hfd'⟩ := Option.isSome_iff_exists.mp hother
    have hsame := (h.builds id fd hfd).symm.trans (h.builds other fd' hfd')
    cases hsame
    have hopened := (h.opened id fd (fd_of_builder hfd)).symm.trans
      (h.opened other fd (fd_of_builder hfd'))
    exact Option.some.inj hopened
  held fd hfd := by
    obtain ⟨id, hbuilder⟩ := h.held fd hfd
    exact ⟨id, h.opened id fd (fd_of_builder hbuilder), hbuilder⟩
  released id fd hphase hfd hopened := by
    obtain ⟨other, hbuilder⟩ := h.held fd hfd
    have hother := h.opened other fd (fd_of_builder hbuilder)
    cases hopened.symm.trans hother
    rw [hphase] at hbuilder
    cases hbuilder

theorem load_sound_init (h : loadSystem.init s) : s.Sound := by
  obtain ⟨hfile, hphase⟩ := h
  constructor
  · intro id fd hfd
    rw [hphase id] at hfd
    cases hfd
  · intro id fd hfd
    rw [hphase id] at hfd
    cases hfd
  · intro fd hfd
    rw [hfile] at hfd
    cases hfd

theorem Loads.Sound.call (h : s.Sound) {phase : LoadPhase} {file : LockFile}
    (hothers : ∀ other fd, other ≠ id → s.file.opened fd = some other →
      file.opened fd = some other)
    (hopened : ∀ fd, phase.fd = some fd → file.opened fd = some id)
    (hlocked : ∀ other fd, other ≠ id → (s.phase other).builder = some fd →
      file.holder = some fd)
    (hbuilds : ∀ fd, phase.builder = some fd → file.holder = some fd)
    (hheld : ∀ fd, file.holder = some fd →
      phase.builder = some fd ∨ ∃ other, other ≠ id ∧ (s.phase other).builder = some fd) :
    Loads.Sound { s.at id phase with file := file } := by
  constructor
  · intro other fd hfd
    rw [phase_at] at hfd
    split at hfd
    · rename_i heq
      rw [heq]
      exact hopened fd hfd
    · rename_i hne
      exact hothers other fd hne (h.opened other fd hfd)
  · intro other fd hfd
    rw [phase_at] at hfd
    split at hfd
    · exact hbuilds fd hfd
    · rename_i hne
      exact hlocked other fd hne hfd
  · intro fd hfd
    rcases hheld fd hfd with hself | ⟨other, hne, hother⟩
    · exact ⟨id, by rw [phase_at, if_pos rfl]; exact hself⟩
    · exact ⟨other, by rw [phase_at, if_neg hne]; exact hother⟩

theorem Loads.Sound.move (h : s.Sound) {phase : LoadPhase}
    (hfd : ∀ fd, phase.fd = some fd → (s.phase id).fd = some fd)
    (hbuilder : phase.builder = (s.phase id).builder) : (s.at id phase).Sound := by
  refine h.call (fun _ _ _ hopened => hopened) (fun fd hnew => h.opened id fd (hfd fd hnew))
    (fun other fd _ hother => h.builds other fd hother) (fun fd hnew => ?_) fun fd hheld => ?_
  · exact h.builds id fd (hbuilder ▸ hnew)
  · obtain ⟨other, hother⟩ := h.held fd hheld
    by_cases heq : other = id
    · exact .inl (by rw [hbuilder, ← heq, hother])
    · exact .inr ⟨other, heq, hother⟩

theorem ne_of_opened (h : s.Sound) {fd other fd' : ℕ} (hfd : (s.phase id).fd = some fd)
    (hne : other ≠ id) (hopened : s.file.opened fd' = some other) : fd' ≠ fd := by
  rintro rfl
  cases hopened.symm.trans (h.opened id fd' hfd)
  exact hne rfl

theorem sound_close (h : s.Sound) {fd : ℕ} (hfd : (s.phase id).fd = some fd)
    (hnone : (s.phase id).builder = none) {phase : LoadPhase} (hphase : phase.fd = none) :
    Loads.Sound { s.at id phase with file := s.file.close fd } := by
  have hbuilder : phase.builder = none := by
    cases hsome : phase.builder with
    | none => rfl
    | some fd' => rw [fd_of_builder hsome] at hphase; cases hphase
  have hunlocked : s.file.holder ≠ some fd := by
    intro hheld
    obtain ⟨other, hother⟩ := h.held fd hheld
    cases (h.opened id fd hfd).symm.trans (h.opened other fd (fd_of_builder hother))
    rw [hnone] at hother
    cases hother
  have hholder : (s.file.close fd).holder = s.file.holder := if_neg hunlocked
  refine h.call (fun other fd' hne hopened => ?_) (fun fd' hnew => ?_)
    (fun other fd' _ hother => ?_) (fun fd' hnew => ?_) fun fd' hheld => ?_
  · exact (Function.update_of_ne (ne_of_opened h hfd hne hopened) ..).trans hopened
  · rw [hphase] at hnew
    cases hnew
  · rw [hholder]
    exact h.builds other fd' hother
  · rw [hbuilder] at hnew
    cases hnew
  · rw [hholder] at hheld
    obtain ⟨other, hother⟩ := h.held fd' hheld
    refine .inr ⟨other, ?_, hother⟩
    rintro rfl
    rw [hnone] at hother
    cases hother

theorem sound_unlock (h : s.Sound) {fd : ℕ} (hbuilder : (s.phase id).builder = some fd)
    {phase : LoadPhase} {file : LockFile} (hfile : file.holder = none)
    (hothers : ∀ other fd', fd' ≠ fd → s.file.opened fd' = some other →
      file.opened fd' = some other)
    (hopened : ∀ fd', phase.fd = some fd' → file.opened fd' = some id)
    (hnone : phase.builder = none) : Loads.Sound { s.at id phase with file := file } := by
  have hfd := fd_of_builder hbuilder
  refine h.call (fun other fd' hne hother => ?_) hopened (fun other fd' hne hother => ?_)
    (fun fd' hnew => ?_) fun fd' hheld => ?_
  · exact hothers other fd' (ne_of_opened h hfd hne hother) hother
  · have hsame := (h.builds id fd hbuilder).symm.trans (h.builds other fd' hother)
    cases hsame
    exact absurd rfl (ne_of_opened h hfd hne (h.opened other fd (fd_of_builder hother)))
  · rw [hnone] at hnew
    cases hnew
  · rw [hfile] at hheld
    cases hheld

theorem sound_openFile (h : s.Sound) {fd : ℕ} (hphase : s.phase id = .starting)
    (hfresh : s.file.opened fd = none) :
    Loads.Sound { s.at id (.opened fd) with file := s.file.openBy id fd } := by
  refine h.call (fun other fd' _ hopened => ?_) (fun fd' hnew => ?_)
    (fun other fd' _ hother => h.builds other fd' hother) nofun fun fd' hheld => ?_
  · refine (Function.update_of_ne (fun heq => ?_) ..).trans hopened
    rw [heq, hfresh] at hopened
    cases hopened
  · cases hnew
    exact Function.update_self ..
  · obtain ⟨other, hother⟩ := h.held fd' hheld
    refine .inr ⟨other, ?_, hother⟩
    rintro rfl
    rw [hphase] at hother
    cases hother

theorem sound_flock (h : s.Sound) {fd : ℕ} (hphase : s.phase id = .opened fd)
    (hfree : s.file.holder = none) :
    Loads.Sound { s.at id (.locked fd) with file := s.file.lock fd } := by
  refine h.call (fun _ _ _ hopened => hopened) (fun fd' hnew => ?_)
    (fun other fd' _ hother => ?_) (fun fd' hnew => hnew) fun fd' hheld => .inl hheld
  · exact h.opened id fd' (by rw [hphase]; exact hnew)
  · cases hfree.symm.trans (h.builds other fd' hother)

theorem sound_exit (h : s.Sound) (id : ℕ) :
    Loads.Sound { s.at id .gone with file := s.file.exit id } := by
  refine h.call (fun other fd hne hopened => ?_) nofun (fun other fd hne hother => ?_) nofun
    fun fd hheld => ?_
  · unfold LockFile.exit
    dsimp only
    rw [hopened, if_neg (by simpa using hne)]
  · have hopened := h.opened other fd (fd_of_builder hother)
    unfold LockFile.exit
    dsimp only
    rw [h.builds other fd hother, Option.bind_some, hopened, if_neg (by simpa using hne)]
  · unfold LockFile.exit at hheld
    dsimp only at hheld
    split at hheld
    · cases hheld
    · rename_i hother
      obtain ⟨owner, howner⟩ := h.held fd hheld
      refine .inr ⟨owner, ?_, howner⟩
      rintro rfl
      rw [hheld, Option.bind_some, h.opened owner fd (fd_of_builder howner)] at hother
      exact hother rfl

theorem load_sound_step {a : LoadStep} (h : s.Sound) (hpid : PidWritten s a)
    (hstep : loadSystem.step s a s') : s'.Sound := by
  cases a with
  | begin id =>
      obtain ⟨hphase, rfl⟩ := hstep
      exact h.move nofun (by rw [hphase]; rfl)
  | openFile id fd =>
      obtain ⟨hphase, hfresh, rfl⟩ := hstep
      exact sound_openFile h hphase hfresh
  | flock id =>
      obtain ⟨fd, hphase, hfree, rfl⟩ := hstep
      exact sound_flock h hphase hfree
  | refuse id =>
      obtain ⟨fd, hphase, rfl⟩ := hstep
      exact h.move (by rw [hphase]; exact fun _ hfd => hfd) (by rw [hphase]; rfl)
  | lose id raises =>
      obtain ⟨fd, hphase, rfl⟩ := hstep
      refine sound_close h (by rw [hphase]; rfl) (by rw [hphase]; rfl) ?_
      cases raises <;> rfl
  | truncate id raises =>
      obtain ⟨fd, hphase, rfl⟩ := hstep
      cases raises with
      | true => exact absurd rfl (hpid id).1
      | false => exact h.move (by rw [hphase]; exact fun _ hfd => hfd) (by rw [hphase]; rfl)
  | write id raises =>
      obtain ⟨fd, hphase, rfl⟩ := hstep
      cases raises with
      | true => exact absurd rfl (hpid id).2
      | false => exact h.move (by rw [hphase]; exact fun _ hfd => hfd) (by rw [hphase]; rfl)
  | build id raises =>
      obtain ⟨fd, hphase, rfl⟩ := hstep
      cases raises <;>
        exact h.move (by rw [hphase]; exact fun _ hfd => hfd) (by rw [hphase]; rfl)
  | unlock id raises =>
      obtain ⟨fd, hphase, rfl⟩ := hstep
      have hbuilder : (s.phase id).builder = some fd := by rw [hphase]; rfl
      cases raises with
      | true => exact h.move (by rw [hphase]; exact fun _ hfd => hfd) (by rw [hphase]; rfl)
      | false =>
          refine sound_unlock h hbuilder (if_pos (h.builds id fd hbuilder))
            (fun _ _ _ hother => hother) (fun fd' hnew => ?_) rfl
          exact h.opened id fd' (by rw [hphase]; exact hnew)
  | close id =>
      obtain ⟨fd, locked, hphase, rfl⟩ := hstep
      cases locked with
      | true =>
          have hbuilder : (s.phase id).builder = some fd := by rw [hphase]; rfl
          refine sound_unlock h hbuilder (if_pos (h.builds id fd hbuilder))
            (fun other fd' hne hother => ?_) nofun rfl
          exact (Function.update_of_ne hne ..).trans hother
      | false => exact sound_close h (by rw [hphase]; rfl) (by rw [hphase]; rfl) rfl
  | finish id raises =>
      obtain ⟨hphase, rfl⟩ := hstep
      have hnone : (s.phase id).builder = none := by
        rcases hphase with hphase | hphase <;> rw [hphase] <;> rfl
      cases raises <;> exact h.move nofun (by rw [hnone]; rfl)
  | stop id =>
      obtain ⟨fd, hphase, rfl⟩ := hstep
      exact h.move (by rw [hphase]; exact fun _ hfd => hfd) (by rw [hphase]; rfl)
  | exit id =>
      obtain rfl := hstep
      exact sound_exit h id

theorem not_lockKept_of_raise (h : s.Sound) {fd : ℕ} (hbuilder : (s.phase id).builder = some fd) :
    ¬ (s.at id .outside).LockKept := by
  intro hkept
  refine hkept.released id fd ?_ (h.builds id fd hbuilder) (h.opened id fd (fd_of_builder hbuilder))
  rw [phase_at, if_pos rfl]

/-- The lock is held by builders only as long as the pid can be written, and no step
but a failing write of it changes that. -/
theorem builder_lock_kept {trace : List LoadStep} (hrun : Reaches loadSystem PidWritten trace s) :
    s.LockKept ∧ ∀ a s', loadSystem.step s a s' → (s'.LockKept ↔ PidWritten s a) := by
  have h : s.Sound := hrun.invariant (fun _ hinit => load_sound_init hinit)
    fun _ _ _ h hpid hstep => load_sound_step h hpid hstep
  refine ⟨lockKept_of_sound h, fun a s' hstep => ?_⟩
  refine ⟨fun hkept id => ⟨?_, ?_⟩, fun hpid => lockKept_of_sound (load_sound_step h hpid hstep)⟩
  · rintro rfl
    obtain ⟨fd, hphase, rfl⟩ := hstep
    exact not_lockKept_of_raise h (by rw [hphase]; rfl) hkept
  · rintro rfl
    obtain ⟨fd, hphase, rfl⟩ := hstep
    exact not_lockKept_of_raise h (by rw [hphase]; rfl) hkept

end Invariant

/-! ### A lock nobody knows of -/

section Stranded

variable {s s' : Loads} {id fd : ℕ}

/-- The process has the lock through a descriptor that no load remembers. -/
structure Loads.Stranded (s : Loads) (id fd : ℕ) : Prop where
  holder : s.file.holder = some fd
  opened : s.file.opened fd = some id
  forgotten : ∀ other, (s.phase other).fd ≠ some fd
  nobody : ∀ other, (s.phase other).builder = none

theorem Loads.Stranded.call (h : s.Stranded id fd) {other : ℕ} {phase : LoadPhase}
    {file : LockFile} (hholder : file.holder = some fd) (hopened : file.opened fd = some id)
    (hfd : phase.fd ≠ some fd) (hbuilder : phase.builder = none) :
    Loads.Stranded { s.at other phase with file := file } id fd where
  holder := hholder
  opened := hopened
  forgotten third := by
    rw [phase_at]
    split
    · exact hfd
    · exact h.forgotten third
  nobody third := by
    rw [phase_at]
    split
    · exact hbuilder
    · exact h.nobody third

theorem Loads.Stranded.move (h : s.Stranded id fd) {other : ℕ} {phase : LoadPhase}
    (hfd : ∀ fd', phase.fd = some fd' → (s.phase other).fd = some fd')
    (hbuilder : phase.builder = none) : (s.at other phase).Stranded id fd :=
  h.call h.holder h.opened (fun hnew => h.forgotten other (hfd fd hnew)) hbuilder

theorem stranded_close (h : s.Stranded id fd) {other fd' : ℕ}
    (hfd : (s.phase other).fd = some fd') {phase : LoadPhase} (hphase : phase.fd = none)
    (hbuilder : phase.builder = none) :
    Loads.Stranded { s.at other phase with file := s.file.close fd' } id fd := by
  have hne : fd ≠ fd' := fun heq => h.forgotten other (heq ▸ hfd)
  have hholder : s.file.holder ≠ some fd' := fun heq =>
    hne (Option.some.inj (h.holder.symm.trans heq))
  refine h.call ((if_neg hholder).trans h.holder) ?_ (by rw [hphase]; nofun) hbuilder
  exact (Function.update_of_ne hne ..).trans h.opened

theorem stranded_step {a : LoadStep} (h : s.Stranded id fd) (hexit : a ≠ .exit id)
    (hstep : loadSystem.step s a s') : s'.Stranded id fd := by
  -- A phase of a builder contradicts that there is none.
  have hnone : ∀ other phase, s.phase other = phase → phase.builder = none := by
    rintro other phase rfl
    exact h.nobody other
  cases a with
  | begin other =>
      obtain ⟨-, rfl⟩ := hstep
      exact h.move nofun rfl
  | openFile other fd' =>
      obtain ⟨-, hfresh, rfl⟩ := hstep
      have hne : fd ≠ fd' := by
        rintro rfl
        cases hfresh.symm.trans h.opened
      refine h.call h.holder ((Function.update_of_ne hne ..).trans h.opened) ?_ rfl
      exact fun hnew => hne (Option.some.inj hnew).symm
  | flock other =>
      obtain ⟨fd', -, hfree, -⟩ := hstep
      cases hfree.symm.trans h.holder
  | refuse other =>
      obtain ⟨fd', hphase, rfl⟩ := hstep
      exact h.move (by rw [hphase]; exact fun _ hfd => hfd) rfl
  | lose other raises =>
      obtain ⟨fd', hphase, rfl⟩ := hstep
      cases raises <;> exact stranded_close h (by rw [hphase]; rfl) rfl rfl
  | truncate other raises =>
      obtain ⟨fd', hphase, -⟩ := hstep
      cases hnone other _ hphase
  | write other raises =>
      obtain ⟨fd', hphase, -⟩ := hstep
      cases hnone other _ hphase
  | build other raises =>
      obtain ⟨fd', hphase, -⟩ := hstep
      cases hnone other _ hphase
  | unlock other raises =>
      obtain ⟨fd', hphase, -⟩ := hstep
      cases hnone other _ hphase
  | close other =>
      obtain ⟨fd', locked, hphase, rfl⟩ := hstep
      exact stranded_close h (by rw [hphase]; rfl) rfl rfl
  | finish other raises =>
      obtain ⟨-, rfl⟩ := hstep
      cases raises <;> exact h.move nofun rfl
  | stop other =>
      obtain ⟨fd', hphase, -⟩ := hstep
      cases hnone other _ hphase
  | exit other =>
      obtain rfl := hstep
      have hne : ¬ some id = some other := fun heq => hexit (by rw [Option.some.inj heq])
      refine h.call ?_ ?_ nofun rfl
      · unfold LockFile.exit
        dsimp only
        rw [h.holder, Option.bind_some, h.opened, if_neg hne]
      · unfold LockFile.exit
        dsimp only
        rw [h.opened, if_neg hne]

theorem stranded_until_exit {start : Loads} (h : start.Stranded id fd) {trace : List LoadStep}
    (hrun : Reaches { loadSystem with init := (· = start) } (fun _ a => a ≠ .exit id) trace s)
    (other : ℕ) : (s.phase other).builder = none := by
  have hstranded : s.Stranded id fd := by
    refine Reaches.invariant (I := fun s => s.Stranded id fd) ?_ ?_ hrun
    · rintro _ rfl
      exact h
    · exact fun _ _ _ h hexit hstep => stranded_step h hexit hstep
  exact hstranded.nobody other

end Stranded

section LockSample

theorem reaches_truncated : ∃ s, Reaches loadSystem PidWritten
    [.begin 0, .openFile 0 0, .flock 0, .truncate 0 false] s ∧
      s.phase 0 = .truncated 0 ∧ s.file.opened 0 = some 0 ∧ s.file.holder = some 0 := by
  have hstart : Reaches loadSystem PidWritten [] ⟨⟨fun _ => none, none⟩, fun _ => .outside⟩ :=
    .init ⟨rfl, fun _ => rfl⟩
  have hbegun := hstart.step (by simp [PidWritten])
    (show loadSystem.step _ (.begin 0) _ from ⟨rfl, rfl⟩)
  have hopened := hbegun.step (by simp [PidWritten])
    (show loadSystem.step _ (.openFile 0 0) _ from ⟨rfl, rfl, rfl⟩)
  have hlocked := hopened.step (by simp [PidWritten])
    (show loadSystem.step _ (.flock 0) _ from ⟨0, rfl, rfl, rfl⟩)
  have htruncated := hlocked.step (by simp [PidWritten])
    (show loadSystem.step _ (.truncate 0 false) _ from ⟨0, rfl, rfl⟩)
  exact ⟨_, htruncated, rfl, rfl, rfl⟩

theorem builder_lock_kept_truncated : ∃ s : Loads, s.phase 0 = .truncated 0 ∧ s.LockKept := by
  obtain ⟨s, hrun, hphase, -⟩ := reaches_truncated
  exact ⟨s, hphase, (builder_lock_kept hrun).1⟩

/-- The disk is full when the first worker writes its pid. -/
theorem full_disk_strands_lock :
    ¬ ∀ (trace : List LoadStep) (s : Loads), Reaches loadSystem anyStep trace s → s.LockKept := by
  intro hall
  obtain ⟨s, hrun, hphase, hopened, hholder⟩ := reaches_truncated
  have hraised := hrun.anyOf.step trivial
    (show loadSystem.step s (.write 0 true) _ from ⟨0, hphase, rfl⟩)
  exact (hall _ _ hraised).released 0 0 rfl hholder hopened

end LockSample

end OpenctiLookup
