import OpenctiLookup.Backends.StateFile
import OpenctiLookup.Theory.AtomicReplace

/-! The state file between the processes of a host. `publish` writes a temporary file and moves
it over the state file, `read` opens the state file and reads it, and either takes as many
system calls as it likes, between which the others go on and after any of which the process may
be killed. What `Host` has as one step each is what all of this comes to. -/
namespace OpenctiLookup
open Python JsonText Theory

structure StoredState (floats : Floats) where
  state : SharedMembershipState
  storable : Storable floats state

variable (floats : Floats) (ω ρ : Type) [DecidableEq ω] [DecidableEq ρ]

/-- The calls of `publish` by `ω` and of `read` by `ρ`, from an empty directory. -/
abbrev StateFileEvent := AtomicReplace.Event (StoredState floats) Char ω ρ

def stateFileSystem :
    System (AtomicReplace.State (StoredState floats) Char ω ρ) (StateFileEvent floats ω ρ) :=
  AtomicReplace.system fun stored => stateText floats stored.state

namespace Host

def clear (host : Host) : Host := { host with stateFile := none }

variable {floats ω ρ}

def afterFileEvent (host : Host) : StateFileEvent floats ω ρ → Host
  | .replace _ stored => host.publish stored.state
  | .clear => host.clear
  | _ => host

def afterFileEvents (host : Host) (trace : List (StateFileEvent floats ω ρ)) : Host :=
  trace.foldl afterFileEvent host

end Host

variable {floats ω ρ}

omit [DecidableEq ω] [DecidableEq ρ] in
theorem read_afterFileEvents {host : Host} (hfile : host.stateFile = none)
    (trace : List (StateFileEvent floats ω ρ)) :
    (host.afterFileEvents trace).read =
      (AtomicReplace.register trace).map StoredState.state := by
  induction trace using List.reverseRecOn with
  | nil => exact hfile
  | append_singleton trace event ih =>
      rw [Host.afterFileEvents, List.foldl_append, AtomicReplace.register_concat]
      change (Host.afterFileEvent (host.afterFileEvents trace) event).read = _
      cases event with
      | replace i stored => rfl
      | clear => rfl
      | _ => exact ih

def publishThenRead {floats : Floats} (stored : StoredState floats) :
    List (StateFileEvent floats Unit Unit) :=
  let text := stateText floats stored.state
  [.make () stored, .write () text.length, .replace () stored, .enter (),
    .read () text.length, .finish () text]

theorem reaches_publishThenRead {floats : Floats} (stored : StoredState floats) :
    ∃ s, Reaches (stateFileSystem floats Unit Unit) anyStep (publishThenRead stored) s := by
  let text := stateText floats stored.state
  have hinit : Reaches (stateFileSystem floats Unit Unit) anyStep [] AtomicReplace.empty :=
    .init rfl
  have hmake := hinit.step trivial (AtomicReplace.Step.make (i := ()) stored rfl)
  simp only [AtomicReplace.empty, Function.update_eq_const_of_subsingleton, List.nil_append] at hmake
  have hwrite := hmake.step trivial (AtomicReplace.Step.write (i := ()) text.length rfl)
  simp only [Function.update_eq_const_of_subsingleton, Function.update_self, Function.update_idem,
    List.nil_append, List.cons_append] at hwrite
  have hreplace := hwrite.step trivial (AtomicReplace.Step.replace (i := ()) rfl List.drop_length)
  simp only [Function.update_eq_const_of_subsingleton, List.cons_append, List.nil_append] at hreplace
  have henter := hreplace.step trivial (AtomicReplace.Step.enter (r := ()) rfl rfl)
  simp only [Function.update_eq_const_of_subsingleton, List.cons_append, List.nil_append] at henter
  have hread := henter.step trivial (AtomicReplace.Step.read (r := ()) text.length rfl)
  simp only [Function.update_eq_const_of_subsingleton, Function.update_self, List.cons_append,
    List.nil_append, AtomicReplace.Reading.more, List.length_nil, List.drop_zero] at hread
  have hfinish := hread.step trivial (AtomicReplace.Step.finish (r := ()) rfl (by simp [text]))
  simp only [text, List.take_length, List.cons_append, List.nil_append] at hfinish
  exact ⟨_, hfinish⟩

def firstState : StoredState halfOnly where
  state := ⟨segmentName 1, 0, 1, 1 / 2, 0⟩
  storable :=
    { count := by decide
      generation := by decide
      builtAt := ⟨⟨"0", ".5", by decide⟩, rfl⟩
      corpus := by decide }

/-- Every `read` gives what the host had at one moment of it, the moment the state file was
opened: never a part of a state, and no state but the one published last. -/
theorem read_stateFile {ok trace s}
    (h : Reaches (stateFileSystem floats ω ρ) ok trace s) {host : Host}
    (hfile : host.stateFile = none) (depth : ℕ) {before after : List (StateFileEvent floats ω ρ)}
    {reader : ρ} :
    (∀ text, trace = before ++ .finish reader text :: after →
      ∃ earlier during, before = earlier ++ .enter reader :: during ∧
        (∀ event ∈ during, ¬ event.Turns reader) ∧
        ((host.afterFileEvents earlier).read).isSome = true ∧
        readText floats (depth + 1) (some text) =
          .ok ((host.afterFileEvents earlier).read.map SharedMembershipState.raw)) ∧
    (trace = before ++ .missing reader :: after →
      readText floats (depth + 1) none =
        .ok ((host.afterFileEvents before).read.map SharedMembershipState.raw)) := by
  constructor
  · rintro text rfl
    obtain ⟨stored, ⟨earlier, during, hbefore, hregister, hduring⟩, rfl⟩ :=
      AtomicReplace.finish_reads h
    have hread := read_afterFileEvents hfile earlier
    rw [hregister] at hread
    refine ⟨earlier, during, hbefore, hduring, by rw [hread]; rfl, ?_⟩
    rw [hread]
    exact stored.storable.readText depth
  · rintro rfl
    rw [read_afterFileEvents hfile, AtomicReplace.missing_reads h]
    rfl

theorem read_stateFile_first : ∃ earlier during : List (StateFileEvent halfOnly Unit Unit),
    (publishThenRead firstState).dropLast = earlier ++ .enter () :: during ∧
      (∀ event ∈ during, ¬ event.Turns ()) ∧
      (((⟨[], none⟩ : Host).afterFileEvents earlier).read).isSome = true ∧
      readText halfOnly 1 (some (stateText halfOnly firstState.state)) =
        .ok (((⟨[], none⟩ : Host).afterFileEvents earlier).read.map SharedMembershipState.raw) := by
  obtain ⟨s, hrun⟩ := reaches_publishThenRead firstState
  exact (read_stateFile hrun rfl 0).1 _ rfl

/-- The directory keeps no temporary files but those of calls of `publish` still at work and
one at most for each process killed in `publish` or failure to remove the file. -/
theorem temporary_stateFile {ok trace s}
    (h : Reaches (stateFileSystem floats ω ρ) ok trace s) :
    ∃ left : Finset ℕ, left.card ≤ trace.countP AtomicReplace.Event.abandons ∧
      ∀ file ∈ s.temporary,
        file ∈ left ∨ ∃ i draft, s.writers i = some draft ∧ draft.file = file := by
  obtain ⟨left, hcard, hleaves⟩ := AtomicReplace.leaves_of_reaches h
  exact ⟨left, hcard, fun file hmem => (hleaves file).mp hmem⟩

theorem temporary_stateFile_first : ∃ s : AtomicReplace.State (StoredState halfOnly) Char Unit Unit,
    Reaches (stateFileSystem halfOnly Unit Unit) anyStep (publishThenRead firstState) s ∧
      ∃ left : Finset ℕ, left.card ≤ 0 ∧ ∀ file ∈ s.temporary,
        file ∈ left ∨ ∃ i draft, s.writers i = some draft ∧ draft.file = file := by
  obtain ⟨s, hrun⟩ := reaches_publishThenRead firstState
  exact ⟨s, hrun, temporary_stateFile hrun⟩

end OpenctiLookup
