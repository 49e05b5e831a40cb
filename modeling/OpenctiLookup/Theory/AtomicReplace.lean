import OpenctiLookup.Theory.Runs
import Mathlib.Data.Finset.Card
import Mathlib.Logic.Function.Basic

/-! A value published under one name by any number of writers: each writes the text of its
value to a new file, piece by piece, and moves that file over the name. Readers open what
the name stands for and read it piece by piece. Any of them may stop at any time. -/
namespace OpenctiLookup.Theory.AtomicReplace

universe u v w x

/-- A file that is still being written. -/
structure Draft (α : Type u) (β : Type v) where
  value : α
  file : ℕ
  rest : List β

/-- A file that is being read. -/
structure Reading (β : Type v) where
  file : ℕ
  seen : List β

structure State (α : Type u) (β : Type v) (ω : Type w) (ρ : Type x) where
  contents : ℕ → List β
  /-- The file that is made next: no two files are the same one. -/
  next : ℕ
  /-- The files that still have the name they were made under. -/
  temporary : Finset ℕ
  published : Option ℕ
  writers : ω → Option (Draft α β)
  readers : ρ → Option (Reading β)

inductive Event (α : Type u) (β : Type v) (ω : Type w) (ρ : Type x) where
  | make (writer : ω) (value : α)
  | write (writer : ω) (length : ℕ)
  | replace (writer : ω) (value : α)
  /-- The writer gives up, and may fail even to remove its file. -/
  | fail (writer : ω) (removed : Bool)
  /-- The writer is killed on its way. -/
  | crash (writer : ω)
  | clear
  | missing (reader : ρ)
  | enter (reader : ρ)
  | read (reader : ρ) (length : ℕ)
  /-- The reader is at the end of its file, with this text. -/
  | finish (reader : ρ) (text : List β)
  | leave (reader : ρ)

variable {α : Type u} {β : Type v} {ω : Type w} {ρ : Type x}

def empty : State α β ω ρ := ⟨fun _ => [], 0, ∅, none, fun _ => none, fun _ => none⟩

def Reading.more (reading : Reading β) (text : List β) (length : ℕ) : Reading β :=
  { reading with seen := reading.seen ++ (text.drop reading.seen.length).take length }

section Steps

variable [DecidableEq ω] [DecidableEq ρ] (encode : α → List β)

inductive Step : State α β ω ρ → Event α β ω ρ → State α β ω ρ → Prop
  | make {s : State α β ω ρ} {i : ω} (value : α) : s.writers i = none →
      Step s (.make i value)
        { s with
          contents := Function.update s.contents s.next []
          next := s.next + 1
          temporary := insert s.next s.temporary
          writers := Function.update s.writers i (some ⟨value, s.next, encode value⟩) }
  | write {s : State α β ω ρ} {i : ω} {draft : Draft α β} (length : ℕ) :
      s.writers i = some draft →
      Step s (.write i length)
        { s with
          contents := Function.update s.contents draft.file
            (s.contents draft.file ++ draft.rest.take length)
          writers := Function.update s.writers i
            (some { draft with rest := draft.rest.drop length }) }
  | replace {s : State α β ω ρ} {i : ω} {draft : Draft α β} :
      s.writers i = some draft → draft.rest = [] →
      Step s (.replace i draft.value)
        { s with
          temporary := s.temporary.erase draft.file
          published := some draft.file
          writers := Function.update s.writers i none }
  | fail {s : State α β ω ρ} {i : ω} {draft : Draft α β} (removed : Bool) :
      s.writers i = some draft →
      Step s (.fail i removed)
        { s with
          temporary := if removed then s.temporary.erase draft.file else s.temporary
          writers := Function.update s.writers i none }
  | crash {s : State α β ω ρ} {i : ω} {draft : Draft α β} : s.writers i = some draft →
      Step s (.crash i) { s with writers := Function.update s.writers i none }
  | clear {s : State α β ω ρ} : Step s .clear { s with published := none }
  | missing {s : State α β ω ρ} {r : ρ} : s.readers r = none → s.published = none →
      Step s (.missing r) s
  | enter {s : State α β ω ρ} {r : ρ} {file : ℕ} : s.readers r = none →
      s.published = some file →
      Step s (.enter r) { s with readers := Function.update s.readers r (some ⟨file, []⟩) }
  | read {s : State α β ω ρ} {r : ρ} {reading : Reading β} (length : ℕ) :
      s.readers r = some reading →
      Step s (.read r length)
        { s with
          readers := Function.update s.readers r
            (some (reading.more (s.contents reading.file) length)) }
  | finish {s : State α β ω ρ} {r : ρ} {reading : Reading β} : s.readers r = some reading →
      (s.contents reading.file).length ≤ reading.seen.length →
      Step s (.finish r reading.seen) { s with readers := Function.update s.readers r none }
  | leave {s : State α β ω ρ} (r : ρ) :
      Step s (.leave r) { s with readers := Function.update s.readers r none }

def system : System (State α β ω ρ) (Event α β ω ρ) where
  init s := s = empty
  step := Step encode

end Steps

/-! ### What the name stands for -/

def Event.apply (register : Option α) : Event α β ω ρ → Option α
  | .replace _ value => some value
  | .clear => none
  | _ => register

def register (trace : List (Event α β ω ρ)) : Option α := trace.foldl Event.apply none

/-- The reads a reader is done with or begins. -/
def Event.Turns (reader : ρ) : Event α β ω ρ → Prop
  | .enter r => r = reader
  | .finish r _ => r = reader
  | .leave r => r = reader
  | _ => False

theorem register_concat (trace : List (Event α β ω ρ)) (event : Event α β ω ρ) :
    register (trace ++ [event]) = event.apply (register trace) := by
  rw [register, List.foldl_append]
  rfl

variable (encode : α → List β)

/-- A file that nobody writes to any more, with the whole text of a value. -/
structure Sealed (s : State α β ω ρ) (file : ℕ) (value : α) : Prop where
  made : file < s.next
  whole : s.contents file = encode value
  unwritten : ∀ i draft, s.writers i = some draft → draft.file ≠ file

/-- The reader came in when the name stood for `value`, and is not done since. -/
def Entered (trace : List (Event α β ω ρ)) (reader : ρ) (value : α) : Prop :=
  ∃ before during, trace = before ++ .enter reader :: during ∧ register before = some value ∧
    ∀ event ∈ during, ¬ event.Turns reader

structure Inv (trace : List (Event α β ω ρ)) (s : State α β ω ρ) : Prop where
  drafts : ∀ i draft, s.writers i = some draft → draft.file < s.next ∧
    s.contents draft.file ++ draft.rest = encode draft.value
  distinct : ∀ i j draft draft', s.writers i = some draft → s.writers j = some draft' →
    draft.file = draft'.file → i = j
  absent : s.published = none → register trace = none
  present : ∀ file, s.published = some file →
    ∃ value, register trace = some value ∧ Sealed encode s file value
  readers : ∀ r reading, s.readers r = some reading →
    ∃ value, Entered trace r value ∧ Sealed encode s reading.file value ∧
      reading.seen <+: encode value

variable {encode} {trace : List (Event α β ω ρ)} {s s' : State α β ω ρ} {event : Event α β ω ρ}
  {reader : ρ} {value : α}

theorem Entered.concat (h : Entered trace reader value) (hevent : ¬ event.Turns reader) :
    Entered (trace ++ [event]) reader value := by
  obtain ⟨before, during, rfl, hregister, hduring⟩ := h
  refine ⟨before, during ++ [event], by simp, hregister, fun e he => ?_⟩
  rcases List.mem_append.mp he with he | he
  · exact hduring e he
  · rw [List.mem_singleton.mp he]
    exact hevent

theorem Reading.more_prefix {reading : Reading β} {text : List β} (h : reading.seen <+: text)
    (length : ℕ) : (reading.more text length).seen <+: text := by
  obtain ⟨rest, rfl⟩ := h
  rw [Reading.more, List.drop_left]
  exact (List.prefix_append_right_inj _).mpr (List.take_prefix _ _)

/-- Who is at work once one of them has changed. -/
theorem update_eq_some {ι : Type*} {γ : Type*} [DecidableEq ι] {f : ι → Option γ} {i j : ι}
    {v : Option γ} {d : γ} (h : Function.update f i v j = some d) :
    (j = i ∧ v = some d) ∨ (j ≠ i ∧ f j = some d) := by
  by_cases hij : j = i
  · subst hij
    rw [Function.update_self] at h
    exact .inl ⟨rfl, h⟩
  · rw [Function.update_of_ne hij] at h
    exact .inr ⟨hij, h⟩

theorem of_update_none {ι : Type*} {γ : Type*} [DecidableEq ι] {f : ι → Option γ} {i j : ι}
    {d : γ} (h : Function.update f i none j = some d) : j ≠ i ∧ f j = some d := by
  rcases update_eq_some h with ⟨-, hnone⟩ | h
  · cases hnone
  · exact h

variable [DecidableEq ω] [DecidableEq ρ]

/-- A sealed file stays as it is. -/
theorem Sealed.step {file : ℕ} (h : Sealed encode s file value) (hstep : Step encode s event s') :
    Sealed encode s' file value := by
  cases hstep with
  | make value' hi =>
      have hne : file ≠ s.next := Nat.ne_of_lt h.made
      refine ⟨Nat.lt_succ_of_lt h.made, (Function.update_of_ne hne _ _).trans h.whole,
        fun j draft hj => ?_⟩
      rcases update_eq_some hj with ⟨-, hdraft⟩ | ⟨-, hj⟩
      · cases hdraft
        exact hne.symm
      · exact h.unwritten j draft hj
  | write length hi =>
      have hne := h.unwritten _ _ hi
      refine ⟨h.made, (Function.update_of_ne hne.symm _ _).trans h.whole, fun j draft' hj => ?_⟩
      rcases update_eq_some hj with ⟨-, hdraft⟩ | ⟨-, hj⟩
      · cases hdraft
        exact hne
      · exact h.unwritten j draft' hj
  | replace hi _ =>
      exact ⟨h.made, h.whole, fun j draft hj => h.unwritten j draft (of_update_none hj).2⟩
  | fail removed hi =>
      exact ⟨h.made, h.whole, fun j draft hj => h.unwritten j draft (of_update_none hj).2⟩
  | crash hi =>
      exact ⟨h.made, h.whole, fun j draft hj => h.unwritten j draft (of_update_none hj).2⟩
  | clear => exact ⟨h.made, h.whole, h.unwritten⟩
  | missing _ _ => exact h
  | enter _ _ => exact ⟨h.made, h.whole, h.unwritten⟩
  | read length _ => exact ⟨h.made, h.whole, h.unwritten⟩
  | finish _ _ => exact ⟨h.made, h.whole, h.unwritten⟩
  | leave r => exact ⟨h.made, h.whole, h.unwritten⟩

namespace Inv

variable (h : Inv encode trace s)

include h

/-- The files of the writers hold what they have written. -/
theorem drafts_step (hstep : Step encode s event s') :
    (∀ i draft, s'.writers i = some draft → draft.file < s'.next ∧
      s'.contents draft.file ++ draft.rest = encode draft.value) ∧
    ∀ i j draft draft', s'.writers i = some draft → s'.writers j = some draft' →
      draft.file = draft'.file → i = j := by
  have hstop : ∀ (k : ω),
      (∀ i draft, Function.update s.writers k none i = some draft → draft.file < s.next ∧
        s.contents draft.file ++ draft.rest = encode draft.value) ∧
      ∀ i j draft draft', Function.update s.writers k none i = some draft →
        Function.update s.writers k none j = some draft' → draft.file = draft'.file → i = j :=
    fun k => ⟨fun i draft hi => h.drafts i draft (of_update_none hi).2,
      fun i j draft draft' hi hj =>
        h.distinct i j draft draft' (of_update_none hi).2 (of_update_none hj).2⟩
  cases hstep with
  | @make k value hk =>
      refine ⟨fun i draft hi => ?_, fun i j draft draft' hi hj heq => ?_⟩
      · rcases update_eq_some hi with ⟨-, hdraft⟩ | ⟨-, hi⟩
        · cases hdraft
          refine ⟨Nat.lt_succ_self _, ?_⟩
          dsimp only
          rw [Function.update_self, List.nil_append]
        · obtain ⟨hlt, htext⟩ := h.drafts i draft hi
          refine ⟨Nat.lt_succ_of_lt hlt, ?_⟩
          dsimp only
          rw [Function.update_of_ne (Nat.ne_of_lt hlt), htext]
      · rcases update_eq_some hi with ⟨hik, hdraft⟩ | ⟨hik, hi⟩ <;>
          rcases update_eq_some hj with ⟨hjk, hdraft'⟩ | ⟨hjk, hj⟩
        · rw [hik, hjk]
        · cases hdraft
          exact absurd heq.symm (Nat.ne_of_lt (h.drafts j draft' hj).1)
        · cases hdraft'
          exact absurd heq (Nat.ne_of_lt (h.drafts i draft hi).1)
        · exact h.distinct i j draft draft' hi hj heq
  | @write k old length hk =>
      refine ⟨fun i draft hi => ?_, fun i j draft draft' hi hj heq => ?_⟩
      · rcases update_eq_some hi with ⟨-, hdraft⟩ | ⟨hik, hi⟩
        · cases hdraft
          obtain ⟨hlt, htext⟩ := h.drafts k old hk
          refine ⟨hlt, ?_⟩
          dsimp only
          rw [Function.update_self, List.append_assoc, List.take_append_drop, htext]
        · obtain ⟨hlt, htext⟩ := h.drafts i draft hi
          have hne : draft.file ≠ old.file := fun heq => hik (h.distinct i k draft old hi hk heq)
          refine ⟨hlt, ?_⟩
          dsimp only
          rw [Function.update_of_ne hne, htext]
      · have hfile : ∀ m d, Function.update s.writers k
            (some { old with rest := old.rest.drop length }) m = some d →
              ∃ d', s.writers m = some d' ∧ d'.file = d.file := by
          intro m d hm
          rcases update_eq_some hm with ⟨hmk, hd⟩ | ⟨-, hm⟩
          · cases hd
            exact ⟨old, hmk ▸ hk, rfl⟩
          · exact ⟨d, hm, rfl⟩
        obtain ⟨d, hd, hfiled⟩ := hfile i draft hi
        obtain ⟨d', hd', hfiled'⟩ := hfile j draft' hj
        exact h.distinct i j d d' hd hd' (hfiled.trans (heq.trans hfiled'.symm))
  | replace _ _ => exact hstop _
  | fail _ _ => exact hstop _
  | crash _ => exact hstop _
  | clear => exact ⟨h.drafts, h.distinct⟩
  | missing _ _ => exact ⟨h.drafts, h.distinct⟩
  | enter _ _ => exact ⟨h.drafts, h.distinct⟩
  | read _ _ => exact ⟨h.drafts, h.distinct⟩
  | finish _ _ => exact ⟨h.drafts, h.distinct⟩
  | leave _ => exact ⟨h.drafts, h.distinct⟩

/-- The name stands for the value moved last. -/
theorem published_step (hstep : Step encode s event s') :
    (s'.published = none → register (trace ++ [event]) = none) ∧
    ∀ file, s'.published = some file →
      ∃ value, register (trace ++ [event]) = some value ∧ Sealed encode s' file value := by
  have hkeep : s'.published = s.published → event.apply (register trace) = register trace →
      (s'.published = none → register (trace ++ [event]) = none) ∧
      ∀ file, s'.published = some file →
        ∃ value, register (trace ++ [event]) = some value ∧ Sealed encode s' file value := by
    intro hpublished hevent
    rw [register_concat, hevent, hpublished]
    refine ⟨h.absent, fun file hfile => ?_⟩
    obtain ⟨value, hvalue, hsealed⟩ := h.present file hfile
    exact ⟨value, hvalue, hsealed.step hstep⟩
  cases hstep with
  | @replace i draft hi hrest =>
      refine ⟨nofun, fun file hfile => ?_⟩
      cases hfile
      refine ⟨draft.value, register_concat _ _, (h.drafts i draft hi).1, ?_, fun j d hj heq => ?_⟩
      · have htext := (h.drafts i draft hi).2
        rw [hrest, List.append_nil] at htext
        exact htext
      · obtain ⟨hne, hj⟩ := of_update_none hj
        exact hne (h.distinct j i d draft hj hi heq)
  | clear => exact ⟨fun _ => register_concat _ _, nofun⟩
  | make _ _ => exact hkeep rfl rfl
  | write _ _ => exact hkeep rfl rfl
  | fail _ _ => exact hkeep rfl rfl
  | crash _ => exact hkeep rfl rfl
  | missing _ _ => exact hkeep rfl rfl
  | enter _ _ => exact hkeep rfl rfl
  | read _ _ => exact hkeep rfl rfl
  | finish _ _ => exact hkeep rfl rfl
  | leave _ => exact hkeep rfl rfl

/-- A reader has a part of the value the name stood for when it came in. -/
theorem readers_step (hstep : Step encode s event s') :
    ∀ r reading, s'.readers r = some reading →
      ∃ value, Entered (trace ++ [event]) r value ∧ Sealed encode s' reading.file value ∧
        reading.seen <+: encode value := by
  have hkeep : ∀ r reading, s.readers r = some reading → ¬ event.Turns r →
      ∃ value, Entered (trace ++ [event]) r value ∧ Sealed encode s' reading.file value ∧
        reading.seen <+: encode value := by
    intro r reading hr hevent
    obtain ⟨value, hentered, hsealed, hseen⟩ := h.readers r reading hr
    exact ⟨value, hentered.concat hevent, hsealed.step hstep, hseen⟩
  intro r reading hr
  cases hstep with
  | enter hnone hfile =>
      rcases update_eq_some hr with ⟨rfl, hreading⟩ | ⟨hne, hr⟩
      · cases hreading
        obtain ⟨value, hvalue, hsealed⟩ := h.present _ hfile
        exact ⟨value, ⟨trace, [], rfl, hvalue, nofun⟩,
          ⟨hsealed.made, hsealed.whole, hsealed.unwritten⟩, List.nil_prefix⟩
      · exact hkeep r reading hr (Ne.symm hne)
  | @read k old length hold =>
      rcases update_eq_some hr with ⟨rfl, hreading⟩ | ⟨-, hr⟩
      · cases hreading
        obtain ⟨value, hentered, hsealed, hseen⟩ := h.readers r old hold
        refine ⟨value, hentered.concat nofun, ⟨hsealed.made, hsealed.whole, hsealed.unwritten⟩, ?_⟩
        rw [hsealed.whole]
        exact Reading.more_prefix hseen length
      · exact hkeep r reading hr nofun
  | finish _ _ =>
      obtain ⟨hne, hr⟩ := of_update_none hr
      exact hkeep r reading hr (Ne.symm hne)
  | leave _ =>
      obtain ⟨hne, hr⟩ := of_update_none hr
      exact hkeep r reading hr (Ne.symm hne)
  | make _ _ => exact hkeep r reading hr nofun
  | write _ _ => exact hkeep r reading hr nofun
  | replace _ _ => exact hkeep r reading hr nofun
  | fail _ _ => exact hkeep r reading hr nofun
  | crash _ => exact hkeep r reading hr nofun
  | clear => exact hkeep r reading hr nofun
  | missing _ _ => exact hkeep r reading hr nofun

theorem step (hstep : Step encode s event s') : Inv encode (trace ++ [event]) s' :=
  ⟨(h.drafts_step hstep).1, (h.drafts_step hstep).2, (h.published_step hstep).1,
    (h.published_step hstep).2, h.readers_step hstep⟩

end Inv

theorem inv_of_reaches {ok : State α β ω ρ → Event α β ω ρ → Prop}
    (h : Reaches (system encode) ok trace s) : Inv encode trace s := by
  induction h with
  | init hs =>
      rw [show _ = empty from hs]
      exact ⟨nofun, nofun, fun _ => rfl, nofun, nofun⟩
  | step _ _ hstep ih => exact ih.step hstep

/-- What a reader ends with is the whole text of the value the name stood for when the
reader came in. -/
theorem finish_reads {ok : State α β ω ρ → Event α β ω ρ → Prop}
    {before after : List (Event α β ω ρ)} {text : List β}
    (h : Reaches (system encode) ok (before ++ .finish reader text :: after) s) :
    ∃ value, Entered before reader value ∧ text = encode value := by
  obtain ⟨s₁, s₂, hrun, -, hstep⟩ := h.split
  cases hstep with
  | @finish _ reading hreading hend =>
      obtain ⟨value, hentered, hsealed, hseen⟩ := (inv_of_reaches hrun).readers _ _ hreading
      rw [hsealed.whole] at hend
      exact ⟨value, hentered, hseen.eq_of_length_le hend⟩

theorem missing_reads {ok : State α β ω ρ → Event α β ω ρ → Prop}
    {before after : List (Event α β ω ρ)}
    (h : Reaches (system encode) ok (before ++ .missing reader :: after) s) :
    register before = none := by
  obtain ⟨s₁, s₂, hrun, -, hstep⟩ := h.split
  cases hstep with
  | missing _ hnone => exact (inv_of_reaches hrun).absent hnone

/-! ### Files left behind -/

/-- Whether the event may leave a file under the name it was made under. -/
def Event.abandons : Event α β ω ρ → Bool
  | .crash _ => true
  | .fail _ removed => !removed
  | _ => false

/-- Besides the files that are being written there are those in `left`. -/
def Leaves (s : State α β ω ρ) (left : Finset ℕ) : Prop :=
  ∀ file, file ∈ s.temporary ↔
    file ∈ left ∨ ∃ i draft, s.writers i = some draft ∧ draft.file = file

variable {left : Finset ℕ}

omit [DecidableEq ρ] in
theorem Leaves.erase (h : Leaves s left) (hinv : Inv encode trace s) {i : ω} {draft : Draft α β}
    (hi : s.writers i = some draft) (file : ℕ) :
    file ∈ s.temporary.erase draft.file ↔ file ∈ left.erase draft.file ∨
      ∃ j d, Function.update s.writers i none j = some d ∧ d.file = file := by
  rw [Finset.mem_erase, Finset.mem_erase, h file]
  constructor
  · rintro ⟨hne, hleft | ⟨j, d, hj, rfl⟩⟩
    · exact .inl ⟨hne, hleft⟩
    · refine .inr ⟨j, d, ?_, rfl⟩
      rw [Function.update_of_ne, hj]
      rintro rfl
      exact hne (congrArg Draft.file (Option.some.inj (hj.symm.trans hi)))
  · rintro (⟨hne, hleft⟩ | ⟨j, d, hj, rfl⟩)
    · exact ⟨hne, .inl hleft⟩
    · obtain ⟨hne, hj⟩ := of_update_none hj
      exact ⟨fun heq => hne (hinv.distinct j i d draft hj hi heq), .inr ⟨j, d, hj, rfl⟩⟩

omit [DecidableEq ρ] in
/-- A writer that goes leaves at most its own file. -/
theorem Leaves.abandon (h : Leaves s left) {i : ω} {draft : Draft α β}
    (hi : s.writers i = some draft) :
    ∃ more : Finset ℕ, more.card ≤ left.card + 1 ∧ ∀ file, file ∈ s.temporary ↔
      file ∈ more ∨ ∃ j d, Function.update s.writers i none j = some d ∧ d.file = file := by
  refine ⟨insert draft.file left, Finset.card_insert_le _ _, fun file => ?_⟩
  rw [h file, Finset.mem_insert]
  constructor
  · rintro (hleft | ⟨j, d, hj, rfl⟩)
    · exact .inl (.inr hleft)
    · by_cases hji : j = i
      · subst hji
        exact .inl (.inl (congrArg Draft.file (Option.some.inj (hj.symm.trans hi))))
      · exact .inr ⟨j, d, by rw [Function.update_of_ne hji, hj], rfl⟩
  · rintro ((rfl | hleft) | ⟨j, d, hj, rfl⟩)
    · exact .inr ⟨i, draft, hi, rfl⟩
    · exact .inl hleft
    · exact .inr ⟨j, d, (of_update_none hj).2, rfl⟩

theorem Leaves.step (h : Leaves s left) (hinv : Inv encode trace s)
    (hstep : Step encode s event s') :
    ∃ more, more.card ≤ left.card + event.abandons.toNat ∧ Leaves s' more := by
  cases hstep with
  | @make i value hi =>
      refine ⟨left, Nat.le_add_right _ _, fun file => ?_⟩
      dsimp only
      rw [Finset.mem_insert, h file]
      constructor
      · rintro (rfl | hleft | ⟨j, d, hj, rfl⟩)
        · exact .inr ⟨i, _, Function.update_self _ _ _, rfl⟩
        · exact .inl hleft
        · refine .inr ⟨j, d, ?_, rfl⟩
          rw [Function.update_of_ne, hj]
          rintro rfl
          cases hi.symm.trans hj
      · rintro (hleft | ⟨j, d, hj, rfl⟩)
        · exact .inr (.inl hleft)
        · rcases update_eq_some hj with ⟨-, hd⟩ | ⟨-, hj⟩
          · cases hd
            exact .inl rfl
          · exact .inr (.inr ⟨j, d, hj, rfl⟩)
  | @write i draft length hi =>
      refine ⟨left, Nat.le_add_right _ _, fun file => ?_⟩
      dsimp only
      rw [h file]
      apply or_congr_right
      constructor
      · rintro ⟨j, d, hj, rfl⟩
        by_cases hji : j = i
        · subst hji
          cases hi.symm.trans hj
          exact ⟨j, _, Function.update_self _ _ _, rfl⟩
        · exact ⟨j, d, by rw [Function.update_of_ne hji, hj], rfl⟩
      · rintro ⟨j, d, hj, rfl⟩
        rcases update_eq_some hj with ⟨-, hd⟩ | ⟨-, hj⟩
        · cases hd
          exact ⟨i, draft, hi, rfl⟩
        · exact ⟨j, d, hj, rfl⟩
  | @replace i draft hi _ =>
      exact ⟨left.erase draft.file, Finset.card_erase_le, h.erase hinv hi⟩
  | @fail i draft removed hi =>
      cases removed with
      | false => exact h.abandon hi
      | true => exact ⟨left.erase draft.file, Finset.card_erase_le, h.erase hinv hi⟩
  | crash hi => exact h.abandon hi
  | clear => exact ⟨left, Nat.le_refl _, h⟩
  | missing _ _ => exact ⟨left, Nat.le_refl _, h⟩
  | enter _ _ => exact ⟨left, Nat.le_refl _, h⟩
  | read _ _ => exact ⟨left, Nat.le_refl _, h⟩
  | finish _ _ => exact ⟨left, Nat.le_refl _, h⟩
  | leave _ => exact ⟨left, Nat.le_refl _, h⟩

/-- There are no more files left behind than writers that crashed or could not remove
theirs. -/
theorem leaves_of_reaches {ok : State α β ω ρ → Event α β ω ρ → Prop}
    (h : Reaches (system encode) ok trace s) :
    ∃ left, left.card ≤ trace.countP Event.abandons ∧ Leaves s left := by
  induction h with
  | init hs =>
      rw [show _ = empty from hs]
      refine ⟨∅, Nat.le_refl _, fun file => ?_⟩
      constructor
      · exact fun hfile => .inl hfile
      · rintro (hfile | ⟨i, d, hi, -⟩)
        · exact hfile
        · cases hi
  | @step trace _ _ event hrun _ hstep ih =>
      obtain ⟨left, hcard, hleaves⟩ := ih
      obtain ⟨more, hmore, hleaves⟩ := hleaves.step (inv_of_reaches hrun) hstep
      refine ⟨more, ?_, hleaves⟩
      have hcount : [event].countP Event.abandons = event.abandons.toNat := by
        rw [List.countP_singleton]
        cases event.abandons <;> rfl
      rw [List.countP_append, hcount]
      omega

end OpenctiLookup.Theory.AtomicReplace
