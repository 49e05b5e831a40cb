import OpenctiLookup.Cache.SingleFlight
import OpenctiLookup.Opencti.Mapper
import OpenctiLookup.Theory.Runs

/-! The callers of one `SingleFlight`. The one that finds no future for its key runs `fn` in its
own task, so cancelling it cancels the run; the others wait behind a shield. -/
namespace OpenctiLookup
open Python Theory

/-- One call of `do`. -/
structure Caller (α ε : Type) where
  key : Str
  ticket : Ticket
  /-- `cancel` has been called on its task. -/
  cancelled : Bool := false
  /-- How its `do` has ended. -/
  ending : Option (Ending α ε) := none

structure Callers (α ε : Type) where
  flight : SingleFlight α ε
  caller : ℕ → Option (Caller α ε)

inductive CallerStep (α ε : Type) where
  | call (id : ℕ) (key : Str)
  /-- The `fn` of a caller ends. -/
  | finish (id : ℕ) (ending : Ending α ε)
  /-- A caller that waits gets what its future ended with. -/
  | resume (id : ℕ)
  | cancel (id : ℕ)
  /-- A caller that waits gets the `CancelledError` of its own task. -/
  | unwind (id : ℕ)

namespace Callers

variable {α ε : Type} (s : Callers α ε)

def set (id : ℕ) (c : Caller α ε) : Callers α ε :=
  { s with caller := Function.update s.caller id (some c) }

def afterCall (id : ℕ) (key : Str) : Callers α ε :=
  Callers.set ⟨(s.flight.begin key).2, s.caller⟩ id ⟨key, (s.flight.begin key).1, false, none⟩

def afterFinish (id : ℕ) (c : Caller α ε) (ending : Ending α ε) : Callers α ε :=
  Callers.set ⟨s.flight.settle c.key c.ticket.future ending, s.caller⟩ id
    { c with ending := some ending }

/-- The caller `id` runs, or has run, the `fn` of `future` for `key`. -/
def Led (future id : ℕ) (key : Str) (ending : Option (Ending α ε)) : Prop :=
  ∃ c, s.caller id = some c ∧ c.ticket = ⟨future, true⟩ ∧ c.key = key ∧ c.ending = ending

end Callers

def callerSystem (α ε : Type) : System (Callers α ε) (CallerStep α ε) where
  init s := s.flight = .empty ∧ ∀ id, s.caller id = none
  step s a s' :=
    match a with
    | .call id key => s.caller id = none ∧ s' = s.afterCall id key
    | .finish id ending =>
        ∃ c, s.caller id = some c ∧ c.ticket.leads = true ∧ c.ending = none ∧
          s' = s.afterFinish id c ending
    | .resume id =>
        ∃ c ending, s.caller id = some c ∧ c.ticket.leads = false ∧ c.ending = none ∧
          c.cancelled = false ∧ s.flight.ending c.ticket.future = some ending ∧
          s' = s.set id { c with ending := some ending }
    | .cancel id =>
        ∃ c, s.caller id = some c ∧ c.ending = none ∧ s' = s.set id { c with cancelled := true }
    | .unwind id =>
        ∃ c, s.caller id = some c ∧ c.ticket.leads = false ∧ c.ending = none ∧
          c.cancelled = true ∧ s' = s.set id { c with ending := some .cancelled }

section Invariant

variable {α ε : Type} {s s' : Callers α ε} {id : ℕ} {c : Caller α ε}

/-- What ties the callers, the futures and the table together. -/
structure Callers.Sound (s : Callers α ε) : Prop where
  lt : ∀ future i key ending, s.Led future i key ending → future < s.flight.futures.length
  unique : ∀ future i key ending i' key' ending', s.Led future i key ending →
    s.Led future i' key' ending' → i = i'
  leader : ∀ future i key ending, s.Led future i key ending → s.flight.ending future = ending
  table : ∀ key future, s.flight.inflight.lookup key = some future ↔ ∃ i, s.Led future i key none
  joined : ∀ i c, s.caller i = some c → ∃ leader ending, s.Led c.ticket.future leader c.key ending
  outcome : ∀ i c ending, s.caller i = some c → c.cancelled = false → c.ending = some ending →
    s.flight.ending c.ticket.future = some ending

theorem caller_set (other : ℕ) :
    (s.set id c).caller other = if other = id then some c else s.caller other :=
  Function.update_apply _ _ _ _

theorem led_iff (hc : s.caller id = some c) {future : ℕ} {key : Str}
    {ending : Option (Ending α ε)} :
    s.Led future id key ending ↔ c.ticket = ⟨future, true⟩ ∧ c.key = key ∧ c.ending = ending := by
  unfold Callers.Led
  rw [hc]
  exact ⟨fun ⟨_, rfl, h⟩ => h, fun h => ⟨c, rfl, h⟩⟩

theorem led_set_self {future : ℕ} {key : Str} {ending : Option (Ending α ε)} :
    (s.set id c).Led future id key ending ↔
      c.ticket = ⟨future, true⟩ ∧ c.key = key ∧ c.ending = ending :=
  led_iff ((caller_set id).trans (if_pos rfl))

theorem led_set_ne {future other : ℕ} (hne : other ≠ id) {key : Str}
    {ending : Option (Ending α ε)} :
    (s.set id c).Led future other key ending ↔ s.Led future other key ending := by
  unfold Callers.Led
  rw [caller_set, if_neg hne]

/-- Another record for a caller keeps everything when the runs it leads stay as they were. -/
theorem sound_setCaller (h : s.Sound)
    (hsame : ∀ future key ending, c.ticket = ⟨future, true⟩ ∧ c.key = key ∧ c.ending = ending ↔
      s.Led future id key ending)
    (hjoined : ∃ leader ending, s.Led c.ticket.future leader c.key ending)
    (houtcome : ∀ ending, c.cancelled = false → c.ending = some ending →
      s.flight.ending c.ticket.future = some ending) : (s.set id c).Sound := by
  have hled : ∀ future i key ending, (s.set id c).Led future i key ending ↔
      s.Led future i key ending := by
    intro future i key ending
    by_cases hi : i = id
    · rw [hi, led_set_self, hsame]
    · exact led_set_ne hi
  refine ⟨?_, ?_, ?_, ?_, ?_, ?_⟩
  · simp only [hled]
    exact h.lt
  · simp only [hled]
    exact h.unique
  · simp only [hled]
    exact h.leader
  · simp only [hled]
    exact h.table
  · intro i c' hi
    simp only [hled]
    rw [caller_set] at hi
    split at hi
    · cases hi
      exact hjoined
    · exact h.joined i c' hi
  · intro i c' ending hi
    rw [caller_set] at hi
    split at hi
    · cases hi
      exact houtcome ending
    · exact h.outcome i c' ending hi

theorem same_of_follower (hc : s.caller id = some c) (hfollows : c.ticket.leads = false)
    {ending' : Option (Ending α ε)} (future : ℕ) (key : Str) (ending : Option (Ending α ε)) :
    c.ticket = ⟨future, true⟩ ∧ c.key = key ∧ ending' = ending ↔ s.Led future id key ending := by
  have hnot : c.ticket ≠ ⟨future, true⟩ := by
    intro hticket
    rw [hticket] at hfollows
    cases hfollows
  rw [led_iff hc]
  exact iff_of_false (fun h => hnot h.1) fun h => hnot h.1

theorem sound_joinRun (h : s.Sound) (hfree : s.caller id = none) {key : Str} {future : ℕ}
    (hlookup : s.flight.inflight.lookup key = some future) :
    (s.set id ⟨key, ⟨future, false⟩, false, none⟩).Sound := by
  obtain ⟨leader, hleader⟩ := (h.table key future).mp hlookup
  refine sound_setCaller h (fun future' key' ending => ⟨nofun, ?_⟩) ⟨leader, none, hleader⟩ nofun
  rintro ⟨c, hc, -⟩
  rw [hfree] at hc
  cases hc

def Callers.afterLead (s : Callers α ε) (id : ℕ) (key : Str) : Callers α ε :=
  Callers.set ⟨⟨s.flight.inflight.insert key s.flight.futures.length,
    s.flight.futures ++ [none]⟩, s.caller⟩ id
      ⟨key, ⟨s.flight.futures.length, true⟩, false, none⟩

section Lead

variable {key k : Str} {future i : ℕ} {ending : Option (Ending α ε)}

theorem not_led_of_free (hfree : s.caller id = none) : ¬ s.Led future id key ending := by
  rintro ⟨c, hc, -⟩
  rw [hfree] at hc
  cases hc

theorem led_afterLead_self :
    (s.afterLead id key).Led s.flight.futures.length id key none :=
  led_set_self.mpr ⟨rfl, rfl, rfl⟩

theorem led_afterLead_ne (hne : i ≠ id) :
    (s.afterLead id key).Led future i k ending ↔ s.Led future i k ending :=
  led_set_ne hne

theorem led_afterLead_cases (hled : (s.afterLead id key).Led future i k ending) :
    i = id ∧ future = s.flight.futures.length ∧ k = key ∧ ending = none ∨
      i ≠ id ∧ s.Led future i k ending := by
  by_cases hi : i = id
  · rw [hi] at hled
    obtain ⟨hticket, rfl, rfl⟩ := led_set_self.mp hled
    exact .inl ⟨hi, (congrArg Ticket.future hticket).symm, rfl, rfl⟩
  · exact .inr ⟨hi, (led_afterLead_ne hi).mp hled⟩

theorem ending_afterLead (future : ℕ) :
    (s.afterLead id key).flight.ending future = s.flight.ending future :=
  s.flight.ending_append_none future _

theorem table_afterLead (h : s.Sound) (hfree : s.caller id = none)
    (hlookup : s.flight.inflight.lookup key = none) :
    (s.afterLead id key).flight.inflight.lookup k = some future ↔
      ∃ i, (s.afterLead id key).Led future i k none := by
  have htable : (s.afterLead id key).flight.inflight =
    s.flight.inflight.insert key s.flight.futures.length := rfl
  rw [htable]
  by_cases hk : k = key
  · rw [hk, AList.lookup_insert, Option.some.injEq]
    constructor
    · rintro rfl
      exact ⟨id, led_afterLead_self⟩
    · rintro ⟨i, hled⟩
      rcases led_afterLead_cases hled with ⟨-, rfl, -⟩ | ⟨-, hold⟩
      · rfl
      · have hfound := (h.table key future).mpr ⟨i, hold⟩
        rw [hlookup] at hfound
        cases hfound
  · rw [AList.lookup_insert_ne hk, h.table]
    constructor
    · rintro ⟨i, hled⟩
      have hi : i ≠ id := fun hi => not_led_of_free hfree (hi ▸ hled)
      exact ⟨i, (led_afterLead_ne hi).mpr hled⟩
    · rintro ⟨i, hled⟩
      rcases led_afterLead_cases hled with ⟨-, -, hsame, -⟩ | ⟨-, hold⟩
      · exact absurd hsame hk
      · exact ⟨i, hold⟩

theorem sound_leadRun (h : s.Sound) (hfree : s.caller id = none)
    (hlookup : s.flight.inflight.lookup key = none) : (s.afterLead id key).Sound := by
  refine ⟨?_, ?_, ?_, fun _ _ => table_afterLead h hfree hlookup, ?_, ?_⟩
  · intro future i k ending hled
    have hlength : (s.afterLead id key).flight.futures.length = s.flight.futures.length + 1 :=
      List.length_append
    rw [hlength]
    rcases led_afterLead_cases hled with ⟨-, rfl, -⟩ | ⟨-, hold⟩
    · exact Nat.lt_succ_self _
    · exact (h.lt _ _ _ _ hold).trans (Nat.lt_succ_self _)
  · intro future i k ending i' k' ending' hled hled'
    rcases led_afterLead_cases hled with ⟨rfl, rfl, -⟩ | ⟨-, hold⟩
    · rcases led_afterLead_cases hled' with ⟨rfl, -⟩ | ⟨-, hold'⟩
      · rfl
      · exact absurd (h.lt _ _ _ _ hold') (Nat.lt_irrefl _)
    · rcases led_afterLead_cases hled' with ⟨-, rfl, -⟩ | ⟨-, hold'⟩
      · exact absurd (h.lt _ _ _ _ hold) (Nat.lt_irrefl _)
      · exact h.unique _ _ _ _ _ _ _ hold hold'
  · intro future i k ending hled
    rw [ending_afterLead]
    rcases led_afterLead_cases hled with ⟨-, rfl, -, rfl⟩ | ⟨-, hold⟩
    · rw [SingleFlight.ending, List.getElem?_eq_none le_rfl]
      rfl
    · exact h.leader _ _ _ _ hold
  · intro i c hi
    rw [Callers.afterLead, caller_set] at hi
    split at hi
    · cases hi
      exact ⟨id, none, led_afterLead_self⟩
    · obtain ⟨leader, ending, hled⟩ := h.joined i c hi
      have hne : leader ≠ id := fun hne => not_led_of_free hfree (hne ▸ hled)
      exact ⟨leader, ending, (led_afterLead_ne hne).mpr hled⟩
  · intro i c ending hi hcancelled hended
    rw [ending_afterLead]
    rw [Callers.afterLead, caller_set] at hi
    split at hi
    · cases hi
      cases hended
    · exact h.outcome i c ending hi hcancelled hended

end Lead

section Finish

variable {k : Str} {future i : ℕ} {ending : Ending α ε} {e : Option (Ending α ε)}

theorem led_afterFinish_self (hleads : c.ticket.leads = true) :
    (s.afterFinish id c ending).Led c.ticket.future id c.key (some ending) :=
  led_set_self.mpr ⟨hleads ▸ rfl, rfl, rfl⟩

theorem led_afterFinish_ne (hne : i ≠ id) :
    (s.afterFinish id c ending).Led future i k e ↔ s.Led future i k e :=
  led_set_ne hne

theorem led_of_running (hc : s.caller id = some c) (hleads : c.ticket.leads = true)
    (hrunning : c.ending = none) : s.Led c.ticket.future id c.key none :=
  (led_iff hc).mpr ⟨hleads ▸ rfl, rfl, hrunning⟩

theorem led_afterFinish_cases (h : s.Sound) (hrun : s.Led c.ticket.future id c.key none)
    (hled : (s.afterFinish id c ending).Led future i k e) :
    i = id ∧ future = c.ticket.future ∧ k = c.key ∧ e = some ending ∨
      i ≠ id ∧ future ≠ c.ticket.future ∧ s.Led future i k e := by
  by_cases hi : i = id
  · rw [hi] at hled
    obtain ⟨hsame, rfl, rfl⟩ := led_set_self.mp hled
    exact .inl ⟨hi, (congrArg Ticket.future hsame).symm, rfl, rfl⟩
  · have hold := (led_afterFinish_ne hi).mp hled
    exact .inr ⟨hi, fun hsame => hi (h.unique _ _ _ _ _ _ _ (hsame ▸ hold) hrun), hold⟩

theorem ending_afterFinish (h : s.Sound) (hrun : s.Led c.ticket.future id c.key none)
    (future : ℕ) : (s.afterFinish id c ending).flight.ending future =
      if future = c.ticket.future then some ending else s.flight.ending future :=
  s.flight.ending_settle c.key ending (h.leader _ _ _ _ hrun) (h.lt _ _ _ _ hrun) future

theorem table_afterFinish (h : s.Sound) (hc : s.caller id = some c)
    (hrun : s.Led c.ticket.future id c.key none) :
    (s.afterFinish id c ending).flight.inflight.lookup k = some future ↔
      ∃ i, (s.afterFinish id c ending).Led future i k none := by
  have htable : (s.afterFinish id c ending).flight.inflight = s.flight.inflight.erase c.key := rfl
  rw [htable]
  by_cases hk : k = c.key
  · rw [hk, AList.lookup_erase]
    refine iff_of_false nofun ?_
    rintro ⟨i, hled⟩
    rcases led_afterFinish_cases h hrun hled with ⟨-, -, -, hended⟩ | ⟨-, hne, hold⟩
    · cases hended
    · have hfound := (h.table c.key future).mpr ⟨i, hold⟩
      rw [(h.table c.key c.ticket.future).mpr ⟨id, hrun⟩] at hfound
      exact hne (Option.some.inj hfound).symm
  · rw [AList.lookup_erase_ne hk, h.table]
    constructor
    · rintro ⟨i, hled⟩
      have hi : i ≠ id := by
        rintro rfl
        exact hk ((led_iff hc).mp hled).2.1.symm
      exact ⟨i, (led_afterFinish_ne hi).mpr hled⟩
    · rintro ⟨i, hled⟩
      rcases led_afterFinish_cases h hrun hled with ⟨-, -, hsame, -⟩ | ⟨-, -, hold⟩
      · exact absurd hsame hk
      · exact ⟨i, hold⟩

/-- The end of an `fn` is the end of its future, and its key leaves the table. -/
theorem sound_endRun (h : s.Sound) (hc : s.caller id = some c)
    (hleads : c.ticket.leads = true) (hrunning : c.ending = none) (ending : Ending α ε) :
    (s.afterFinish id c ending).Sound := by
  have hrun := led_of_running hc hleads hrunning
  refine ⟨?_, ?_, ?_, fun _ _ => table_afterFinish h hc hrun, ?_, ?_⟩
  · intro future i k e hled
    have hlength : (s.afterFinish id c ending).flight.futures.length = s.flight.futures.length :=
      s.flight.length_settle _ _ _
    rw [hlength]
    rcases led_afterFinish_cases h hrun hled with ⟨-, rfl, -⟩ | ⟨-, -, hold⟩
    · exact h.lt _ _ _ _ hrun
    · exact h.lt _ _ _ _ hold
  · intro future i k e i' k' e' hled hled'
    rcases led_afterFinish_cases h hrun hled with ⟨rfl, rfl, -⟩ | ⟨-, hne, hold⟩
    · rcases led_afterFinish_cases h hrun hled' with ⟨rfl, -⟩ | ⟨-, hne', -⟩
      · rfl
      · exact absurd rfl hne'
    · rcases led_afterFinish_cases h hrun hled' with ⟨-, hsame, -⟩ | ⟨-, -, hold'⟩
      · exact absurd hsame hne
      · exact h.unique _ _ _ _ _ _ _ hold hold'
  · intro future i k e hled
    rw [ending_afterFinish h hrun]
    rcases led_afterFinish_cases h hrun hled with ⟨-, rfl, -, rfl⟩ | ⟨-, hne, hold⟩
    · exact if_pos rfl
    · rw [if_neg hne]
      exact h.leader _ _ _ _ hold
  · intro i c' hi
    rw [Callers.afterFinish, caller_set] at hi
    split at hi
    · cases hi
      exact ⟨id, some ending, led_afterFinish_self hleads⟩
    · obtain ⟨leader, e, hled⟩ := h.joined i c' hi
      by_cases hleader : leader = id
      · obtain ⟨hsame, hkey, -⟩ := (led_iff hc).mp (hleader ▸ hled)
        exact ⟨id, some ending, led_set_self.mpr ⟨hsame, hkey, rfl⟩⟩
      · exact ⟨leader, e, (led_afterFinish_ne hleader).mpr hled⟩
  · intro i c' e hi hcancelled hended
    rw [ending_afterFinish h hrun]
    rw [Callers.afterFinish, caller_set] at hi
    split at hi
    · cases hi
      rw [if_pos rfl]
      exact hended
    · have hold := h.outcome i c' e hi hcancelled hended
      rw [if_neg, hold]
      intro hsame
      rw [hsame, h.leader _ _ _ _ hrun] at hold
      cases hold

end Finish

theorem callers_sound_init (h : (callerSystem α ε).init s) : s.Sound := by
  obtain ⟨hflight, hcaller⟩ := h
  have hnot : ∀ i c, s.caller i ≠ some c := fun i c hi => by
    rw [hcaller] at hi
    cases hi
  have hnotled : ∀ future i key ending, ¬ s.Led future i key ending :=
    fun future i key ending ⟨c, hc, _⟩ => hnot i c hc
  refine ⟨?_, ?_, ?_, ?_, ?_, ?_⟩
  · exact fun _ _ _ _ hled => absurd hled (hnotled _ _ _ _)
  · exact fun _ _ _ _ _ _ _ hled => absurd hled (hnotled _ _ _ _)
  · exact fun _ _ _ _ hled => absurd hled (hnotled _ _ _ _)
  · intro key future
    rw [hflight]
    refine iff_of_false ?_ fun ⟨i, hled⟩ => hnotled _ _ _ _ hled
    rw [SingleFlight.empty, AList.lookup_empty]
    exact nofun
  · exact fun i c hi => absurd hi (hnot i c)
  · exact fun i c _ hi => absurd hi (hnot i c)

theorem callers_sound_step {a : CallerStep α ε} (h : s.Sound)
    (hstep : (callerSystem α ε).step s a s') : s'.Sound := by
  cases a with
  | call id key =>
      obtain ⟨hfree, rfl⟩ := hstep
      unfold Callers.afterCall
      cases hlookup : s.flight.inflight.lookup key with
      | some future =>
          rw [s.flight.begin_of_lookup hlookup]
          exact sound_joinRun h hfree hlookup
      | none =>
          rw [s.flight.begin_of_none hlookup]
          exact sound_leadRun h hfree hlookup
  | finish id ending =>
      obtain ⟨c, hc, hleads, hrunning, rfl⟩ := hstep
      exact sound_endRun h hc hleads hrunning ending
  | resume id =>
      obtain ⟨c, ending, hc, hfollows, -, -, hended, rfl⟩ := hstep
      exact sound_setCaller h (same_of_follower hc hfollows) (h.joined id c hc) fun _ _ hsame =>
        hended.trans hsame
  | cancel id =>
      obtain ⟨c, hc, -, rfl⟩ := hstep
      exact sound_setCaller h (fun _ _ _ => (led_iff hc).symm) (h.joined id c hc) nofun
  | unwind id =>
      obtain ⟨c, hc, hfollows, -, hcancelled, rfl⟩ := hstep
      refine sound_setCaller h (same_of_follower hc hfollows) (h.joined id c hc) fun _ hnot => ?_
      exact absurd (hcancelled.symm.trans hnot) (by simp)

theorem sound_callers {ok : Callers α ε → CallerStep α ε → Prop} {trace : List (CallerStep α ε)}
    (hrun : Reaches (callerSystem α ε) ok trace s) : s.Sound :=
  hrun.invariant (fun _ => callers_sound_init) fun _ _ _ hsound _ hstep =>
    callers_sound_step hsound hstep

end Invariant

/-! ### One run of a key at a time -/

section Collapse

variable {α ε : Type} {s : Callers α ε}

/-- Calls of one key that overlap share a run, and no key outlives its run. -/
structure Callers.Collapsed (s : Callers α ε) : Prop where
  /-- At most one `fn` of a key is running. -/
  one : ∀ key future i future' i', s.Led future i key none → s.Led future' i' key none →
    i = i' ∧ future = future'
  table : ∀ key, key ∈ s.flight.inflight ↔ ∃ future i, s.Led future i key none
  /-- A caller meets the run in progress, or starts one that never was before. -/
  joins : ∀ i key s' future leader, (callerSystem α ε).step s (.call i key) s' →
    s.Led future leader key none →
      s'.flight = s.flight ∧ ∃ c, s'.caller i = some c ∧ c.ticket = ⟨future, false⟩
  starts : ∀ i key s', (callerSystem α ε).step s (.call i key) s' →
    (∀ future leader, ¬ s.Led future leader key none) →
      ∃ future, s'.Led future i key none ∧ ∀ leader key' ending, ¬ s.Led future leader key' ending
  /-- The ending of a caller that is not cancelled is that of the run it joined. -/
  outcome : ∀ i c, s.caller i = some c → c.cancelled = false →
    ∃ leader ending, s.Led c.ticket.future leader c.key ending ∧
      ∀ e, c.ending = some e → ending = some e
  /-- Once the run has ended nothing keeps such a caller from its ending. -/
  resumes : ∀ i c leader e, s.caller i = some c → c.ticket.leads = false → c.cancelled = false →
    c.ending = none → s.Led c.ticket.future leader c.key (some e) →
      (callerSystem α ε).step s (.resume i) (s.set i { c with ending := some e })
  removed : ∀ i c ending s', s.caller i = some c → (callerSystem α ε).step s (.finish i ending) s' →
    c.key ∉ s'.flight.inflight

theorem Callers.Sound.one (h : s.Sound) {key : Str} {future i future' i' : ℕ}
    (hled : s.Led future i key none) (hled' : s.Led future' i' key none) :
    i = i' ∧ future = future' := by
  have hfound := (h.table key future).mpr ⟨i, hled⟩
  rw [(h.table key future').mpr ⟨i', hled'⟩, Option.some.injEq] at hfound
  subst hfound
  exact ⟨h.unique _ _ _ _ _ _ _ hled hled', rfl⟩

theorem Callers.Sound.mem_inflight (h : s.Sound) (key : Str) :
    key ∈ s.flight.inflight ↔ ∃ future i, s.Led future i key none := by
  rw [← AList.lookup_isSome, Option.isSome_iff_exists]
  exact exists_congr fun future => h.table key future

theorem Callers.Sound.starts (h : s.Sound) {i : ℕ} {key : Str} {s' : Callers α ε}
    (hstep : (callerSystem α ε).step s (.call i key) s')
    (hidle : ∀ future leader, ¬ s.Led future leader key none) :
    ∃ future, s'.Led future i key none ∧
      ∀ leader key' ending, ¬ s.Led future leader key' ending := by
  obtain ⟨-, rfl⟩ := hstep
  have hlookup : s.flight.inflight.lookup key = none := by
    rw [AList.lookup_eq_none, h.mem_inflight]
    exact fun ⟨future, leader, hled⟩ => hidle future leader hled
  refine ⟨s.flight.futures.length, ?_, fun leader key' ending hled =>
    Nat.lt_irrefl _ (h.lt _ _ _ _ hled)⟩
  unfold Callers.afterCall
  rw [s.flight.begin_of_none hlookup, led_set_self]
  exact ⟨rfl, rfl, rfl⟩

/-- In every run of any number of callers the calls collapse. -/
theorem calls_collapse {trace : List (CallerStep α ε)}
    (hrun : Reaches (callerSystem α ε) anyStep trace s) : s.Collapsed := by
  have h := sound_callers hrun
  refine ⟨?_, h.mem_inflight, ?_, fun _ _ _ => h.starts, ?_, ?_, ?_⟩
  · exact fun _ _ _ _ _ hled hled' => h.one hled hled'
  · rintro i key s' future leader ⟨-, rfl⟩ hled
    have hlookup := (h.table key future).mpr ⟨leader, hled⟩
    unfold Callers.afterCall
    rw [s.flight.begin_of_lookup hlookup]
    exact ⟨rfl, _, (caller_set i).trans (if_pos rfl), rfl⟩
  · intro i c hc hcancelled
    obtain ⟨leader, ending, hled⟩ := h.joined i c hc
    refine ⟨leader, ending, hled, fun e hended => ?_⟩
    rw [← h.leader _ _ _ _ hled]
    exact h.outcome i c e hc hcancelled hended
  · intro i c leader e hc hfollows hcancelled hwaits hled
    exact ⟨c, e, hc, hfollows, hwaits, hcancelled, h.leader _ _ _ _ hled, rfl⟩
  · rintro i c ending s' hc ⟨c', hc', -, -, rfl⟩
    obtain rfl := Option.some.inj (hc.symm.trans hc')
    exact fun hmem => (AList.mem_erase.mp hmem).1 rfl

end Collapse

/-! ### Cancelled callers -/

section Cancel

variable {α ε : Type} {s s' : Callers α ε}

/-- An `fn` raises `CancelledError` only where its caller has been cancelled. -/
def CancelledByCaller (s : Callers α ε) : CallerStep α ε → Prop
  | .finish id .cancelled => ∀ c, s.caller id = some c → c.cancelled = true
  | _ => True

/-- A run ends with `CancelledError` only when everyone it is for has been cancelled. -/
def AllCancelled (s : Callers α ε) : CallerStep α ε → Prop
  | .finish id .cancelled =>
      ∀ c, s.caller id = some c → ∀ other c', s.caller other = some c' →
        c'.ticket.future = c.ticket.future → c'.cancelled = true
  | _ => True

/-- A caller that is not itself cancelled ends as an `fn` of its key does, and not with a
`CancelledError`. -/
def Callers.Independent (s : Callers α ε) : Prop :=
  ∀ i c, s.caller i = some c → c.cancelled = false → ∀ e, c.ending = some e →
    e ≠ .cancelled ∧ ∃ future leader, s.Led future leader c.key (some e)

/-- No future that has ended with `CancelledError` is one of a caller that is not cancelled. -/
def Callers.NoneDue (s : Callers α ε) : Prop :=
  ∀ i c, s.caller i = some c → c.cancelled = false →
    s.flight.ending c.ticket.future ≠ some .cancelled

theorem independent_of_noneDue (h : s.Sound) (hdue : s.NoneDue) : s.Independent := by
  intro i c hc hcancelled e hended
  have houtcome := h.outcome i c e hc hcancelled hended
  obtain ⟨leader, ending, hled⟩ := h.joined i c hc
  refine ⟨?_, c.ticket.future, leader, ?_⟩
  · rintro rfl
    exact hdue i c hc hcancelled houtcome
  · rw [← h.leader _ _ _ _ hled, houtcome] at hled
    exact hled

theorem noneDue_set {id : ℕ} {c : Caller α ε} (hdue : s.NoneDue)
    (hc : c.cancelled = false → s.flight.ending c.ticket.future ≠ some .cancelled) :
    (s.set id c).NoneDue := by
  intro i c' hi hcancelled
  rw [caller_set] at hi
  split at hi
  · cases hi
    exact hc hcancelled
  · exact hdue i c' hi hcancelled

theorem noneDue_afterCall (h : s.Sound) (hdue : s.NoneDue) (id : ℕ) (key : Str) :
    (s.afterCall id key).NoneDue := by
  unfold Callers.afterCall
  cases hlookup : s.flight.inflight.lookup key with
  | some future =>
      rw [s.flight.begin_of_lookup hlookup]
      refine noneDue_set hdue fun _ => ?_
      obtain ⟨leader, hled⟩ := (h.table key future).mp hlookup
      rw [h.leader _ _ _ _ hled]
      exact nofun
  | none =>
      rw [s.flight.begin_of_none hlookup]
      refine noneDue_set (fun i c hc hcancelled => ?_) fun _ => ?_
      · rw [SingleFlight.ending_append_none]
        exact hdue i c hc hcancelled
      · rw [SingleFlight.ending_append_none, SingleFlight.ending, List.getElem?_eq_none le_rfl]
        exact nofun

theorem noneDue_afterFinish {id : ℕ} {c : Caller α ε} {ending : Ending α ε} (h : s.Sound)
    (hdue : s.NoneDue) (hc : s.caller id = some c) (hleads : c.ticket.leads = true)
    (hrunning : c.ending = none) (hall : AllCancelled s (.finish id ending)) :
    (s.afterFinish id c ending).NoneDue := by
  have hrun : s.Led c.ticket.future id c.key none := (led_iff hc).mpr ⟨hleads ▸ rfl, rfl, hrunning⟩
  have hending := s.flight.ending_settle c.key ending (h.leader _ _ _ _ hrun)
    (h.lt _ _ _ _ hrun)
  -- Whoever is on this future has been cancelled if it ends that way.
  have hsame : ∀ i c', s.caller i = some c' → c'.cancelled = false →
      c'.ticket.future = c.ticket.future → ending ≠ .cancelled := by
    rintro i c' hi hcancelled hfuture rfl
    exact absurd ((hall c hc i c' hi hfuture).symm.trans hcancelled) (by simp)
  have hothers : Callers.NoneDue ⟨s.flight.settle c.key c.ticket.future ending, s.caller⟩ := by
    intro i c' hi hcancelled
    rw [hending]
    split
    · rename_i hfuture
      exact fun hended => hsame i c' hi hcancelled hfuture (Option.some.inj hended)
    · exact hdue i c' hi hcancelled
  exact noneDue_set hothers fun hcancelled => hothers id c hc hcancelled

theorem noneDue_step {a : CallerStep α ε} (h : s.Sound) (hdue : s.NoneDue)
    (hall : AllCancelled s a) (hstep : (callerSystem α ε).step s a s') : s'.NoneDue := by
  cases a with
  | call id key =>
      obtain ⟨-, rfl⟩ := hstep
      exact noneDue_afterCall h hdue id key
  | finish id ending =>
      obtain ⟨c, hc, hleads, hrunning, rfl⟩ := hstep
      exact noneDue_afterFinish h hdue hc hleads hrunning hall
  | resume id =>
      obtain ⟨c, ending, hc, -, -, -, -, rfl⟩ := hstep
      exact noneDue_set hdue (hdue id c hc)
  | cancel id =>
      obtain ⟨c, -, -, rfl⟩ := hstep
      exact noneDue_set hdue nofun
  | unwind id =>
      obtain ⟨c, hc, -, -, -, rfl⟩ := hstep
      exact noneDue_set hdue (hdue id c hc)

/-- The callers of a key are independent of each other's cancellation as long as no run ends
with `CancelledError` over a caller that has not been cancelled. -/
theorem callers_independent {trace : List (CallerStep α ε)}
    (hrun : Reaches (callerSystem α ε) AllCancelled trace s) : s.Independent := by
  have hinv : s.Sound ∧ s.NoneDue := by
    refine hrun.invariant (I := fun s => s.Sound ∧ s.NoneDue) (fun s hs => ?_) ?_
    · refine ⟨callers_sound_init hs, fun i c hc => ?_⟩
      rw [hs.2 i] at hc
      cases hc
    · exact fun _ _ _ hinv hall hstep =>
        ⟨callers_sound_step hinv.1 hstep, noneDue_step hinv.1 hinv.2 hall hstep⟩
  exact independent_of_noneDue hinv.1 hinv.2

end Cancel

section FlightSample

def twoCallers : Callers Payload Fault :=
  (Callers.afterCall ⟨.empty, fun _ => none⟩ 0 "4:evil.com").afterCall 1 "4:evil.com"

def leadingCaller : Caller Payload Fault := ⟨"4:evil.com", ⟨0, true⟩, false, none⟩

def waitingCaller : Caller Payload Fault := ⟨"4:evil.com", ⟨0, false⟩, false, none⟩

theorem caller_twoCallers : twoCallers.caller 0 = some leadingCaller ∧
    twoCallers.caller 1 = some waitingCaller := ⟨rfl, rfl⟩

theorem reaches_twoCallers (ok : Callers Payload Fault → CallerStep Payload Fault → Prop)
    (hok : ∀ s id key, ok s (.call id key)) :
    ∃ trace, Reaches (callerSystem Payload Fault) ok trace twoCallers := by
  have hinit : (callerSystem Payload Fault).init ⟨.empty, fun _ => none⟩ := ⟨rfl, fun _ => rfl⟩
  exact ⟨_, ((Reaches.init hinit).step (hok _ 0 "4:evil.com") ⟨rfl, rfl⟩).step
    (hok _ 1 "4:evil.com") ⟨rfl, rfl⟩⟩

/-- The run ends with a miss, and both callers with it. -/
theorem calls_collapse_miss : ∃ trace s,
    Reaches (callerSystem Payload Fault) anyStep trace s ∧
      (s.caller 1).bind Caller.ending = some (.result miss) ∧ s.Collapsed := by
  obtain ⟨trace, hrun⟩ := reaches_twoCallers anyStep fun _ _ _ => trivial
  have hended := hrun.step trivial (show (callerSystem _ _).step _ (.finish 0 (.result miss)) _ from
    ⟨leadingCaller, caller_twoCallers.1, rfl, rfl, rfl⟩)
  have hresumed := hended.step trivial (show (callerSystem _ _).step _ (.resume 1) _ from
    ⟨waitingCaller, .result miss, caller_twoCallers.2, rfl, rfl, rfl, rfl, rfl⟩)
  exact ⟨_, _, hresumed, rfl, calls_collapse hresumed⟩

/-- The caller that waits is cancelled, and the one that runs is not affected. -/
theorem callers_independent_of_waiter : ∃ trace s,
    Reaches (callerSystem Payload Fault) AllCancelled trace s ∧
      (s.caller 0).bind Caller.ending = some (.result miss) ∧
      (s.caller 1).bind Caller.ending = some .cancelled ∧ s.Independent := by
  obtain ⟨trace, hrun⟩ := reaches_twoCallers AllCancelled fun _ _ _ => trivial
  have hcancelled := hrun.step (show AllCancelled _ (.cancel 1) from trivial)
    ⟨waitingCaller, caller_twoCallers.2, rfl, rfl⟩
  have hunwound := hcancelled.step (show AllCancelled _ (.unwind 1) from trivial)
    ⟨{ waitingCaller with cancelled := true }, rfl, rfl, rfl, rfl, rfl⟩
  have hended := hunwound.step (show AllCancelled _ (.finish 0 (.result miss)) from trivial)
    ⟨leadingCaller, rfl, rfl, rfl, rfl⟩
  exact ⟨_, _, hended, rfl, rfl, callers_independent hended⟩

/-- The caller that runs is cancelled, and the one that waits gets its `CancelledError`. -/
theorem waiter_fails_with_leader :
    ¬ ∀ (trace : List (CallerStep Payload Fault)) (s : Callers Payload Fault),
      Reaches (callerSystem Payload Fault) CancelledByCaller trace s → s.Independent := by
  intro hall
  obtain ⟨trace, hrun⟩ := reaches_twoCallers CancelledByCaller fun _ _ _ => trivial
  have hcancelled := hrun.step (show CancelledByCaller _ (.cancel 0) from trivial)
    ⟨leadingCaller, caller_twoCallers.1, rfl, rfl⟩
  have hbyCaller : CancelledByCaller (twoCallers.set 0 { leadingCaller with cancelled := true })
      (.finish 0 .cancelled) := by
    intro c hc
    cases hc
    rfl
  have hended := hcancelled.step hbyCaller
    ⟨{ leadingCaller with cancelled := true }, rfl, rfl, rfl, rfl⟩
  have hresumed := hended.step (show CancelledByCaller _ (.resume 1) from trivial)
    ⟨waitingCaller, .cancelled, rfl, rfl, rfl, rfl, rfl, rfl⟩
  exact (hall _ _ hresumed 1 _ rfl rfl .cancelled rfl).1 rfl

end FlightSample

end OpenctiLookup
