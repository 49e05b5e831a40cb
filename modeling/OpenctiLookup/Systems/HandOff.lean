import OpenctiLookup.Systems.Recovery

/-! A worker's start, from the first bootstrap page to its stream, while
indicators are being created upstream. The first connection sends no cursor, so
the stream delivers only what comes after it: an indicator created before it is
in the served set exactly when one of the pages had its values. -/
namespace OpenctiLookup
open Python Theory

inductive StartPhase where
  /-- In the page loop, with the keys gathered so far. -/
  | reading (values : List Str)
  | loaded (values : List Str)
  /-- Swapped in, the stream not connected yet. -/
  | serving (worker : Worker)
  /-- Connected, with the events delivered and not yet handled. -/
  | connected (consumer : StreamConsumer) (worker : Worker) (inbox : List Change)

/-- A starting worker and the corpus it reads. -/
structure Starting where
  /-- The indicators created before the connection. -/
  created : List StixObject
  /-- The corpus ahead of the page cursor, and on the pages read so far. -/
  unread : List Str
  read : List Str
  phase : StartPhase

inductive StartStep where
  /-- An indicator is created; OpenCTI decides which of its values the cursor has
  still to come to. -/
  | create (change : Change) (unread : List Str)
  | page (data : Json)
  | swap (name : Option Str) (segments : Segments) (role : Role) (generation : ℕ)
      (live : LiveBackend)
  | connect
  | handle (now : ℚ)

def PageOutcome.phase : PageOutcome → StartPhase
  | .done values _ => .loaded values
  | .more values _ => .reading values

namespace Starting

variable (s : Starting)

def afterCreate (change : Change) (unread : List Str) : Starting :=
  match s.phase with
  | .connected consumer worker inbox =>
      { s with phase := .connected consumer worker (inbox ++ [change]) }
  | _ => { s with created := change.object :: s.created, unread := unread }

def afterPage (texts rest : List Str) (outcome : PageOutcome) : Starting :=
  { s with unread := rest, read := s.read ++ texts, phase := outcome.phase }

end Starting

variable (rt : Runtime) (settings : Settings) (budgetBytes : ℕ)

def startSystem : System Starting StartStep where
  init s :=
    s.phase = .reading [] ∧ s.read = [] ∧
      ∀ object ∈ s.created, ∀ raw ∈ object.rawValues, raw ≠ [] → raw ∈ s.unread
  step s a s' :=
    match a with
    | .create change unread =>
        change.kind = .create ∧ s.unread.Sublist unread ∧
          (∀ raw ∈ unread, raw ∈ s.unread ∨ raw ∈ change.object.rawValues) ∧
          s' = s.afterCreate change unread
    | .page data =>
        ∃ values texts next rest outcome, s.phase = .reading values ∧
          pageTexts settings data = .ok (texts, next) ∧ s.unread = texts ++ rest ∧
          (next = none → rest = []) ∧
          readPage rt settings (maxEntriesOf budgetBytes) data values = .ok outcome ∧
          s' = s.afterPage texts rest outcome
    | .swap name segments role generation live =>
        ∃ values set segments', s.phase = .loaded values ∧
          MembershipSet.build rt values name settings.membershipOverlayMax
            (maxEntriesOf budgetBytes)
            segments = .ok (set, segments') ∧
          s' = { s with phase := .serving (Worker.activate ⟨some set, role, generation⟩ live) }
    | .connect => ∃ worker, s.phase = .serving worker ∧
        s' = { s with phase := .connected {} worker [] }
    | .handle now =>
        ∃ consumer worker change rest, s.phase = .connected consumer worker (change :: rest) ∧
          (({ change with now := now } : Change).handled rt settings consumer worker).fault = none ∧
          s' = { s with
            phase := .connected
              (({ change with now := now } : Change).handled rt settings consumer worker).consumer
              (({ change with now := now } : Change).handled rt settings consumer
                worker).target rest }

/-- Once connected and past every event delivered, the set has every value of
the indicators created before. -/
def HandedOver (s : Starting) : Prop :=
  ∀ consumer worker, s.phase = .connected consumer worker [] →
    ∀ object ∈ s.created, ∀ key ∈ object.keys rt settings, worker.membership.contains rt key = true

/-- When the stream connects, the pages read have had every value of the
indicators there are, before the entry ceiling. -/
def AllRead (s : Starting) (a : StartStep) : Prop :=
  a = .connect → ∀ object ∈ s.created, ∀ key ∈ object.keys rt settings,
    Loaded rt settings budgetBytes s.read (fingerprint rt key)

section Invariant

variable {rt settings budgetBytes} {s s' : Starting}

/-- What the page loop, the set and the stream have to do with the pages read. -/
def StartPhase.Sound (rt : Runtime) (settings : Settings) (budgetBytes : ℕ) (read : List Str) :
    StartPhase → Prop
  | .reading values => gather rt settings (maxEntriesOf budgetBytes) read [] = .ok (values, false)
  | .loaded values => ∃ full, gather rt settings (maxEntriesOf budgetBytes) read [] =
      .ok (values, full)
  | .serving worker =>
      worker.membership.Ok ∧ ∀ value, worker.membership.contains rt value = true ↔
        Loaded rt settings budgetBytes read (fingerprint rt value)
  | .connected _ worker inbox =>
      worker.membership.Ok ∧ (∀ value, Loaded rt settings budgetBytes read (fingerprint rt value) →
        worker.membership.contains rt value = true) ∧ ∀ change ∈ inbox, change.kind = .create

theorem sound_afterCreate {change : Change} {unread : List Str} (hkind : change.kind = .create)
    (h : s.phase.Sound rt settings budgetBytes s.read) :
    (s.afterCreate change unread).phase.Sound rt settings budgetBytes
      (s.afterCreate change unread).read := by
  unfold Starting.afterCreate
  cases hphase : s.phase with
  | reading values =>
      rw [hphase] at h
      simpa only [hphase] using h
  | loaded values =>
      rw [hphase] at h
      simpa only [hphase] using h
  | serving worker =>
      rw [hphase] at h
      simpa only [hphase] using h
  | connected consumer worker inbox =>
      rw [hphase] at h
      obtain ⟨hok, hloaded, hinbox⟩ := h
      refine ⟨hok, hloaded, fun other hother => ?_⟩
      rcases List.mem_append.mp hother with hold | hlast
      · exact hinbox other hold
      · rw [List.mem_singleton.mp hlast]
        exact hkind

theorem gather_next_page {read values : List Str}
    (h : gather rt settings (maxEntriesOf budgetBytes) read [] = .ok (values, false))
    (texts : List Str) :
    gather rt settings (maxEntriesOf budgetBytes) (read ++ texts) [] =
      gather rt settings (maxEntriesOf budgetBytes) texts values := by
  rw [gather_append, h, ok_bind]
  rfl

theorem sound_afterPage {values texts rest : List Str} {data : Json} {next : Option Json}
    {outcome : PageOutcome} (hphase : s.phase = .reading values)
    (h : s.phase.Sound rt settings budgetBytes s.read)
    (htexts : pageTexts settings data = .ok (texts, next))
    (hpage : readPage rt settings (maxEntriesOf budgetBytes) data values = .ok outcome) :
    (s.afterPage texts rest outcome).phase.Sound rt settings budgetBytes (s.read ++ texts) := by
  rw [hphase] at h
  rw [readPage_of_pageTexts htexts] at hpage
  obtain ⟨⟨gathered, full⟩, hgathered, hpage⟩ := bind_eq_ok_iff.mp hpage
  rw [← gather_next_page h texts] at hgathered
  cases full with
  | true =>
      cases hpage
      exact ⟨true, hgathered⟩
  | false =>
      cases next with
      | none =>
          cases hpage
          exact ⟨false, hgathered⟩
      | some cursor =>
          cases hpage
          exact hgathered

/-- The set a worker swaps in has the keys of the pages read, up to the entry
ceiling. -/
theorem sound_swap {values : List Str} {full : Bool}
    (h : gather rt settings (maxEntriesOf budgetBytes) s.read [] = .ok (values, full))
    {name : Option Str} {segments segments' : Segments} {set : MembershipSet}
    (hbuild : MembershipSet.build rt values name settings.membershipOverlayMax
      (maxEntriesOf budgetBytes)
      segments = .ok (set, segments')) (role : Role) (generation : ℕ) (live : LiveBackend) :
    (StartPhase.serving (Worker.activate ⟨some set, role, generation⟩ live)).Sound rt settings
      budgetBytes s.read := by
  obtain ⟨hok, hfresh, hpacked, -⟩ := MembershipSet.build_spec hbuild
  have hempty := MembershipSet.follows_fresh MembershipSet.ok_empty ⟨rfl, rfl⟩
  have hfollows := MembershipSet.follows_adoptOverlay hok hfresh hempty
  have hvalues := gather_eq_ok h fun _ => maxEntriesOf_pos
  rw [List.nil_append, List.length_nil] at hvalues
  refine ⟨hfollows.1, fun value => (MembershipSet.contains_of_follows hfollows value).trans ?_⟩
  change fingerprint rt value ∈ set.packed ↔ _
  rw [hpacked, MembershipSet.mem_packedArray, hvalues, MembershipSet.seenValues_seenValues]
  exact Iff.rfl

theorem contains_handled_create {change : Change} {consumer : StreamConsumer} {worker : Worker}
    (hkind : change.kind = .create) (hok : worker.membership.Ok)
    (hfault : (change.handled rt settings consumer worker).fault = none) {value : Str}
    (h : worker.membership.contains rt value = true) :
    (change.handled rt settings consumer worker).target.membership.contains rt value = true := by
  rw [target_handled _ _ _ hfault, Worker.membership_changed, hkind]
  by_cases hwritten : ∃ key ∈ change.keys rt settings, fingerprint rt key = fingerprint rt value
  · exact MembershipSet.contains_writeAll_of_mem hok true _ hwritten
  · push Not at hwritten
    exact (MembershipSet.contains_writeAll_of_not_mem hok true _ hwritten).trans h

theorem ok_handled {change : Change} {consumer : StreamConsumer} {worker : Worker}
    (hok : worker.membership.Ok) (hfault : (change.handled rt settings consumer
      worker).fault = none) :
    (change.handled rt settings consumer worker).target.membership.Ok := by
  rw [target_handled _ _ _ hfault, Worker.membership_changed]
  exact MembershipSet.ok_writeAll hok _ _

theorem sound_start_init (h : (startSystem rt settings budgetBytes).init s) :
    s.phase.Sound rt settings budgetBytes s.read := by
  rw [h.1, h.2.1]
  exact rfl

theorem sound_start_step {a : StartStep} (h : s.phase.Sound rt settings budgetBytes s.read)
    (hstep : (startSystem rt settings budgetBytes).step s a s') :
    s'.phase.Sound rt settings budgetBytes s'.read := by
  cases a with
  | create change unread =>
      obtain ⟨hkind, -, -, rfl⟩ := hstep
      exact sound_afterCreate hkind h
  | page data =>
      obtain ⟨values, texts, next, rest, outcome, hphase, htexts, -, -, hpage, rfl⟩ := hstep
      exact sound_afterPage hphase h htexts hpage
  | swap name segments role generation live =>
      obtain ⟨values, set, segments', hphase, hbuild, rfl⟩ := hstep
      rw [hphase] at h
      obtain ⟨full, hgathered⟩ := h
      exact sound_swap hgathered hbuild role generation live
  | connect =>
      obtain ⟨worker, hphase, rfl⟩ := hstep
      rw [hphase] at h
      exact ⟨h.1, fun value => (h.2 value).mpr, by simp⟩
  | handle now =>
      obtain ⟨consumer, worker, change, rest, hphase, hfault, rfl⟩ := hstep
      rw [hphase] at h
      obtain ⟨hok, hloaded, hinbox⟩ := h
      have hkind : ({ change with now := now } : Change).kind = .create :=
        hinbox change List.mem_cons_self
      generalize ({ change with now := now } : Change) = received at hfault hkind ⊢
      exact ⟨ok_handled hok hfault,
        fun value hvalue => contains_handled_create hkind hok hfault (hloaded value hvalue),
        fun other hother => hinbox other (List.mem_cons_of_mem _ hother)⟩

/-- Before the connection nothing is promised, and from it on the pages read have
had every value promised. -/
def AllReadSince (rt : Runtime) (settings : Settings) (budgetBytes : ℕ) (s : Starting) : Prop :=
  ∀ consumer worker inbox, s.phase = .connected consumer worker inbox → ∀ object ∈ s.created,
    ∀ key ∈ object.keys rt settings, Loaded rt settings budgetBytes s.read (fingerprint rt key)

theorem handedOver_of_allReadSince (h : s.phase.Sound rt settings budgetBytes s.read)
    (hread : AllReadSince rt settings budgetBytes s) : HandedOver rt settings s := by
  intro consumer worker hphase object hobject key hkey
  have hloaded := hread consumer worker [] hphase object hobject key hkey
  rw [hphase] at h
  exact h.2.1 key hloaded

theorem allReadSince_step {a : StartStep} (h : AllReadSince rt settings budgetBytes s)
    (hread : AllRead rt settings budgetBytes s a)
    (hstep : (startSystem rt settings budgetBytes).step s a s') :
    AllReadSince rt settings budgetBytes s' := by
  cases a with
  | create change unread =>
      obtain ⟨-, -, -, rfl⟩ := hstep
      intro consumer worker inbox hconnected
      unfold Starting.afterCreate at hconnected ⊢
      cases hphase : s.phase with
      | connected consumer worker inbox =>
          rw [hphase] at hconnected
          exact h consumer worker inbox hphase
      | reading values => simp [hphase] at hconnected
      | loaded values => simp [hphase] at hconnected
      | serving worker => simp [hphase] at hconnected
  | page data =>
      obtain ⟨values, texts, next, rest, outcome, -, -, -, -, -, rfl⟩ := hstep
      intro consumer worker inbox hconnected
      cases outcome <;> cases hconnected
  | swap name segments role generation live =>
      obtain ⟨values, set, segments', -, -, rfl⟩ := hstep
      intro consumer worker inbox hconnected
      cases hconnected
  | connect =>
      obtain ⟨worker, -, rfl⟩ := hstep
      exact fun _ _ _ _ => hread rfl
  | handle now =>
      obtain ⟨consumer, worker, change, rest, hphase, -, rfl⟩ := hstep
      exact fun _ _ _ _ => h consumer worker _ hphase

theorem allRead_of_handedOver {a : StartStep} (h : s.phase.Sound rt settings budgetBytes s.read)
    (hstep : (startSystem rt settings budgetBytes).step s a s')
    (hclaim : HandedOver rt settings s') :
    AllRead rt settings budgetBytes s a := by
  rintro rfl object hobject key hkey
  obtain ⟨worker, hphase, rfl⟩ := hstep
  rw [hphase] at h
  exact (h.2 key).mp (hclaim {} worker rfl object hobject key hkey)

end Invariant

/-- The runs that hand every indicator created before the connection over to the
stream are those that connect when the pages read have had all their values. -/
theorem handed_over_iff {trace : List StartStep} {s : Starting} :
    Reaches (startSystem rt settings budgetBytes)
        (fun s a => ∀ s', (startSystem rt settings budgetBytes).step s a s' →
          HandedOver rt settings s')
        trace s ↔
      Reaches (startSystem rt settings budgetBytes) (AllRead rt settings budgetBytes) trace s := by
  constructor
  · intro hrun
    refine hrun.weaken (I := fun s => s.phase.Sound rt settings budgetBytes s.read)
      (fun _ => sound_start_init) ?_ ?_
    · exact fun _ _ _ hsound _ hstep => sound_start_step hsound hstep
    · exact fun _ _ s' hsound hstep hclaim => allRead_of_handedOver hsound hstep (hclaim s' hstep)
  · intro hrun
    refine hrun.weaken (I := fun s => s.phase.Sound rt settings budgetBytes s.read ∧
      AllReadSince rt settings budgetBytes s) (fun s hs => ⟨sound_start_init hs, ?_⟩) ?_ ?_
    · intro consumer worker inbox hconnected
      rw [hs.1] at hconnected
      cases hconnected
    · exact fun _ _ _ hinv hread hstep =>
        ⟨sound_start_step hinv.1 hstep, allReadSince_step hinv.2 hread hstep⟩
    · exact fun _ _ _ hinv hstep hread s' hstep' => handedOver_of_allReadSince
        (sound_start_step hinv.1 hstep') (allReadSince_step hinv.2 hread hstep')

section GapSample

def emptyPage : Json :=
  .obj [("stixCyberObservables",
    .obj [("pageInfo", .obj [("hasNextPage", .bool false)]), ("edges", .arr [])])]

def emptyStart : Starting := ⟨[], [], [], .reading []⟩

def emptyWorker : Worker :=
  Worker.activate ⟨some (MembershipSet.init none 0 true 50000), .builder, 1⟩
    ⟨PayloadCache.init 1048576 1024 86400 900⟩

/-- An indicator created between the last page and the connection is in neither
the snapshot nor the stream. -/
theorem handed_over_lost_before_connect :
    ¬ ∀ (rt : Runtime) (settings : Settings) (budgetBytes : ℕ) (trace : List StartStep)
      (s : Starting),
      Reaches (startSystem rt settings budgetBytes) anyStep trace s → HandedOver rt settings s := by
  intro hall
  have hpage : (startSystem sampleRuntime (sampleSettings 50000) 1024).step emptyStart
    (.page emptyPage)
      ⟨[], [], [], .loaded []⟩ := ⟨[], [], none, [], .done [] false, rfl, rfl, rfl,
        fun _ => rfl, rfl, rfl⟩
  have hcreate : (startSystem sampleRuntime (sampleSettings 50000) 1024).step
    ⟨[], [], [], .loaded []⟩
      (.create (sampleChange .create "a" ["evil.com"]) [])
      ⟨[sampleObject ["evil.com"]], [], [], .loaded []⟩ := ⟨rfl, .slnil, by simp, rfl⟩
  have hswap : (startSystem sampleRuntime (sampleSettings 50000) 1024).step
      ⟨[sampleObject ["evil.com"]], [], [], .loaded []⟩
      (.swap (some "octi_membership_1") [] .builder 1 ⟨PayloadCache.init 1048576 1024 86400 900⟩)
      ⟨[sampleObject ["evil.com"]], [], [], .serving emptyWorker⟩ := ⟨[], _, [], rfl, rfl, rfl⟩
  have hconnect : (startSystem sampleRuntime (sampleSettings 50000) 1024).step
      ⟨[sampleObject ["evil.com"]], [], [], .serving emptyWorker⟩ .connect
      ⟨[sampleObject ["evil.com"]], [], [], .connected {} emptyWorker []⟩ := ⟨_, rfl, rfl⟩
  have hrun : Reaches (startSystem sampleRuntime (sampleSettings 50000) 1024) anyStep _ _ :=
    .step (.step (.step (.step (.init ⟨rfl, rfl, by simp [emptyStart]⟩) trivial hpage)
      trivial hcreate)
      trivial hswap) trivial hconnect
  have hkey : "evil.com".toList ∈
      (sampleObject ["evil.com"]).keys sampleRuntime (sampleSettings 50000) := by
    rw [keys_sampleObject, keysOf_evil]
    exact List.mem_singleton_self _
  have hpresent := hall _ _ _ _ _ hrun {} emptyWorker rfl _ (List.mem_singleton_self _) _ hkey
  exact absurd hpresent (by decide)

end GapSample

/-! ### When the pages have had everything -/

/-- While pages are read an indicator is created ahead of the cursor; between the
last page and the connection none that could be looked up is; and no page reaches
the entry ceiling. -/
def Ahead (s : Starting) : StartStep → Prop
  | .create change unread =>
      match s.phase with
      | .reading _ => ∀ raw ∈ change.object.rawValues, raw ≠ [] → raw ∈ unread
      | .connected _ _ _ => True
      | _ => change.object.keys rt settings = []
  | .page data => ∀ values gathered, s.phase = .reading values →
      readPage rt settings (maxEntriesOf budgetBytes) data values ≠ .ok (.done gathered true)
  | _ => True

section Timing

variable {rt settings budgetBytes} {s s' : Starting}

/-- In the page loop every value of an indicator is on a page, read or to come;
after it every key has been read. -/
def Pending (rt : Runtime) (settings : Settings) (budgetBytes : ℕ) (s : Starting) : Prop :=
  match s.phase with
  | .reading _ => ∀ object ∈ s.created, ∀ raw ∈ object.rawValues, raw ≠ [] →
      raw ∈ s.read ++ s.unread
  | _ => ∀ object ∈ s.created, ∀ key ∈ object.keys rt settings,
      Loaded rt settings budgetBytes s.read (fingerprint rt key)

theorem pending_afterCreate {change : Change} {unread : List Str}
    (hpending : Pending rt settings budgetBytes s)
    (hahead : Ahead rt settings budgetBytes s (.create change unread))
    (hsub : s.unread.Sublist unread) :
    Pending rt settings budgetBytes (s.afterCreate change unread) := by
  unfold Pending at hpending
  unfold Ahead at hahead
  unfold Starting.afterCreate Pending
  cases hphase : s.phase with
  | reading values =>
      rw [hphase] at hpending hahead
      dsimp only
      intro object hobject raw hraw hne
      rcases List.mem_cons.mp hobject with rfl | hobject
      · exact List.mem_append_right _ (hahead raw hraw hne)
      · rcases List.mem_append.mp (hpending object hobject raw hraw hne) with hread | hunread
        · exact List.mem_append_left _ hread
        · exact List.mem_append_right _ (hsub.subset hunread)
  | connected consumer worker inbox =>
      rw [hphase] at hpending
      exact hpending
  | loaded values =>
      rw [hphase] at hpending hahead
      refine List.forall_mem_cons.mpr ⟨fun key hkey => ?_, hpending⟩
      rw [hahead] at hkey
      cases hkey
  | serving worker =>
      rw [hphase] at hpending hahead
      refine List.forall_mem_cons.mpr ⟨fun key hkey => ?_, hpending⟩
      rw [hahead] at hkey
      cases hkey

theorem loaded_of_gather {values : List Str} {object : StixObject} {read : List Str}
    (h : gather rt settings (maxEntriesOf budgetBytes) read [] = .ok (values, false))
    (hread : ∀ raw ∈ object.rawValues, raw ≠ [] → raw ∈ read) {key : Str}
    (hkey : key ∈ object.keys rt settings) : Loaded rt settings budgetBytes read
      (fingerprint rt key) := by
  refine ⟨key, ?_, rfl⟩
  rw [gather_eq_keysOf (fun _ => maxEntriesOf_pos) h]
  obtain ⟨raw, hraw, hnorm⟩ := mem_keysOf.mp hkey
  have hne : raw ≠ [] := by
    rintro rfl
    rw [norm_empty] at hnorm
    cases hnorm
  exact mem_keysOf.mpr ⟨raw, hread raw hraw hne, hnorm⟩

theorem pending_afterPage {values texts rest : List Str} {data : Json} {next : Option Json}
    {outcome : PageOutcome} (hphase : s.phase = .reading values)
    (hsound : s.phase.Sound rt settings budgetBytes s.read)
    (hpending : Pending rt settings budgetBytes s)
    (hahead : Ahead rt settings budgetBytes s (.page data))
    (htexts : pageTexts settings data = .ok (texts, next)) (hunread : s.unread = texts ++ rest)
    (hlast : next = none → rest = [])
    (hpage : readPage rt settings (maxEntriesOf budgetBytes) data values = .ok outcome) :
    Pending rt settings budgetBytes (s.afterPage texts rest outcome) := by
  unfold Pending at hpending
  rw [hphase] at hpending hsound
  dsimp only at hpending
  rw [hunread] at hpending
  cases outcome with
  | more values' cursor =>
      intro object hobject raw hraw hne
      change raw ∈ (s.read ++ texts) ++ rest
      rw [List.append_assoc]
      exact hpending object hobject raw hraw hne
  | done values' truncated =>
      cases truncated with
      | true => exact absurd hpage (hahead values values' hphase)
      | false =>
          rw [readPage_of_pageTexts htexts] at hpage
          obtain ⟨⟨gathered, full⟩, hgathered, hpage⟩ := bind_eq_ok_iff.mp hpage
          rw [← gather_next_page hsound texts] at hgathered
          cases full with
          | true => cases hpage
          | false =>
              cases next with
              | some cursor => cases hpage
              | none =>
                  obtain rfl := hlast rfl
                  rw [List.append_nil] at hpending
                  exact fun object hobject key =>
                    loaded_of_gather hgathered (hpending object hobject)

theorem pending_step {a : StartStep} (hsound : s.phase.Sound rt settings budgetBytes s.read)
    (hpending : Pending rt settings budgetBytes s) (hahead : Ahead rt settings budgetBytes s a)
    (hstep : (startSystem rt settings budgetBytes).step s a s') :
      Pending rt settings budgetBytes s' := by
  cases a with
  | create change unread =>
      obtain ⟨-, hsub, -, rfl⟩ := hstep
      exact pending_afterCreate hpending hahead hsub
  | page data =>
      obtain ⟨values, texts, next, rest, outcome, hphase, htexts, hunread, hlast,
        hpage, rfl⟩ := hstep
      exact pending_afterPage hphase hsound hpending hahead htexts hunread hlast hpage
  | swap name segments role generation live =>
      obtain ⟨values, set, segments', hphase, -, rfl⟩ := hstep
      unfold Pending at hpending
      rw [hphase] at hpending
      exact hpending
  | connect =>
      obtain ⟨worker, hphase, rfl⟩ := hstep
      unfold Pending at hpending
      rw [hphase] at hpending
      exact hpending
  | handle now =>
      obtain ⟨consumer, worker, change, rest, hphase, -, rfl⟩ := hstep
      unfold Pending at hpending
      rw [hphase] at hpending
      exact hpending

end Timing

/-- Where every indicator is created ahead of the cursor, the pages have had
everything when the stream connects. -/
theorem allRead_of_ahead {trace : List StartStep} {s : Starting}
    (hrun : Reaches (startSystem rt settings budgetBytes) (Ahead rt settings budgetBytes) trace s) :
    Reaches (startSystem rt settings budgetBytes) (AllRead rt settings budgetBytes) trace s := by
  refine hrun.weaken (I := fun s => s.phase.Sound rt settings budgetBytes s.read ∧
    Pending rt settings budgetBytes s) (fun s hs => ⟨sound_start_init hs, ?_⟩) ?_ ?_
  · unfold Pending
    rw [hs.1, hs.2.1]
    exact hs.2.2
  · exact fun _ _ _ hinv hahead hstep =>
      ⟨sound_start_step hinv.1 hstep, pending_step hinv.1 hinv.2 hahead hstep⟩
  · rintro s a s' ⟨-, hpending⟩ hstep - rfl
    obtain ⟨worker, hphase, -⟩ := hstep
    unfold Pending at hpending
    rw [hphase] at hpending
    exact hpending

end OpenctiLookup
