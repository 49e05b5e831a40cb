import OpenctiLookup.Python.Runtime
import OpenctiLookup.Theory.LastWrite
import OpenctiLookup.Theory.SortedSearch

/-! `backends/membership.py`: the packed membership set. One fingerprint per
value in a sorted shared segment, and over it a per-process overlay of
additions and tombstones. -/
namespace OpenctiLookup
open Python Theory

/-- `fingerprint`: a stable 64-bit hash of the value's UTF-8 bytes. -/
def fingerprint (rt : Runtime) (value : Str) : Word := rt.blake2b value

def buildChunk : Nat := 2 ^ 16

def itemSize : Nat := 8

/-- A POSIX shared-memory segment: its name and the words in it. -/
structure Segment where
  name : Str
  words : List Word
deriving DecidableEq

abbrev Segments := List Segment

def Segments.find (segments : Segments) (name : Str) : Option Segment :=
  List.find? (fun segment => segment.name = name) segments

/-- `SharedMemory(create=True, name=name)` and the copy into it. -/
def Segments.create (segments : Segments) (name : Str) (words : List Word) : Py Segments :=
  if (segments.find name).isSome then .error (.raised .fileExistsError)
  else .ok (segments ++ [⟨name, words⟩])

def Segments.unlink (segments : Segments) (name : Str) : Segments :=
  segments.filter fun segment => segment.name ≠ name

structure MembershipSet where
  shmName : Option Str
  count : Nat
  /-- The words of the segment up to `count`, absent for the empty set. -/
  view : Option (List Word)
  added : Finset Word
  tombstones : Finset Word
  owner : Bool
  overlayMax : ℤ
deriving DecidableEq

namespace MembershipSet

/-- `__init__`. The segment may be longer than the data: only the first `count`
words are mapped. -/
def init (shm : Option Segment) (count : Nat) (owner : Bool) (overlayMax : ℤ) : MembershipSet where
  shmName := shm.map Segment.name
  count := count
  view := if count = 0 then none else shm.map fun segment => segment.words.take count
  added := ∅
  tombstones := ∅
  owner := owner
  overlayMax := overlayMax

def empty : MembershipSet := init none 0 true 50000

/-- The accumulation loop of `build`: fingerprints fill a buffer, and a full
buffer becomes a block. -/
def buildBlocks (rt : Runtime) (maxEntries : Option Nat) :
    List Str → Nat → List (List Word) → List Word → List (List Word)
  | [], _, blocks, buffer => if buffer.isEmpty then blocks else blocks ++ [buffer]
  | value :: rest, seen, blocks, buffer =>
      if maxEntries.any (· ≤ seen) then if buffer.isEmpty then blocks else blocks ++ [buffer]
      else
        let buffer := buffer ++ [fingerprint rt value]
        if buffer.length = buildChunk then
          buildBlocks rt maxEntries rest (seen + 1) (blocks ++ [buffer]) []
        else buildBlocks rt maxEntries rest (seen + 1) blocks buffer

/-- The sorted array `build` packs. -/
def packedArray (rt : Runtime) (values : List Str) (maxEntries : Option Nat) : List Word :=
  unique (buildBlocks rt maxEntries values 0 [] []).flatten

/-- `MembershipSet.build`. Without a name the system picks an unused one, which
no other process is told; such a segment is left out of the host's list. -/
def build (rt : Runtime) (values : List Str) (name : Option Str) (overlayMax : ℤ)
    (maxEntries : Option Nat) (segments : Segments) : Py (MembershipSet × Segments) :=
  let arr := packedArray rt values maxEntries
  if arr.isEmpty then .ok (init none 0 true overlayMax, segments)
  else
    match name with
    | none => .ok (init (some ⟨"psm_", arr⟩) arr.length true overlayMax, segments)
    | some name => do
        let segments ← segments.create name arr
        pure (init (some ⟨name, arr⟩) arr.length true overlayMax, segments)

def attach (name : Str) (count : Nat) (overlayMax : ℤ) (segments : Segments) : Py MembershipSet :=
  match segments.find name with
  | none => .error (.raised .fileNotFoundError)
  | some segment => .ok (init (some segment) count false overlayMax)

/-- `close`: the set without its mapping, and what is left of the segments. That
an unlink finds no segment is passed over. -/
def close (unlink : Option Bool) (set : MembershipSet) (segments : Segments) :
    MembershipSet × Segments :=
  match set.shmName with
  | none => (set, segments)
  | some name =>
      ({ set with shmName := none, view := none },
        if unlink.getD set.owner then segments.unlink name else segments)

def packed (set : MembershipSet) : List Word := set.view.getD []

/-- `__contains__`: the overlay first, then bisection over the packed words. -/
def contains (rt : Runtime) (set : MembershipSet) (value : Str) : Bool :=
  let fp := fingerprint rt value
  if fp ∈ set.tombstones then false
  else if fp ∈ set.added then true
  else
    match set.view with
    | none => false
    | some view =>
        let idx := bisectLeft view fp
        decide (idx < set.count) && decide (view[idx]? = some fp)

def add (rt : Runtime) (set : MembershipSet) (value : Str) : MembershipSet :=
  let fp := fingerprint rt value
  { set with tombstones := set.tombstones.erase fp, added := insert fp set.added }

def remove (rt : Runtime) (set : MembershipSet) (value : Str) : MembershipSet :=
  let fp := fingerprint rt value
  { set with added := set.added.erase fp, tombstones := insert fp set.tombstones }

/-- `adopt_overlay`: the other set's pending updates, merged in. -/
def adoptOverlay (set other : MembershipSet) : MembershipSet :=
  { set with
    added := (set.added ∪ other.added) \ other.tombstones
    tombstones := set.tombstones ∪ other.tombstones }

def overlayFull (set : MembershipSet) : Bool :=
  decide (set.overlayMax ≤ ((set.added.card + set.tombstones.card : Nat) : ℤ))

/-- `__len__`, which is also `stats().effective`. -/
def len (set : MembershipSet) : ℤ :=
  (set.count : ℤ) + set.added.card - set.tombstones.card

structure Stats where
  packed : Nat
  added : Nat
  tombstoned : Nat
  bytesShared : Nat
deriving DecidableEq

def Stats.effective (stats : Stats) : ℤ :=
  (stats.packed : ℤ) + stats.added - stats.tombstoned

def stats (set : MembershipSet) : Stats where
  packed := set.count
  added := set.added.card
  tombstoned := set.tombstones.card
  bytesShared := set.count * itemSize

@[simp] theorem effective_stats (set : MembershipSet) : set.stats.effective = set.len := rfl

/-- What `build`, `attach` to a published segment and every stream update keep. -/
structure Ok (set : MembershipSet) : Prop where
  sorted : set.packed.Pairwise (· < ·)
  count_eq : set.count = set.packed.length
  disjoint : Disjoint set.added set.tombstones

def overlay (set : MembershipSet) (h : set.Ok) : Overlay Word :=
  ⟨set.added, set.tombstones, h.disjoint⟩

section Build

variable (rt : Runtime) (maxEntries : Option Nat)

/-- The values `build` looks at: the first `max_entries` of them. -/
def seenValues (values : List Str) (seen : Nat) : List Str :=
  match maxEntries with
  | none => values
  | some most => values.take (most - seen)

theorem seenValues_seenValues (values : List Str) :
    seenValues maxEntries (seenValues maxEntries values 0) 0 = seenValues maxEntries values 0 := by
  cases maxEntries <;> simp [seenValues, List.take_take]

theorem flatten_flush (blocks : List (List Word)) (buffer : List Word) :
    (if buffer.isEmpty then blocks else blocks ++ [buffer]).flatten = blocks.flatten ++ buffer := by
  cases buffer <;> simp

/-- Chunking loses nothing: blocks and buffer together hold the fingerprints of
the values seen, in order. -/
theorem flatten_buildBlocks (values : List Str) (seen : Nat) (blocks : List (List Word))
    (buffer : List Word) :
    (buildBlocks rt maxEntries values seen blocks buffer).flatten =
      blocks.flatten ++ buffer ++ (seenValues maxEntries values seen).map (fingerprint rt) := by
  induction values generalizing seen blocks buffer with
  | nil =>
      rw [buildBlocks, flatten_flush]
      cases maxEntries <;> simp [seenValues]
  | cons value rest ih =>
      rw [buildBlocks]
      by_cases hstop : maxEntries.any (· ≤ seen) = true
      · rw [if_pos hstop, flatten_flush]
        cases maxEntries with
        | none => simp at hstop
        | some most =>
            have hle : most ≤ seen := by simpa using hstop
            simp [seenValues, Nat.sub_eq_zero_of_le hle]
      · rw [if_neg hstop]
        have hseen : seenValues maxEntries (value :: rest) seen =
            value :: seenValues maxEntries rest (seen + 1) := by
          cases maxEntries with
          | none => rfl
          | some most =>
              have hlt : seen < most := by simpa using hstop
              have hsub : most - seen = most - (seen + 1) + 1 := by omega
              simp only [seenValues, hsub, List.take_succ_cons]
        dsimp only
        rw [hseen]
        split <;> rw [ih] <;> simp

theorem mem_packedArray {values : List Str} {fp : Word} :
    fp ∈ packedArray rt values maxEntries ↔
      ∃ value ∈ seenValues maxEntries values 0, fingerprint rt value = fp := by
  rw [packedArray, mem_unique, flatten_buildBlocks]
  simp

theorem length_packedArray_le (values : List Str) (most : Nat) :
    (packedArray rt values (some most)).length ≤ most := by
  refine (length_unique_le _).trans ?_
  rw [flatten_buildBlocks]
  simp [seenValues]

theorem pairwise_packedArray (values : List Str) :
    (packedArray rt values maxEntries).Pairwise (· < ·) := pairwise_unique _

end Build

@[simp] theorem packed_init_some (segment : Segment) (count : Nat) (owner : Bool) (overlayMax : ℤ) :
    (init (some segment) count owner overlayMax).packed = segment.words.take count := by
  unfold packed init
  by_cases h : count = 0 <;> simp [h]

@[simp] theorem packed_init_none (count : Nat) (owner : Bool) (overlayMax : ℤ) :
    (init none count owner overlayMax).packed = [] := by
  unfold packed init
  by_cases h : count = 0 <;> simp [h]

/-- A set fresh from its constructor has nothing in the overlay. -/
def Fresh (set : MembershipSet) : Prop := set.added = ∅ ∧ set.tombstones = ∅

theorem ok_init {segment : Segment} {count : Nat} (owner : Bool) (overlayMax : ℤ)
    (hsorted : segment.words.Pairwise (· < ·)) (hcount : count ≤ segment.words.length) :
    (init (some segment) count owner overlayMax).Ok where
  sorted := by
    rw [packed_init_some]
    exact hsorted.sublist (List.take_sublist _ _)
  count_eq := by
    rw [packed_init_some, List.length_take, Nat.min_eq_left hcount]
    rfl
  disjoint := by simp [init]

theorem ok_init_none (owner : Bool) (overlayMax : ℤ) : (init none 0 owner overlayMax).Ok where
  sorted := by simp
  count_eq := by
    rw [packed_init_none]
    rfl
  disjoint := by simp [init]

theorem ok_empty : empty.Ok := ok_init_none _ _

/-- What a successful build returns: a fresh set over the packed array. -/
theorem build_spec {rt : Runtime} {values : List Str} {name : Option Str} {overlayMax : ℤ}
    {maxEntries : Option Nat} {segments segments' : Segments} {set : MembershipSet}
    (h : build rt values name overlayMax maxEntries segments = .ok (set, segments')) :
    set.Ok ∧ set.Fresh ∧ set.packed = packedArray rt values maxEntries ∧
      set.overlayMax = overlayMax := by
  have hfull : ∀ segment : Segment, segment.words = packedArray rt values maxEntries →
      set = init (some segment) (packedArray rt values maxEntries).length true overlayMax →
      set.Ok ∧ set.Fresh ∧ set.packed = packedArray rt values maxEntries ∧
        set.overlayMax = overlayMax := by
    intro segment hwords hset
    subst hset
    refine ⟨ok_init _ _ (hwords ▸ pairwise_packedArray rt maxEntries values) (by rw [hwords]),
      ⟨rfl, rfl⟩, ?_, rfl⟩
    rw [packed_init_some, hwords, List.take_length]
  unfold build at h
  by_cases hempty : (packedArray rt values maxEntries).isEmpty = true
  · rw [if_pos hempty] at h
    obtain ⟨rfl, -⟩ := Prod.mk.inj (Except.ok.inj h)
    refine ⟨ok_init_none _ _, ⟨rfl, rfl⟩, ?_, rfl⟩
    rw [packed_init_none, List.isEmpty_iff.mp hempty]
  · rw [if_neg hempty] at h
    cases name with
    | none =>
        obtain ⟨rfl, -⟩ := Prod.mk.inj (Except.ok.inj h)
        exact hfull _ rfl rfl
    | some name =>
        cases hcreate : segments.create name (packedArray rt values maxEntries) with
        | error fault => simp [hcreate, bind, Except.bind] at h
        | ok created =>
            simp only [hcreate, bind, Except.bind, pure, Except.pure] at h
            obtain ⟨rfl, -⟩ := Prod.mk.inj (Except.ok.inj h)
            exact hfull _ rfl rfl

theorem owner_build {rt : Runtime} {values : List Str} {name : Option Str} {overlayMax : ℤ}
    {maxEntries : Option Nat} {segments segments' : Segments} {set : MembershipSet}
    (h : build rt values name overlayMax maxEntries segments = .ok (set, segments')) :
    set.owner = true := by
  unfold build at h
  dsimp only at h
  split at h
  · cases h
    rfl
  · split at h
    · cases h
      rfl
    · obtain ⟨_, -, h⟩ := bind_eq_ok_iff.mp h
      cases h
      rfl

section Segments

variable {segments segments' : Segments} {name : Str} {words : List Word}

theorem find_isSome_iff :
    (segments.find name).isSome = true ↔ ∃ segment ∈ segments, segment.name = name := by
  simp [Segments.find, List.find?_isSome]

theorem create_eq_ok_iff :
    segments.create name words = .ok segments' ↔
      (∀ segment ∈ segments, segment.name ≠ name) ∧ segments' = segments ++ [⟨name, words⟩] := by
  unfold Segments.create
  by_cases htaken : (segments.find name).isSome = true
  · rw [if_pos htaken]
    obtain ⟨segment, hmem, hname⟩ := find_isSome_iff.mp htaken
    exact ⟨fun h => by simp at h, fun h => absurd hname (h.1 segment hmem)⟩
  · rw [if_neg htaken]
    have hfree : ∀ segment ∈ segments, segment.name ≠ name := fun segment hmem hname =>
      htaken (find_isSome_iff.mpr ⟨segment, hmem, hname⟩)
    rw [Except.ok.injEq]
    exact ⟨fun h => ⟨hfree, h.symm⟩, fun h => h.2.symm⟩

theorem find_unlink (segments : Segments) (name : Str) :
    (segments.unlink name).find name = none := by
  simp [Segments.unlink, Segments.find]

@[simp] theorem shmName_close (unlink : Option Bool) (set : MembershipSet) (segments : Segments) :
    (set.close unlink segments).1.shmName = none := by
  unfold close
  split
  · assumption
  · rfl

@[simp] theorem segments_close_false (set : MembershipSet) (segments : Segments) :
    (set.close (some false) segments).2 = segments := by
  unfold close
  split <;> rfl

theorem close_of_closed {set : MembershipSet} (h : set.shmName = none) (unlink : Option Bool)
    (segments : Segments) : set.close unlink segments = (set, segments) := by
  unfold close
  rw [h]

theorem find_close {set : MembershipSet} (hname : set.shmName = some name)
    (howner : set.owner = true) (segments : Segments) :
    (set.close none segments).2.find name = none := by
  unfold close
  rw [hname]
  dsimp only [Option.getD_none]
  rw [if_pos howner]
  exact find_unlink segments name

variable {rt : Runtime} {values : List Str} {overlayMax : ℤ} {maxEntries : Option Nat}
  {set : MembershipSet}

theorem build_empty {name : Option Str} (h : packedArray rt values maxEntries = []) :
    build rt values name overlayMax maxEntries segments =
      .ok (init none 0 true overlayMax, segments) := by
  unfold build
  rw [h]
  rfl

theorem build_named_iff (h : packedArray rt values maxEntries ≠ []) :
    build rt values (some name) overlayMax maxEntries segments = .ok (set, segments') ↔
      (∀ segment ∈ segments, segment.name ≠ name) ∧
      segments' = segments ++ [⟨name, packedArray rt values maxEntries⟩] ∧
      set = init (some ⟨name, packedArray rt values maxEntries⟩)
        (packedArray rt values maxEntries).length true overlayMax := by
  unfold build
  rw [if_neg (by simpa using h)]
  dsimp only
  rw [bind_eq_ok_iff]
  constructor
  · rintro ⟨created, hcreate, hset⟩
    cases hset
    obtain ⟨hfree, rfl⟩ := create_eq_ok_iff.mp hcreate
    exact ⟨hfree, rfl, rfl⟩
  · rintro ⟨hfree, rfl, rfl⟩
    exact ⟨_, create_eq_ok_iff.mpr ⟨hfree, rfl⟩, rfl⟩

end Segments

section Overlay

variable {rt : Runtime} {set other : MembershipSet}

/-- `__contains__` computes membership of the packed words corrected by the
overlay. -/
theorem contains_iff (h : set.Ok) (value : Str) :
    set.contains rt value = true ↔
      (Overlay.Holds (· ∈ set.packed) (set.overlay h) (fingerprint rt value)) := by
  unfold contains Overlay.Holds Overlay.verdict overlay
  by_cases hremoved : fingerprint rt value ∈ set.tombstones
  · simp [hremoved]
  · by_cases hadded : fingerprint rt value ∈ set.added
    · simp [hremoved, hadded]
    · simp only [hremoved, hadded, if_false]
      have hfinds := bisectLeft_finds_iff h.sorted (fingerprint rt value)
      have hcount := h.count_eq
      unfold packed at hfinds hcount ⊢
      cases hview : set.view with
      | none => simp
      | some view =>
          simp only [hview, Option.getD_some] at hfinds hcount ⊢
          rw [Bool.and_eq_true, decide_eq_true_iff, decide_eq_true_iff, hfinds]
          refine ⟨fun hand => hand.2, fun hmem => ⟨?_, hmem⟩⟩
          rw [hcount]
          exact (List.getElem?_eq_some_iff.mp (hfinds.mpr hmem)).1

theorem ok_add (h : set.Ok) (value : Str) : (set.add rt value).Ok :=
  ⟨h.sorted, h.count_eq, ((set.overlay h).write ⟨fingerprint rt value, true⟩).disjoint⟩

theorem ok_remove (h : set.Ok) (value : Str) : (set.remove rt value).Ok :=
  ⟨h.sorted, h.count_eq, ((set.overlay h).write ⟨fingerprint rt value, false⟩).disjoint⟩

theorem adoptOverlay_fresh (h : set.Fresh) (hother : other.Ok) :
    (set.adoptOverlay other).added = other.added ∧
      (set.adoptOverlay other).tombstones = other.tombstones := by
  unfold adoptOverlay
  rw [h.1, h.2]
  refine ⟨?_, by simp⟩
  rw [Finset.empty_union, Finset.sdiff_eq_self_of_disjoint hother.disjoint]

theorem ok_adoptOverlay (hset : set.Ok) (hfresh : set.Fresh) (hother : other.Ok) :
    (set.adoptOverlay other).Ok where
  sorted := hset.sorted
  count_eq := hset.count_eq
  disjoint := by
    obtain ⟨ha, ht⟩ := adoptOverlay_fresh hfresh hother
    rw [ha, ht]
    exact hother.disjoint

theorem overlay_adoptOverlay (hset : set.Ok) (hfresh : set.Fresh) (hother : other.Ok) :
    (set.adoptOverlay other).overlay (ok_adoptOverlay hset hfresh hother) =
      other.overlay hother := by
  obtain ⟨ha, ht⟩ := adoptOverlay_fresh hfresh hother
  unfold overlay
  simp only [ha, ht]

/-- A run of `add` or of `remove` over some keys. -/
def writeAll (rt : Runtime) (present : Bool) (keys : List Str) (set : MembershipSet) :
    MembershipSet :=
  keys.foldl (fun set key => if present then set.add rt key else set.remove rt key) set

def writesOf (rt : Runtime) (present : Bool) (keys : List Str) : List (Write Word) :=
  keys.map fun key => ⟨fingerprint rt key, present⟩

@[simp] theorem writeAll_cons (present : Bool) (key : Str) (keys : List Str) :
    writeAll rt present (key :: keys) set =
      writeAll rt present keys (if present then set.add rt key else set.remove rt key) := rfl

theorem ok_writeAll (h : set.Ok) (present : Bool) (keys : List Str) :
    (writeAll rt present keys set).Ok := by
  induction keys generalizing set with
  | nil => exact h
  | cons key keys ih =>
      rw [writeAll_cons]
      cases present with
      | true => exact ih (ok_add h key)
      | false => exact ih (ok_remove h key)

theorem overlay_writeAll (h : set.Ok) (present : Bool) (keys : List Str) :
    (writeAll rt present keys set).overlay (ok_writeAll h present keys) =
      (set.overlay h).replay (writesOf rt present keys) := by
  induction keys generalizing set with
  | nil => rfl
  | cons key keys ih =>
      cases present with
      | true => exact ih (ok_add h key)
      | false => exact ih (ok_remove h key)

theorem writeAll_packed (present : Bool) (keys : List Str) :
    (writeAll rt present keys set).packed = set.packed ∧
      (writeAll rt present keys set).overlayMax = set.overlayMax := by
  induction keys generalizing set with
  | nil => exact ⟨rfl, rfl⟩
  | cons key keys ih => cases present <;> exact ih

theorem verdict_writeAll_of_mem (h : set.Ok) (present : Bool) (keys : List Str) {fp : Word}
    (hmem : ∃ key ∈ keys, fingerprint rt key = fp) :
    ((set.overlay h).replay (writesOf rt present keys)).verdict fp = some present := by
  refine Overlay.verdict_replay_of_mem _ _ _ _ (fun w hw _ => ?_) ?_
  · obtain ⟨key, -, rfl⟩ := List.mem_map.mp hw
    rfl
  · obtain ⟨key, hkey, hfp⟩ := hmem
    exact ⟨_, List.mem_map_of_mem hkey, hfp⟩

theorem verdict_writeAll_of_not_mem (h : set.Ok) (present : Bool) (keys : List Str) {fp : Word}
    (hmem : ∀ key ∈ keys, fingerprint rt key ≠ fp) :
    ((set.overlay h).replay (writesOf rt present keys)).verdict fp =
      (set.overlay h).verdict fp := by
  refine Overlay.verdict_replay_of_not_mem _ _ _ fun w hw => ?_
  obtain ⟨key, hkey, rfl⟩ := List.mem_map.mp hw
  exact hmem key hkey

theorem contains_writeAll_of_mem (h : set.Ok) (present : Bool) (keys : List Str) {value : Str}
    (hmem : ∃ key ∈ keys, fingerprint rt key = fingerprint rt value) :
    (writeAll rt present keys set).contains rt value = present := by
  rw [Bool.eq_iff_iff, contains_iff (ok_writeAll h present keys), overlay_writeAll h]
  exact Overlay.holds_of_verdict (verdict_writeAll_of_mem h present keys hmem)

theorem contains_writeAll_of_not_mem (h : set.Ok) (present : Bool) (keys : List Str) {value : Str}
    (hmem : ∀ key ∈ keys, fingerprint rt key ≠ fingerprint rt value) :
    (writeAll rt present keys set).contains rt value = set.contains rt value := by
  rw [Bool.eq_iff_iff, contains_iff (ok_writeAll h present keys), overlay_writeAll h,
    contains_iff h, (writeAll_packed present keys).1]
  exact Overlay.holds_congr (verdict_writeAll_of_not_mem h present keys hmem) fun _ => Iff.rfl

theorem contains_fresh (h : set.Ok) (hfresh : set.Fresh) (value : Str) :
    set.contains rt value = true ↔ fingerprint rt value ∈ set.packed := by
  rw [contains_iff h]
  refine Overlay.holds_of_untouched ?_
  simp [Overlay.verdict, overlay, hfresh.1, hfresh.2]

def touched (set : MembershipSet) : Finset Word := set.added ∪ set.tombstones

theorem overlayFull_iff (h : set.Ok) :
    set.overlayFull = true ↔ set.overlayMax ≤ (set.touched.card : ℤ) := by
  rw [touched, Finset.card_union_of_disjoint h.disjoint, overlayFull, decide_eq_true_iff]

theorem touched_writeAll (h : set.Ok) (present : Bool) (keys : List Str) :
    (writeAll rt present keys set).touched =
      set.touched ∪ (keys.map (fingerprint rt)).toFinset := by
  have hreplay := Overlay.touched_replay (set.overlay h) (writesOf rt present keys)
  rw [← overlay_writeAll h] at hreplay
  unfold writesOf at hreplay
  rw [List.map_map] at hreplay
  exact hreplay

def Follows (set : MembershipSet) (writes : List (Write Word)) : Prop :=
  ∃ h : set.Ok, set.overlay h = Overlay.empty.replay writes

theorem follows_fresh (h : set.Ok) (hfresh : set.Fresh) : set.Follows [] := by
  refine ⟨h, ?_⟩
  unfold overlay
  simp only [hfresh.1, hfresh.2]
  rfl

theorem follows_adoptOverlay {writes : List (Write Word)} (hset : set.Ok) (hfresh : set.Fresh)
    (h : other.Follows writes) : (set.adoptOverlay other).Follows writes := by
  obtain ⟨hother, hoverlay⟩ := h
  exact ⟨ok_adoptOverlay hset hfresh hother, (overlay_adoptOverlay hset hfresh
    hother).trans hoverlay⟩

theorem follows_writeAll {writes : List (Write Word)} (h : set.Follows writes) (present : Bool)
    (keys : List Str) :
    (writeAll rt present keys set).Follows (writes ++ writesOf rt present keys) := by
  obtain ⟨hok, hoverlay⟩ := h
  refine ⟨ok_writeAll hok present keys, ?_⟩
  rw [overlay_writeAll hok, hoverlay, Overlay.replay_append]

/-- What such a set answers: the last write, and the packed words where there is
none. -/
theorem contains_of_follows {writes : List (Write Word)} (h : set.Follows writes) (value : Str) :
    set.contains rt value = true ↔
      (match lastWrite writes (fingerprint rt value) with
        | some present => present = true
        | none => fingerprint rt value ∈ set.packed) := by
  obtain ⟨hok, hoverlay⟩ := h
  have hcontains := @contains_iff rt set hok value
  rw [hoverlay, Overlay.Holds, Overlay.verdict_replay, Overlay.verdict_empty, Option.or_none]
    at hcontains
  exact hcontains

theorem touched_adoptOverlay (hfresh : set.Fresh) (hother : other.Ok) :
    (set.adoptOverlay other).touched = other.touched := by
  obtain ⟨ha, ht⟩ := adoptOverlay_fresh hfresh hother
  rw [touched, ha, ht, touched]

end Overlay

end MembershipSet

end OpenctiLookup
