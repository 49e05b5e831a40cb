import OpenctiLookup.Cache.Bytes
import OpenctiLookup.Theory.Recency

/-! The payload cache under any operations in any order. What it holds of a key is told
by the operations alone: the last payload stored, when, under which TTL, and which keys
have been used since. -/
namespace OpenctiLookup
open Python Theory

inductive CacheOp (π : Type) where
  | get (key : Str)
  | set (key : Str) (payload : π)
  | invalidate (key : Str)
  | clear
  | setDegraded (degraded : Bool)

structure CacheEvent (π : Type) where
  op : CacheOp π
  time : ℚ

/-- What a `set` left behind. -/
structure Stored (π : Type) where
  payload : π
  time : ℚ
  /-- The TTL in force at that time. -/
  ttl : ℤ

def Stored.expiresAt {π : Type} (s : Stored π) : ℚ := s.time + s.ttl

variable {π : Type}

def PayloadCache.apply (cache : PayloadCache π) (event : CacheEvent π) : PayloadCache π :=
  match event.op with
  | .get key => (cache.get key event.time).2
  | .set key payload => cache.set key payload event.time
  | .invalidate key => cache.invalidate key
  | .clear => cache.clear
  | .setDegraded degraded => cache.setDegraded degraded

section Histories

variable (start : PayloadCache π)

def cacheAfter : List (CacheEvent π) → PayloadCache π
  | [] => start
  | event :: past => (cacheAfter past).apply event

def Chronological (past : List (CacheEvent π)) : Prop :=
  past.Pairwise fun later earlier => earlier.time ≤ later.time

/-- What `set_degraded` was last told. -/
def degradedAfter : List (CacheEvent π) → Bool
  | [] => start.degraded
  | event :: past =>
      match event.op with
      | .setDegraded degraded => degraded
      | _ => degradedAfter past

def ttlAfter (past : List (CacheEvent π)) : ℤ :=
  if degradedAfter start past then start.degradedTtl else start.ttl

/-- The last `set` of a key, with no `invalidate` of it and no `clear` since. -/
def lastStored (key : Str) : List (CacheEvent π) → Option (Stored π)
  | [] => none
  | event :: past =>
      match event.op with
      | .set other payload =>
          if other = key then some ⟨payload, event.time, ttlAfter start past⟩
          else lastStored key past
      | .invalidate other => if other = key then none else lastStored key past
      | .clear => none
      | _ => lastStored key past

def usedBy (past : List (CacheEvent π)) (event : CacheEvent π) : Option Str :=
  match event.op with
  | .set key _ => some key
  | .get key => if ((cacheAfter start past).get key event.time).1.isSome then some key else none
  | _ => none

def usedSince (key : Str) : List (CacheEvent π) → Finset Str
  | [] => ∅
  | event :: past =>
      match usedBy start past event with
      | some other => if other = key then ∅ else insert other (usedSince key past)
      | none => usedSince key past

end Histories

namespace PayloadCache

variable {cache : PayloadCache π} {key : Str} {now : ℚ} {payload : π}

/-- A `get` finds nothing, drops what has expired, or returns what is fresh and moves it
to the new end. -/
inductive GetCases (cache : PayloadCache π) (key : Str) (now : ℚ) : Prop
  | absent (hget : cache.get key now = (none, cache))
  | expired (payload : π) (expiresAt : ℚ) (hmem : (key, payload, expiresAt) ∈ cache.data)
      (hle : expiresAt ≤ now)
      (hget : cache.get key now = (none, { cache with data := Recency.remove key cache.data }))
  | fresh (payload : π) (expiresAt : ℚ) (hmem : (key, payload, expiresAt) ∈ cache.data)
      (hlt : now < expiresAt)
      (hget : cache.get key now = (some payload,
        { cache with data := Recency.touch key (payload, expiresAt) cache.data }))

theorem get_cases (cache : PayloadCache π) (key : Str) (now : ℚ) : GetCases cache key now := by
  cases hentry : cache.entry key with
  | none => exact .absent (by simp [get, hentry])
  | some stored =>
      obtain ⟨payload, expiresAt⟩ := stored
      by_cases hle : expiresAt ≤ now
      · refine .expired payload expiresAt (mem_of_entry hentry) hle ?_
        simp only [get, hentry, if_pos hle]
        rfl
      · refine .fresh payload expiresAt (mem_of_entry hentry) (not_le.mp hle) ?_
        simp only [get, hentry, if_neg hle]
        rfl

theorem evict_eq_bound {most : ℤ} (hmost : 0 ≤ most) (data : List (Str × π × ℚ)) :
    evict most data = Recency.bound most.toNat data := by
  induction data with
  | nil => simp [evict, Recency.bound]
  | cons e rest ih =>
      rw [evict, Recency.bound, List.length_cons]
      by_cases hover : most < (rest.length + 1 : ℕ)
      · have hone : rest.length + 1 - most.toNat = rest.length - most.toNat + 1 := by omega
        rw [if_pos hover, ih, Recency.bound, hone, List.drop_succ_cons]
      · have hzero : rest.length + 1 - most.toNat = 0 := by omega
        rw [if_neg hover, hzero, List.drop_zero]

theorem set_eq (hmost : 0 ≤ cache.maxEntries) : cache.set key payload now =
    { cache with
      data := Recency.bound cache.maxEntries.toNat
        (Recency.touch key (payload, now + cache.activeTtl) cache.data) } := by
  rw [set, evict_eq_bound hmost]
  rfl

end PayloadCache

section Traces

variable {start : PayloadCache π} {past : List (CacheEvent π)} {event : CacheEvent π} {key : Str}

theorem settings_cacheAfter (start : PayloadCache π) (past : List (CacheEvent π)) :
    (cacheAfter start past).maxEntries = start.maxEntries ∧
      (cacheAfter start past).ttl = start.ttl ∧
        (cacheAfter start past).degradedTtl = start.degradedTtl ∧
          (cacheAfter start past).degraded = degradedAfter start past := by
  induction past with
  | nil => exact ⟨rfl, rfl, rfl, rfl⟩
  | cons event past ih =>
      obtain ⟨op, time⟩ := event
      cases op with
      | get key =>
          have hafter : cacheAfter start (⟨.get key, time⟩ :: past) =
              ((cacheAfter start past).get key time).2 := rfl
          have hdegraded : degradedAfter start (⟨.get key, time⟩ :: past) =
              degradedAfter start past := rfl
          rw [hafter, hdegraded]
          cases (cacheAfter start past).get_cases key time with
          | absent hget => rwa [hget]
          | expired payload expiresAt hmem hle hget => rwa [hget]
          | fresh payload expiresAt hmem hlt hget => rwa [hget]
      | set key payload => exact ih
      | invalidate key => exact ih
      | clear => exact ih
      | setDegraded degraded => exact ⟨ih.1, ih.2.1, ih.2.2.1, rfl⟩

theorem activeTtl_cacheAfter (start : PayloadCache π) (past : List (CacheEvent π)) :
    (cacheAfter start past).activeTtl = ttlAfter start past := by
  obtain ⟨-, httl, hdegradedTtl, hdegraded⟩ := settings_cacheAfter start past
  rw [PayloadCache.activeTtl, ttlAfter, httl, hdegradedTtl, hdegraded]

/-- What the cache holds against its history: of each key one entry, that of the last
`set`; and what was stored is there until it expires or as many other keys as fit have
been used. -/
structure Traces (start : PayloadCache π) (past : List (CacheEvent π)) : Prop where
  keyed : Recency.Keyed (cacheAfter start past).data
  bounded : ((cacheAfter start past).data.length : ℤ) ≤ start.maxEntries
  known : ∀ key payload expiresAt, (key, payload, expiresAt) ∈ (cacheAfter start past).data →
    ∃ s, lastStored start key past = some s ∧ (payload, expiresAt) = (s.payload, s.expiresAt)
  placed : ∀ key s, lastStored start key past = some s →
    Recency.Placed (cacheAfter start past).data key (s.payload, s.expiresAt)
        (usedSince start key past) ∨
      start.maxEntries.toNat ≤ (usedSince start key past).card ∨
        ∃ event ∈ past, s.expiresAt ≤ event.time

theorem placed_later {s : Stored π} {newer : Finset Str} {data : List (Str × π × ℚ)}
    (hmove : Recency.Placed (cacheAfter start past).data key (s.payload, s.expiresAt)
        (usedSince start key past) →
      Recency.Placed data key (s.payload, s.expiresAt) newer ∨
        start.maxEntries.toNat ≤ newer.card)
    (hsub : usedSince start key past ⊆ newer)
    (h : Recency.Placed (cacheAfter start past).data key (s.payload, s.expiresAt)
        (usedSince start key past) ∨
      start.maxEntries.toNat ≤ (usedSince start key past).card ∨
        ∃ event ∈ past, s.expiresAt ≤ event.time) :
    Recency.Placed data key (s.payload, s.expiresAt) newer ∨
      start.maxEntries.toNat ≤ newer.card ∨ ∃ e ∈ event :: past, s.expiresAt ≤ e.time := by
  rcases h with h | h | ⟨e, he, hle⟩
  · exact (hmove h).imp_right .inl
  · exact .inr (.inl (h.trans (Finset.card_le_card hsub)))
  · exact .inr (.inr ⟨e, List.mem_cons_of_mem _ he, hle⟩)

theorem Traces.get (h : Traces start past) (key : Str) (time : ℚ) :
    Traces start (⟨.get key, time⟩ :: past) := by
  have hafter : cacheAfter start (⟨.get key, time⟩ :: past) =
      ((cacheAfter start past).get key time).2 := rfl
  have hused : ∀ other, usedSince start other (⟨.get key, time⟩ :: past) =
      match (if ((cacheAfter start past).get key time).1.isSome then some key else none) with
      | some used => if used = other then ∅ else insert used (usedSince start other past)
      | none => usedSince start other past := fun _ => rfl
  cases (cacheAfter start past).get_cases key time with
  | absent hget =>
      rw [hget] at hafter hused
      refine ⟨hafter ▸ h.keyed, hafter ▸ h.bounded, hafter ▸ h.known, ?_⟩
      intro other s hs
      rw [hafter, hused]
      exact placed_later .inl (Finset.Subset.refl _) (h.placed other s hs)
  | expired payload expiresAt hmem hle hget =>
      rw [hget] at hafter hused
      refine ⟨hafter ▸ h.keyed.remove, ?_, ?_, ?_⟩
      · rw [hafter]
        exact le_trans (by exact_mod_cast List.length_filter_le _ _) h.bounded
      · intro other stored storedUntil hin
        rw [hafter] at hin
        exact h.known _ _ _ (Recency.mem_remove.mp hin).1
      · intro other s hs
        rw [hafter, hused]
        by_cases hother : other = key
        · subst hother
          obtain ⟨s', hs', heq⟩ := h.known _ _ _ hmem
          obtain rfl : s = s' := Option.some.inj (hs.symm.trans hs')
          refine .inr (.inr ⟨_, List.mem_cons_self, ?_⟩)
          rw [← (Prod.mk.inj heq).2]
          exact hle
        · exact placed_later (fun hplaced => .inl (hplaced.remove hother))
            (Finset.Subset.refl _) (h.placed other s hs)
  | fresh payload expiresAt hmem hlt hget =>
      rw [hget] at hafter hused
      refine ⟨hafter ▸ h.keyed.touch, ?_, ?_, ?_⟩
      · have hlength := (cacheAfter start past).length_get key time
        rw [hget, ← hafter] at hlength
        exact le_trans (by exact_mod_cast hlength) h.bounded
      · intro other stored storedUntil hin
        rw [hafter] at hin
        rcases Recency.mem_touch.mp hin with ⟨hin, -⟩ | heq
        · exact h.known _ _ _ hin
        · cases heq
          exact h.known _ _ _ hmem
      · intro other s hs
        rw [hafter, hused]
        by_cases hother : key = other
        · subst hother
          obtain ⟨s', hs', heq⟩ := h.known _ _ _ hmem
          obtain rfl : s = s' := Option.some.inj (hs.symm.trans hs')
          rw [heq]
          simpa using .inl Recency.placed_touch
        · simp only [Option.isSome_some, if_true, if_neg hother]
          exact placed_later (fun hplaced => .inl (hplaced.touch (Ne.symm hother)))
            (Finset.subset_insert _ _) (h.placed other s hs)

theorem Traces.set (hmost : 0 ≤ start.maxEntries) (h : Traces start past) (key : Str) (payload : π)
    (time : ℚ) : Traces start (⟨.set key payload, time⟩ :: past) := by
  have hmax := (settings_cacheAfter start past).1
  have hafter : (cacheAfter start (⟨.set key payload, time⟩ :: past)).data =
      Recency.bound start.maxEntries.toNat (Recency.touch key
        (payload, time + ttlAfter start past) (cacheAfter start past).data) := by
    have hset : cacheAfter start (⟨.set key payload, time⟩ :: past) =
        (cacheAfter start past).set key payload time := rfl
    rw [hset, PayloadCache.set_eq (by rwa [hmax]), hmax, activeTtl_cacheAfter]
  have hstored : ∀ other, lastStored start other (⟨.set key payload, time⟩ :: past) =
      if key = other then some ⟨payload, time, ttlAfter start past⟩
      else lastStored start other past := fun _ => rfl
  have hused : ∀ other, usedSince start other (⟨.set key payload, time⟩ :: past) =
      if key = other then ∅ else insert key (usedSince start other past) := fun _ => rfl
  refine ⟨hafter ▸ h.keyed.touch.bound, ?_, ?_, ?_⟩
  · rw [hafter]
    have hle := @Recency.length_bound_le _ _ (Recency.touch key
      (payload, time + (ttlAfter start past : ℚ)) (cacheAfter start past).data)
      start.maxEntries.toNat
    omega
  · intro other stored storedUntil hin
    rw [hafter] at hin
    rw [hstored]
    rcases Recency.mem_touch.mp (Recency.mem_of_mem_bound hin) with ⟨hin, hne⟩ | heq
    · rw [if_neg (Ne.symm hne)]
      exact h.known _ _ _ hin
    · cases heq
      exact ⟨_, if_pos rfl, rfl⟩
  · intro other s hs
    rw [hafter, hused]
    rw [hstored] at hs
    by_cases hother : key = other
    · subst hother
      rw [if_pos rfl] at hs ⊢
      cases hs
      rcases Recency.placed_touch.bound h.keyed.touch with hplaced | hfull
      · exact .inl hplaced
      · exact .inr (.inl hfull)
    · rw [if_neg hother] at hs ⊢
      exact placed_later (fun hplaced => (hplaced.touch (Ne.symm hother)).bound h.keyed.touch)
        (Finset.subset_insert _ _) (h.placed other s hs)

theorem Traces.invalidate (h : Traces start past) (key : Str) (time : ℚ) :
    Traces start (⟨.invalidate key, time⟩ :: past) := by
  have hafter : (cacheAfter start (⟨.invalidate key, time⟩ :: past)).data =
      Recency.remove key (cacheAfter start past).data := rfl
  have hstored : ∀ other, lastStored start other (⟨.invalidate key, time⟩ :: past) =
      if key = other then none else lastStored start other past := fun _ => rfl
  have hused : ∀ other, usedSince start other (⟨.invalidate key, time⟩ :: past) =
      usedSince start other past := fun _ => rfl
  refine ⟨hafter ▸ h.keyed.remove, ?_, ?_, ?_⟩
  · rw [hafter]
    exact le_trans (by exact_mod_cast List.length_filter_le _ _) h.bounded
  · intro other stored storedUntil hin
    rw [hafter] at hin
    obtain ⟨hin, hne⟩ := Recency.mem_remove.mp hin
    rw [hstored, if_neg (Ne.symm hne)]
    exact h.known _ _ _ hin
  · intro other s hs
    rw [hstored] at hs
    rw [hafter, hused]
    by_cases hother : key = other
    · rw [if_pos hother] at hs
      cases hs
    · rw [if_neg hother] at hs
      exact placed_later (fun hplaced => .inl (hplaced.remove (Ne.symm hother)))
        (Finset.Subset.refl _) (h.placed other s hs)

theorem traces_cacheAfter (hmost : 0 ≤ start.maxEntries) (hempty : start.data = [])
    (past : List (CacheEvent π)) : Traces start past := by
  induction past with
  | nil =>
      refine ⟨?_, ?_, ?_, nofun⟩
      · simp [cacheAfter, hempty, Recency.Keyed]
      · simpa [cacheAfter, hempty] using hmost
      · simp [cacheAfter, hempty]
  | cons event past ih =>
      obtain ⟨op, time⟩ := event
      cases op with
      | get key => exact ih.get key time
      | set key payload => exact ih.set hmost key payload time
      | invalidate key => exact ih.invalidate key time
      | clear =>
          have hafter : (cacheAfter start (⟨.clear, time⟩ :: past)).data = [] := rfl
          refine ⟨by simp [hafter, Recency.Keyed], by simpa [hafter] using hmost, ?_, nofun⟩
          simp [hafter]
      | setDegraded degraded =>
          refine ⟨ih.keyed, ih.bounded, ih.known, ?_⟩
          intro other s hs
          exact placed_later .inl (Finset.Subset.refl _) (ih.placed other s hs)

end Traces

end OpenctiLookup
