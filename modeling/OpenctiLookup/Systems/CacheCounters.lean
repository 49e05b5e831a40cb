import Mathlib.Algebra.Order.Field.Basic
import OpenctiLookup.Cache.Stats
import OpenctiLookup.Systems.CacheRecency

/-! What the counters of the payload cache say of its history. -/
namespace OpenctiLookup
open Python Theory

variable {π : Type}

def getsOf (past : List (CacheEvent π)) : ℕ :=
  past.countP fun event => match event.op with
    | .get _ => true
    | _ => false

def setKeys (past : List (CacheEvent π)) : List Str :=
  past.filterMap fun event => match event.op with
    | .set key _ => some key
    | _ => none

structure Counted (start : CountedCache π) (past : List (CacheEvent π)) : Prop where
  asked : (start.after past).hits + (start.after past).misses = getsOf past
  expired : (start.after past).expirations ≤ (start.after past).misses
  left : (start.after past).cache.data.length + (start.after past).evictions +
    (start.after past).expirations ≤ (setKeys past).length
  roomy : ((setKeys past).toFinset.card : ℤ) ≤ start.cache.maxEntries →
    (start.after past).evictions = 0

section Keys

variable {start : PayloadCache π} {past : List (CacheEvent π)} {key : Str}

theorem mem_setKeys_of_lastStored {s : Stored π} (h : lastStored start key past = some s) :
    key ∈ setKeys past := by
  induction past with
  | nil => cases h
  | cons event past ih =>
      obtain ⟨op, time⟩ := event
      cases op with
      | set other payload =>
          have hkeys : setKeys (⟨.set other payload, time⟩ :: past) = other :: setKeys past := rfl
          rw [hkeys]
          by_cases hother : other = key
          · rw [hother]
            exact List.mem_cons_self
          · have hpast : lastStored start key (⟨.set other payload, time⟩ :: past) =
                lastStored start key past := if_neg hother
            exact List.mem_cons_of_mem _ (ih (hpast ▸ h))
      | invalidate other =>
          by_cases hother : other = key
          · have hnone : lastStored start key (⟨.invalidate other, time⟩ :: past) = none :=
              if_pos hother
            cases hnone.symm.trans h
          · have hpast : lastStored start key (⟨.invalidate other, time⟩ :: past) =
                lastStored start key past := if_neg hother
            exact ih (hpast ▸ h)
      | clear => cases h
      | get other => exact ih h
      | setDegraded degraded => exact ih h

theorem length_le_card {data : List (Str × π × ℚ)} {keys : List Str}
    (hkeyed : Recency.Keyed data) (hkeys : ∀ e ∈ data, e.1 ∈ keys) :
    data.length ≤ keys.toFinset.card := by
  have hsub : (data.map Prod.fst).toFinset ⊆ keys.toFinset := by
    intro key hkey
    obtain ⟨e, he, rfl⟩ := List.mem_map.mp (List.mem_toFinset.mp hkey)
    exact List.mem_toFinset.mpr (hkeys e he)
  have hcard := Finset.card_le_card hsub
  rwa [List.toFinset_card_of_nodup hkeyed, List.length_map] at hcard

theorem Traces.mem_setKeys (h : Traces start past) :
    ∀ e ∈ (cacheAfter start past).data, e.1 ∈ setKeys past := by
  rintro ⟨key, payload, expiresAt⟩ he
  obtain ⟨s, hs, -⟩ := h.known _ _ _ he
  exact mem_setKeys_of_lastStored hs

end Keys

section Counters

variable {start : CountedCache π} {past : List (CacheEvent π)}

theorem length_erase_add_one_le {key : Str} {payload : π} {expiresAt : ℚ}
    {data : List (Str × π × ℚ)} (h : (key, payload, expiresAt) ∈ data) :
    (PayloadCache.erase key data).length + 1 ≤ data.length := by
  have hlt : (PayloadCache.erase key data).length < data.length := by
    unfold PayloadCache.erase
    refine List.length_filter_lt_length_iff_exists.mpr ⟨_, h, ?_⟩
    simp
  exact hlt

theorem counted_get (h : Counted start past) (key : Str) (time : ℚ) :
    Counted start (⟨.get key, time⟩ :: past) := by
  have hgets : getsOf (⟨.get key, time⟩ :: past) = getsOf past + 1 := by
    simp [getsOf]
  have hkeys : setKeys (⟨.get key, time⟩ :: past) = setKeys past := rfl
  have hafter : start.after (⟨.get key, time⟩ :: past) = ((start.after past).get key time).2 := rfl
  obtain ⟨hasked, hexpired, hleft, hroomy⟩ := h
  cases hentry : (start.after past).cache.entry key with
  | none =>
      have hget : ((start.after past).get key time).2 =
          { start.after past with misses := (start.after past).misses + 1 } := by
        simp [CountedCache.get, hentry]
      refine ⟨?_, ?_, ?_, ?_⟩ <;> rw [hafter, hget] <;> dsimp only
      · rw [hgets]
        omega
      · omega
      · exact hleft
      · exact hroomy
  | some stored =>
      obtain ⟨payload, expiresAt⟩ := stored
      have hshrinks := length_erase_add_one_le (PayloadCache.mem_of_entry hentry)
      by_cases hle : expiresAt ≤ time
      · have hget : ((start.after past).get key time).2 = { start.after past with
            cache := { (start.after past).cache with
              data := PayloadCache.erase key (start.after past).cache.data }
            expirations := (start.after past).expirations + 1
            misses := (start.after past).misses + 1 } := by
          simp [CountedCache.get, hentry, hle]
        refine ⟨?_, ?_, ?_, ?_⟩ <;> rw [hafter, hget] <;> dsimp only
        · rw [hgets]
          omega
        · omega
        · rw [hkeys]
          omega
        · exact hroomy
      · have hget : ((start.after past).get key time).2 = { start.after past with
            cache := { (start.after past).cache with
              data := PayloadCache.erase key (start.after past).cache.data ++
                [(key, payload, expiresAt)] }
            hits := (start.after past).hits + 1 } := by
          simp [CountedCache.get, hentry, hle]
        refine ⟨?_, ?_, ?_, ?_⟩ <;> rw [hafter, hget] <;> dsimp only
        · rw [hgets]
          omega
        · exact hexpired
        · rw [hkeys, List.length_append, List.length_singleton]
          omega
        · exact hroomy

/-- A `set` evicts nothing while all the keys stored so far fit. -/
theorem counted_set (h : Counted start past) (htraces : Traces start.cache past) (key : Str)
    (payload : π) (time : ℚ) : Counted start (⟨.set key payload, time⟩ :: past) := by
  have hgets : getsOf (⟨.set key payload, time⟩ :: past) = getsOf past := by
    simp [getsOf]
  have hkeys : setKeys (⟨.set key payload, time⟩ :: past) = key :: setKeys past := rfl
  have hafter : start.after (⟨.set key payload, time⟩ :: past) =
      (start.after past).set key payload time := rfl
  have hcache := CountedCache.cache_after start past
  have hmax := (settings_cacheAfter start.cache past).1
  obtain ⟨hasked, hexpired, hleft, hroomy⟩ := h
  set data := PayloadCache.erase key (start.after past).cache.data ++
    [(key, payload, time + (start.after past).cache.activeTtl)] with hdata
  have hlength : data.length ≤ (start.after past).cache.data.length + 1 := by
    have herase := List.length_filter_le (fun e => decide (e.1 ≠ key))
      (start.after past).cache.data
    rw [hdata, List.length_append, List.length_singleton]
    exact Nat.succ_le_succ herase
  have hsplit := CountedCache.length_evict (start.after past).cache.maxEntries data
  refine ⟨?_, ?_, ?_, ?_⟩ <;> rw [hafter] <;> unfold CountedCache.set <;> dsimp only
  · rw [hgets]
    exact hasked
  · exact hexpired
  · rw [hkeys, List.length_cons, ← hdata]
    omega
  · intro hroom
    have hfits : data.length ≤ (key :: setKeys past).toFinset.card := by
      refine length_le_card ?_ fun e he => ?_
      · rw [hdata, hcache]
        exact htraces.keyed.touch
      · rw [hdata, hcache] at he
        rcases List.mem_append.mp he with hold | hnew
        · exact List.mem_cons_of_mem _
            (htraces.mem_setKeys e ((PayloadCache.mem_erase key _).mp hold).1)
        · rw [List.mem_singleton.mp hnew]
          exact List.mem_cons_self
    have hsub : (setKeys past).toFinset ⊆ (key :: setKeys past).toFinset := fun other hother =>
      List.mem_toFinset.mpr (List.mem_cons_of_mem _ (List.mem_toFinset.mp hother))
    have hcard := Finset.card_le_card hsub
    rw [hkeys] at hroom
    have hevictions := hroomy (by omega)
    rw [hevictions, ← hdata, hcache, hmax, CountedCache.popped_eq_zero (by omega)]

theorem counted_of_same (h : Counted start past) {event : CacheEvent π}
    (hgets : getsOf (event :: past) = getsOf past) (hkeys : setKeys (event :: past) = setKeys past)
    {cache : PayloadCache π}
    (hafter : start.after (event :: past) = { start.after past with cache := cache })
    (hlength : cache.data.length ≤ (start.after past).cache.data.length) :
    Counted start (event :: past) := by
  obtain ⟨hasked, hexpired, hleft, hroomy⟩ := h
  refine ⟨?_, ?_, ?_, ?_⟩ <;> rw [hafter] <;> dsimp only
  · rw [hgets]
    exact hasked
  · exact hexpired
  · rw [hkeys]
    omega
  · rw [hkeys]
    exact hroomy

theorem counted_after (hfresh : start = { cache := start.cache }) (hmost : 0 ≤ start.cache.maxEntries)
    (hempty : start.cache.data = []) (past : List (CacheEvent π)) : Counted start past := by
  induction past with
  | nil =>
      rw [hfresh]
      exact ⟨rfl, le_rfl, by simp [CountedCache.after, hempty, setKeys], fun _ => rfl⟩
  | cons event past ih =>
      obtain ⟨op, time⟩ := event
      cases op with
      | get key => exact counted_get ih key time
      | set key payload =>
          exact counted_set ih (traces_cacheAfter hmost hempty past) key payload time
      | invalidate key =>
          exact counted_of_same ih (by simp [getsOf]) rfl rfl (List.length_filter_le _ _)
      | clear => exact counted_of_same ih (by simp [getsOf]) rfl rfl (Nat.zero_le _)
      | setDegraded degraded => exact counted_of_same ih (by simp [getsOf]) rfl rfl le_rfl

end Counters

/-- After any operations, the counted cache is the cache, every `get` is counted once, and what
is there, was evicted or has expired was stored. Nothing is evicted as long as all the keys that
were ever stored fit, the hit ratio is between 0 and 1, and the bytes that are reported are
within the budget of any cache that has room for an entry. -/
theorem counters_account (budgetBytes maxEntryBytes ttlS degradedTtlS : ℤ)
    (past : List (CacheEvent π)) :
    let start : PayloadCache π := .init budgetBytes maxEntryBytes ttlS degradedTtlS
    let counted := CountedCache.after { cache := start } past
    counted.cache = cacheAfter start past ∧ counted.hits + counted.misses = getsOf past ∧
      counted.cache.data.length + counted.evictions + counted.expirations ≤ (setKeys past).length ∧
      (((setKeys past).toFinset.card : ℤ) ≤ start.maxEntries → counted.evictions = 0) ∧
      0 ≤ counted.hitRatio ∧ counted.hitRatio ≤ 1 ∧
      (max 1 maxEntryBytes ≤ budgetBytes → counted.approxBytes maxEntryBytes ≤ budgetBytes) := by
  intro start counted
  have hone : 1 ≤ start.maxEntries :=
    one_le_maxEntries_init budgetBytes maxEntryBytes ttlS degradedTtlS
  have hcounted : Counted ⟨start, 0, 0, 0, 0⟩ past := counted_after rfl (zero_le_one.trans hone) rfl past
  have hcache : counted.cache = cacheAfter start past := CountedCache.cache_after _ past
  refine ⟨hcache, hcounted.asked, hcounted.left, hcounted.roomy, ?_, ?_, fun hroom => ?_⟩
  · unfold CountedCache.hitRatio
    split
    · exact le_rfl
    · positivity
  · unfold CountedCache.hitRatio
    split
    · exact zero_le_one
    · refine div_le_one_of_le₀ ?_ (by positivity)
      exact_mod_cast Nat.le_add_right _ _
  · have hbounded := (traces_cacheAfter (by omega) rfl past : Traces start past).bounded
    have hentry : 0 < max 1 maxEntryBytes := zero_lt_one.trans_le (le_max_left _ _)
    have hmax : start.maxEntries = budgetBytes / max 1 maxEntryBytes :=
      max_eq_right (Int.le_ediv_of_mul_le hentry (by rwa [one_mul]))
    rw [hmax] at hbounded
    unfold CountedCache.approxBytes
    rw [hcache]
    calc ((cacheAfter start past).data.length : ℤ) * max 1 maxEntryBytes
        ≤ budgetBytes / max 1 maxEntryBytes * max 1 maxEntryBytes :=
          mul_le_mul_of_nonneg_right hbounded hentry.le
      _ ≤ budgetBytes := Int.ediv_mul_le _ hentry.ne'

end OpenctiLookup
