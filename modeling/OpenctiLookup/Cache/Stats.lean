import OpenctiLookup.Cache.History

/-! The counters of `cache/payload.py`. The cache under them is the cache without them. -/
namespace OpenctiLookup
open Python Theory

structure CountedCache (π : Type) where
  cache : PayloadCache π
  hits : ℕ := 0
  misses : ℕ := 0
  evictions : ℕ := 0
  expirations : ℕ := 0

namespace CountedCache

variable {π : Type}

def get (c : CountedCache π) (key : Str) (now : ℚ) : Option π × CountedCache π :=
  match c.cache.entry key with
  | none => (none, { c with misses := c.misses + 1 })
  | some (payload, expiresAt) =>
      if expiresAt ≤ now then
        (none, { c with
          cache := { c.cache with data := PayloadCache.erase key c.cache.data }
          expirations := c.expirations + 1
          misses := c.misses + 1 })
      else
        (some payload, { c with
          cache := { c.cache with
            data := PayloadCache.erase key c.cache.data ++ [(key, payload, expiresAt)] }
          hits := c.hits + 1 })

/-- How many entries the loop of `set` pops. -/
def popped (most : ℤ) : List (Str × π × ℚ) → ℕ
  | [] => 0
  | _ :: rest => if most < (rest.length + 1 : ℕ) then popped most rest + 1 else 0

def set (c : CountedCache π) (key : Str) (payload : π) (now : ℚ) : CountedCache π :=
  let data := PayloadCache.erase key c.cache.data ++ [(key, payload, now + c.cache.activeTtl)]
  { c with
    cache := { c.cache with data := PayloadCache.evict c.cache.maxEntries data }
    evictions := c.evictions + popped c.cache.maxEntries data }

def apply (c : CountedCache π) (event : CacheEvent π) : CountedCache π :=
  match event.op with
  | .get key => (c.get key event.time).2
  | .set key payload => c.set key payload event.time
  | .invalidate key => { c with cache := c.cache.invalidate key }
  | .clear => { c with cache := c.cache.clear }
  | .setDegraded degraded => { c with cache := c.cache.setDegraded degraded }

def after (start : CountedCache π) : List (CacheEvent π) → CountedCache π
  | [] => start
  | event :: past => (after start past).apply event

def hitRatio (c : CountedCache π) : ℚ :=
  if c.hits + c.misses = 0 then 0 else c.hits / (c.hits + c.misses : ℕ)

def approxBytes (c : CountedCache π) (maxEntryBytes : ℤ) : ℤ :=
  c.cache.data.length * max 1 maxEntryBytes

section Refinement

variable {c : CountedCache π} {key : Str} {now : ℚ}

theorem get_cache (c : CountedCache π) (key : Str) (now : ℚ) :
    ((c.get key now).1, (c.get key now).2.cache) = c.cache.get key now := by
  unfold get PayloadCache.get
  cases c.cache.entry key with
  | none => rfl
  | some entry =>
      dsimp only
      split <;> rfl

theorem cache_apply (c : CountedCache π) (event : CacheEvent π) :
    (c.apply event).cache = c.cache.apply event := by
  obtain ⟨op, time⟩ := event
  cases op with
  | get key => exact congrArg Prod.snd (get_cache c key time)
  | set key payload => rfl
  | invalidate key => rfl
  | clear => rfl
  | setDegraded degraded => rfl

theorem cache_after (start : CountedCache π) (past : List (CacheEvent π)) :
    (start.after past).cache = cacheAfter start.cache past := by
  induction past with
  | nil => rfl
  | cons event past ih => rw [after, cacheAfter, cache_apply, ih]

end Refinement

theorem length_evict (most : ℤ) (data : List (Str × π × ℚ)) :
    (PayloadCache.evict most data).length + popped most data = data.length := by
  induction data with
  | nil => rfl
  | cons e rest ih =>
      rw [PayloadCache.evict, popped]
      split
      · rw [List.length_cons]
        omega
      · rfl

theorem popped_eq_zero {most : ℤ} {data : List (Str × π × ℚ)} (h : (data.length : ℤ) ≤ most) :
    popped most data = 0 := by
  cases data with
  | nil => rfl
  | cons e rest =>
      rw [popped, if_neg]
      rw [List.length_cons] at h
      exact not_lt.mpr h

end CountedCache

end OpenctiLookup
