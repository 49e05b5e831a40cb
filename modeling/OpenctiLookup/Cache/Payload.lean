import Mathlib.Data.Rat.Defs
import Mathlib.Algebra.Order.Ring.Rat
import OpenctiLookup.Python.Text

/-! `cache/payload.py`: a TTL and LRU cache with an entry ceiling derived from a
byte budget. It is generic in what it stores. -/
namespace OpenctiLookup
open Python

structure PayloadCache (π : Type) where
  maxEntries : ℤ
  ttl : ℤ
  degradedTtl : ℤ
  degraded : Bool
  /-- `_data`: key, payload and expiry, least recently used first. -/
  data : List (Str × π × ℚ)
deriving DecidableEq

namespace PayloadCache

variable {π : Type}

def init (budgetBytes maxEntryBytes ttlS degradedTtlS : ℤ) : PayloadCache π where
  maxEntries := max 1 (budgetBytes / max 1 maxEntryBytes)
  ttl := ttlS
  degradedTtl := degradedTtlS
  degraded := false
  data := []

def setDegraded (cache : PayloadCache π) (degraded : Bool) : PayloadCache π :=
  { cache with degraded := degraded }

def activeTtl (cache : PayloadCache π) : ℤ :=
  if cache.degraded then cache.degradedTtl else cache.ttl

def entry (cache : PayloadCache π) (key : Str) : Option (π × ℚ) := cache.data.lookup key

def erase (key : Str) (data : List (Str × π × ℚ)) : List (Str × π × ℚ) :=
  data.filter fun e => e.1 ≠ key

/-- `get` at the monotonic time `now`. -/
def get (cache : PayloadCache π) (key : Str) (now : ℚ) : Option π × PayloadCache π :=
  match cache.entry key with
  | none => (none, cache)
  | some (payload, expiresAt) =>
      if expiresAt ≤ now then (none, { cache with data := erase key cache.data })
      else (some payload,
        { cache with data := erase key cache.data ++ [(key, payload, expiresAt)] })

def evict (most : ℤ) : List (Str × π × ℚ) → List (Str × π × ℚ)
  | [] => []
  | e :: rest => if most < (rest.length + 1 : ℕ) then evict most rest else e :: rest

def set (cache : PayloadCache π) (key : Str) (payload : π) (now : ℚ) : PayloadCache π :=
  { cache with
    data := evict cache.maxEntries
      (erase key cache.data ++ [(key, payload, now + cache.activeTtl)]) }

def invalidate (cache : PayloadCache π) (key : Str) : PayloadCache π :=
  { cache with data := erase key cache.data }

def clear (cache : PayloadCache π) : PayloadCache π := { cache with data := [] }

/-- What a `get` at `now` returns. -/
def fresh (cache : PayloadCache π) (key : Str) (now : ℚ) (payload : π) : Prop :=
  ∃ expiresAt, cache.entry key = some (payload, expiresAt) ∧ now < expiresAt

theorem get_fst_eq_some_iff {cache : PayloadCache π} {key : Str} {now : ℚ} {payload : π} :
    (cache.get key now).1 = some payload ↔ cache.fresh key now payload := by
  unfold get fresh
  cases hentry : cache.entry key with
  | none => simp
  | some stored =>
      obtain ⟨stored, expiresAt⟩ := stored
      by_cases hexpired : expiresAt ≤ now
      · simp only [hexpired, if_true, Option.some.injEq, Prod.mk.injEq]
        constructor
        · intro h
          cases h
        · rintro ⟨e, ⟨-, rfl⟩, hlt⟩
          exact absurd hexpired (not_le.mpr hlt)
      · simp only [hexpired, if_false, Option.some.injEq, Prod.mk.injEq]
        exact ⟨fun h => ⟨expiresAt, ⟨h, rfl⟩, not_le.mp hexpired⟩, fun ⟨_, h, _⟩ => h.1⟩

section Entries

variable (key : Str) (data : List (Str × π × ℚ))

theorem mem_erase {e : Str × π × ℚ} : e ∈ erase key data ↔ e ∈ data ∧ e.1 ≠ key := by
  simp [erase]

theorem mem_of_mem_evict {most : ℤ} {e : Str × π × ℚ} (h : e ∈ evict most data) : e ∈ data := by
  induction data with
  | nil => simp [evict] at h
  | cons first rest ih =>
      rw [evict] at h
      split at h
      · exact List.mem_cons_of_mem _ (ih h)
      · exact h

end Entries

theorem mem_of_entry {cache : PayloadCache π} {key : Str} {stored : π × ℚ}
    (h : cache.entry key = some stored) : (key, stored) ∈ cache.data := by
  obtain ⟨before, after, hdata, -⟩ := List.lookup_eq_some_iff.mp h
  rw [hdata]
  exact List.mem_append_right _ List.mem_cons_self

theorem mem_get {cache : PayloadCache π} {key : Str} {now : ℚ} {e : Str × π × ℚ}
    (h : e ∈ (cache.get key now).2.data) : e ∈ cache.data := by
  unfold get at h
  cases hentry : cache.entry key with
  | none => simpa [hentry] using h
  | some stored =>
      obtain ⟨stored, expiresAt⟩ := stored
      simp only [hentry] at h
      split at h
      · exact ((mem_erase key cache.data).mp h).1
      · rcases List.mem_append.mp h with h | h
        · exact ((mem_erase key cache.data).mp h).1
        · rw [List.mem_singleton.mp h]
          exact mem_of_entry hentry

theorem mem_set_cases {cache : PayloadCache π} {key : Str} {payload : π} {now : ℚ}
    {e : Str × π × ℚ} (h : e ∈ (cache.set key payload now).data) :
    e = (key, payload, now + cache.activeTtl) ∨ e ∈ cache.data ∧ e.1 ≠ key := by
  have hmem := mem_of_mem_evict _ h
  rcases List.mem_append.mp hmem with hmem | hmem
  · exact .inr ((mem_erase key cache.data).mp hmem)
  · exact .inl (List.mem_singleton.mp hmem)

theorem mem_set {cache : PayloadCache π} {key : Str} {payload : π} {now : ℚ} {e : Str × π × ℚ}
    (h : e ∈ (cache.set key payload now).data) :
    e = (key, payload, now + cache.activeTtl) ∨ e ∈ cache.data :=
  (mem_set_cases h).imp_right And.left

end PayloadCache

end OpenctiLookup
