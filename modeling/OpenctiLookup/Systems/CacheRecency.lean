import OpenctiLookup.Cache.History

/-! The payload cache as its history tells it: what a `get` returns, and until when. -/
namespace OpenctiLookup
open Python Theory

section Recency

variable {π : Type} {start : PayloadCache π} {past : List (CacheEvent π)} {key : Str} {now : ℚ}

theorem one_le_maxEntries_init (budgetBytes maxEntryBytes ttlS degradedTtlS : ℤ) :
    1 ≤ (PayloadCache.init budgetBytes maxEntryBytes ttlS degradedTtlS :
      PayloadCache π).maxEntries :=
  le_max_left _ _

theorem Traces.stored_of_get (h : Traces start past) {payload : π}
    (hget : ((cacheAfter start past).get key now).1 = some payload) :
    ∃ s, lastStored start key past = some s ∧ s.payload = payload ∧ now < s.expiresAt := by
  obtain ⟨expiresAt, hentry, hlt⟩ := PayloadCache.get_fst_eq_some_iff.mp hget
  obtain ⟨s, hs, heq⟩ := h.known _ _ _ (PayloadCache.mem_of_entry hentry)
  obtain ⟨hpayload, hexpires⟩ := Prod.mk.inj heq
  exact ⟨s, hs, hpayload.symm, hexpires ▸ hlt⟩

theorem Traces.get_of_stored (h : Traces start past) {s : Stored π}
    (hs : lastStored start key past = some s) (hpast : ∀ event ∈ past, event.time ≤ now)
    (hlt : now < s.expiresAt) (hroom : ((usedSince start key past).card : ℤ) < start.maxEntries) :
    ((cacheAfter start past).get key now).1 = some s.payload := by
  rcases h.placed key s hs with hplaced | hfull | ⟨event, hevent, hle⟩
  · rw [PayloadCache.get_fst_eq_some_iff]
    exact ⟨s.expiresAt, Recency.lookup_of_mem h.keyed hplaced.mem, hlt⟩
  · omega
  · exact absurd (hle.trans (hpast event hevent)) (not_le.mpr hlt)

/-- Never more entries than the ceiling; what is returned is what was last stored, before
its TTL is over; and that is returned unless as many other keys were used since. -/
theorem cache_follows_history (budgetBytes maxEntryBytes ttlS degradedTtlS : ℤ)
    (past : List (CacheEvent π)) (key : Str) (now : ℚ) (hpast : ∀ event ∈ past, event.time ≤ now) :
    let start : PayloadCache π := .init budgetBytes maxEntryBytes ttlS degradedTtlS
    ((cacheAfter start past).data.length : ℤ) ≤ (cacheAfter start past).maxEntries ∧
      (∀ payload, ((cacheAfter start past).get key now).1 = some payload →
        ∃ s, lastStored start key past = some s ∧ s.payload = payload ∧ now < s.expiresAt) ∧
      ∀ s, lastStored start key past = some s → now < s.expiresAt →
        ((usedSince start key past).card : ℤ) < (cacheAfter start past).maxEntries →
          ((cacheAfter start past).get key now).1 = some s.payload := by
  intro start
  have hone : 1 ≤ start.maxEntries :=
    one_le_maxEntries_init budgetBytes maxEntryBytes ttlS degradedTtlS
  have htraces : Traces start past := traces_cacheAfter (by omega) rfl past
  rw [(settings_cacheAfter start past).1]
  exact ⟨htraces.bounded, fun payload hget => htraces.stored_of_get hget,
    fun s hs hlt hroom => htraces.get_of_stored hs hpast hlt hroom⟩

/-- Two entries fit: the key got in between outlives a third. -/
def gotBetween : List (CacheEvent ℕ) :=
  [⟨.set "c" 3, 3⟩, ⟨.get "a", 2⟩, ⟨.set "b" 2, 1⟩, ⟨.set "a" 1, 0⟩]

theorem cache_follows_history_got : ((cacheAfter (PayloadCache.init 2048 1024 10 5)
    gotBetween).get "a" 4).1 = some 1 := by
  have hused : usedSince (PayloadCache.init 2048 1024 10 5) "a" gotBetween = {"c".toList} := by
    decide +kernel
  have hfollows := cache_follows_history 2048 1024 10 5 gotBetween "a" 4 (by decide)
  refine hfollows.2.2 ⟨1, 0, 10⟩ rfl (by decide +kernel) ?_
  rw [hused]
  decide +kernel

end Recency

end OpenctiLookup
