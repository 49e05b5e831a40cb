import OpenctiLookup.Cache.History

/-! The TTL floor while the stream is unhealthy. An entry keeps the expiry it was stored
with, so the floor holds of what is stored under it, and of the rest only when a switch
finds nothing stored before. -/
namespace OpenctiLookup
open Python Theory

section Floor

variable {π : Type} (start : PayloadCache π)

/-- What the cache returns while it is degraded was stored `degraded_ttl_s` ago at most. -/
def Floored (past : List (CacheEvent π)) : Prop :=
  degradedAfter start past = true → ∀ key now payload, (∀ event ∈ past, event.time ≤ now) →
    ((cacheAfter start past).get key now).1 = some payload →
      ∃ s, lastStored start key past = some s ∧ now - s.time ≤ start.degradedTtl

/-- At every moment of a run, whatever is got next. -/
def FloorHolds (past : List (CacheEvent π)) : Prop :=
  ∀ later earlier, past = later ++ earlier → Floored start earlier

/-- When `set_degraded(True)` is called, every payload the cache would return was stored
under a TTL of `degraded_ttl_s` at most. -/
def CleanSwitch (earlier : List (CacheEvent π)) (event : CacheEvent π) : Prop :=
  event.op = .setDegraded true → ∀ key payload,
    ((cacheAfter start earlier).get key event.time).1 = some payload →
      ∃ s, lastStored start key earlier = some s ∧ s.ttl ≤ start.degradedTtl

def CleanSwitches (past : List (CacheEvent π)) : Prop :=
  ∀ later event earlier, past = later ++ event :: earlier → CleanSwitch start earlier event

variable {start} {past : List (CacheEvent π)} {event : CacheEvent π} {key : Str} {s : Stored π}

theorem CleanSwitches.tail (h : CleanSwitches start (event :: past)) : CleanSwitches start past :=
  fun later e earlier heq => h (event :: later) e earlier (by rw [heq]; rfl)

theorem entry_before {stored : π × ℚ}
    (hmem : (key, stored) ∈ (cacheAfter start (event :: past)).data)
    (hset : ∀ payload, event.op ≠ .set key payload) :
    (key, stored) ∈ (cacheAfter start past).data := by
  obtain ⟨op, time⟩ := event
  cases op with
  | get other => exact PayloadCache.mem_get hmem
  | set other payload =>
      rcases PayloadCache.mem_set hmem with heq | hmem
      · cases heq
        exact absurd rfl (hset payload)
      · exact hmem
  | invalidate other => exact ((PayloadCache.mem_erase other _).mp hmem).1
  | clear => cases hmem
  | setDegraded degraded => exact hmem

theorem lastStored_before (hmem : lastStored start key (event :: past) = some s)
    (hset : ∀ payload, event.op ≠ .set key payload) : lastStored start key past = some s := by
  obtain ⟨op, time⟩ := event
  cases op with
  | get other => exact hmem
  | set other payload =>
      have hother : other ≠ key := by
        rintro rfl
        exact hset payload rfl
      simpa [lastStored, hother] using hmem
  | invalidate other =>
      by_cases hother : other = key
      · simp [lastStored, hother] at hmem
      · simpa [lastStored, hother] using hmem
  | clear => cases hmem
  | setDegraded degraded => exact hmem

/-- While the cache is degraded, all that has not expired was stored under the floor: the
switch found nothing else, and nothing else was stored since. -/
theorem ttl_le_of_clean (htraces : ∀ past, Traces start past) (h : CleanSwitches start past)
    (hdegraded : degradedAfter start past = true) (hstart : start.degraded = false)
    (hstored : lastStored start key past = some s)
    (hmem : (key, s.payload, s.expiresAt) ∈ (cacheAfter start past).data)
    (hfresh : ∀ event ∈ past, event.time < s.expiresAt) : s.ttl ≤ start.degradedTtl := by
  induction past with
  | nil =>
      rw [degradedAfter, hstart] at hdegraded
      cases hdegraded
  | cons event past ih =>
      by_cases hset : ∃ payload, event.op = .set key payload
      · obtain ⟨payload, hop⟩ := hset
        have hhere : lastStored start key (event :: past) =
            some ⟨payload, event.time, ttlAfter start past⟩ := by simp [lastStored, hop]
        have hflag : degradedAfter start (event :: past) = degradedAfter start past := by
          simp [degradedAfter, hop]
        rw [hhere] at hstored
        obtain rfl := Option.some.inj hstored
        rw [hflag] at hdegraded
        simp [ttlAfter, hdegraded]
      · have hother : ∀ payload, event.op ≠ .set key payload := fun payload hop =>
          hset ⟨payload, hop⟩
        have hbefore := lastStored_before hstored hother
        have hentry := entry_before hmem hother
        by_cases hswitch : event.op = .setDegraded true
        · have hget : ((cacheAfter start past).get key event.time).1 = some s.payload :=
            PayloadCache.get_fst_eq_some_iff.mpr ⟨s.expiresAt,
              Recency.lookup_of_mem (htraces past).keyed hentry, hfresh event List.mem_cons_self⟩
          obtain ⟨s', hs', hle⟩ := h [] event past rfl hswitch key s.payload hget
          obtain rfl : s = s' := Option.some.inj (hbefore.symm.trans hs')
          exact hle
        · apply ih h.tail _ hbefore hentry fun e he => hfresh e (List.mem_cons_of_mem _ he)
          obtain ⟨op, time⟩ := event
          cases op with
          | setDegraded degraded =>
              have htrue : degraded = true := hdegraded
              exact absurd (by rw [htrue]) hswitch
          | get other => exact hdegraded
          | set other payload => exact hdegraded
          | invalidate other => exact hdegraded
          | clear => exact hdegraded

theorem cleanSwitches_of_append {later earlier : List (CacheEvent π)}
    (h : CleanSwitches start (later ++ earlier)) : CleanSwitches start earlier := by
  induction later with
  | nil => exact h
  | cons event later ih => exact ih h.tail

theorem floored_of_clean (htraces : ∀ past, Traces start past) (h : CleanSwitches start past)
    (hstart : start.degraded = false) : Floored start past := by
  intro hdegraded key now payload hpast hget
  obtain ⟨expiresAt, hentry, hlt⟩ := PayloadCache.get_fst_eq_some_iff.mp hget
  have hmem := PayloadCache.mem_of_entry hentry
  obtain ⟨s, hs, heq⟩ := (htraces past).known _ _ _ hmem
  obtain ⟨rfl, rfl⟩ := Prod.mk.inj heq
  refine ⟨s, hs, ?_⟩
  have hle := ttl_le_of_clean htraces h hdegraded hstart hs hmem fun event hevent =>
    (hpast event hevent).trans_lt hlt
  have hle : (s.ttl : ℚ) ≤ start.degradedTtl := by exact_mod_cast hle
  unfold Stored.expiresAt at hlt
  linarith

/-- A switch that finds an entry stored under a longer TTL lets it be returned when it is
older than the floor. -/
theorem clean_of_floored (hchron : Chronological (event :: past))
    (htraces : ∀ past, Traces start past) (h : Floored start (event :: past)) :
    CleanSwitch start past event := by
  intro hop key payload hget
  obtain ⟨expiresAt, hentry, hlt⟩ := PayloadCache.get_fst_eq_some_iff.mp hget
  obtain ⟨s, hs, heq⟩ := (htraces past).known _ _ _ (PayloadCache.mem_of_entry hentry)
  obtain ⟨rfl, rfl⟩ := Prod.mk.inj heq
  refine ⟨s, hs, ?_⟩
  by_contra hlonger
  have hlonger : (start.degradedTtl : ℚ) < s.ttl := by exact_mod_cast not_le.mp hlonger
  have hgap : max event.time (s.time + start.degradedTtl) < s.expiresAt := by
    apply max_lt hlt
    unfold Stored.expiresAt
    linarith
  obtain ⟨now, hnow, hfresh⟩ := exists_between hgap
  obtain ⟨hevent, hold⟩ := max_lt_iff.mp hnow
  have hdegraded : degradedAfter start (event :: past) = true := by simp [degradedAfter, hop]
  have hdata : (cacheAfter start (event :: past)).data = (cacheAfter start past).data := by
    simp [cacheAfter, PayloadCache.apply, hop, PayloadCache.setDegraded]
  have hlater : ∀ e ∈ event :: past, e.time ≤ now := by
    intro e he
    rcases List.mem_cons.mp he with rfl | he
    · exact hevent.le
    · exact ((List.pairwise_cons.mp hchron).1 e he).trans hevent.le
  have hreturned : ((cacheAfter start (event :: past)).get key now).1 = some s.payload :=
    PayloadCache.get_fst_eq_some_iff.mpr ⟨s.expiresAt, by rwa [PayloadCache.entry, hdata], hfresh⟩
  obtain ⟨s', hs', hyoung⟩ := h hdegraded key now s.payload hlater hreturned
  have hsame : lastStored start key (event :: past) = lastStored start key past := by
    simp [lastStored, hop]
  obtain rfl : s = s' := Option.some.inj (hs.symm.trans (hsame ▸ hs'))
  linarith

/-- The floor holds throughout a run exactly when each switch to it finds nothing the
cache would still return that was stored under a longer TTL. -/
theorem floor_holds_iff (budgetBytes maxEntryBytes ttlS degradedTtlS : ℤ)
    (past : List (CacheEvent π)) (hchron : Chronological past) :
    FloorHolds (.init budgetBytes maxEntryBytes ttlS degradedTtlS) past ↔
      CleanSwitches (.init budgetBytes maxEntryBytes ttlS degradedTtlS) past := by
  have hmost : (0 : ℤ) ≤ max 1 (budgetBytes / max 1 maxEntryBytes) :=
    le_trans (by decide) (le_max_left _ _)
  have htraces : ∀ past : List (CacheEvent π),
      Traces (.init budgetBytes maxEntryBytes ttlS degradedTtlS) past := fun past =>
    traces_cacheAfter hmost rfl past
  constructor
  · intro h later event earlier heq
    apply clean_of_floored _ htraces (h later (event :: earlier) heq)
    rw [heq] at hchron
    exact (List.pairwise_append.mp hchron).2.1
  · intro h later earlier heq
    rw [heq] at h
    exact floored_of_clean htraces (cleanSwitches_of_append h) rfl

/-- What is stored after the stream was lost is under the floor. -/
theorem floor_holds_iff_lost_first :
    FloorHolds (PayloadCache.init 1024 1024 86400 900 : PayloadCache ℕ)
      [⟨.set "a" 1, 1⟩, ⟨.setDegraded true, 0⟩] := by
  refine (floor_holds_iff 1024 1024 86400 900 _ (by simp [Chronological])).mpr ?_
  intro later event earlier heq hop key payload hget
  match later, heq with
  | [], heq =>
      cases heq
      cases hop
  | [_], heq =>
      cases heq
      cases hget
  | _ :: _ :: later, heq =>
      have hlength := congrArg List.length heq
      simp at hlength

def storedThenLost : List (CacheEvent ℕ) := [⟨.setDegraded true, 1⟩, ⟨.set "a" 1, 0⟩]

/-- An hour after the stream was lost, the cache still returns what it held before. -/
theorem healthy_entry_outlives_floor :
    ¬ ∀ (budgetBytes maxEntryBytes ttlS degradedTtlS : ℤ) (past : List (CacheEvent ℕ)),
      degradedTtlS ≤ ttlS → Chronological past →
        FloorHolds (.init budgetBytes maxEntryBytes ttlS degradedTtlS) past := by
  intro hall
  have hfloor := hall 1024 1024 86400 900 storedThenLost (by decide)
    (by simp [Chronological, storedThenLost]) [] storedThenLost rfl
  obtain ⟨s, hs, hyoung⟩ := hfloor rfl "a" 3600 1 (by simp [storedThenLost]) (by decide +kernel)
  obtain rfl : (⟨1, 0, 86400⟩ : Stored ℕ) = s := Option.some.inj hs
  norm_num [PayloadCache.init] at hyoung

end Floor

end OpenctiLookup
