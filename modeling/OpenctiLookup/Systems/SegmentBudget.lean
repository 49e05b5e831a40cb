import OpenctiLookup.Systems.Rebuild

/-! The size of the segments `load` and `_rebuild` make. The ceiling on the entries is the
budget in words, and none at all where that comes to zero. -/
namespace OpenctiLookup
open Python

variable (rt : Runtime) (settings : Settings) (client : BootstrapClient) (now : ℚ) (budgetBytes : ℕ)

/-- The sets that come with a segment of their own: those of the builder and of a worker that
shares nothing, and those of a rebuild. -/
inductive Builds : MembershipSet → Prop
  | load {lockFree : Bool} {waited host host' : Host} {loaded : LoadedMembership}
      {set : MembershipSet} :
      OpenctiLookup.load rt settings client now budgetBytes lockFree waited host =
        .ok (loaded, host') →
      loaded.role = .builder ∨ loaded.role = .solo → loaded.membership = some set → Builds set
  | rebuild {host host' : Host} {backend backend' : SplitBackend} :
      OpenctiLookup.rebuild rt settings client now budgetBytes host backend =
        .ok (host', backend') →
      Builds backend'.membership

def MembershipSet.WithinBudget (set : MembershipSet) (budgetBytes : ℕ) : Prop :=
  set.count * itemSize ≤ budgetBytes

section Budget

variable {rt settings client now budgetBytes} {set : MembershipSet} {corpus : List Str}

/-- Whichever way it comes about, a set with a segment of its own has the packed words and the
count of one build. -/
theorem buildMembership_of_builds (h : Builds rt settings client now budgetBytes set) :
    ∃ name segments built report segments',
      buildMembership rt settings client (maxEntriesOf budgetBytes) name segments =
        .ok (built, report, segments') ∧ built.count = set.count := by
  cases h with
  | load hload hrole hset =>
      obtain ⟨name, segments, report, segments', hbuild⟩ :=
        buildMembership_of_load hload (by rcases hrole with hrole | hrole <;> simp [hrole]) hset
      exact ⟨name, segments, set, report, segments', hbuild, rfl⟩
  | rebuild hrebuild =>
      obtain ⟨built, hbuilt, h⟩ := bind_eq_ok_iff.mp hrebuild
      cases h
      obtain ⟨report, segments, hbuild, -⟩ := buildGeneration_eq_ok hbuilt
      exact ⟨_, _, _, _, _, hbuild, rfl⟩

theorem count_buildMembership_le {name : Option Str} {segments segments' : Segments}
    {report : BootstrapReport} {most : ℕ}
    (h : buildMembership rt settings client (some most) name segments =
      .ok (set, report, segments')) : set.count ≤ most := by
  obtain ⟨values, truncated, -, hbuild⟩ := buildMembership_eq_ok h
  obtain ⟨hok, -, hpacked, -⟩ := MembershipSet.build_spec hbuild
  rw [hok.count_eq, hpacked]
  exact MembershipSet.length_packedArray_le rt values most

theorem maxEntriesOf_eq_some (h : itemSize ≤ budgetBytes) :
    maxEntriesOf budgetBytes = some (budgetBytes / itemSize) := by
  have hpositive : budgetBytes / itemSize ≠ 0 :=
    (Nat.div_pos h (by decide)).ne'
  rw [maxEntriesOf, if_neg hpositive]

/-- A segment keeps to the budget when that has room for one word, and otherwise only if
nothing is packed. -/
theorem segment_within_budget_iff (h : Builds rt settings client now budgetBytes set) :
    (itemSize ≤ budgetBytes → set.WithinBudget budgetBytes) ∧
      (Serves settings client .null corpus →
        (set.WithinBudget budgetBytes ↔
          itemSize ≤ budgetBytes ∨ keysOf rt settings corpus = [])) := by
  obtain ⟨name, segments, built, report, segments', hbuild, hcount⟩ := buildMembership_of_builds h
  have hwithin : itemSize ≤ budgetBytes → set.WithinBudget budgetBytes := by
    intro hroom
    rw [maxEntriesOf_eq_some hroom] at hbuild
    calc set.count * itemSize ≤ budgetBytes / itemSize * itemSize :=
          Nat.mul_le_mul_right _ (hcount ▸ count_buildMembership_le hbuild)
      _ ≤ budgetBytes := Nat.div_mul_le_self _ _
  refine ⟨hwithin, fun hserves => ?_⟩
  have hok := (buildMembership_fresh hbuild).1
  have hpacked := packed_eq_nil_iff hserves (fun _ => @maxEntriesOf_pos budgetBytes _) hbuild
  rw [MembershipSet.WithinBudget, ← hpacked, ← hcount, hok.count_eq]
  constructor
  · intro hle
    by_contra hneither
    push Not at hneither
    have hpositive := List.length_pos_of_ne_nil hneither.2
    have hsmall := hneither.1
    rw [itemSize] at hle hsmall
    omega
  · rintro (hroom | hempty)
    · have hle := hwithin hroom
      rw [MembershipSet.WithinBudget, ← hcount, hok.count_eq] at hle
      exact hle
    · rw [hempty]
      exact Nat.zero_le _

end Budget

section BudgetSample

theorem builds_evil (budgetBytes : ℕ) : ∃ set,
    Builds sampleRuntime (sampleSettings 50000) (.onePage ["evil.com"]) 0 budgetBytes set := by
  obtain ⟨built, hbuilt⟩ := (@buildGeneration_healthy _ _ budgetBytes _ _ (healthy_sample 50000) 0 1
    ⟨[], none⟩).mpr (.inr (by simp))
  have hrebuild : OpenctiLookup.rebuild sampleRuntime (sampleSettings 50000)
      (.onePage ["evil.com"]) 0 budgetBytes ⟨[], none⟩ (sampleWorker 50000).split =
        .ok (installGeneration none built (sampleWorker 50000).split) :=
    bind_eq_ok_iff.mpr ⟨built, hbuilt, rfl⟩
  exact ⟨_, .rebuild hrebuild⟩

/-- A budget of one word has room for the one fingerprint. -/
theorem segment_within_budget_one_word : ∃ set,
    Builds sampleRuntime (sampleSettings 50000) (.onePage ["evil.com"]) 0 8 set ∧
      set.WithinBudget 8 := by
  obtain ⟨set, hbuilds⟩ := builds_evil 8
  exact ⟨set, hbuilds, ((segment_within_budget_iff hbuilds).2
    (healthy_sample 50000).serves).mpr (.inl le_rfl)⟩

/-- A budget of nothing is no ceiling. -/
theorem segment_over_empty_budget :
    ¬ ∀ (rt : Runtime) (settings : Settings) (client : BootstrapClient) (now : ℚ) (budgetBytes : ℕ)
      (set : MembershipSet), Builds rt settings client now budgetBytes set →
      set.WithinBudget budgetBytes := by
  intro hall
  obtain ⟨set, hbuilds⟩ := builds_evil 0
  have hwithin := hall _ _ _ _ _ _ hbuilds
  obtain ⟨name, segments, built, report, segments', hbuild, hcount⟩ :=
    buildMembership_of_builds hbuilds
  have hempty : built.packed = [] := by
    rw [← List.length_eq_zero_iff, ← (buildMembership_fresh hbuild).1.count_eq, hcount]
    rw [MembershipSet.WithinBudget, itemSize] at hwithin
    omega
  have hkeys := (packed_eq_nil_iff (healthy_sample 50000).serves
    (fun _ => @maxEntriesOf_pos 0 _) hbuild).mp hempty
  rw [keysOf_evil] at hkeys
  cases hkeys

end BudgetSample

end OpenctiLookup
