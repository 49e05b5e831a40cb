import Mathlib.Tactic.Linarith
import OpenctiLookup.Main
import OpenctiLookup.Opencti.Events

/-! The two memory budgets together, with the payload cache on `auto`. The cache of a
worker is never given less than 8 MB, however little is usable. -/
namespace OpenctiLookup
open Python

/-- What the service may take in all: the shared set and the caches of its workers. -/
def Budgets.total (budgets : Budgets) (workers : ℤ) : ℤ :=
  budgets.membershipBytes + workers * budgets.payloadBytes

section Split

variable {usable workers : ℤ}

theorem quarters_le (hworkers : 1 ≤ workers) (husable : 0 ≤ usable / workers) :
    workers * (usable / workers / 4) ≤ usable := by
  have hquarter : usable / workers / 4 ≤ usable / workers := by omega
  have hshare := Int.ediv_mul_le usable (by omega : workers ≠ 0)
  have hmul := mul_le_mul_of_nonneg_left hquarter (by omega : 0 ≤ workers)
  linarith [mul_comm workers (usable / workers)]

theorem parts_eq (hworkers : 1 ≤ workers) {floor : ℤ} (hfloor : 0 < floor) :
    max 0 (usable - max floor (usable / workers / 4) * workers) +
        workers * max floor (usable / workers / 4) = max usable (floor * workers) := by
  rw [mul_comm workers]
  rcases le_total (usable / workers / 4) floor with hle | hle
  · rw [max_eq_left hle, max_add, zero_add, sub_add_cancel, max_comm]
  · have hparts := quarters_le hworkers (by omega : 0 ≤ usable / workers)
    have hfloors := mul_le_mul_of_nonneg_right hle (by omega : 0 ≤ workers)
    rw [mul_comm] at hparts
    rw [max_eq_right hle, max_eq_right (by linarith), max_eq_left (by linarith), sub_add_cancel]

end Split

theorem total_resolveBudgets {rt : Runtime} {settings : MemorySettings} {readings : Memory.Readings}
    (hworkers : 1 ≤ settings.workers) (hauto : settings.payloadCacheMaxMb = none) :
    (resolveBudgets rt settings readings).total settings.workers =
      max (resolveBudgets rt settings readings).budget.usable
        (8 * Memory.mb * settings.workers) := by
  unfold resolveBudgets Budgets.total
  rw [hauto]
  dsimp only
  rw [Memory.perWorker_detect, max_eq_right hworkers]
  exact parts_eq hworkers (by decide)

/-- The budgets add up to the usable one, or to 8 MB a worker where that is more; what is
usable leaves the reserve alone. -/
theorem budgets_total (rt : Runtime) (settings : MemorySettings) (readings : Memory.Readings)
    (hworkers : 1 ≤ settings.workers) (hauto : settings.payloadCacheMaxMb = none) :
    (resolveBudgets rt settings readings).total settings.workers =
        max (resolveBudgets rt settings readings).budget.usable
          (8 * Memory.mb * settings.workers) ∧
      (resolveBudgets rt settings readings).budget.usable ≤
        max 0 ((resolveBudgets rt settings readings).budget.detectedLimit -
          settings.memoryReserveMb * Memory.mb) :=
  ⟨total_resolveBudgets hworkers hauto, Memory.usable_detect_le⟩

def smallHost : Memory.Readings := ⟨none, none, 536870912⟩

theorem budgets_total_small :
    (resolveBudgets sampleRuntime {} smallHost).total 4 =
        max (resolveBudgets sampleRuntime {} smallHost).budget.usable
          (8 * Memory.mb * 4) ∧
      (resolveBudgets sampleRuntime {} smallHost).budget.usable ≤
        max 0 ((resolveBudgets sampleRuntime {} smallHost).budget.detectedLimit -
          512 * Memory.mb) :=
  budgets_total sampleRuntime {} smallHost (by decide) rfl

/-- Nothing is usable, and the four workers are given 32 MB. -/
theorem floors_above_usable :
    ¬ ∀ (rt : Runtime) (settings : MemorySettings) (readings : Memory.Readings),
      1 ≤ settings.workers → settings.payloadCacheMaxMb = none →
        (resolveBudgets rt settings readings).total settings.workers ≤
            (resolveBudgets rt settings readings).budget.usable ∧
          (resolveBudgets rt settings readings).budget.usable ≤
            max 0 ((resolveBudgets rt settings readings).budget.detectedLimit -
              settings.memoryReserveMb * Memory.mb) := by
  intro hall
  obtain ⟨htotal, husable⟩ := hall sampleRuntime {} smallHost (by decide) rfl
  have hlimit : (resolveBudgets sampleRuntime {} smallHost).budget.detectedLimit =
    536870912 := by decide
  rw [total_resolveBudgets (by decide) rfl] at htotal
  have hfloors := (le_max_right _ _).trans (htotal.trans husable)
  rw [hlimit] at hfloors
  exact absurd hfloors (by decide)

end OpenctiLookup
