import Mathlib.Tactic.NormNum
import OpenctiLookup.Python.Runtime

/-! `memory.py`: how much memory the service may use, with the settings that decide it. -/
namespace OpenctiLookup
open Python

/-- The memory settings of `config.py`; none for `auto`. -/
structure MemorySettings where
  workers : ℤ := 4
  mirrorMaxMemoryMb : Option ℤ := none
  payloadCacheMaxMb : Option ℤ := none
  memoryFraction : ℚ := 1 / 2
  memoryReserveMb : ℤ := 512
  fraction_pos : 0 < memoryFraction := by norm_num
  fraction_le : memoryFraction ≤ 1 := by norm_num

namespace Memory

def mb : ℤ := 1024 * 1024

def v1Unlimited : ℤ := 2 ^ 62

/-- What the host says: the texts of the two cgroup files, where they can be read, and its
total memory. -/
structure Readings where
  cgroupV2 : Option Str
  cgroupV1 : Option Str
  total : ℤ

structure MemoryBudget where
  detectedLimit : ℤ
  source : Str
  usable : ℤ
  perWorker : ℤ
  workers : ℤ
deriving DecidableEq

variable (rt : Runtime)

def limitIn (text : Str) : Option ℤ :=
  let raw := strip text
  if raw = "max" then none
  else (rt.intOfStr raw).filter fun value => 0 < value ∧ value < v1Unlimited

/-- `_read_cgroup_limit`: version 2 before version 1. -/
def readCgroupLimit (readings : Readings) : Option ℤ :=
  (readings.cgroupV2.bind (limitIn rt)).or (readings.cgroupV1.bind (limitIn rt))

/-- `int(q)`. -/
def truncate (q : ℚ) : ℤ := if q < 0 then -⌊-q⌋ else ⌊q⌋

def intText (n : ℤ) : Str := rt.strOf (.int n)

def MemoryBudget.describe (budget : MemoryBudget) : Str :=
  "limit=" ++ intText rt (budget.detectedLimit / mb) ++ "MB (" ++ budget.source ++ ") usable=" ++
    intText rt (budget.usable / mb) ++ "MB workers=" ++ intText rt budget.workers ++
    " per_worker=" ++ intText rt (budget.perWorker / mb) ++ "MB"

/-- `detect`. The divisors are positive, so `/` is `//`. -/
def detect (readings : Readings) (workers : ℤ) (fraction : ℚ) (reserveBytes : ℤ)
    (overrideBytes : Option ℤ) : MemoryBudget :=
  let host := readings.total
  let (detected, source) : ℤ × Str :=
    match readCgroupLimit rt readings with
    | some cgroup => if cgroup < host then (cgroup, "cgroup") else (host, "host")
    | none => (host, "host")
  let usable :=
    match overrideBytes with
    | some bytes => bytes
    | none => max 0 (truncate ((detected - reserveBytes : ℤ) * fraction))
  let usable := min usable (max 0 (detected - reserveBytes))
  { detectedLimit := detected, source, usable, perWorker := usable / max 1 workers, workers }

variable {rt} {readings : Readings} {workers reserveBytes : ℤ} {fraction : ℚ}
  {overrideBytes : Option ℤ}

theorem usable_detect_le :
    (detect rt readings workers fraction reserveBytes overrideBytes).usable ≤
      max 0 ((detect rt readings workers fraction reserveBytes overrideBytes).detectedLimit -
        reserveBytes) := min_le_right _ _

theorem perWorker_detect :
    (detect rt readings workers fraction reserveBytes overrideBytes).perWorker =
      (detect rt readings workers fraction reserveBytes overrideBytes).usable / max 1 workers := rfl

end Memory

end OpenctiLookup
