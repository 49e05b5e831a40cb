import OpenctiLookup.Backends.Membership

/-! `backends/shared_state.py`: the segments and the state file that let the
workers of a host agree on one membership set. -/
namespace OpenctiLookup
open Python

def segmentPrefix : Str := "octi_membership_"

/-- `segment_name`: one name per generation, so a rebuild is a new segment. -/
def segmentName (generation : ℕ) : Str := segmentPrefix ++ decimal generation

structure SharedMembershipState where
  shmName : Str
  count : ℕ
  generation : ℕ
  builtAt : ℚ
  corpus : ℤ
deriving DecidableEq

/-- What the processes of one machine share: the POSIX segments and the state
file, which only `publish` writes. -/
structure Host where
  segments : Segments
  stateFile : Option SharedMembershipState
deriving DecidableEq

namespace Host

def read (host : Host) : Option SharedMembershipState := host.stateFile

/-- `publish` as readers see it: `os.replace` makes the state file new at once. -/
def publish (host : Host) (state : SharedMembershipState) : Host :=
  { host with stateFile := some state }

def nextGeneration (host : Host) : ℕ :=
  match host.read with
  | some current => current.generation + 1
  | none => 1

def sweepStaleSegments (host : Host) (keep : List Str) : Host :=
  { host with
    segments := host.segments.filter fun segment =>
      !startsWith segmentPrefix segment.name || decide (segment.name ∈ keep) }

end Host

theorem segmentName_injective : Function.Injective segmentName := by
  intro g g' h
  have hdecimal : decimal g = decimal g' := List.append_cancel_left h
  have hvalue := congrArg (fun digits => Nat.ofDigitChars 10 digits 0) hdecimal
  simpa only [decimal, Nat.ofDigitChars_ten_toDigits] using hvalue

end OpenctiLookup
