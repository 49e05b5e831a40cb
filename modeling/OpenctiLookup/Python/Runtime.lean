import Mathlib.Data.Rat.Floor
import OpenctiLookup.Python.Value

/-! What the standard library computes from tables or digests. A `Runtime`
holds those functions and nothing about them is assumed but the field laws, so
a theorem about every `Runtime` is one about the interpreter's own. -/
namespace OpenctiLookup.Python

/-- A fingerprint, `np.uint64`. -/
abbrev Word := Fin (2 ^ 64)

instance Word.neZero : NeZero (2 ^ 64) := ⟨by decide⟩

/-- A `datetime`, in seconds; an aware one is given by its instant. -/
inductive Datetime where
  | aware (instant : ℚ)
  | naive (wall : ℚ)
deriving DecidableEq

structure Runtime where
  /-- Lowercase of a code point outside ASCII, U+0130 and U+03A3 excepted. -/
  lowerTable : Char → Char
  /-- Only the Kelvin sign lowercases into ASCII. -/
  lowerTable_ascii : ∀ c, isAscii (lowerTable c) = true → isAscii c = true ∨ c = '\u212a'
  /-- Whether the capital sigma at this place of this text is a final one. -/
  finalSigma : Str → Nat → Bool
  /-- The value of a decimal digit outside ASCII, category Nd. -/
  decimalTable : Char → Option Nat
  /-- `unicodedata.normalize("NFKC", s)`. -/
  nfkc : Str → Str
  /-- `s.encode("idna").decode("ascii")`, `none` for a `UnicodeError`. -/
  idna : Str → Option Str
  idna_ascii : ∀ s out, idna s = some out → isascii out = true
  /-- Whether `s.encode("utf-8")` returns. A lone surrogate is no `Char`: a text with one, which
  `json.loads` makes of an escape, stands as some text that is refused here. -/
  encodes : Str → Bool
  /-- `int.from_bytes(blake2b(s, digest_size=8).digest(), "big")`. -/
  blake2b : Str → Word
  /-- `datetime.fromisoformat(s)`, `none` for a `ValueError`. -/
  fromisoformat : Str → Option Datetime
  /-- `str(x)` of a number with a point, a list or a `dict`. -/
  repr : Json → Str
  /-- `int(s)`, `none` for a `ValueError`. -/
  intOfStr : Str → Option ℤ

namespace Runtime

variable (rt : Runtime)

def lowerChar (s : Str) (c : Char) (index : Nat) : Str :=
  if isAscii c then [asciiLower c]
  else if c = '\u0130' then ['i', '\u0307']
  else if c = '\u03a3' then [if rt.finalSigma s index then '\u03c2' else '\u03c3']
  else [rt.lowerTable c]

/-- `s.lower()`: full lowercasing, in which U+0130 becomes two characters. -/
def lower (s : Str) : Str :=
  s.zipIdx.flatMap fun p => rt.lowerChar s p.1 p.2

/-- The value of a character `\d` matches. -/
def digitValue (c : Char) : Option Nat :=
  if isAscii c then if isAsciiDigit c then some (asciiDigitValue c) else none
  else rt.decimalTable c

def isDecimal (c : Char) : Bool := (rt.digitValue c).isSome

/-- `s.encode("utf-8")`, for what it may raise. -/
def encode (s : Str) : Py Unit :=
  if rt.encodes s then .ok () else .error (.raised .unicodeEncodeError)

/-- `int(s)` for text that `\d+` matched. -/
def digitsInt (s : Str) : Nat :=
  s.foldl (fun n c => 10 * n + (rt.digitValue c).getD 0) 0

/-- `str(x)`. -/
def strOf : Json → Str
  | .null => "None"
  | .bool b => if b then "True" else "False"
  | .int n => if n < 0 then "-" ++ decimal n.natAbs else decimal n.natAbs
  | .str s => s
  | x => rt.repr x

/-- `int(x)`. -/
def intOf : Json → Py ℤ
  | .null => .error (.raised .typeError)
  | .bool b => .ok (if b then 1 else 0)
  | .int n => .ok n
  | .float q => .ok (if q < 0 then -⌊-q⌋ else ⌊q⌋)
  | .str s =>
      match rt.intOfStr s with
      | some n => .ok n
      | none => .error (.raised .valueError)
  | .arr _ => .error (.raised .typeError)
  | .obj _ => .error (.raised .typeError)

/-- The standard library on ASCII texts, with the digests of those that are
hashed. Off that domain its tables are empty. -/
def ofAscii (digests : List (Str × Word)) : Runtime where
  lowerTable := id
  lowerTable_ascii _ h := .inl h
  finalSigma _ _ := false
  decimalTable _ := none
  nfkc := id
  idna s := if isascii s then some s else none
  idna_ascii s out h := by
    split at h
    · cases h
      assumption
    · cases h
  encodes _ := true
  blake2b s := (digests.lookup s).getD 0
  fromisoformat _ := none
  repr _ := []
  intOfStr _ := none

end Runtime

end OpenctiLookup.Python
