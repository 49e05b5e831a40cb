import Mathlib.Data.List.DropRight

/-! Python's `str` as a sequence of Unicode scalar values, with the string
methods in the argument order of the language's own documentation. Everything
here is structural, so a text can be computed with as well as reasoned about.

That is the domain of every text of the development. A Python `str` can also hold lone
surrogates, which do not encode; what is said of values, replies and alerts leaves those texts
out. In the data of a stream event one stands as any text `Runtime.encodes` refuses. -/
namespace OpenctiLookup.Python

abbrev Str := List Char

instance : Coe String Str := ⟨String.toList⟩

instance : LawfulBEq Str := inferInstance

-- The library also decides a statement about every character there is, by trying
-- them all. What is said of the members of a text is decided along the text.
instance decidableAllChars (p : Char → Prop) [DecidablePred p] (s : Str) :
    Decidable (∀ c ∈ s, p c) :=
  s.decidableBAll p

instance decidableAnyChar (p : Char → Prop) [DecidablePred p] (s : Str) :
    Decidable (∃ c ∈ s, p c) :=
  s.decidableBEx p

instance decidableOptionChar (p : Char → Prop) [DecidablePred p] (o : Option Char) :
    Decidable (∀ c ∈ o, p c) :=
  o.decidableForallMem

def isAscii (c : Char) : Bool := c.val < 128

def isascii (s : Str) : Bool := s.all isAscii

def isAsciiDigit (c : Char) : Bool := '0' ≤ c && c ≤ '9'
def isAsciiLower (c : Char) : Bool := 'a' ≤ c && c ≤ 'z'
def isAsciiUpper (c : Char) : Bool := 'A' ≤ c && c ≤ 'Z'
def isAsciiAlpha (c : Char) : Bool := isAsciiLower c || isAsciiUpper c

def asciiLower (c : Char) : Char :=
  if isAsciiUpper c then Char.ofNat (c.toNat + 32) else c

/-- The code points `str.isspace` accepts, which is what `str.strip()` removes. -/
def isSpace (c : Char) : Bool :=
  let n := c.toNat
  (9 ≤ n && n ≤ 13) || (28 ≤ n && n ≤ 32) || n == 0x85 || n == 0xa0 || n == 0x1680 ||
    (0x2000 ≤ n && n ≤ 0x200a) || n == 0x2028 || n == 0x2029 || n == 0x202f ||
    n == 0x205f || n == 0x3000

def stripBy (p : Char → Bool) (s : Str) : Str := (s.dropWhile p).rdropWhile p

def strip (s : Str) : Str := stripBy isSpace s

def stripChars (chars s : Str) : Str := stripBy chars.contains s

def rstripChars (chars s : Str) : Str := s.rdropWhile chars.contains

/-- `s.startswith(start)`. -/
def startsWith (start s : Str) : Bool := start.isPrefixOf s

/-- `s.find(sub)`, with `none` for Python's -1. -/
def find (sub : Str) : Str → Option Nat
  | [] => if sub.isEmpty then some 0 else none
  | c :: rest => if sub.isPrefixOf (c :: rest) then some 0 else (find sub rest).map (· + 1)

/-- `sub in s`. -/
def isIn (sub s : Str) : Bool := (find sub s).isSome

/-- `s.partition(sep)` for a one-character separator; the flag says whether it
was found. -/
def partition (sep : Char) : Str → Str × Bool × Str
  | [] => ([], false, [])
  | c :: rest =>
      if c = sep then ([], true, rest)
      else
        let (head, found, tail) := partition sep rest
        (c :: head, found, tail)

/-- `s.rpartition(sep)`: an absent separator leaves the whole text at the end. -/
def rpartition (sep : Char) (s : Str) : Str × Bool × Str :=
  let (tail, found, head) := partition sep s.reverse
  if found then (head.reverse, true, tail.reverse) else ([], false, s)

/-- `s.split(sep)` for a one-character separator; never the empty list. -/
def split (sep : Char) : Str → List Str
  | [] => [[]]
  | c :: rest =>
      if c = sep then [] :: split sep rest
      else
        match split sep rest with
        | [] => [[c]]
        | part :: parts => (c :: part) :: parts

/-- `sep.join(parts)`. -/
def join (sep : Str) (parts : List Str) : Str := sep.intercalate parts

/-- `s.replace(old, new)` for a one-character `old`. -/
def replaceChar (old : Char) (new s : Str) : Str :=
  s.flatMap fun c => if c = old then new else [c]

/-- `str(n)` for a natural number. -/
def decimal (n : Nat) : Str := Nat.toDigits 10 n

/-- `'%x' % n`. -/
def hex (n : Nat) : Str := Nat.toDigits 16 n

def asciiDigitValue (c : Char) : Nat := c.toNat - '0'.toNat

/-- `int(s, 10)` for text already known to hold ASCII digits only. -/
def asciiInt (s : Str) : Nat := s.foldl (fun n c => 10 * n + asciiDigitValue c) 0

def hexDigitValue (c : Char) : Option Nat :=
  if isAsciiDigit c then some (asciiDigitValue c)
  else if 'a' ≤ c && c ≤ 'f' then some (c.toNat - 'a'.toNat + 10)
  else if 'A' ≤ c && c ≤ 'F' then some (c.toNat - 'A'.toNat + 10)
  else none

example : split '.' "a..b" = ["a", "", "b"] := by decide
example : rpartition '@' "u@v@host" = ("u@v".toList, true, "host".toList) := by decide

end OpenctiLookup.Python
