import OpenctiLookup.Python.Text

/-! The part of Python's `re` that tests a text against a pattern: classes,
bounded and unbounded repetition, lookaround and anchors. Only whether a match
exists matters here, so the matcher returns every position a match can end at
and backtracking order disappears. -/
namespace OpenctiLookup.Python

inductive Regex where
  | empty
  | cls (accepts : Char → Bool)
  | seq (first second : Regex)
  | alt (left right : Regex)
  /-- `body{least,}` when `most` is absent, else `body{least,most}`. -/
  | rep (body : Regex) (least : Nat) (most : Option Nat)
  | lookahead (body : Regex)
  | notAhead (body : Regex)
  /-- `(?<!c)` for a one-character class. -/
  | notBehind (accepts : Char → Bool)
  | caret
  | dollar

namespace Regex

/-- A position in a text: what was read, last character first, and what is left. -/
structure Cursor where
  before : Str
  after : Str
deriving DecidableEq

/-- `rounds` further repetitions of a body, each of which has to consume. -/
def repeatEnds (ends : Cursor → List Cursor) : Nat → Cursor → List Cursor
  | 0, at_ => [at_]
  | rounds + 1, at_ =>
      at_ :: ((ends at_).filter fun next => next.after.length < at_.after.length).flatMap
        (repeatEnds ends rounds)

/-- Exactly `rounds` repetitions of a body. -/
def exactEnds (ends : Cursor → List Cursor) : Nat → Cursor → List Cursor
  | 0, at_ => [at_]
  | rounds + 1, at_ => (ends at_).flatMap (exactEnds ends rounds)

/-- The positions a match starting at the cursor can end at. -/
def ends : Regex → Cursor → List Cursor
  | empty, at_ => [at_]
  | cls accepts, at_ =>
      match at_.after with
      | [] => []
      | c :: rest => if accepts c then [⟨c :: at_.before, rest⟩] else []
  | seq first second, at_ => (first.ends at_).flatMap second.ends
  | alt left right, at_ => left.ends at_ ++ right.ends at_
  | rep body least most, at_ =>
      (exactEnds body.ends least at_).flatMap fun here =>
        repeatEnds body.ends (match most with
          | some bound => bound - least
          | none => here.after.length) here
  | lookahead body, at_ => if (body.ends at_).isEmpty then [] else [at_]
  | notAhead body, at_ => if (body.ends at_).isEmpty then [at_] else []
  | notBehind accepts, at_ =>
      match at_.before with
      | [] => [at_]
      | c :: _ => if accepts c then [] else [at_]
  | caret, at_ => if at_.before.isEmpty then [at_] else []
  -- Without MULTILINE the dollar also matches before one final newline.
  | dollar, at_ => if at_.after = [] ∨ at_.after = ['\n'] then [at_] else []

/-- `pattern.match(text)` as a truth value. -/
def isMatch (pattern : Regex) (text : Str) : Bool :=
  !(pattern.ends ⟨[], text⟩).isEmpty

def chr (c : Char) : Regex := cls (· == c)

def concat (parts : List Regex) : Regex := parts.foldr seq empty

end Regex

end OpenctiLookup.Python
