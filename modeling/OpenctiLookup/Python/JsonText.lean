import OpenctiLookup.Python.IpaddressLemmas
import OpenctiLookup.Python.Value

/-! The text of a value: what `json.dumps` writes, and what `json.loads` makes of any text.
NaN, the infinities and lone surrogates, which Python reads and writes too, are no values
here and are refused. -/
namespace OpenctiLookup.Python.JsonText

/-- `repr` of a float, and `float` of a number's text. -/
structure Floats where
  text : ℚ → Str
  value : Str → ℚ

/-- A `JSONDecodeError`, which is a `ValueError`. -/
def invalid {α : Type} : Py α := .error (.raised .valueError)

/-- `sys.int_info.default_max_str_digits`: `int` takes and gives no longer text. -/
def maxStrDigits : ℕ := 4300

section Strings

/-- `'{:04x}'.format(n)`. -/
def digits4 (n : ℕ) : Str :=
  [Nat.digitChar (n / 4096 % 16), Nat.digitChar (n / 256 % 16), Nat.digitChar (n / 16 % 16),
    Nat.digitChar (n % 16)]

def unicodeEscape (n : ℕ) : Str := '\x5c' :: 'u' :: digits4 n

/-- A character of a string literal, with `ensure_ascii`. -/
def escapeChar (c : Char) : Str :=
  if c = '\x22' then "\\\""
  else if c = '\x5c' then "\\\\"
  else if c = '\n' then "\\n"
  else if c = '\r' then "\\r"
  else if c = '\t' then "\\t"
  else if c = '\x08' then "\\b"
  else if c = '\x0c' then "\\f"
  else if 32 ≤ c.toNat ∧ c.toNat ≤ 126 then [c]
  else if c.toNat < 0x10000 then unicodeEscape c.toNat
  else
    unicodeEscape (0xd800 + (c.toNat - 0x10000) / 0x400) ++
      unicodeEscape (0xdc00 + (c.toNat - 0x10000) % 0x400)

def quote (s : Str) : Str := '\x22' :: (s.flatMap escapeChar ++ ['\x22'])

/-- Four hexadecimal digits, and what follows them. -/
def scanHex4 : Str → Option (ℕ × Str)
  | a :: b :: c :: d :: rest => do
      let a ← hexDigitValue a
      let b ← hexDigitValue b
      let c ← hexDigitValue c
      let d ← hexDigitValue d
      pure (a * 4096 + b * 256 + c * 16 + d, rest)
  | _ => none

/-- What follows the `\u` of an escape: one unit, or the two of a surrogate pair. -/
def scanUnicode (s : Str) : Option (Char × Str) := do
  let (n, rest) ← scanHex4 s
  if 0xd800 ≤ n ∧ n < 0xe000 then
    match rest with
    | '\x5c' :: 'u' :: more => do
        let (low, rest) ← scanHex4 more
        if n < 0xdc00 ∧ 0xdc00 ≤ low ∧ low < 0xe000 then
          pure (Char.ofNat (0x10000 + (n - 0xd800) * 0x400 + (low - 0xdc00)), rest)
        else none
    | _ => none
  else pure (Char.ofNat n, rest)

def unescape (c : Char) : Option Char :=
  if c = '\x22' ∨ c = '\x5c' ∨ c = '/' then some c
  else if c = 'n' then some '\n'
  else if c = 'r' then some '\r'
  else if c = 't' then some '\t'
  else if c = 'b' then some '\x08'
  else if c = 'f' then some '\x0c'
  else none

/-- The first character of the rest of a string literal. -/
def scanChar : Str → Option (Char × Str)
  | [] => none
  | c :: rest =>
      if c = '\x5c' then
        match rest with
        | [] => none
        | d :: rest => if d = 'u' then scanUnicode rest else (unescape d).map (·, rest)
      else if c.toNat < 32 then none
      else some (c, rest)

/-- A string literal behind its opening quote. The fuel is for the characters. -/
def scanString : ℕ → Str → Option (Str × Str)
  | 0, _ => none
  | fuel + 1, s =>
      if s.head? = some '\x22' then some ([], s.tail)
      else do
        let (c, rest) ← scanChar s
        let (text, rest) ← scanString fuel rest
        pure (c :: text, rest)

theorem scanHex4_digits4 {n : ℕ} (h : n < 0x10000) (rest : Str) :
    scanHex4 (digits4 n ++ rest) = some (n, rest) := by
  have hdigit : ∀ d, hexDigitValue (Nat.digitChar (d % 16)) = some (d % 16) :=
    fun d => hexDigitValue_digitChar (Nat.mod_lt _ (by decide))
  have hsum : n / 4096 % 16 * 4096 + n / 256 % 16 * 256 + n / 16 % 16 * 16 + n % 16 = n := by
    omega
  simp only [digits4, List.cons_append, List.nil_append, scanHex4, hdigit, Option.bind_eq_bind,
    Option.bind_some, Option.pure_def, hsum]

theorem scanUnicode_unit {n : ℕ} (h : n < 0x10000) (hunit : ¬ (0xd800 ≤ n ∧ n < 0xe000))
    (rest : Str) : scanUnicode (digits4 n ++ rest) = some (Char.ofNat n, rest) := by
  unfold scanUnicode
  rw [scanHex4_digits4 h]
  exact if_neg hunit

theorem scanUnicode_pair {high low : ℕ} (hhigh : 0xd800 ≤ high ∧ high < 0xdc00)
    (hlow : 0xdc00 ≤ low ∧ low < 0xe000) (rest : Str) :
    scanUnicode (digits4 high ++ (unicodeEscape low ++ rest)) =
      some (Char.ofNat (0x10000 + (high - 0xd800) * 0x400 + (low - 0xdc00)), rest) := by
  have hpair : 0xd800 ≤ high ∧ high < 0xe000 := by omega
  have hunits : high < 0xdc00 ∧ 0xdc00 ≤ low ∧ low < 0xe000 := by omega
  unfold scanUnicode unicodeEscape
  rw [scanHex4_digits4 (by omega), List.cons_append, List.cons_append]
  simp only [Option.bind_eq_bind, Option.bind_some, if_pos hpair]
  rw [scanHex4_digits4 (by omega)]
  simp only [Option.bind_some, if_pos hunits, Option.pure_def]

theorem toNat_cases (c : Char) : c.toNat < 0xd800 ∨ 0xe000 ≤ c.toNat ∧ c.toNat < 0x110000 := by
  rcases c.valid with h | ⟨hlo, hhi⟩
  · exact .inl h
  · exact .inr ⟨Nat.succ_le_of_lt hlo, hhi⟩

theorem scanChar_unicode (s : Str) : scanChar ('\x5c' :: 'u' :: s) = scanUnicode s := rfl

/-- An escaped character is read back, whatever follows it. -/
theorem scanChar_escapeChar (c : Char) (rest : Str) :
    scanChar (escapeChar c ++ rest) = some (c, rest) := by
  have hcases := toNat_cases c
  have hshort : ∀ d : Char, d ≠ 'u' → unescape d = some c →
      scanChar ('\x5c' :: d :: rest) = some (c, rest) := by
    intro d hd hunescape
    change (if d = 'u' then scanUnicode rest else (unescape d).map (·, rest)) = _
    rw [if_neg hd, hunescape]
    rfl
  unfold escapeChar
  split
  · next h => exact hshort '\x22' (by decide) (by rw [h]; rfl)
  split
  · next h => exact hshort '\x5c' (by decide) (by rw [h]; rfl)
  split
  · next h => exact hshort 'n' (by decide) (by rw [h]; rfl)
  split
  · next h => exact hshort 'r' (by decide) (by rw [h]; rfl)
  split
  · next h => exact hshort 't' (by decide) (by rw [h]; rfl)
  split
  · next h => exact hshort 'b' (by decide) (by rw [h]; rfl)
  split
  · next h => exact hshort 'f' (by decide) (by rw [h]; rfl)
  split
  · next hslash _ _ _ _ _ hrange =>
      have hlow : ¬ c.toNat < 32 := by omega
      change (if c = '\x5c' then _ else if c.toNat < 32 then none else some (c, rest)) = _
      rw [if_neg hslash, if_neg hlow]
  split
  · next hsmall =>
      have hunit : ¬ (0xd800 ≤ c.toNat ∧ c.toNat < 0xe000) := by omega
      rw [unicodeEscape, List.cons_append, List.cons_append, scanChar_unicode,
        scanUnicode_unit hsmall hunit, Char.ofNat_toNat]
  · next hlarge =>
      have hhigh : 0xd800 ≤ 0xd800 + (c.toNat - 0x10000) / 0x400 ∧
          0xd800 + (c.toNat - 0x10000) / 0x400 < 0xdc00 := by omega
      have hlow : 0xdc00 ≤ 0xdc00 + (c.toNat - 0x10000) % 0x400 ∧
          0xdc00 + (c.toNat - 0x10000) % 0x400 < 0xe000 := by omega
      have hvalue : 0x10000 + (0xd800 + (c.toNat - 0x10000) / 0x400 - 0xd800) * 0x400 +
          (0xdc00 + (c.toNat - 0x10000) % 0x400 - 0xdc00) = c.toNat := by omega
      rw [List.append_assoc, unicodeEscape, List.cons_append, List.cons_append, scanChar_unicode,
        scanUnicode_pair hhigh hlow, hvalue, Char.ofNat_toNat]

theorem head_escapeChar (c : Char) : (escapeChar c).head? ≠ some '\x22' ∧ escapeChar c ≠ [] := by
  unfold escapeChar unicodeEscape
  repeat' split
  all_goals simp_all

theorem scanString_escaped {s : Str} {fuel : ℕ} (h : s.length < fuel) (rest : Str) :
    scanString fuel (s.flatMap escapeChar ++ '\x22' :: rest) = some (s, rest) := by
  induction s generalizing fuel with
  | nil =>
      cases fuel with
      | zero => exact absurd h (Nat.not_lt_zero _)
      | succ fuel => rfl
  | cons c s ih =>
      cases fuel with
      | zero => exact absurd h (Nat.not_lt_zero _)
      | succ fuel =>
          obtain ⟨hquote, hne⟩ := head_escapeChar c
          have hrest := ih (Nat.lt_of_succ_lt_succ h)
          rw [List.flatMap_cons, List.append_assoc, scanString,
            List.head?_append_of_ne_nil _ hne, if_neg hquote, scanChar_escapeChar]
          simp only [Option.bind_eq_bind, Option.bind_some, hrest, Option.pure_def]

end Strings

section Numbers

def intText (n : ℤ) : Str := if n < 0 then '-' :: decimal n.natAbs else decimal n.natAbs

/-- `0|[1-9][0-9]*`. -/
def scanNatural : Str → Option (Str × Str)
  | [] => none
  | c :: rest =>
      if c = '0' then some (['0'], rest)
      else if isAsciiDigit c then
        some (c :: rest.takeWhile isAsciiDigit, rest.dropWhile isAsciiDigit)
      else none

/-- `-?(?:0|[1-9][0-9]*)`. -/
def scanInteger : Str → Option (Str × Str)
  | [] => none
  | c :: rest =>
      if c = '-' then (scanNatural rest).map fun found => ('-' :: found.1, found.2)
      else scanNatural (c :: rest)

/-- `(\.[0-9]+)?`. -/
def scanFraction : Str → Str × Str
  | [] => ([], [])
  | c :: rest =>
      if c = '.' ∧ rest.takeWhile isAsciiDigit ≠ [] then
        ('.' :: rest.takeWhile isAsciiDigit, rest.dropWhile isAsciiDigit)
      else ([], c :: rest)

/-- `[-+]?`. -/
def scanSign : Str → Str × Str
  | [] => ([], [])
  | c :: rest => if c = '+' ∨ c = '-' then ([c], rest) else ([], c :: rest)

/-- `([eE][-+]?[0-9]+)?`. -/
def scanExponent : Str → Str × Str
  | [] => ([], [])
  | c :: rest =>
      if (c = 'e' ∨ c = 'E') ∧ (scanSign rest).2.takeWhile isAsciiDigit ≠ [] then
        (c :: (scanSign rest).1 ++ (scanSign rest).2.takeWhile isAsciiDigit,
          (scanSign rest).2.dropWhile isAsciiDigit)
      else ([], c :: rest)

def scanNumber (s : Str) : Option (Str × Str × Str) := do
  let (integer, rest) ← scanInteger s
  let (fraction, rest) := scanFraction rest
  let (exponent, rest) := scanExponent rest
  pure (integer, fraction ++ exponent, rest)

/-- `int` of what `scanInteger` found. -/
def integerValue (text : Str) : ℤ :=
  if text.head? = some '-' then -asciiInt text.tail else asciiInt text

def NoNumber (rest : Str) : Prop := ∀ c, rest.head? = some c → c ∉ "0123456789.eE+-".toList

variable {s rest integer part : Str}

theorem NoNumber.head (h : NoNumber rest) {c : Char} {t : Str} (hrest : rest = c :: t) :
    isAsciiDigit c = false ∧ c ≠ '.' ∧ c ≠ 'e' ∧ c ≠ 'E' ∧ c ≠ '+' ∧ c ≠ '-' := by
  have hc := h c (by rw [hrest]; rfl)
  refine ⟨?_, ?_⟩
  · rw [← Bool.not_eq_true]
    exact fun hdigit => hc (List.mem_append_left ".eE+-".toList (mem_digits hdigit))
  · refine ⟨?_, ?_, ?_, ?_, ?_⟩ <;>
    · rintro rfl
      exact hc (by decide)

theorem takeWhile_append (h : NoNumber rest) (s : Str) :
    (s ++ rest).takeWhile isAsciiDigit = s.takeWhile isAsciiDigit ∧
      (s ++ rest).dropWhile isAsciiDigit = s.dropWhile isAsciiDigit ++ rest := by
  induction s with
  | nil =>
      cases rest with
      | nil => exact ⟨rfl, rfl⟩
      | cons c t => simp [(h.head rfl).1]
  | cons c s ih =>
      cases hdigit : isAsciiDigit c with
      | true => simp [hdigit, ih]
      | false => simp [hdigit]

theorem scanNatural_append (h : NoNumber rest) (hscan : scanNatural s = some (integer, part)) :
    scanNatural (s ++ rest) = some (integer, part ++ rest) := by
  cases s with
  | nil => cases hscan
  | cons c s =>
      obtain ⟨htake, hdrop⟩ := takeWhile_append h s
      rw [List.cons_append]
      unfold scanNatural at hscan ⊢
      dsimp only at hscan ⊢
      split at hscan
      · next hzero =>
          cases hscan
          rw [if_pos hzero]
      · next hzero =>
          rw [if_neg hzero]
          split at hscan
          · next hdigit =>
              cases hscan
              rw [if_pos hdigit, htake, hdrop]
          · cases hscan

theorem scanInteger_append (h : NoNumber rest) (hscan : scanInteger s = some (integer, part)) :
    scanInteger (s ++ rest) = some (integer, part ++ rest) := by
  cases s with
  | nil => cases hscan
  | cons c s =>
      rw [List.cons_append]
      unfold scanInteger at hscan ⊢
      dsimp only at hscan ⊢
      split at hscan
      · next hminus =>
          rw [if_pos hminus]
          obtain ⟨found, hfound, heq⟩ := Option.map_eq_some_iff.mp hscan
          cases heq
          rw [scanNatural_append h hfound]
          rfl
      · next hminus =>
          rw [if_neg hminus]
          exact scanNatural_append h hscan

theorem scanFraction_append (h : NoNumber rest) (s : Str) :
    scanFraction (s ++ rest) = ((scanFraction s).1, (scanFraction s).2 ++ rest) := by
  cases s with
  | nil =>
      cases rest with
      | nil => rfl
      | cons c t =>
          change (if c = '.' ∧ _ then _ else ([], c :: t)) = ([], c :: t)
          rw [if_neg fun hdot => (h.head rfl).2.1 hdot.1]
  | cons c s =>
      obtain ⟨htake, hdrop⟩ := takeWhile_append h s
      rw [List.cons_append]
      unfold scanFraction
      dsimp only
      rw [htake, hdrop]
      split <;> rfl

theorem scanSign_append (h : NoNumber rest) (s : Str) :
    scanSign (s ++ rest) = ((scanSign s).1, (scanSign s).2 ++ rest) := by
  cases s with
  | nil =>
      cases rest with
      | nil => rfl
      | cons c t =>
          obtain ⟨-, -, -, -, hplus, hminus⟩ := h.head rfl
          change (if c = '+' ∨ c = '-' then _ else ([], c :: t)) = ([], c :: t)
          rw [if_neg (not_or.mpr ⟨hplus, hminus⟩)]
  | cons c s =>
      rw [List.cons_append]
      unfold scanSign
      dsimp only
      split <;> rfl

theorem scanExponent_append (h : NoNumber rest) (s : Str) :
    scanExponent (s ++ rest) = ((scanExponent s).1, (scanExponent s).2 ++ rest) := by
  cases s with
  | nil =>
      cases rest with
      | nil => rfl
      | cons c t =>
          obtain ⟨-, -, hlower, hupper, -, -⟩ := h.head rfl
          change (if (c = 'e' ∨ c = 'E') ∧ _ then _ else ([], c :: t)) = ([], c :: t)
          rw [if_neg fun hexponent => hexponent.1.elim hlower hupper]
  | cons c s =>
      obtain ⟨htake, hdrop⟩ := takeWhile_append h (scanSign s).2
      rw [List.cons_append]
      unfold scanExponent
      dsimp only
      rw [scanSign_append h s]
      dsimp only
      rw [htake, hdrop]
      split <;> rfl

theorem scanNumber_append (h : NoNumber rest) {more : Str}
    (hscan : scanNumber s = some (integer, part, more)) :
    scanNumber (s ++ rest) = some (integer, part, more ++ rest) := by
  unfold scanNumber at hscan ⊢
  obtain ⟨⟨found, after⟩, hinteger, heq⟩ := Option.bind_eq_some_iff.mp hscan
  rw [scanInteger_append h hinteger]
  simp only [Option.pure_def, Option.some.injEq, Prod.mk.injEq] at heq
  obtain ⟨rfl, rfl, rfl⟩ := heq
  simp only [Option.bind_eq_bind, Option.bind_some, scanFraction_append h, scanExponent_append h,
    Option.pure_def]

theorem scanNatural_decimal (n : ℕ) : scanNatural (decimal n) = some (decimal n, []) := by
  have hdigits : ∀ c ∈ decimal n, isAsciiDigit c = true := fun c hc => isAsciiDigit_decimal hc
  have hzero : (decimal n).head? = some '0' → n = 0 := eq_zero_of_decimal_head
  cases hdecimal : decimal n with
  | nil => exact absurd hdecimal (decimal_ne_nil n)
  | cons c t =>
      rw [hdecimal] at hdigits hzero
      unfold scanNatural
      dsimp only
      split
      · next hc =>
          have hn := hzero (by rw [hc]; rfl)
          rw [hn] at hdecimal
          cases hdecimal
          rfl
      · have hall : ∀ d ∈ t, isAsciiDigit d = true := fun d hd =>
          hdigits d (List.mem_cons_of_mem _ hd)
        rw [if_pos (hdigits c List.mem_cons_self), List.takeWhile_eq_self_iff.mpr hall,
          List.dropWhile_eq_nil_iff.mpr hall]

theorem scanInteger_intText (n : ℤ) : scanInteger (intText n) = some (intText n, []) := by
  unfold intText
  split
  · change (scanNatural (decimal n.natAbs)).map _ = _
    rw [scanNatural_decimal]
    rfl
  · have hminus : ∀ c t, decimal n.natAbs = c :: t → c ≠ '-' := by
      rintro c t hdecimal rfl
      have hdigit := isAsciiDigit_decimal (by rw [hdecimal]; exact List.mem_cons_self)
      exact absurd hdigit (by decide)
    have hscan := scanNatural_decimal n.natAbs
    cases hdecimal : decimal n.natAbs with
    | nil => exact absurd hdecimal (decimal_ne_nil _)
    | cons c t =>
        rw [hdecimal] at hscan
        change (if c = '-' then _ else scanNatural (c :: t)) = _
        rw [if_neg (hminus c t hdecimal), hscan]

theorem scanNumber_intText (n : ℤ) : scanNumber (intText n) = some (intText n, [], []) := by
  unfold scanNumber
  rw [scanInteger_intText]
  rfl

theorem integerValue_intText (n : ℤ) : integerValue (intText n) = n := by
  unfold integerValue intText
  split
  · next hneg =>
      rw [List.head?_cons, if_pos rfl, List.tail_cons, asciiInt_decimal]
      omega
  · next hneg =>
      have hminus : (decimal n.natAbs).head? ≠ some '-' := by
        intro hhead
        have hdigit := isAsciiDigit_decimal (List.mem_of_head? hhead)
        exact absurd hdigit (by decide)
      rw [if_neg hminus, asciiInt_decimal]
      omega

end Numbers

section Values

def isJsonSpace (c : Char) : Bool := c = ' ' || c = '\t' || c = '\n' || c = '\r'

def skipSpace (s : Str) : Str := s.dropWhile isJsonSpace

/-- `entries[key] = value`, the key at its first place. -/
def setField (key : Str) (value : Json) : List (Str × Json) → List (Str × Json)
  | [] => [(key, value)]
  | entry :: rest =>
      if entry.1 = key then (key, value) :: rest else entry :: setField key value rest

/-- `dict(entries)`. -/
def dictOf (entries : List (Str × Json)) : List (Str × Json) :=
  entries.foldl (fun dict entry => setField entry.1 entry.2 dict) []

def scanKey (s : Str) : Option (Str × Str) := do
  if s.head? = some '\x22' then
    let (key, rest) ← scanString s.length s.tail
    let rest := skipSpace rest
    if rest.head? = some ':' then some (key, skipSpace rest.tail) else none
  else none

variable (floats : Floats)

/-- An `int`, or a `float` when there is more than an integer part. -/
def numberValue (integer part : Str) : Py Json :=
  if part.isEmpty then
    if (integer.filter isAsciiDigit).length ≤ maxStrDigits then .ok (.int (integerValue integer))
    else invalid
  else .ok (.float (floats.value (integer ++ part)))

def scanAtom (s : Str) : Py (Json × Str) :=
  if startsWith "null" s then .ok (.null, s.drop 4)
  else if startsWith "true" s then .ok (.bool true, s.drop 4)
  else if startsWith "false" s then .ok (.bool false, s.drop 5)
  else
    match scanNumber s with
    | some (integer, part, rest) => (numberValue floats integer part).map (·, rest)
    | none => invalid

mutual

/-- `scan_once`. Every call has more fuel than there are characters left, and `depth` is how
far the nesting may still go. -/
def scanValue : ℕ → ℕ → Str → Py (Json × Str)
  | 0, _, _ => invalid
  | fuel + 1, depth, s =>
      if s.head? = some '\x22' then
        match scanString s.length s.tail with
        | some (text, rest) => .ok (.str text, rest)
        | none => invalid
      else if s.head? = some '[' then
        if depth = 0 then .error (.raised .recursionError)
        else
          let rest := skipSpace s.tail
          if rest.head? = some ']' then .ok (.arr [], rest.tail)
          else do
            let (item, rest) ← scanValue fuel (depth - 1) rest
            let (items, rest) ← scanItems fuel (depth - 1) (skipSpace rest)
            pure (.arr (item :: items), rest)
      else if s.head? = some '\x7b' then
        if depth = 0 then .error (.raised .recursionError)
        else
          let rest := skipSpace s.tail
          if rest.head? = some '\x7d' then .ok (.obj [], rest.tail)
          else
            match scanKey rest with
            | none => invalid
            | some (key, rest) => do
                let (value, rest) ← scanValue fuel (depth - 1) rest
                let (entries, rest) ← scanFields fuel (depth - 1) (skipSpace rest)
                pure (.obj (dictOf ((key, value) :: entries)), rest)
      else scanAtom floats s

def scanItems : ℕ → ℕ → Str → Py (List Json × Str)
  | 0, _, _ => invalid
  | fuel + 1, depth, s =>
      if s.head? = some ']' then .ok ([], s.tail)
      else if s.head? = some ',' then do
        let (item, rest) ← scanValue fuel depth (skipSpace s.tail)
        let (items, rest) ← scanItems fuel depth (skipSpace rest)
        pure (item :: items, rest)
      else invalid

def scanFields : ℕ → ℕ → Str → Py (List (Str × Json) × Str)
  | 0, _, _ => invalid
  | fuel + 1, depth, s =>
      if s.head? = some '\x7d' then .ok ([], s.tail)
      else if s.head? = some ',' then
        match scanKey (skipSpace s.tail) with
        | none => invalid
        | some (key, rest) => do
            let (value, rest) ← scanValue fuel depth rest
            let (entries, rest) ← scanFields fuel depth (skipSpace rest)
            pure ((key, value) :: entries, rest)
      else invalid

end

/-- `json.loads`, with `depth` for the recursion limit. -/
def loads (depth : ℕ) (s : Str) : Py Json := do
  let (value, rest) ← scanValue floats ((skipSpace s).length + 1) depth (skipSpace s)
  if (skipSpace rest).isEmpty then pure value else invalid

mutual

/-- `json.dumps`, with its default separators. -/
def dumps : Json → Str
  | .null => "null"
  | .bool b => if b then "true" else "false"
  | .int n => intText n
  | .float q => floats.text q
  | .str s => quote s
  | .arr [] => "[]"
  | .arr (item :: items) => '[' :: (dumps item ++ dumpItems items)
  | .obj [] => "\x7b\x7d"
  | .obj ((key, value) :: entries) =>
      '\x7b' :: (quote key ++ (": " ++ (dumps value ++ dumpFields entries)))

def dumpItems : List Json → Str
  | [] => "]"
  | item :: items => ", " ++ (dumps item ++ dumpItems items)

def dumpFields : List (Str × Json) → Str
  | [] => "\x7d"
  | (key, value) :: entries =>
      ", " ++ (quote key ++ (": " ++ (dumps value ++ dumpFields entries)))

end

section RoundTrip

/-- A float that is read back: its text has a fraction or an exponent. -/
structure Floats.Reads (q : ℚ) : Prop where
  scanned : ∃ integer part, scanNumber (floats.text q) = some (integer, part, []) ∧ part ≠ [] ∧
    integer ++ part = floats.text q
  value : floats.value (floats.text q) = q

mutual

/-- What `dumps` writes so that `loads` takes it: nested at most so deep, with integers that
are not too long and with every key once. -/
def Writable : ℕ → Json → Prop
  | _, .null => True
  | _, .bool _ => True
  | _, .int n => (decimal n.natAbs).length ≤ maxStrDigits
  | _, .float q => floats.Reads q
  | _, .str _ => True
  | 0, .arr _ => False
  | 0, .obj _ => False
  | depth + 1, .arr items => WritableItems depth items
  | depth + 1, .obj entries => (entries.map Prod.fst).Nodup ∧ WritableFields depth entries

def WritableItems : ℕ → List Json → Prop
  | _, [] => True
  | depth, item :: items => Writable depth item ∧ WritableItems depth items

def WritableFields : ℕ → List (Str × Json) → Prop
  | _, [] => True
  | depth, (_, value) :: entries => Writable depth value ∧ WritableFields depth entries

end

section Dict

variable {entries : List (Str × Json)} {key : Str} {value : Json}

theorem setField_of_not_mem (h : key ∉ entries.map Prod.fst) :
    setField key value entries = entries ++ [(key, value)] := by
  induction entries with
  | nil => rfl
  | cons entry entries ih =>
      rw [List.map_cons, List.mem_cons, not_or] at h
      rw [setField, if_neg (Ne.symm h.1), ih h.2, List.cons_append]

theorem dictOf_of_nodup (h : (entries.map Prod.fst).Nodup) : dictOf entries = entries := by
  induction entries using List.reverseRecOn with
  | nil => rfl
  | append_singleton entries entry ih =>
      rw [List.map_append, List.nodup_append] at h
      have hnew : entry.1 ∉ entries.map Prod.fst := fun hmem =>
        h.2.2 entry.1 hmem entry.1 (by simp) rfl
      have hold : dictOf entries = entries := ih h.1
      unfold dictOf at hold ⊢
      rw [List.foldl_append, hold]
      exact setField_of_not_mem hnew

theorem lookup_setField (other : Str) : (setField key value entries).lookup other =
    if other = key then some value else entries.lookup other := by
  induction entries with
  | nil =>
      rw [setField, List.lookup_cons]
      by_cases h : other = key
      · simp [h]
      · simp [h, beq_eq_false_iff_ne.mpr h]
  | cons entry entries ih =>
      obtain ⟨first, stored⟩ := entry
      rw [setField]
      by_cases hkey : first = key
      · rw [if_pos hkey, List.lookup_cons, List.lookup_cons, hkey]
        by_cases h : other = key
        · simp [h]
        · simp [h, beq_eq_false_iff_ne.mpr h]
      · rw [if_neg hkey, List.lookup_cons, List.lookup_cons, ih]
        by_cases h : other = key
        · simp [h, beq_eq_false_iff_ne.mpr (Ne.symm hkey)]
        · simp [h]

theorem mem_setField {entry : Str × Json} (h : entry ∈ setField key value entries) :
    entry = (key, value) ∨ entry ∈ entries := by
  induction entries with
  | nil => exact .inl (List.mem_singleton.mp h)
  | cons first entries ih =>
      rw [setField] at h
      split at h
      · exact (List.mem_cons.mp h).imp_right (List.mem_cons_of_mem _)
      · rcases List.mem_cons.mp h with rfl | h
        · exact .inr List.mem_cons_self
        · exact (ih h).imp_right (List.mem_cons_of_mem _)

theorem nodup_setField (h : (entries.map Prod.fst).Nodup) :
    ((setField key value entries).map Prod.fst).Nodup := by
  induction entries with
  | nil => simp [setField]
  | cons first entries ih =>
      rw [List.map_cons, List.nodup_cons] at h
      rw [setField]
      split
      · next hkey =>
          subst hkey
          rw [List.map_cons, List.nodup_cons]
          exact h
      · next hkey =>
          rw [List.map_cons, List.nodup_cons]
          refine ⟨fun hmem => ?_, ih h.2⟩
          obtain ⟨entry, hentry, heq⟩ := List.mem_map.mp hmem
          rcases mem_setField hentry with rfl | hentry
          · exact hkey heq.symm
          · exact h.1 (heq ▸ List.mem_map.mpr ⟨entry, hentry, rfl⟩)

theorem writableFields_of_texts {floats : Floats} (depth : ℕ)
    (h : ∀ entry ∈ entries, ∃ text, entry.2 = .str text) : WritableFields floats depth entries := by
  induction entries with
  | nil =>
      rw [WritableFields]
      trivial
  | cons entry entries ih =>
      rw [List.forall_mem_cons] at h
      obtain ⟨key, value⟩ := entry
      obtain ⟨⟨text, rfl⟩, hrest⟩ := h
      rw [WritableFields, Writable]
      exact ⟨trivial, ih hrest⟩

end Dict

variable {floats}

theorem head_of_scanNumber {s : Str} (h : (scanNumber s).isSome = true) :
    ∃ c t, s = c :: t ∧ (c = '-' ∨ isAsciiDigit c = true) := by
  cases s with
  | nil => cases h
  | cons c t =>
      refine ⟨c, t, rfl, ?_⟩
      by_contra hnot
      rw [not_or] at hnot
      have hzero : c ≠ '0' := by
        rintro rfl
        exact hnot.2 rfl
      have hnone : scanInteger (c :: t) = none := by
        unfold scanInteger scanNatural
        simp only [if_neg hnot.1, if_neg hzero, if_neg hnot.2]
      rw [scanNumber, hnone] at h
      cases h

theorem numberStart {c : Char} (h : c = '-' ∨ isAsciiDigit c = true) :
    isJsonSpace c = false ∧ c ∉ "[]\x7b\x7dntf\"".toList := by
  have hall : ∀ d ∈ '-' :: "0123456789".toList, isJsonSpace d = false ∧ d ∉ "[]\x7b\x7dntf\"".toList := by decide
  exact hall c (h.elim (fun hc => hc ▸ List.mem_cons_self) fun hc =>
    List.mem_cons_of_mem _ (mem_digits hc))

theorem scanAtom_number {s integer part more : Str}
    (hscan : scanNumber s = some (integer, part, more)) :
    scanAtom floats s = (numberValue floats integer part).map (·, more) := by
  have hsome : (scanNumber s).isSome = true := by rw [hscan]; rfl
  obtain ⟨c, t, rfl, hc⟩ := head_of_scanNumber hsome
  obtain ⟨-, hother⟩ := numberStart hc
  have hword : ∀ d word, d ∈ "ntf".toList → startsWith (d :: word) (c :: t) = false := by
    intro d word hd
    rw [startsWith, List.isPrefixOf_cons_cons, Bool.and_eq_false_iff]
    refine .inl (beq_eq_false_iff_ne.mpr ?_)
    rintro rfl
    exact hother ((by decide : "ntf".toList ⊆ "[]\x7b\x7dntf\"".toList) hd)
  have hnull : startsWith "null" (c :: t) = false := hword 'n' _ (by decide)
  have htrue : startsWith "true" (c :: t) = false := hword 't' _ (by decide)
  have hfalse : startsWith "false" (c :: t) = false := hword 'f' _ (by decide)
  unfold scanAtom
  rw [hnull, htrue, hfalse, hscan]
  rfl

theorem head_intText (n : ℤ) : ∃ c t, intText n = c :: t ∧ (c = '-' ∨ isAsciiDigit c = true) :=
  head_of_scanNumber (by rw [scanNumber_intText]; rfl)

theorem head_dumps {v : Json} {depth : ℕ} (h : Writable floats depth v) :
    ∃ c t, dumps floats v = c :: t ∧ isJsonSpace c = false ∧ c ≠ ']' := by
  have hnumber : ∀ s : Str, (∃ c t, s = c :: t ∧ (c = '-' ∨ isAsciiDigit c = true)) →
      ∃ c t, s = c :: t ∧ isJsonSpace c = false ∧ c ≠ ']' := by
    rintro s ⟨c, t, rfl, hc⟩
    obtain ⟨hspace, hother⟩ := numberStart hc
    refine ⟨c, t, rfl, hspace, ?_⟩
    rintro rfl
    exact hother (by decide)
  cases v with
  | null => exact ⟨'n', _, by rw [dumps]; rfl, rfl, by decide⟩
  | bool b => cases b <;> exact ⟨_, _, by rw [dumps]; rfl, rfl, by decide⟩
  | int n =>
      rw [dumps]
      exact hnumber _ (head_intText n)
  | float q =>
      rw [Writable] at h
      obtain ⟨integer, part, hscan, -⟩ := h.scanned
      rw [dumps]
      exact hnumber _ (head_of_scanNumber (by rw [hscan]; rfl))
  | str s => exact ⟨'\x22', _, by rw [dumps]; rfl, rfl, by decide⟩
  | arr items =>
      cases items with
      | nil => exact ⟨'[', _, by rw [dumps]; rfl, rfl, by decide⟩
      | cons item items => exact ⟨'[', _, by rw [dumps], rfl, by decide⟩
  | obj entries =>
      cases entries with
      | nil => exact ⟨'\x7b', _, by rw [dumps]; rfl, rfl, by decide⟩
      | cons entry entries => exact ⟨'\x7b', _, by rw [dumps], rfl, by decide⟩

theorem skipSpace_dumps {v : Json} {depth : ℕ} (h : Writable floats depth v) (rest : Str) :
    skipSpace (dumps floats v ++ rest) = dumps floats v ++ rest := by
  obtain ⟨c, t, heq, hspace, -⟩ := head_dumps h
  rw [heq, List.cons_append, skipSpace, List.dropWhile_cons_of_neg (by simp [hspace])]

theorem skipSpace_space_dumps {v : Json} {depth : ℕ} (h : Writable floats depth v) (rest : Str) :
    skipSpace (' ' :: (dumps floats v ++ rest)) = dumps floats v ++ rest := by
  rw [skipSpace, List.dropWhile_cons_of_pos rfl]
  exact skipSpace_dumps h rest

theorem length_le_escaped (s : Str) : s.length ≤ (s.flatMap escapeChar).length := by
  induction s with
  | nil => exact Nat.le_refl _
  | cons c s ih =>
      have hpos := List.length_pos_iff.mpr (head_escapeChar c).2
      rw [List.flatMap_cons, List.length_append, List.length_cons]
      omega

theorem scanString_quote {fuel : ℕ} (s rest : Str) (h : s.length < fuel) :
    scanString fuel ((quote s).tail ++ rest) = some (s, rest) := by
  rw [quote, List.tail_cons, List.append_assoc]
  exact scanString_escaped h rest

theorem scanKey_quote (key : Str) {v : Json} {depth : ℕ} (h : Writable floats depth v)
    (rest : Str) :
    scanKey (quote key ++ (": " ++ (dumps floats v ++ rest))) =
      some (key, dumps floats v ++ rest) := by
  have hlength : key.length < (quote key ++ (": " ++ (dumps floats v ++ rest))).length := by
    have hescaped := length_le_escaped key
    rw [quote, List.length_append, List.length_cons, List.length_append]
    omega
  have htail : (quote key ++ ((": " : Str) ++ (dumps floats v ++ rest))).tail =
      (quote key).tail ++ ((": " : Str) ++ (dumps floats v ++ rest)) := rfl
  have hhead : (quote key ++ ((": " : Str) ++ (dumps floats v ++ rest))).head? = some '\x22' := rfl
  have hcolon : skipSpace ((": " : Str) ++ (dumps floats v ++ rest)) =
      (": " : Str) ++ (dumps floats v ++ rest) := rfl
  have hvalue : skipSpace ((": " : Str) ++ (dumps floats v ++ rest)).tail = dumps floats v ++ rest :=
    skipSpace_space_dumps h rest
  unfold scanKey
  rw [if_pos hhead, htail, scanString_quote key _ hlength]
  simp only [Option.bind_eq_bind, Option.bind_some, hcolon, hvalue]
  rfl

theorem noNumber_cons {c : Char} (h : c ∉ "0123456789.eE+-".toList) (rest : Str) :
    NoNumber (c :: rest) := by
  intro d hd
  cases hd
  exact h

theorem dumpItems_cons (items : List Json) :
    ∃ c t, dumpItems floats items = c :: t ∧ isJsonSpace c = false ∧
      c ∉ "0123456789.eE+-".toList := by
  cases items with
  | nil => exact ⟨']', _, by rw [dumpItems]; rfl, rfl, by decide⟩
  | cons item items => exact ⟨',', _, by rw [dumpItems]; rfl, rfl, by decide⟩

theorem dumpFields_cons (entries : List (Str × Json)) :
    ∃ c t, dumpFields floats entries = c :: t ∧ isJsonSpace c = false ∧
      c ∉ "0123456789.eE+-".toList := by
  cases entries with
  | nil => exact ⟨'\x7d', _, by rw [dumpFields]; rfl, rfl, by decide⟩
  | cons entry entries => exact ⟨',', _, by rw [dumpFields]; rfl, rfl, by decide⟩

theorem skipSpace_cons {c : Char} (h : isJsonSpace c = false) (s : Str) :
    skipSpace (c :: s) = c :: s := List.dropWhile_cons_of_neg (by simp [h])

theorem numberValue_intText {n : ℤ} (h : (decimal n.natAbs).length ≤ maxStrDigits) :
    numberValue floats (intText n) [] = .ok (.int n) := by
  have hdigits : (intText n).filter isAsciiDigit = decimal n.natAbs := by
    have hall : (decimal n.natAbs).filter isAsciiDigit = decimal n.natAbs :=
      List.filter_eq_self.mpr fun c hc => isAsciiDigit_decimal hc
    unfold intText
    split
    · rw [List.filter_cons_of_neg (by decide), hall]
    · exact hall
  unfold numberValue
  rw [if_pos (by rfl), hdigits, if_pos h, integerValue_intText]

theorem scanAtom_int {n : ℤ} (h : (decimal n.natAbs).length ≤ maxStrDigits) {rest : Str}
    (hrest : NoNumber rest) : scanAtom floats (intText n ++ rest) = .ok (.int n, rest) := by
  rw [scanAtom_number (scanNumber_append hrest (scanNumber_intText n)), numberValue_intText h]
  rfl

theorem scanAtom_float {q : ℚ} (h : floats.Reads q) {rest : Str} (hrest : NoNumber rest) :
    scanAtom floats (floats.text q ++ rest) = .ok (.float q, rest) := by
  obtain ⟨integer, part, hscan, hpart, htext⟩ := h.scanned
  rw [scanAtom_number (scanNumber_append hrest hscan), numberValue,
    if_neg (by simpa using hpart), htext, h.value]
  rfl

theorem scanValue_number {s : Str} (h : ∃ c t, s = c :: t ∧ (c = '-' ∨ isAsciiDigit c = true))
    (fuel depth : ℕ) (rest : Str) :
    scanValue floats (fuel + 1) depth (s ++ rest) = scanAtom floats (s ++ rest) := by
  obtain ⟨c, t, rfl, hc⟩ := h
  obtain ⟨-, hother⟩ := numberStart hc
  have hhead : ∀ d ∈ "[]\x7b\x7dntf\"".toList, (c :: t ++ rest).head? ≠ some d := by
    intro d hd heq
    cases heq
    exact hother hd
  rw [scanValue, if_neg (hhead _ (by decide)), if_neg (hhead _ (by decide)),
    if_neg (hhead _ (by decide))]

theorem scanValue_bracket {s : Str} (h : (skipSpace s).head? ≠ some ']') (fuel depth : ℕ) :
    scanValue floats (fuel + 1) (depth + 1) ('[' :: s) = (do
      let (item, rest) ← scanValue floats fuel depth (skipSpace s)
      let (items, rest) ← scanItems floats fuel depth (skipSpace rest)
      pure (.arr (item :: items), rest)) := by
  have hquote : ('[' :: s).head? ≠ some '\x22' := by simp
  rw [scanValue, if_neg hquote, if_pos List.head?_cons, if_neg (Nat.succ_ne_zero depth)]
  exact if_neg h

theorem scanValue_brace {s key more : Str} (h : scanKey (skipSpace s) = some (key, more))
    (fuel depth : ℕ) :
    scanValue floats (fuel + 1) (depth + 1) ('\x7b' :: s) = (do
      let (value, rest) ← scanValue floats fuel depth more
      let (entries, rest) ← scanFields floats fuel depth (skipSpace rest)
      pure (.obj (dictOf ((key, value) :: entries)), rest)) := by
  have hquote : ('\x7b' :: s).head? ≠ some '\x22' := by simp
  have hbracket : ('\x7b' :: s).head? ≠ some '[' := by simp
  have hclose : (skipSpace s).head? ≠ some '\x7d' := by
    intro heq
    rw [scanKey, if_neg (by rw [heq]; simp)] at h
    cases h
  rw [scanValue, if_neg hquote, if_neg hbracket, if_pos List.head?_cons,
    if_neg (Nat.succ_ne_zero depth), List.tail_cons]
  dsimp only
  rw [if_neg hclose, h]
  rfl

theorem scanItems_comma (fuel depth : ℕ) (s : Str) :
    scanItems floats (fuel + 1) depth (',' :: s) = (do
      let (item, rest) ← scanValue floats fuel depth (skipSpace s)
      let (items, rest) ← scanItems floats fuel depth (skipSpace rest)
      pure (item :: items, rest)) := by
  have hclose : (',' :: s).head? ≠ some ']' := by simp
  rw [scanItems, if_neg hclose, if_pos List.head?_cons, List.tail_cons]

theorem scanFields_comma {s key more : Str} (h : scanKey (skipSpace s) = some (key, more))
    (fuel depth : ℕ) :
    scanFields floats (fuel + 1) depth (',' :: s) = (do
      let (value, rest) ← scanValue floats fuel depth more
      let (entries, rest) ← scanFields floats fuel depth (skipSpace rest)
      pure ((key, value) :: entries, rest)) := by
  have hclose : (',' :: s).head? ≠ some '\x7d' := by simp
  rw [scanFields, if_neg hclose, if_pos List.head?_cons, List.tail_cons, h]

theorem skipSpace_dumpItems (items : List Json) (rest : Str) :
    skipSpace (dumpItems floats items ++ rest) = dumpItems floats items ++ rest := by
  obtain ⟨c, t, heq, hspace, -⟩ := @dumpItems_cons floats items
  rw [heq]
  exact skipSpace_cons hspace _

theorem skipSpace_dumpFields (entries : List (Str × Json)) (rest : Str) :
    skipSpace (dumpFields floats entries ++ rest) = dumpFields floats entries ++ rest := by
  obtain ⟨c, t, heq, hspace, -⟩ := @dumpFields_cons floats entries
  rw [heq]
  exact skipSpace_cons hspace _

theorem noNumber_dumpItems (items : List Json) (rest : Str) :
    NoNumber (dumpItems floats items ++ rest) := by
  obtain ⟨c, t, heq, -, hnumber⟩ := @dumpItems_cons floats items
  rw [heq]
  exact noNumber_cons hnumber _

theorem noNumber_dumpFields (entries : List (Str × Json)) (rest : Str) :
    NoNumber (dumpFields floats entries ++ rest) := by
  obtain ⟨c, t, heq, -, hnumber⟩ := @dumpFields_cons floats entries
  rw [heq]
  exact noNumber_cons hnumber _

mutual

/-- A value is read back, whatever follows it that is no part of a number. -/
theorem scanValue_dumps : ∀ (v : Json) (depth fuel : ℕ) (rest : Str), Writable floats depth v →
    (dumps floats v).length < fuel → NoNumber rest →
      scanValue floats fuel depth (dumps floats v ++ rest) = .ok (v, rest)
  | v, _, 0, _, _, hfuel, _ => absurd hfuel (Nat.not_lt_zero _)
  | .null, _, _ + 1, _, _, _, _ => by
      rw [dumps, scanValue]
      rfl
  | .bool true, _, _ + 1, _, _, _, _ => by
      rw [dumps, scanValue]
      rfl
  | .bool false, _, _ + 1, _, _, _, _ => by
      rw [dumps, scanValue]
      rfl
  | .int n, _, _ + 1, _, h, _, hrest => by
      rw [Writable] at h
      rw [dumps, scanValue_number (head_intText n), scanAtom_int h hrest]
  | .float q, _, _ + 1, _, h, _, hrest => by
      rw [Writable] at h
      obtain ⟨integer, part, hscan, -⟩ := h.scanned
      rw [dumps, scanValue_number (head_of_scanNumber (by rw [hscan]; rfl)), scanAtom_float h hrest]
  | .str s, _, _ + 1, rest, _, _, _ => by
      have hlength : s.length < (quote s ++ rest).length := by
        have hescaped := length_le_escaped s
        rw [quote, List.length_append, List.length_cons, List.length_append]
        omega
      have htail : (quote s ++ rest).tail = (quote s).tail ++ rest := rfl
      have hhead : (quote s ++ rest).head? = some '\x22' := rfl
      rw [dumps, scanValue, if_pos hhead, htail, scanString_quote s rest hlength]
  | .arr [], 0, _ + 1, _, h, _, _ => by
      rw [Writable] at h
      exact h.elim
  | .arr [], _ + 1, _ + 1, _, _, _, _ => by
      rw [dumps, scanValue]
      rfl
  | .arr (_ :: _), 0, _ + 1, _, h, _, _ => by
      rw [Writable] at h
      exact h.elim
  | .arr (item :: items), depth + 1, fuel + 1, rest, h, hfuel, _ => by
      rw [Writable, WritableItems] at h
      rw [dumps, List.length_cons, List.length_append] at hfuel
      obtain ⟨c, t, hitem, -, hclose⟩ := head_dumps h.1
      have hhead : (skipSpace (dumps floats item ++ (dumpItems floats items ++ rest))).head? ≠
          some ']' := by
        rw [skipSpace_dumps h.1, hitem]
        exact fun heq => hclose (Option.some.inj heq)
      have hvalue := scanValue_dumps item depth fuel _ h.1 (by omega)
        (@noNumber_dumpItems floats items rest)
      have hmore := scanItems_dumps items depth fuel rest h.2 (by omega)
      rw [dumps, List.cons_append, List.append_assoc, scanValue_bracket hhead, skipSpace_dumps h.1,
        hvalue, ok_bind]
      dsimp only
      rw [skipSpace_dumpItems, hmore]
      rfl
  | .obj [], 0, _ + 1, _, h, _, _ => by
      rw [Writable] at h
      exact h.elim
  | .obj [], _ + 1, _ + 1, _, _, _, _ => by
      rw [dumps, scanValue]
      rfl
  | .obj (_ :: _), 0, _ + 1, _, h, _, _ => by
      rw [Writable] at h
      exact h.elim
  | .obj ((key, value) :: entries), depth + 1, fuel + 1, rest, h, hfuel, _ => by
      rw [Writable, WritableFields] at h
      obtain ⟨hnodup, hwritable, hentries⟩ := h
      rw [dumps, List.length_cons, List.length_append, List.length_append,
        List.length_append] at hfuel
      have hvalue := scanValue_dumps value depth fuel _ hwritable (by omega)
        (@noNumber_dumpFields floats entries rest)
      have hmore := scanFields_dumps entries depth fuel rest hentries (by omega)
      have hkey := scanKey_quote key hwritable (dumpFields floats entries ++ rest)
      have hskip : skipSpace (quote key ++ ((": " : Str) ++
          (dumps floats value ++ (dumpFields floats entries ++ rest)))) = quote key ++
            ((": " : Str) ++ (dumps floats value ++ (dumpFields floats entries ++ rest))) := rfl
      rw [dumps, List.cons_append, List.append_assoc, List.append_assoc, List.append_assoc,
        scanValue_brace (by rw [hskip]; exact hkey), hvalue, ok_bind]
      dsimp only
      rw [skipSpace_dumpFields, hmore, ok_bind, dictOf_of_nodup hnodup]
      rfl

theorem scanItems_dumps : ∀ (items : List Json) (depth fuel : ℕ) (rest : Str),
    WritableItems floats depth items → (dumpItems floats items).length < fuel →
      scanItems floats fuel depth (dumpItems floats items ++ rest) = .ok (items, rest)
  | _, _, 0, _, _, hfuel => absurd hfuel (Nat.not_lt_zero _)
  | [], _, _ + 1, _, _, _ => by
      rw [dumpItems, scanItems]
      rfl
  | item :: items, depth, fuel + 1, rest, h, hfuel => by
      rw [WritableItems] at h
      rw [dumpItems, List.length_append, List.length_append] at hfuel
      have hvalue := scanValue_dumps item depth fuel _ h.1 (by simp at hfuel; omega)
        (@noNumber_dumpItems floats items rest)
      have hmore := scanItems_dumps items depth fuel rest h.2
        (by simp at hfuel; omega)
      rw [dumpItems, List.append_assoc, List.append_assoc]
      change scanItems floats (fuel + 1) depth
        (',' :: ' ' :: (dumps floats item ++ (dumpItems floats items ++ rest))) = _
      rw [scanItems_comma, skipSpace_space_dumps h.1, hvalue, ok_bind]
      dsimp only
      rw [skipSpace_dumpItems, hmore]
      rfl

theorem scanFields_dumps : ∀ (entries : List (Str × Json)) (depth fuel : ℕ) (rest : Str),
    WritableFields floats depth entries → (dumpFields floats entries).length < fuel →
      scanFields floats fuel depth (dumpFields floats entries ++ rest) = .ok (entries, rest)
  | _, _, 0, _, _, hfuel => absurd hfuel (Nat.not_lt_zero _)
  | [], _, _ + 1, _, _, _ => by
      rw [dumpFields, scanFields]
      rfl
  | (key, value) :: entries, depth, fuel + 1, rest, h, hfuel => by
      rw [WritableFields] at h
      rw [dumpFields, List.length_append, List.length_append, List.length_append,
        List.length_append] at hfuel
      have hvalue := scanValue_dumps value depth fuel _ h.1 (by simp at hfuel; omega)
        (@noNumber_dumpFields floats entries rest)
      have hmore := scanFields_dumps entries depth fuel rest h.2
        (by simp at hfuel; omega)
      have hkey := scanKey_quote key h.1 (dumpFields floats entries ++ rest)
      have hskip : skipSpace (' ' :: (quote key ++ ((": " : Str) ++
          (dumps floats value ++ (dumpFields floats entries ++ rest))))) = quote key ++
            ((": " : Str) ++ (dumps floats value ++ (dumpFields floats entries ++ rest))) := rfl
      rw [dumpFields, List.append_assoc, List.append_assoc, List.append_assoc, List.append_assoc]
      change scanFields floats (fuel + 1) depth (',' :: ' ' :: (quote key ++ ((": " : Str) ++
        (dumps floats value ++ (dumpFields floats entries ++ rest))))) = _
      rw [scanFields_comma (by rw [hskip]; exact hkey), hvalue, ok_bind]
      dsimp only
      rw [skipSpace_dumpFields, hmore]
      rfl

end

theorem loads_dumps {v : Json} {depth : ℕ} (h : Writable floats depth v) :
    loads floats depth (dumps floats v) = .ok v := by
  have hskip : skipSpace (dumps floats v) = dumps floats v := by
    simpa using skipSpace_dumps h []
  have hscan := scanValue_dumps v depth _ [] h (Nat.lt_succ_self _) nofun
  rw [List.append_nil] at hscan
  unfold loads
  rw [hskip, hscan]
  rfl

end RoundTrip

/-- `repr(0.5)` and `float("0.5")`. -/
def halfOnly : Floats := ⟨fun _ => "0.5", fun _ => 1 / 2⟩

end Values

end OpenctiLookup.Python.JsonText
