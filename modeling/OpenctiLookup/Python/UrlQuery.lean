import Mathlib.Data.List.SplitBy
import OpenctiLookup.Python.TextLemmas

/-! `urllib.parse`: a query string as `urlencode` writes it and `parse_qsl` reads it. A
value may hold any character; it comes back as it was. -/
namespace OpenctiLookup.Python

/-- `s.encode()`. -/
def encodeUtf8 (s : Str) : List UInt8 := s.flatMap String.utf8EncodeChar

def isContinuation (b : UInt8) : Bool := 0x80 ≤ b && b ≤ 0xbf

def secondFits (lead second : UInt8) : Bool :=
  if lead = 0xe0 then 0xa0 ≤ second && second ≤ 0xbf
  else if lead = 0xed then 0x80 ≤ second && second ≤ 0x9f
  else if lead = 0xf0 then 0x90 ≤ second && second ≤ 0xbf
  else if lead = 0xf4 then 0x80 ≤ second && second ≤ 0x8f
  else 0xe1 ≤ lead && lead ≤ 0xf3 && isContinuation second

/-- How much of a sequence without a character one replacement character stands for, the
first byte apart: its start as far as it is well formed. -/
def brokenTail (lead : UInt8) : List UInt8 → ℕ
  | [] => 0
  | second :: rest =>
      if secondFits lead second then
        if 0xf0 ≤ lead && rest.head?.any isContinuation then 2 else 1
      else 0

/-- `bytes.decode("utf-8", "replace")`, with the number of bytes already read. -/
def decodeUtf8 : ℕ → List UInt8 → Str
  | _, [] => []
  | skip + 1, _ :: rest => decodeUtf8 skip rest
  | 0, b :: rest =>
      match (b :: rest).toByteArray.utf8DecodeChar? 0 with
      | some c => c :: decodeUtf8 (c.utf8Size - 1) rest
      | none => '\ufffd' :: decodeUtf8 (brokenTail b rest) rest

def upperHex (n : ℕ) : Char := if n < 10 then Char.ofNat (48 + n) else Char.ofNat (55 + n)

def percentByte (b : UInt8) : Str := ['%', upperHex (b.toNat / 16), upperHex (b.toNat % 16)]

/-- The characters `quote` leaves alone. -/
def isUnreserved (c : Char) : Bool :=
  isAsciiAlpha c || isAsciiDigit c || "_.-~".toList.contains c

def quoteChar (c : Char) : Str :=
  if c = ' ' then ['+']
  else if isUnreserved c then [c]
  else (String.utf8EncodeChar c).flatMap percentByte

/-- `quote_plus(s)`. -/
def quotePlus (s : Str) : Str := s.flatMap quoteChar

/-- `urlencode` of one entry. -/
def urlencode (key value : Str) : Str := quotePlus key ++ '=' :: quotePlus value

/-- `unquote_to_bytes(s)`: a `%` without two digits behind it is kept. -/
def unquoteToBytes : Str → List UInt8
  | '%' :: high :: low :: rest =>
      match hexDigitValue high, hexDigitValue low with
      | some high, some low => UInt8.ofNat (16 * high + low) :: unquoteToBytes rest
      | _, _ => 0x25 :: unquoteToBytes (high :: low :: rest)
  | c :: rest => String.utf8EncodeChar c ++ unquoteToBytes rest
  | [] => []

/-- `unquote(s)`: what is not ASCII splits the text and stays as it is. -/
def unquote (s : Str) : Str :=
  (s.splitBy fun c d => isAscii c == isAscii d).flatMap fun run =>
    if isascii run then decodeUtf8 0 (unquoteToBytes run) else run

def unquotePlus (s : Str) : Str := unquote (replaceChar '+' " " s)

/-- `parse_qsl(query, keep_blank_values=True)`. -/
def parseQsl (query : Str) : List (Str × Str) :=
  (split '&' query).filterMap fun part =>
    if part.isEmpty then none
    else some (unquotePlus (partition '=' part).1, unquotePlus (partition '=' part).2.2)

section Bytes

theorem decodeUtf8_skip (read rest : List UInt8) :
    decodeUtf8 read.length (read ++ rest) = decodeUtf8 0 rest := by
  induction read with
  | nil => rfl
  | cons b read ih => exact ih

theorem decodeUtf8_char (c : Char) (rest : List UInt8) :
    decodeUtf8 0 (String.utf8EncodeChar c ++ rest) = c :: decodeUtf8 0 rest := by
  have hread := @ByteArray.utf8DecodeChar?_utf8EncodeChar_append rest.toByteArray c
  rw [← List.toByteArray_append] at hread
  have hlength := String.length_utf8EncodeChar c
  cases hbytes : String.utf8EncodeChar c with
  | nil =>
      rw [hbytes] at hlength
      exact absurd hlength.symm (Nat.ne_of_gt c.utf8Size_pos)
  | cons b tail =>
      rw [hbytes, List.cons_append] at hread
      rw [hbytes, List.length_cons] at hlength
      rw [List.cons_append, decodeUtf8, hread]
      dsimp only
      rw [← hlength, Nat.add_sub_cancel, decodeUtf8_skip]

theorem decodeUtf8_encodeUtf8 (s : Str) : decodeUtf8 0 (encodeUtf8 s) = s := by
  induction s with
  | nil => rfl
  | cons c s ih => rw [encodeUtf8, List.flatMap_cons, decodeUtf8_char, ← encodeUtf8, ih]

theorem hexDigitValue_upperHex {n : ℕ} (h : n < 16) : hexDigitValue (upperHex n) = some n := by
  revert n
  decide

theorem unquoteToBytes_percentByte (b : UInt8) (rest : Str) :
    unquoteToBytes (percentByte b ++ rest) = b :: unquoteToBytes rest := by
  have hlt : b.toNat < 256 := b.toNat_lt
  have hbyte : UInt8.ofNat (16 * (b.toNat / 16) + b.toNat % 16) = b := by
    rw [Nat.div_add_mod, UInt8.ofNat_toNat]
  unfold percentByte
  rw [List.cons_append, List.cons_append, List.cons_append, List.nil_append, unquoteToBytes,
    hexDigitValue_upperHex (by omega), hexDigitValue_upperHex (by omega)]
  dsimp only
  rw [hbyte]

theorem unquoteToBytes_bytes (bytes : List UInt8) (rest : Str) :
    unquoteToBytes (bytes.flatMap percentByte ++ rest) = bytes ++ unquoteToBytes rest := by
  induction bytes with
  | nil => rfl
  | cons b bytes ih =>
      rw [List.flatMap_cons, List.append_assoc, unquoteToBytes_percentByte, ih, List.cons_append]

theorem unquoteToBytes_cons {c : Char} (h : c ≠ '%') (rest : Str) :
    unquoteToBytes (c :: rest) = String.utf8EncodeChar c ++ unquoteToBytes rest := by
  rw [unquoteToBytes]
  rintro high low tail rfl
  exact absurd rfl h

end Bytes

section RoundTrip

theorem isAscii_of_isUnreserved {c : Char} (h : isUnreserved c = true) : isAscii c = true := by
  unfold isUnreserved isAsciiAlpha at h
  simp only [Bool.or_eq_true] at h
  rcases h with ((h | h) | h) | h
  · exact isAscii_of_isAsciiLower h
  · exact isAscii_of_le (by simpa [isAsciiUpper] using (Bool.and_eq_true_iff.mp h).2) (by decide)
  · exact isAscii_of_isAsciiDigit h
  · revert h
    rw [List.contains_iff_mem]
    revert c
    decide

theorem mem_quoteChar {c d : Char} (h : d ∈ quoteChar c) :
    isUnreserved d = true ∨ d = '+' ∨ d = '%' := by
  have hhex : ∀ n < 16, isUnreserved (upperHex n) = true := by decide
  unfold quoteChar at h
  split at h
  · exact .inr (.inl (List.mem_singleton.mp h))
  · split at h
    · next hplain =>
        rw [List.mem_singleton.mp h]
        exact .inl hplain
    · obtain ⟨b, -, hb⟩ := List.mem_flatMap.mp h
      have hlt : b.toNat < 256 := b.toNat_lt
      simp only [percentByte, List.mem_cons, List.not_mem_nil, or_false] at hb
      rcases hb with rfl | rfl | rfl
      · exact .inr (.inr rfl)
      · exact .inl (hhex _ (by omega))
      · exact .inl (hhex _ (by omega))

theorem not_mem_quotePlus {d : Char} (hreserved : isUnreserved d = false) (hplus : d ≠ '+')
    (hpercent : d ≠ '%') (s : Str) : d ∉ quotePlus s := by
  intro h
  obtain ⟨c, -, hd⟩ := List.mem_flatMap.mp h
  rcases mem_quoteChar hd with h | h | h
  · rw [hreserved] at h
    cases h
  · exact hplus h
  · exact hpercent h

theorem replaceChar_append (old : Char) (new s t : Str) :
    replaceChar old new (s ++ t) = replaceChar old new s ++ replaceChar old new t :=
  List.flatMap_append

theorem replaceChar_of_not_mem {old : Char} {new s : Str} (h : old ∉ s) :
    replaceChar old new s = s := by
  induction s with
  | nil => rfl
  | cons c s ih =>
      rw [List.mem_cons, not_or] at h
      rw [replaceChar, List.flatMap_cons, if_neg (Ne.symm h.1), ← replaceChar, ih h.2]
      rfl

theorem unquoteToBytes_quoteChar (c : Char) (rest : Str) :
    unquoteToBytes (replaceChar '+' " " (quoteChar c) ++ rest) =
      String.utf8EncodeChar c ++ unquoteToBytes rest := by
  unfold quoteChar
  by_cases hspace : c = ' '
  · rw [if_pos hspace, hspace]
    exact unquoteToBytes_cons (by decide) rest
  · rw [if_neg hspace]
    by_cases hplain : isUnreserved c = true
    · have hother : ∀ d, isUnreserved d = false → c ≠ d := by
        rintro d hd rfl
        rw [hplain] at hd
        cases hd
      rw [if_pos hplain, replaceChar_of_not_mem (by simpa using (hother '+' rfl).symm)]
      exact unquoteToBytes_cons (hother '%' rfl) rest
    · rw [if_neg hplain, replaceChar_of_not_mem, unquoteToBytes_bytes]
      intro hplus
      have hhex : ∀ n < 16, upperHex n ≠ '+' := by decide
      obtain ⟨b, -, hb⟩ := List.mem_flatMap.mp hplus
      have hlt : b.toNat < 256 := b.toNat_lt
      simp only [percentByte, List.mem_cons, List.not_mem_nil, or_false] at hb
      rcases hb with hb | hb | hb
      · cases hb
      · exact hhex _ (by omega) hb.symm
      · exact hhex _ (by omega) hb.symm

theorem unquoteToBytes_quotePlus (s : Str) :
    unquoteToBytes (replaceChar '+' " " (quotePlus s)) = encodeUtf8 s := by
  induction s with
  | nil => rfl
  | cons c s ih =>
      rw [quotePlus, List.flatMap_cons, replaceChar_append, unquoteToBytes_quoteChar, ← quotePlus,
        ih]
      rfl

theorem unquote_of_isascii {s : Str} (h : isascii s = true) :
    unquote s = decodeUtf8 0 (unquoteToBytes s) := by
  unfold unquote
  cases s with
  | nil => rfl
  | cons c s =>
      rw [List.splitBy_of_isChain (List.cons_ne_nil _ _), List.flatMap_cons, List.flatMap_nil,
        List.append_nil, if_pos h]
      unfold isascii at h
      rw [List.all_eq_true] at h
      refine List.Pairwise.isChain (List.pairwise_of_forall_mem_list fun a ha b hb => ?_)
      rw [h a ha, h b hb]
      rfl

theorem unquotePlus_quotePlus (s : Str) : unquotePlus (quotePlus s) = s := by
  have hascii : isascii (replaceChar '+' " " (quotePlus s)) = true := by
    rw [isascii, List.all_eq_true]
    intro d hd
    obtain ⟨e, he, hd⟩ := List.mem_flatMap.mp hd
    obtain ⟨c, -, he⟩ := List.mem_flatMap.mp he
    split at hd
    · rw [List.mem_singleton.mp hd]
      rfl
    · next hplus =>
        rw [List.mem_singleton.mp hd]
        rcases mem_quoteChar he with h | h | h
        · exact isAscii_of_isUnreserved h
        · exact absurd h hplus
        · rw [h]
          rfl
  rw [unquotePlus, unquote_of_isascii hascii, unquoteToBytes_quotePlus, decodeUtf8_encodeUtf8]

theorem parseQsl_urlencode (key value : Str) : parseQsl (urlencode key value) = [(key, value)] := by
  have hamp : '&' ∉ urlencode key value := by
    rw [urlencode, List.mem_append, List.mem_cons]
    rintro (h | h | h)
    · exact not_mem_quotePlus rfl (by decide) (by decide) key h
    · cases h
    · exact not_mem_quotePlus rfl (by decide) (by decide) value h
  have hequals : '=' ∉ quotePlus key := not_mem_quotePlus rfl (by decide) (by decide) key
  rw [parseQsl, split_of_not_mem hamp, urlencode, List.filterMap_cons, partition_append hequals,
    unquotePlus_quotePlus, unquotePlus_quotePlus, if_neg (by simp)]
  rfl

end RoundTrip

end OpenctiLookup.Python
