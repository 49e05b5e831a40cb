import Mathlib.Algebra.Order.BigOperators.Group.List
import OpenctiLookup.Cache.Payload
import OpenctiLookup.Opencti.Mapper

/-! How large a payload is: the UTF-8 bytes of its compact JSON text. -/
namespace OpenctiLookup
open Python

def utf8Bytes (s : Str) : ℕ := (s.map Char.utf8Size).sum

/-- A character inside a JSON string; what is not ASCII stays as it is. -/
def jsonEscape (c : Char) : Str :=
  if c = '"' then "\\\""
  else if c = '\\' then "\\\\"
  else if c = '\n' then "\\n"
  else if c = '\x0d' then "\\r"
  else if c = '\t' then "\\t"
  else if c = '\x08' then "\\b"
  else if c = '\x0c' then "\\f"
  else if c.toNat < 16 then "\\u000" ++ hex c.toNat
  else if c.toNat < 32 then "\\u00" ++ hex c.toNat
  else [c]

def jsonText (s : Str) : Str := "\"" ++ s.flatMap jsonEscape ++ "\""

def jsonEntry (entry : Str × Str) : Str := jsonText entry.1 ++ ":" ++ jsonText entry.2

namespace Payload

/-- `json.dumps` with compact separators. -/
def serialize (payload : Payload) : Str := "\x7b" ++ join "," (payload.map jsonEntry) ++ "\x7d"

def bytes (payload : Payload) : ℕ := utf8Bytes payload.serialize

end Payload

def quotedBytes (s : Str) : ℕ := utf8Bytes (s.flatMap jsonEscape)

namespace PayloadCache

variable {π : Type}

theorem length_get (cache : PayloadCache π) (key : Str) (now : ℚ) :
    (cache.get key now).2.data.length ≤ cache.data.length := by
  unfold get
  cases hentry : cache.entry key with
  | none => exact le_rfl
  | some stored =>
      dsimp only
      split
      · exact List.length_filter_le _ _
      · have hmem := mem_of_entry hentry
        have hlt : (erase key cache.data).length < cache.data.length :=
          List.length_filter_lt_length_iff_exists.mpr ⟨_, hmem, by simp⟩
        rw [List.length_append, List.length_singleton]
        exact hlt

theorem length_evict (most : ℤ) (hmost : 0 ≤ most) (data : List (Str × π × ℚ)) :
    ((evict most data).length : ℤ) ≤ most := by
  induction data with
  | nil => exact hmost
  | cons e rest ih =>
      rw [evict]
      split
      · exact ih
      · rename_i hfits
        simpa using not_lt.mp hfits

end PayloadCache

end OpenctiLookup
