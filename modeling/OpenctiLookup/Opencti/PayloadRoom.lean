import OpenctiLookup.Cache.Bytes
import OpenctiLookup.Opencti.TypedPayload
import OpenctiLookup.Python.TextLemmas

/-! How much room a payload may need, counted on the texts it is made of: those OpenCTI gives
for the node, the value asked for and the settings. The mapper cuts some of them, by
characters, and a character is up to six bytes. -/
namespace OpenctiLookup
open Python

variable {rt : Runtime}

/-- The most a text takes under a key when `limit` characters of it are kept. -/
def textRoom (key : Str) (limit : ℕ) (text : Str) : ℕ :=
  key.length + 6 + min (quotedBytes text) (6 * limit)

/-- The most some names take, `maxLabels` of them at most, each cut and with its comma. -/
def namesRoom (key : Str) (names : List Str) : ℕ :=
  if names = [] then 0
  else key.length + 6 + min
    (names.map fun name => min (quotedBytes name) (6 * maxLabelLen) + 1).sum
    (maxLabels * (6 * maxLabelLen + 1))

namespace Observable

variable (settings : Settings) (now : ℚ) (observable : Observable rt) (primary : Indicator rt)
  (asked shown matchType : Str)

/-- The texts a node and its best indicator may have, with the limits of their fields. -/
def texts : List (Str × ℕ × Option Str) :=
  [("score", maxTextLen, primary.score.map fun n => rt.strOf (.int n)),
    ("confidence", maxTextLen, primary.confidence.map fun n => rt.strOf (.int n)),
    ("valid_from", maxTextLen, primary.validFrom.map Timestamp.text),
    ("valid_until", maxTextLen, primary.validUntil.map Timestamp.text),
    ("indicator_name", maxNameLen, primary.name),
    ("pattern_type", 32, primary.patternType),
    ("description", maxTextLen, primary.description),
    ("marking", maxLabelLen,
      (primary.markings ++ observable.markings).find? fun marking => !marking.isEmpty),
    ("observable_score", maxTextLen, observable.score.map fun n => rt.strOf (.int n)),
    ("created_by", maxNameLen, primary.createdBy)]

def labelNames : List Str :=
  (((observable.ranked settings now).flatMap Indicator.labels).filter
    fun label => !label.isEmpty).eraseDups

def linksRoom : ℕ :=
  ((virustotalUrl observable.entityType.text asked).elim 0 fun _ => 62 + quotedBytes asked) +
    if primary.id.isEmpty then 0
    else 52 + quotedBytes settings.openctiUrl + quotedBytes primary.id

/-- The room for the payload of a node. The fields that are always there take 149 bytes and
their texts. -/
def room : ℕ :=
  149 + quotedBytes shown + quotedBytes (decimal (observable.ranked settings now).length) +
    ((observable.texts primary).map fun text =>
      text.2.2.elim 0 (textRoom text.1 text.2.1)).sum +
    namesRoom "kill_chain" (primary.phases.filter fun phase => !phase.isEmpty) +
    namesRoom "labels" (observable.labelNames settings now) +
    observable.linksRoom settings primary asked

end Observable

section Cut

variable {key text : Str} {limit : ℕ}

end Cut

section Names

variable {names parts : List Str} {cut : Str → Str}

end Names

namespace Observable

variable {settings : Settings} {now : ℚ} (observable : Observable rt) (primary : Indicator rt)
  (asked shown : Str)

end Observable

end OpenctiLookup
