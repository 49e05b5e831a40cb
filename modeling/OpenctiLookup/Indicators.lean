import Mathlib.Data.Finset.Basic
import OpenctiLookup.Python.Urlsplit

/-! `indicators.py`: defang, classify and normalize a value. `normalize` runs
ahead of every cache and every backend, and its marker loop is the one place
where it may fail to return. -/
namespace OpenctiLookup
open Python

/-- STIX observable types as `IndicatorType` lists them. -/
inductive IndicatorType where
  | ipv4
  | ipv6
  | domain
  | url
  | hashMd5
  | hashSha1
  | hashSha256
  | unknown
deriving DecidableEq, Repr

namespace IndicatorType

def value : IndicatorType → Str
  | ipv4 => "IPv4-Addr"
  | ipv6 => "IPv6-Addr"
  | domain => "Domain-Name"
  | url => "Url"
  | hashMd5 => "StixFile:MD5"
  | hashSha1 => "StixFile:SHA-1"
  | hashSha256 => "StixFile:SHA-256"
  | unknown => "Unknown"

def hashAlgorithm : IndicatorType → Option Str
  | hashMd5 => some "MD5"
  | hashSha1 => some "SHA-1"
  | hashSha256 => some "SHA-256"
  | _ => none

end IndicatorType

def hashByLength : Nat → Option IndicatorType
  | 32 => some .hashMd5
  | 40 => some .hashSha1
  | 64 => some .hashSha256
  | _ => none

def fileExtensions : List Str :=
  ["exe", "dll", "sys", "bat", "cmd", "ps1", "vbs", "js", "jar", "msi",
    "scr", "bin", "dat", "tmp", "log", "txt", "doc", "docx", "xls",
    "xlsx", "ppt", "pptx", "pdf", "rtf", "rar", "7z", "gz", "tar",
    "iso", "img", "png", "jpg", "jpeg", "gif", "bmp", "svg", "mp3", "mp4",
    "avi", "lnk", "url", "hta", "chm", "reg", "conf", "ini", "xml", "json",
    "csv", "sql", "bak", "php", "asp", "aspx", "jsp"]

/-- `_DEFANG`: markers and their replacements, in order. -/
def defangMarkers : List (Str × Str) :=
  [("[.]", "."), ("(.)", "."), ("\x7b.\x7d", "."), (" dot ", "."),
    ("[:]", ":"), ("[/]", "/"), ("[@]", "@"), ("[at]", "@"),
    ("hxxps", "https"), ("hxxp", "http"), ("fxp", "ftp")]

def stripSet : Str := " \t\r\n\"'<>[]()"

section Patterns
open Regex

def hexPattern : Regex :=
  concat [caret, rep (cls fun c => (hexDigitValue c).isSome) 1 none, dollar]

def labelClass : Regex := cls fun c => isAsciiLower c || isAsciiDigit c || c == '-'

/-- `(?!-)[a-z0-9-]{1,63}(?<!-)`. -/
def labelPattern : Regex :=
  concat [notAhead (chr '-'), rep labelClass 1 (some 63), notBehind (· == '-')]

/-- `_DOMAIN_RE`. -/
def domainPattern : Regex :=
  concat [caret, lookahead (concat [rep (cls (· != '\n')) 1 (some 253), dollar]), labelPattern,
    rep (seq (chr '.') labelPattern) 0 none, chr '.', notAhead (chr '-'),
    rep labelClass 0 none, cls isAsciiLower, rep labelClass 0 none, notBehind (· == '-'), dollar]

variable (rt : Runtime)

def octetPattern : Regex := rep (cls rt.isDecimal) 1 (some 3)

/-- `0\d{1,2}`. -/
def paddedOctet : Regex := seq (chr '0') (rep (cls rt.isDecimal) 1 (some 2))

/-- `_ZERO_PADDED_IPV4_RE`. -/
def zeroPaddedIpv4Pattern : Regex :=
  alt
    (concat [caret, paddedOctet rt, rep (seq (chr '.') (octetPattern rt)) 3 (some 3), dollar])
    (concat [caret, octetPattern rt,
      rep (alt (seq (chr '.') (paddedOctet rt)) (seq (chr '.') (octetPattern rt))) 3 (some 3),
      dollar])

/-- `_DOTTED_QUAD_RE`. -/
def dottedQuadPattern : Regex :=
  concat [caret, octetPattern rt, rep (seq (chr '.') (octetPattern rt)) 3 (some 3), dollar]

end Patterns

def defaultPort (scheme : Str) : Option Str :=
  if scheme = "http" then some "80"
  else if scheme = "https" then some "443"
  else if scheme = "ftp" then some "21"
  else none

/-- A value ready to look up, or a reason it will never be looked up. -/
structure Normalized where
  original : Str
  value : Str
  type : IndicatorType
  skipReason : Option Str
deriving DecidableEq

namespace Normalized

def lookupable (n : Normalized) : Bool :=
  n.skipReason.isNone && decide (n.type ≠ .unknown)

def cacheKey (n : Normalized) : Str := n.type.value ++ ":" ++ n.value

end Normalized

theorem IndicatorType.eq_of_value_colon {a b : IndicatorType}
    (h : a.value ++ (":" : Str) <+: b.value ++ (":" : Str)) : a = b := by
  revert h
  cases a <;> cases b <;> decide

theorem Normalized.cacheKey_injective {a b : Normalized} (h : a.cacheKey = b.cacheKey) :
    a.type = b.type ∧ a.value = b.value := by
  have hleft : a.type.value ++ (":" : Str) <+: a.cacheKey := ⟨a.value, rfl⟩
  have hright : b.type.value ++ (":" : Str) <+: a.cacheKey := ⟨b.value, h.symm⟩
  have htype : a.type = b.type := by
    rcases List.prefix_or_prefix_of_prefix hleft hright with hab | hba
    · exact IndicatorType.eq_of_value_colon hab
    · exact (IndicatorType.eq_of_value_colon hba).symm
  refine ⟨htype, ?_⟩
  unfold Normalized.cacheKey at h
  rw [htype] at h
  exact List.append_cancel_left h

/-- The inner loop of `_defang` for one marker: the index is found in the
lowered text and used to cut the original one. Where the two differ in length
the loop need not end, so its result is partial. -/
def Python.Runtime.replaceMarker (rt : Runtime) (marker repl out : Str) : Option Str :=
  match find marker (rt.lower out) with
  | none => some out
  | some idx => rt |>.replaceMarker marker repl
      (out.take idx ++ repl ++ out.drop (idx + marker.length))
partial_fixpoint

variable (rt : Runtime)

def replaceMarkers : List (Str × Str) → Str → Option Str
  | [], out => some out
  | (marker, repl) :: rest, out => (rt.replaceMarker marker repl out).bind (replaceMarkers rest)

/-- `_defang`, `none` when a marker loop never ends. -/
def defang (raw : Str) : Option Str :=
  let out := stripChars stripSet (strip raw)
  let lowered := rt.lower out
  let replaced :=
    if defangMarkers.any fun marker => isIn marker.1 lowered then
      replaceMarkers rt defangMarkers out
    else some out
  replaced.map (stripChars stripSet)

def toPunycode (host : Str) : Str :=
  if isascii host then rt.lower host
  else
    match rt.idna host with
    | some encoded => rt.lower encoded
    | none => rt.lower host

/-- `_is_skippable_ip`, most specific reason first. -/
def isSkippableIp (ip : IpAddress) : Option Str :=
  if ip.isLoopback then some "loopback_ip"
  else if ip.isLinkLocal then some "link_local_ip"
  else if ip.isMulticast then some "multicast_ip"
  else if ip.isUnspecified then some "unspecified_ip"
  else if ip.isReserved then some "reserved_ip"
  else if ip.isPrivate then some "private_ip"
  else none

/-- `_normalize_url`: the normalized URL and its hostname. -/
def normalizeUrl (raw : Str) : Option (Str × Str) := do
  let candidate := if isIn "://" raw then raw else "http://" ++ raw
  let parts ← urlsplit rt candidate
  let hostname ← parts.hostname rt
  let host := toPunycode rt hostname
  let port ← parts.port
  let scheme := rt.lower parts.scheme
  let netloc :=
    match port with
    | some p => if some (decimal p) = defaultPort scheme then host else host ++ ":" ++ decimal p
    | none => host
  -- Path and query stay as they are, an empty path included.
  pure (urlunsplit ⟨scheme, netloc, parts.path, parts.query, []⟩, host)

/-- `host.rsplit(".", 1)[-1]`, also for a host without a dot. -/
def lastLabel (host : Str) : Str := (rpartition '.' host).2.2

def unpadQuad (bare : Str) : Str :=
  if (dottedQuadPattern rt).isMatch bare && (zeroPaddedIpv4Pattern rt).isMatch bare then
    join "." ((split '.' bare).map fun octet => decimal (rt.digitsInt octet))
  else bare

/-- Hash, URL and domain branches of `normalize`, for a cleaned value that is
no IP address. -/
def classifyText (raw cleaned : Str) (skipTlds : List Str) : Normalized :=
  match hashByLength cleaned.length with
  | some kind => if hexPattern.isMatch cleaned then ⟨raw, rt.lower cleaned, kind, none⟩ else other
  | none => other
where
  other : Normalized :=
    if isIn "://" cleaned || isIn "/" cleaned || isIn "?" cleaned then
      match normalizeUrl rt cleaned with
      | none => ⟨raw, cleaned, .unknown, some "unparseable_url"⟩
      | some (url, host) =>
          if lastLabel host ∈ skipTlds then ⟨raw, url, .url, some "skipped_tld"⟩
          else ⟨raw, url, .url, none⟩
    else
      let host := toPunycode rt (rstripChars "." cleaned)
      if domainPattern.isMatch host then
        if lastLabel host ∈ skipTlds then ⟨raw, host, .domain, some "skipped_tld"⟩
        else if lastLabel host ∈ fileExtensions then
          ⟨raw, host, .unknown, some "looks_like_filename"⟩
        else ⟨raw, host, .domain, none⟩
      else ⟨raw, cleaned, .unknown, some "unclassified"⟩

/-- `normalize` after `_defang`. -/
def classify (skipPrivate : Bool) (skipTlds : List Str) (raw cleaned : Str) : Normalized :=
  if cleaned.isEmpty then ⟨raw, [], .unknown, some "empty_after_defang"⟩
  else
    match IpAddress.parse (unpadQuad rt (stripChars "[]" cleaned)) with
    | some ip =>
        ⟨raw, ip.compressed, if ip.version = 4 then .ipv4 else .ipv6,
          if skipPrivate then isSkippableIp ip else none⟩
    | none => classifyText rt raw cleaned skipTlds

def normalize (skipPrivate : Bool) (skipTlds : List Str) (raw : Str) : Py Normalized :=
  if (strip raw).isEmpty then .ok ⟨raw, [], .unknown, some "empty"⟩
  else
    match defang rt raw with
    | none => .error .diverges
    | some cleaned => .ok (classify rt skipPrivate skipTlds raw cleaned)

def urlHostname (normalizedUrl : Str) : Option Str :=
  (urlsplit rt normalizedUrl).bind (·.hostname rt)

end OpenctiLookup
