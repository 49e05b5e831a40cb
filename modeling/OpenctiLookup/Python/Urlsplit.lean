import OpenctiLookup.Python.Ipaddress
import OpenctiLookup.Python.Regex
import OpenctiLookup.Python.Runtime

/-! `urllib.parse.urlsplit`, the `hostname` and `port` of its result and
`urlunsplit`, as in CPython 3.12. A `ValueError` is `none`. -/
namespace OpenctiLookup.Python

structure SplitResult where
  scheme : Str
  netloc : Str
  path : Str
  query : Str
  fragment : Str
deriving DecidableEq

def isSchemeChar (c : Char) : Bool :=
  isAsciiAlpha c || isAsciiDigit c || c == '+' || c == '-' || c == '.'

/-- `_splitnetloc` on the text after the two slashes. -/
def splitNetloc (url : Str) : Str × Str :=
  url.span fun c => c != '/' && c != '?' && c != '#'

/-- `_checknetloc`: whether the NFKC form brings in no new delimiter. -/
def checkNetloc (rt : Runtime) (netloc : Str) : Bool :=
  if isascii netloc then true
  else
    let plain := netloc.filter fun c => !("@:#?".toList.contains c)
    let folded := rt.nfkc plain
    plain == folded || !("/?#@:".toList.any folded.contains)

/-- `\Av[a-fA-F0-9]+\..+\Z`. -/
def ipvFuture : Regex :=
  .concat [.chr 'v', .rep (.cls fun c => (hexDigitValue c).isSome) 1 none, .chr '.',
    .rep (.cls (· != '\n')) 1 none, .notAhead (.cls fun _ => true)]

def checkBracketedHost (host : Str) : Bool :=
  if startsWith "v" host then ipvFuture.isMatch host
  else
    match IpAddress.parse host with
    | some (.v6 _ _) => true
    | _ => false

def checkBracketedNetloc (netloc : Str) : Bool :=
  let hostAndPort := (rpartition '@' netloc).2.2
  let (before, found, bracketed) := partition '[' hostAndPort
  if found then
    let (host, _, port) := partition ']' bracketed
    before.isEmpty && (port.isEmpty || startsWith ":" port) && checkBracketedHost host
  else checkBracketedHost (partition ':' hostAndPort).1

def cleanUrl (url : Str) : Str :=
  (url.dropWhile fun c => c.toNat ≤ 32).filter fun c => c != '\t' && c != '\r' && c != '\n'

def splitScheme (url : Str) : Str × Str :=
  let (scheme, found, rest) := partition ':' url
  if found && (scheme.head?.map isAsciiAlpha).getD false && scheme.all isSchemeChar then
    (scheme.map asciiLower, rest)
  else ([], url)

def urlsplit (rt : Runtime) (url : Str) : Option SplitResult := do
  let (scheme, url) := splitScheme (cleanUrl url)
  let (netloc, url) := if startsWith "//" url then splitNetloc (url.drop 2) else ([], url)
  if netloc.contains '[' ≠ netloc.contains ']' then none
  if netloc.contains '[' ∧ !checkBracketedNetloc netloc then none
  let (url, _, fragment) := partition '#' url
  let (path, _, query) := partition '?' url
  if !checkNetloc rt netloc then none
  pure ⟨scheme, netloc, path, query, fragment⟩

namespace SplitResult

variable (rt : Runtime) (parts : SplitResult)

/-- `_hostinfo`: host text and port text of the network location. -/
def hostinfo : Str × Option Str :=
  let hostAndPort := (rpartition '@' parts.netloc).2.2
  let (_, found, bracketed) := partition '[' hostAndPort
  let (host, port) :=
    if found then
      let (host, _, rest) := partition ']' bracketed
      (host, (partition ':' rest).2.2)
    else
      let (host, _, port) := partition ':' hostAndPort
      (host, port)
  (host, if port.isEmpty then none else some port)

/-- The `hostname` property: lowercased up to a zone id, `none` when empty. -/
def hostname : Option Str :=
  let host := parts.hostinfo.1
  if host.isEmpty then none
  else
    let (name, found, zone) := partition '%' host
    some (rt.lower name ++ (if found then "%" else "") ++ zone)

/-- The `port` property; the outer `none` is a `ValueError`. -/
def port : Option (Option Nat) :=
  match parts.hostinfo.2 with
  | none => some none
  | some text =>
      if text.all isAsciiDigit && asciiInt text ≤ 65535 then some (some (asciiInt text)) else none

end SplitResult

/-- `urlunsplit` for a non-empty network location. -/
def urlunsplit (parts : SplitResult) : Str :=
  let path := if parts.path.isEmpty || startsWith "/" parts.path then parts.path
    else '/' :: parts.path
  let url := "//" ++ parts.netloc ++ path
  let url := if parts.scheme.isEmpty then url else parts.scheme ++ ":" ++ url
  let url := if parts.query.isEmpty then url else url ++ "?" ++ parts.query
  if parts.fragment.isEmpty then url else url ++ "#" ++ parts.fragment

end OpenctiLookup.Python
