import Mathlib.Algebra.Group.Nat.Defs
import OpenctiLookup.Python.Text

/-! The standard library's `ipaddress` for single addresses: the IPv4 and IPv6
readers, the compressed text form, and the registry tables behind the address
properties, as in CPython 3.12. -/
namespace OpenctiLookup.Python

inductive IpAddress where
  | v4 (ip : BitVec 32)
  | v6 (ip : BitVec 128) (scope : Option Str)
deriving DecidableEq

namespace IpAddress

/-- `_parse_octet`: one to three ASCII digits, no leading zero, at most 255. -/
def parseOctet (text : Str) : Option Nat :=
  if text.isEmpty || !text.all isAsciiDigit || text.length > 3 then none
  else if text ≠ ['0'] ∧ text.head? = some '0' then none
  else if asciiInt text > 255 then none
  else some (asciiInt text)

/-- `IPv4Address._ip_int_from_string`. -/
def parseV4 (text : Str) : Option (BitVec 32) :=
  match split '.' text with
  | [a, b, c, d] => do
      let a ← parseOctet a
      let b ← parseOctet b
      let c ← parseOctet c
      let d ← parseOctet d
      pure (BitVec.ofNat 32 (((a * 256 + b) * 256 + c) * 256 + d))
  | _ => none

/-- `_parse_hextet`. The empty text is refused by `int` and so here. -/
def parseHextet (text : Str) : Option Nat :=
  if text.isEmpty || text.length > 4 then none
  else text.foldlM (fun n c => (hexDigitValue c).map (16 * n + ·)) 0

def parseHextets : List Str → Nat → Option Nat
  | [], acc => some acc
  | text :: rest, acc => do
      let n ← parseHextet text
      parseHextets rest (acc * 65536 + n)

def innerGaps (parts : List Str) : List Nat :=
  ((parts.zipIdx.drop 1).dropLast.filter fun p => p.1.isEmpty).map (·.2)

/-- The final part of an IPv4-suffixed address becomes two hextets. -/
def expandSuffix (parts : List Str) : Option (List Str) :=
  match parts.getLast? with
  | none => some parts
  | some final =>
      if final.contains '.' then do
        let ip ← parseV4 final
        let n := ip.toNat
        pure (parts.dropLast ++ [hex (n / 65536), hex (n % 65536)])
      else some parts

/-- `IPv6Address._ip_int_from_string`. -/
def parseV6Int (text : Str) : Option (BitVec 128) := do
  let parts := split ':' text
  if parts.length < 3 then none
  let parts ← expandSuffix parts
  if parts.length > 9 then none
  let leading := parts.head? = some []
  let trailing := parts.getLast? = some []
  match innerGaps parts with
  | [] =>
      if parts.length ≠ 8 ∨ leading ∨ trailing then none
      (parseHextets parts 0).map (BitVec.ofNat 128)
  | [skip] =>
      let hi := if leading then skip - 1 else skip
      let lo := if trailing then parts.length - skip - 2 else parts.length - skip - 1
      -- An empty endpoint has to belong to the double colon itself.
      if (leading ∧ hi ≠ 0) ∨ (trailing ∧ lo ≠ 0) ∨ 8 < hi + lo + 1 then none
      let high ← parseHextets (parts.take hi) 0
      let all ← parseHextets (parts.drop (parts.length - lo)) (high * 65536 ^ (8 - (hi + lo)))
      pure (BitVec.ofNat 128 all)
  | _ => none

/-- `IPv6Address(text)`: the scope id after a percent sign is kept apart. -/
def parseV6 (text : Str) : Option IpAddress :=
  let (addr, found, scope) := partition '%' text
  if !found then (parseV6Int addr).map (v6 · none)
  else if scope.isEmpty || scope.contains '%' then none
  else (parseV6Int addr).map (v6 · (some scope))

/-- `ipaddress.ip_address(text)`, `none` for its `ValueError`. -/
def parse (text : Str) : Option IpAddress :=
  if text.contains '/' then none
  else
    match parseV4 text with
    | some ip => some (v4 ip)
    | none => parseV6 text

def version : IpAddress → Nat
  | v4 _ => 4
  | v6 _ _ => 6

def hextets (ip : BitVec 128) : List Nat :=
  (List.range 8).map fun i => ip.toNat / 65536 ^ (7 - i) % 65536

/-- Longest run of zeros, first one on a tie, as start and length. -/
def longestZeros : List Nat → Nat → Nat × Nat → Nat × Nat → Nat × Nat
  | [], _, _, best => best
  | h :: rest, index, (start, length), best =>
      if h = 0 then
        let run := if length = 0 then (index, 1) else (start, length + 1)
        longestZeros rest (index + 1) run (if run.2 > best.2 then run else best)
      else longestZeros rest (index + 1) (0, 0) best

/-- `_compress_hextets` and the join around it. -/
def compressV6 (ip : BitVec 128) : Str :=
  let groups := hextets ip
  let (start, length) := longestZeros groups 0 (0, 0) (0, 0)
  let texts := groups.map hex
  if length > 1 then
    let head := if start = 0 then [[]] else texts.take start
    let tail := if start + length = 8 then [[]] else texts.drop (start + length)
    join ":" (head ++ [[]] ++ tail)
  else join ":" texts

def compressed : IpAddress → Str
  | v4 ip =>
      let n := ip.toNat
      join "." [decimal (n / 2 ^ 24), decimal (n / 2 ^ 16 % 256), decimal (n / 2 ^ 8 % 256),
        decimal (n % 256)]
  | v6 ip none => compressV6 ip
  | v6 ip (some scope) => compressV6 ip ++ "%" ++ scope

/-- A network as base address and prefix length. -/
structure Network (width : Nat) where
  base : BitVec width
  bits : Nat

def Network.contains {width : Nat} (net : Network width) (ip : BitVec width) : Bool :=
  ip >>> (width - net.bits) == net.base >>> (width - net.bits)

def net4 (a b c d bits : Nat) : Network 32 :=
  ⟨BitVec.ofNat 32 (((a * 256 + b) * 256 + c) * 256 + d), bits⟩

def net6 (a b c d bits : Nat) : Network 128 :=
  ⟨BitVec.ofNat 128 ((((a * 65536 + b) * 65536 + c) * 65536 + d) * 2 ^ 64), bits⟩

def privateNetworks4 : List (Network 32) :=
  [net4 0 0 0 0 8, net4 10 0 0 0 8, net4 127 0 0 0 8, net4 169 254 0 0 16, net4 172 16 0 0 12,
    net4 192 0 0 0 24, net4 192 0 0 170 31, net4 192 0 2 0 24, net4 192 168 0 0 16,
    net4 198 18 0 0 15, net4 198 51 100 0 24, net4 203 0 113 0 24, net4 240 0 0 0 4,
    net4 255 255 255 255 32]

def privateExceptions4 : List (Network 32) := [net4 192 0 0 9 32, net4 192 0 0 10 32]

def privateNetworks6 : List (Network 128) :=
  [⟨1, 128⟩, ⟨0, 128⟩, ⟨BitVec.ofNat 128 0xffff00000000, 96⟩, net6 0x64 0xff9b 1 0 48,
    net6 0x100 0 0 0 64, net6 0x2001 0 0 0 23, net6 0x2001 0xdb8 0 0 32, net6 0x2002 0 0 0 16,
    net6 0xfc00 0 0 0 7, net6 0xfe80 0 0 0 10]

def privateExceptions6 : List (Network 128) :=
  [⟨BitVec.ofNat 128 (0x20010001 * 2 ^ 96 + 1), 128⟩,
    ⟨BitVec.ofNat 128 (0x20010001 * 2 ^ 96 + 2), 128⟩, net6 0x2001 3 0 0 32,
    net6 0x2001 4 0x112 0 48, net6 0x2001 0x20 0 0 28, net6 0x2001 0x30 0 0 28]

def reservedNetworks6 : List (Network 128) :=
  [net6 0 0 0 0 8, net6 0x100 0 0 0 8, net6 0x200 0 0 0 7, net6 0x400 0 0 0 6,
    net6 0x800 0 0 0 5, net6 0x1000 0 0 0 4, net6 0x4000 0 0 0 3, net6 0x6000 0 0 0 3,
    net6 0x8000 0 0 0 3, net6 0xa000 0 0 0 3, net6 0xc000 0 0 0 3, net6 0xe000 0 0 0 4,
    net6 0xf000 0 0 0 5, net6 0xf800 0 0 0 6, net6 0xfe00 0 0 0 9]

/-- `ipv4_mapped`: properties of a mapped address are those of its IPv4 part. -/
def ipv4Mapped (ip : BitVec 128) : Option (BitVec 32) :=
  if ip >>> 32 = 0xffff then some (ip.truncate 32) else none

def property (test4 : BitVec 32 → Bool) (test6 : BitVec 128 → Bool) : IpAddress → Bool
  | v4 ip => test4 ip
  | v6 ip _ =>
      match ipv4Mapped ip with
      | some mapped => test4 mapped
      | none => test6 ip

def isLoopback : IpAddress → Bool :=
  property (net4 127 0 0 0 8).contains (· == 1)

def isLinkLocal : IpAddress → Bool :=
  property (net4 169 254 0 0 16).contains (net6 0xfe80 0 0 0 10).contains

def isMulticast : IpAddress → Bool :=
  property (net4 224 0 0 0 4).contains (net6 0xff00 0 0 0 8).contains

def isUnspecified : IpAddress → Bool := property (· == 0) (· == 0)

def isReserved : IpAddress → Bool :=
  property (net4 240 0 0 0 4).contains fun ip => reservedNetworks6.any (·.contains ip)

def isPrivate : IpAddress → Bool :=
  property
    (fun ip => privateNetworks4.any (·.contains ip) && !privateExceptions4.any (·.contains ip))
    (fun ip => privateNetworks6.any (·.contains ip) && !privateExceptions6.any (·.contains ip))

end IpAddress

example : (IpAddress.parse "2001:4860:4860::8888").map IpAddress.compressed =
    some "2001:4860:4860::8888" := by decide
example : (IpAddress.parse "::ffff:10.0.0.1").map IpAddress.isPrivate = some true := by decide

end OpenctiLookup.Python
