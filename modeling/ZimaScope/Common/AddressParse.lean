import ZimaScope.Common.Abi

/-! # Parsing addresses

`FromStr` of numbers, IP addresses and socket addresses. A reader takes characters
from the front of a text, and gives nothing without taking anything where it does
not fit.
-/

namespace ZimaScope

/-- `FromStr` of an unsigned number below the bound, which takes a plus sign before digits. -/
def parseUnsigned (bound : ℕ) (text : List Char) : Option ℕ :=
  let digits := match text with
    | '+' :: digit :: rest => digit :: rest
    | _ => text
  if digits ≠ [] ∧ digits.all Char.isDigit then
    let value := digits.foldl (fun value c => value * 10 + (c.toNat - 48)) 0
    if value < bound then some value else none
  else none

namespace AddressParse

abbrev Reader (α : Type) := List Char → Option (α × List Char)

def digitValue (radix : ℕ) (c : Char) : Option ℕ :=
  let n := c.toNat
  let value :=
    if 48 ≤ n ∧ n ≤ 57 then some (n - 48)
    else if 97 ≤ n ∧ n ≤ 122 then some (n - 87)
    else if 65 ≤ n ∧ n ≤ 90 then some (n - 55)
    else none
  value.filter (· < radix)

def readGivenChar (target : Char) : Reader Unit
  | c :: rest => if c = target then some ((), rest) else none
  | [] => none

/-- The separator before every item but the first. -/
def readSeparator {α : Type} (separator : Char) (index : ℕ) (inner : Reader α) : Reader α :=
  fun text =>
    if index = 0 then inner text
    else (readGivenChar separator text).bind fun (_, rest) => inner rest

/-- As many digits as there are: at most so many, and below the bound. -/
def readNumber (radix : ℕ) (maxDigits : Option ℕ) (allowZeroPrefix : Bool) (bound : ℕ) : Reader ℕ :=
  fun text =>
    let digits := text.takeWhile fun c => (digitValue radix c).isSome
    let value := (digits.filterMap (digitValue radix)).foldl (fun value d => value * radix + d) 0
    if digits = [] then none
    else if maxDigits.any (· < digits.length) then none
    else if !allowZeroPrefix && text.head? = some '0' && 1 < digits.length then none
    else if value < bound then some (value, text.drop digits.length)
    else none

def readIpv4Addr : Reader Ipv4Addr := fun text => do
  let octet := readNumber 10 (some 3) false 256
  let (a, text) ← readSeparator '.' 0 octet text
  let (b, text) ← readSeparator '.' 1 octet text
  let (c, text) ← readSeparator '.' 2 octet text
  let (d, text) ← readSeparator '.' 3 octet text
  return (⟨#v[.ofNat a, .ofNat b, .ofNat c, .ofNat d]⟩, text)

/-- Up to so many groups of an IPv6 address, the last two perhaps written as an IPv4 address. -/
def readGroups : ℕ → ℕ → List Char → List ℕ × Bool × List Char
  | 0, _, text => ([], false, text)
  | n + 1, index, text =>
    match if n = 0 then none else readSeparator ':' index readIpv4Addr text with
    | some (address, rest) =>
      let o := address.octets
      ([o[0].toNat * 256 + o[1].toNat, o[2].toNat * 256 + o[3].toNat], true, rest)
    | none =>
      match readSeparator ':' index (readNumber 16 (some 4) true 65536) text with
      | none => ([], false, text)
      | some (group, rest) =>
        let (groups, ipv4, rest) := readGroups n (index + 1) rest
        (group :: groups, ipv4, rest)

def groupsAddress (groups : List ℕ) : IpAddr :=
  .v6 (Vector.ofFn fun i => .ofNat (groups.getD (i.val / 2) 0 / (if i.val % 2 = 0 then 256 else 1)))

def readIpv6Addr : Reader IpAddr := fun text => do
  let (head, ipv4, rest) := readGroups 8 0 text
  if head.length = 8 then return (groupsAddress head, rest)
  -- No IPv4 part before `::`, which stands for one group at least.
  if ipv4 then none
  let (_, rest) ← readGivenChar ':' rest
  let (_, rest) ← readGivenChar ':' rest
  let (tail, _, rest) := readGroups (7 - head.length) 0 rest
  return (groupsAddress (head ++ List.replicate (8 - head.length - tail.length) 0 ++ tail), rest)

def readIpAddr : Reader IpAddr := fun text =>
  ((readIpv4Addr text).map fun (address, rest) => (.v4 address, rest)).or (readIpv6Addr text)

def readPort : Reader ℕ := fun text => do
  let (_, text) ← readGivenChar ':' text
  readNumber 10 none true 65536 text

def readScopeId : Reader ℕ := fun text => do
  let (_, text) ← readGivenChar '%' text
  readNumber 10 none true (2 ^ 32) text

def readSocketAddrV4 : Reader IpAddr := fun text => do
  let (address, text) ← readIpv4Addr text
  let (_, text) ← readPort text
  return (.v4 address, text)

def readSocketAddrV6 : Reader IpAddr := fun text => do
  let (_, text) ← readGivenChar '[' text
  let (address, text) ← readIpv6Addr text
  let text := ((readScopeId text).map Prod.snd).getD text
  let (_, text) ← readGivenChar ']' text
  let (_, text) ← readPort text
  return (address, text)

/-- What is read from the whole text. -/
def parseWith {α : Type} (read : Reader α) (text : String) : Option α :=
  match read text.toList with
  | some (value, []) => some value
  | _ => none

end AddressParse

open AddressParse

def parseIpAddr (text : String) : Option IpAddr := parseWith readIpAddr text

/-- The address of a socket address. -/
def parseSocketAddr (text : String) : Option IpAddr :=
  parseWith (fun text => (readSocketAddrV4 text).or (readSocketAddrV6 text)) text

example : parseIpAddr "::ffff:1.2.3.4" =
    some (.v6 #v[0, 0, 0, 0, 0, 0, 0, 0, 0, 0, 255, 255, 1, 2, 3, 4]) := by decide +kernel

end ZimaScope
