import Mathlib.Data.List.Infix
import ZimaScope.Common.Observation

/-! # Texts

How values read in the API and in the columns of the database, and the text
functions of SQL that searches use.
-/

namespace ZimaScope

/-- `to_ascii_lowercase`, and `lower` of SQL. -/
def toAsciiLowercase (s : String) : String := s.map Char.toLower

/-- `str::contains`, and `instr(..) > 0` of SQL. -/
def containsText (text word : String) : Bool := word.toList <:+: text.toList

/-! ## Numbers -/

/-- `{:x}`. -/
def lowerHex (n : ℕ) : String := String.ofList (Nat.toDigits 16 n)

/-- `{:016x}`. -/
def hex16 (id : UInt64) : String :=
  let digits := lowerHex id.toNat
  String.ofList (List.replicate (16 - digits.length) '0') ++ digits

def upperHexDigit (n : ℕ) : Char := (Nat.digitChar n).toUpper

/-- `hex` of SQL: two digits for each byte of the text. -/
def sqlHex (text : String) : String :=
  String.ofList (text.toUTF8.data.toList.flatMap fun byte =>
    [upperHexDigit (byte.toNat / 16), upperHexDigit (byte.toNat % 16)])

example : sqlHex "-7" = "2D37" := by decide +kernel

/-! ## Enumerations

A unit variant is serialized as its name in snake case. -/

def Direction.value : Direction → String
  | .inbound => "inbound"
  | .outbound => "outbound"

def TransportProtocol.value : TransportProtocol → String
  | .tcp => "tcp"
  | .udp => "udp"

def EndReason.value : EndReason → String
  | .idleTimeout => "idle_timeout"
  | .tcpFin => "tcp_fin"
  | .tcpReset => "tcp_reset"
  | .evictedOrUnknown => "evicted_or_unknown"

def DomainEvidence.value : DomainEvidence → String
  | .dns => "dns"
  | .tlsSni => "tls_sni"
  | .httpHost => "http_host"

def AssociationConfidence.value : AssociationConfidence → String
  | .direct => "direct"
  | .inferred => "inferred"

/-! ## Addresses -/

def ipv6Segments (octets : Vector UInt8 16) : List ℕ :=
  List.ofFn fun i : Fin 8 => octets[2 * i.val].toNat * 256 + octets[2 * i.val + 1].toNat

/-- Start and length of the first longest run of zero segments. -/
def longestZeroes (segments : List ℕ) : ℕ × ℕ :=
  let (longest, _) := segments.zipIdx.foldl (fun (longest, current) (segment, i) =>
    if segment = 0 then
      let current := (if current.2 = 0 then i else current.1, current.2 + 1)
      (if longest.2 < current.2 then current else longest, current)
    else (longest, (0, 0))) (((0, 0), (0, 0)) : (ℕ × ℕ) × ℕ × ℕ)
  longest

def joinSegments (segments : List ℕ) : String := ":".intercalate (segments.map lowerHex)

def ipv6Text (octets : Vector UInt8 16) : String :=
  let segments := ipv6Segments octets
  if segments.take 6 = [0, 0, 0, 0, 0, 0xFFFF] then
    "::ffff:" ++ Ipv4Addr.toString ⟨storageOctets octets⟩
  else
    let (start, len) := longestZeroes segments
    if 1 < len then
      joinSegments (segments.take start) ++ "::" ++ joinSegments (segments.drop (start + len))
    else joinSegments segments

def IpAddr.toString : IpAddr → String
  | .v4 address => address.toString
  | .v6 octets => ipv6Text octets

example : ipv6Text #v[0x20, 1, 0xd, 0xb8, 0, 0, 0, 0, 0, 1, 0, 0, 0, 0, 0, 0] = "2001:db8:0:0:1::" := by
  decide +kernel

/-! ## JSON -/

/-- How a character stands in a JSON string. -/
def jsonChar (c : Char) : List Char :=
  if c = '"' then ['\\', '"']
  else if c = '\\' then ['\\', '\\']
  else if c = '\n' then ['\\', 'n']
  else if c = '\r' then ['\\', 'r']
  else if c = '\t' then ['\\', 't']
  else if c.toNat = 8 then ['\\', 'b']
  else if c.toNat = 12 then ['\\', 'f']
  else if c.toNat < 32 then
    ['\\', 'u', '0', '0', Nat.digitChar (c.toNat / 16), Nat.digitChar (c.toNat % 16)]
  else [c]

def jsonEscape (s : String) : String := String.ofList (s.toList.flatMap jsonChar)

end ZimaScope
