import ZimaScope.Common.Abi

/-! # Domain parsers

Bounded DNS, TLS SNI and HTTP Host extraction over a packet cursor. What a
parser has written to its buffer is the list of the bytes written, and `stop`
is the end of the payload.
-/

namespace ZimaScope

/-- Bounded byte access; `none` is the only failure mode. -/
structure PacketCursor where
  readU8 : ℕ → Option UInt8
  readU16Be : ℕ → Option UInt16
  readU32Be : ℕ → Option UInt32
  readBytes : ℕ → ℕ → Option (List UInt8)

namespace MemoryCursor

/-- `data.get(offset..offset + len)`. -/
def slice (data : List UInt8) (offset len : ℕ) : Option (List UInt8) :=
  if offset + len ≤ data.length then some ((data.drop offset).take len) else none

/-- The number that bytes in network order encode. -/
def ofBeBytes (bytes : List UInt8) : ℕ := bytes.foldl (fun n byte => n * 256 + byte.toNat) 0

end MemoryCursor

/-- Packet cursor over a captured byte slice. -/
def memoryCursor (data : List UInt8) : PacketCursor where
  readU8 offset := data[offset]?
  readU16Be offset := (MemoryCursor.slice data offset 2).map fun bytes =>
    .ofNat (MemoryCursor.ofBeBytes bytes)
  readU32Be offset := (MemoryCursor.slice data offset 4).map fun bytes =>
    .ofNat (MemoryCursor.ofBeBytes bytes)
  readBytes := MemoryCursor.slice data

def dnsPort : UInt16 := 53
def tlsPort : UInt16 := 443
def httpPort : UInt16 := 80

def domainMaxLen : ℕ := 253

def maxDnsAnswers : ℕ := 8
def maxDnsLabels : ℕ := 16
def maxTlsExtensions : ℕ := 16
def maxHttpScan : ℕ := 512
def maxHttpHeaders : ℕ := 16
def maxHttpHostLen : ℕ := 253

/-- One A record extracted from a DNS response. -/
structure DnsAnswer where
  ttlSecs : UInt32
  address : Vector UInt8 16
  deriving DecidableEq, Repr

def within (offset len stop : ℕ) : Bool := offset + len ≤ stop

theorem within_iff {offset len stop : ℕ} : within offset len stop = true ↔ offset + len ≤ stop :=
  decide_eq_true_iff

/-- What a check and a parser after it get through. -/
theorem guard_bind_eq_some {α : Type} {c : Prop} [Decidable c] {x : Option α} {a : α} :
    (guard c >>= fun _ => x) = some a ↔ c ∧ x = some a := by
  by_cases h : c <;> simp [guard, h]

/-! ## DNS -/

section Dns

variable (cursor : PacketCursor) (stop : ℕ)

/-- Reads a question name, with the position after it; one step for each label. -/
def readQuestionName : ℕ → ℕ → List UInt8 → Option (List UInt8 × ℕ)
  | 0, _, _ => none
  | labels + 1, position, name => do
    guard (within position 1 stop)
    let labelLen ← cursor.readU8 position
    let position := position + 1
    if labelLen = 0 then return (name, position)
    guard (labelLen &&& 0xC0 = 0 ∧ labelLen ≤ 63 ∧ within position labelLen.toNat stop)
    guard (name = [] ∨ name.length + 1 < domainMaxLen)
    let name := if name = [] then name else name ++ [46]
    guard (name.length + labelLen.toNat ≤ domainMaxLen)
    let label ← cursor.readBytes position labelLen.toNat
    readQuestionName labels (position + labelLen.toNat) (name ++ label)

/-- Skips an answer owner name, which may be a compression pointer. -/
def skipAnswerName : ℕ → ℕ → Option ℕ
  | 0, _ => none
  | labels + 1, position => do
    guard (within position 1 stop)
    let labelLen ← cursor.readU8 position
    let position := position + 1
    if labelLen = 0 then return position
    if labelLen &&& 0xC0 = 0xC0 then
      guard (within position 1 stop)
      return position + 1
    guard (labelLen ≤ 63 ∧ within position labelLen.toNat stop)
    skipAnswerName labels (position + labelLen.toNat)

/-- The fixed part of a record after its owner name: type, class, TTL and data length. -/
def readRecordHeader (position : ℕ) : Option (UInt16 × UInt16 × UInt32 × ℕ) := do
  guard (within position 10 stop)
  let rtype ← cursor.readU16Be position
  let rclass ← cursor.readU16Be (position + 2)
  let ttl ← cursor.readU32Be (position + 4)
  let rdlength ← cursor.readU16Be (position + 8)
  return (rtype, rclass, ttl, rdlength.toNat)

/-- The four bytes of an A record, zero-extended. -/
def readAddress (position : ℕ) : Option (Vector UInt8 16) := do
  let b0 ← cursor.readU8 position
  let b1 ← cursor.readU8 (position + 1)
  let b2 ← cursor.readU8 (position + 2)
  let b3 ← cursor.readU8 (position + 3)
  return ipv4Storage (.new b0 b1 b2 b3)

/-- The records from a position on; `answers` of them are left to emit, and one step is
taken for each record. -/
def readAnswers : ℕ → ℕ → ℕ → List DnsAnswer
  | 0, _, _ => []
  | _, _, 0 => []
  | records + 1, position, answers + 1 =>
    match (do
      let position ← skipAnswerName cursor stop maxDnsLabels position
      let (rtype, rclass, ttl, rdlength) ← readRecordHeader cursor stop position
      guard (within (position + 10) rdlength stop)
      if rtype = 1 ∧ rclass = 1 ∧ rdlength = 4 then
        let address ← readAddress cursor (position + 10)
        return (position + 10 + rdlength, some ⟨ttl, address⟩)
      else return (position + 10 + rdlength, none)) with
    | none => []
    | some (position, some answer) => answer :: readAnswers records position answers
    | some (position, none) => readAnswers records position (answers + 1)

/-- Extracts A records from a DNS response, pairing each one with the question name. -/
def parseDnsResponse (offset : ℕ) : List (List UInt8 × DnsAnswer) :=
  ((do
    guard (within offset 12 stop)
    let flags ← cursor.readU16Be (offset + 2)
    guard (flags &&& 0x8000 ≠ 0)
    let questions ← cursor.readU16Be (offset + 4)
    guard (questions ≠ 0)
    let answers ← cursor.readU16Be (offset + 6)
    guard (0 < answers)
    let (name, position) ← readQuestionName cursor stop maxDnsLabels (offset + 12) []
    guard (name ≠ [] ∧ within position 4 stop)
    return (readAnswers cursor stop maxDnsAnswers (position + 4)
      (min answers.toNat maxDnsAnswers)).map fun answer => (name, answer)) : Option _).getD []

end Dns

/-! ## TLS -/

section Tls

variable (cursor : PacketCursor)

/-- The name in a `server_name` extension. -/
def readServerName (extensionsEnd position extensionLen : ℕ) : Option (List UInt8) := do
  guard (5 ≤ extensionLen)
  let listLen ← cursor.readU16Be position
  guard (listLen.toNat + 2 ≤ extensionLen)
  let nameType ← cursor.readU8 (position + 2)
  guard (nameType = 0)
  let nameLen ← cursor.readU16Be (position + 3)
  guard (nameLen ≠ 0 ∧ nameLen.toNat ≤ domainMaxLen ∧ within (position + 5) nameLen.toNat extensionsEnd)
  cursor.readBytes (position + 5) nameLen.toNat

/-- The extensions from a position on; one step for each. -/
def readExtensions (extensionsEnd : ℕ) : ℕ → ℕ → Option (List UInt8)
  | 0, _ => none
  | extensions + 1, position => do
    guard (within position 4 extensionsEnd)
    let extensionType ← cursor.readU16Be position
    let extensionLen ← cursor.readU16Be (position + 2)
    let position := position + 4
    guard (within position extensionLen.toNat extensionsEnd)
    if extensionType = 0 then readServerName cursor extensionsEnd position extensionLen.toNat
    else readExtensions extensionsEnd extensions (position + extensionLen.toNat)

/-- Extracts the server name from a TLS ClientHello, if the first payload bytes contain one. -/
def extractTlsSni (offset stop : ℕ) : Option (List UInt8) := do
  guard (within offset 5 stop)
  let contentType ← cursor.readU8 offset
  guard (contentType = 0x16)
  let recordLen ← cursor.readU16Be (offset + 3)
  let position := offset + 5
  guard (within position recordLen.toNat stop ∧ within position 4 stop)
  let handshakeType ← cursor.readU8 position
  guard (handshakeType = 0x01)
  let l0 ← cursor.readU8 (position + 1)
  let l1 ← cursor.readU8 (position + 2)
  let l2 ← cursor.readU8 (position + 3)
  let handshakeLen := l0.toNat * 65536 + l1.toNat * 256 + l2.toNat
  guard (34 ≤ handshakeLen ∧ within (position + 4) handshakeLen stop)
  let position := position + 4 + 2 + 32
  let sessionLen ← cursor.readU8 position
  let position := position + 1
  guard (within position sessionLen.toNat stop)
  let position := position + sessionLen.toNat
  guard (within position 2 stop)
  let cipherLen ← cursor.readU16Be position
  let position := position + 2
  guard (within position cipherLen.toNat stop)
  let position := position + cipherLen.toNat
  guard (within position 1 stop)
  let compressionLen ← cursor.readU8 position
  let position := position + 1
  guard (within position compressionLen.toNat stop)
  let position := position + compressionLen.toNat
  guard (within position 2 stop)
  let extensionsLen ← cursor.readU16Be position
  let position := position + 2
  guard (within position extensionsLen.toNat stop)
  readExtensions cursor (position + extensionsLen.toNat) maxTlsExtensions position

end Tls

/-! ## HTTP -/

section Http

variable (cursor : PacketCursor) (stop : ℕ)

/-- The first CRLF from a position on; one step for each byte. -/
def findCrlf : ℕ → ℕ → Option ℕ
  | 0, _ => none
  | scan + 1, position => do
    guard (within position 2 stop)
    let b0 ← cursor.readU8 position
    if b0 = 13 then
      let b1 ← cursor.readU8 (position + 1)
      if b1 = 10 then return position
    findCrlf scan (position + 1)

def httpMethods : List (List UInt8) :=
  ["GET ", "POST", "HEAD", "PUT ", "DELE", "OPTI", "PATC", "CONN"].map fun name =>
    name.toList.map fun c => .ofNat c.toNat

instance decidableMemHttpMethods (bytes : List UInt8) : Decidable (bytes ∈ httpMethods) :=
  List.instDecidableMemOfLawfulBEq _ _

def isHttpRequest (offset : ℕ) : Bool :=
  within offset 4 stop &&
    ((do
      let b0 ← cursor.readU8 offset
      let b1 ← cursor.readU8 (offset + 1)
      let b2 ← cursor.readU8 (offset + 2)
      let b3 ← cursor.readU8 (offset + 3)
      return [b0, b1, b2, b3]) : Option _).any fun bytes => bytes ∈ httpMethods

/-- `matches!(.., (b'H' | b'h', .., b':'))`. -/
def isHostName (bytes : List UInt8) : Bool :=
  match bytes with
  | [b0, b1, b2, b3, b4] =>
    (b0 = 72 || b0 = 104) && (b1 = 79 || b1 = 111) && (b2 = 83 || b2 = 115) &&
      (b3 = 84 || b3 = 116) && b4 = 58
  | _ => false

def headerIsHost (position : ℕ) : Bool :=
  within position 5 stop &&
    ((do
      let b0 ← cursor.readU8 position
      let b1 ← cursor.readU8 (position + 1)
      let b2 ← cursor.readU8 (position + 2)
      let b3 ← cursor.readU8 (position + 3)
      let b4 ← cursor.readU8 (position + 4)
      return [b0, b1, b2, b3, b4]) : Option _).any isHostName

def isBlank (byte : UInt8) : Bool := byte = 32 || byte = 9

/-- The position after the blanks from a position on. -/
def skipBlanks : ℕ → ℕ → ℕ
  | 0, position => position
  | scan + 1, position =>
    if stop ≤ position then position
    else
      match cursor.readU8 position with
      | some byte => if isBlank byte then skipBlanks scan (position + 1) else position
      | none => position

/-- Reads a host up to its port or the end of its line, with the position after it; bytes
past the length of a host are left out. -/
def readHost : ℕ → ℕ → List UInt8 → List UInt8 × ℕ
  | 0, position, host => (host, position)
  | scan + 1, position, host =>
    if stop ≤ position then (host, position)
    else
      match cursor.readU8 position with
      | some byte =>
        if byte = 13 || byte = 10 || byte = 58 then (host, position)
        else readHost scan (position + 1) (if host.length < maxHttpHostLen then host ++ [byte] else host)
      | none => (host, position)

/-- The value of a `Host` header after its colon, without trailing blanks. -/
def readHostValue (position : ℕ) : Option (List UInt8) := do
  let valueStart := skipBlanks cursor stop maxHttpScan position
  let (host, position) := readHost cursor stop maxHttpScan valueStart []
  let host := (host.reverse.dropWhile isBlank).reverse
  guard (position ≠ valueStart ∧ host ≠ [])
  return host

/-- The headers from a position on; one step for each. -/
def readHeaders : ℕ → ℕ → Option (List UInt8)
  | 0, _ => none
  | headers + 1, position => do
    guard (within position 2 stop)
    let b0 ← cursor.readU8 position
    if b0 = 13 then
      let b1 ← cursor.readU8 (position + 1)
      guard (b1 ≠ 10)
    if headerIsHost cursor stop position then readHostValue cursor stop (position + 5)
    else
      let crlf ← findCrlf cursor stop maxHttpScan position
      readHeaders headers (crlf + 2)

end Http

/-- Extracts the `Host` header from a plaintext HTTP request, without the port. -/
def extractHttpHost (cursor : PacketCursor) (offset stop : ℕ) : Option (List UInt8) := do
  let scanEnd := min stop (offset + maxHttpScan)
  guard (isHttpRequest cursor scanEnd offset)
  let crlf ← findCrlf cursor scanEnd maxHttpScan offset
  readHeaders cursor scanEnd maxHttpHeaders (crlf + 2)

end ZimaScope
