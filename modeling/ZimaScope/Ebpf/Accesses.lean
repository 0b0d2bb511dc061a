import ZimaScope.Ebpf.Domain
import ZimaScope.Lib.Inquiry

/-! # What the domain parsers touch

The parsers once more, as programs that ask for every read of the packet and for
every write to the domain buffer. Their results are those of the parsers.
-/

namespace ZimaScope

/-- A read of the packet, or a write to the domain buffer. -/
inductive Access
  | u8 (position : ℕ)
  | u16 (position : ℕ)
  | u32 (position : ℕ)
  | bytes (position len : ℕ)
  | store (index len : ℕ)
  deriving DecidableEq, Repr

namespace Access

abbrev Answer : Access → Type
  | u8 _ => UInt8
  | u16 _ => UInt16
  | u32 _ => UInt32
  | bytes _ _ => List UInt8
  | store _ _ => Unit

/-- The bytes of the packet that are read. -/
def reads : Access → List ℕ
  | u8 position => [position]
  | u16 position => List.range' position 2
  | u32 position => List.range' position 4
  | bytes position len => List.range' position len
  | store _ _ => []

/-- The bytes of the domain buffer that are written. -/
def writes : Access → List ℕ
  | store index len => List.range' index len
  | _ => []

/-- Reads within the payload, and writes within the buffer. -/
def Inside (offset stop : ℕ) (access : Access) : Prop :=
  (∀ i ∈ access.reads, offset ≤ i ∧ i < stop) ∧ ∀ i ∈ access.writes, i < domainMaxLen

end Access

def PacketCursor.answer (cursor : PacketCursor) : ∀ access : Access, Option access.Answer
  | .u8 position => cursor.readU8 position
  | .u16 position => cursor.readU16Be position
  | .u32 position => cursor.readU32Be position
  | .bytes position len => cursor.readBytes position len
  | .store _ _ => some ()

namespace Tracked

abbrev Parser := Inquiry Access Access.Answer

def readU8 (position : ℕ) : Parser UInt8 := Inquiry.question (Access.u8 position)

def readU16Be (position : ℕ) : Parser UInt16 := Inquiry.question (Access.u16 position)

def readU32Be (position : ℕ) : Parser UInt32 := Inquiry.question (Access.u32 position)

def readBytes (position len : ℕ) : Parser (List UInt8) := Inquiry.question (Access.bytes position len)

/-- Writes to the domain buffer. -/
def store (index len : ℕ) : Parser Unit := Inquiry.question (Access.store index len)

section Dns

variable (stop : ℕ)

/-- Separates a name from the next label by a dot. -/
def separate (name : List UInt8) : Parser (List UInt8) :=
  if name = [] then return name
  else do
    guard (name.length + 1 < domainMaxLen)
    store name.length 1
    return name ++ [46]

def readQuestionName : ℕ → ℕ → List UInt8 → Parser (List UInt8 × ℕ)
  | 0, _, _ => failure
  | labels + 1, position, name => do
    guard (within position 1 stop)
    let labelLen ← readU8 position
    let position := position + 1
    if labelLen = 0 then return (name, position)
    else
      guard (labelLen &&& 0xC0 = 0 ∧ labelLen ≤ 63 ∧ within position labelLen.toNat stop)
      let name ← separate name
      guard (name.length + labelLen.toNat ≤ domainMaxLen)
      store name.length labelLen.toNat
      let label ← readBytes position labelLen.toNat
      readQuestionName labels (position + labelLen.toNat) (name ++ label)

def skipAnswerName : ℕ → ℕ → Parser ℕ
  | 0, _ => failure
  | labels + 1, position => do
    guard (within position 1 stop)
    let labelLen ← readU8 position
    let position := position + 1
    if labelLen = 0 then return position
    else if labelLen &&& 0xC0 = 0xC0 then
      guard (within position 1 stop)
      return position + 1
    else
      guard (labelLen ≤ 63 ∧ within position labelLen.toNat stop)
      skipAnswerName labels (position + labelLen.toNat)

-- the fields of a header, like the bytes of an address, are all read before any is looked at
def readRecordHeader (position : ℕ) : Parser (UInt16 × UInt16 × UInt32 × ℕ) := do
  guard (within position 10 stop)
  let (rtype, rclass, ttl, rdlength) ← (readU16Be position).both ((readU16Be (position + 2)).both
    ((readU32Be (position + 4)).both (readU16Be (position + 8))))
  return (rtype, rclass, ttl, rdlength.toNat)

def readAddress (position : ℕ) : Parser (Vector UInt8 16) := do
  let (b0, b1, b2, b3) ← (readU8 position).both ((readU8 (position + 1)).both
    ((readU8 (position + 2)).both (readU8 (position + 3))))
  return ipv4Storage (.new b0 b1 b2 b3)

/-- A record, with the position after it. -/
def readRecord (position : ℕ) : Parser (ℕ × Option DnsAnswer) := do
  let position ← skipAnswerName stop maxDnsLabels position
  let (rtype, rclass, ttl, rdlength) ← readRecordHeader stop position
  guard (within (position + 10) rdlength stop)
  if rtype = 1 ∧ rclass = 1 ∧ rdlength = 4 then
    let address ← readAddress (position + 10)
    return (position + 10 + rdlength, some ⟨ttl, address⟩)
  else return (position + 10 + rdlength, none)

def readAnswers : ℕ → ℕ → ℕ → Parser (List DnsAnswer)
  | 0, _, _ => return []
  | _, _, 0 => return []
  | records + 1, position, answers + 1 => do
    match ← (readRecord stop position).attempt with
    | none => return []
    | some (position, some answer) => return answer :: (← readAnswers records position answers)
    | some (position, none) => readAnswers records position (answers + 1)

def parseDnsResponse (offset : ℕ) : Parser (List (List UInt8 × DnsAnswer)) := do
  guard (within offset 12 stop)
  let flags ← readU16Be (offset + 2)
  guard (flags &&& 0x8000 ≠ 0)
  let questions ← readU16Be (offset + 4)
  guard (questions ≠ 0)
  let answers ← readU16Be (offset + 6)
  guard (0 < answers)
  let (name, position) ← readQuestionName stop maxDnsLabels (offset + 12) []
  guard (name ≠ [] ∧ within position 4 stop)
  let emitted ← readAnswers stop maxDnsAnswers (position + 4) (min answers.toNat maxDnsAnswers)
  return emitted.map fun answer => (name, answer)

end Dns

section Tls

def readServerName (extensionsEnd position extensionLen : ℕ) : Parser (List UInt8) := do
  guard (5 ≤ extensionLen)
  let listLen ← readU16Be position
  guard (listLen.toNat + 2 ≤ extensionLen)
  let nameType ← readU8 (position + 2)
  guard (nameType = 0)
  let nameLen ← readU16Be (position + 3)
  guard (nameLen ≠ 0 ∧ nameLen.toNat ≤ domainMaxLen ∧ within (position + 5) nameLen.toNat extensionsEnd)
  store 0 nameLen.toNat
  readBytes (position + 5) nameLen.toNat

def readExtensions (extensionsEnd : ℕ) : ℕ → ℕ → Parser (List UInt8)
  | 0, _ => failure
  | extensions + 1, position => do
    guard (within position 4 extensionsEnd)
    let extensionType ← readU16Be position
    let extensionLen ← readU16Be (position + 2)
    let position := position + 4
    guard (within position extensionLen.toNat extensionsEnd)
    if extensionType = 0 then readServerName extensionsEnd position extensionLen.toNat
    else readExtensions extensionsEnd extensions (position + extensionLen.toNat)

/-- What follows the random, up to the position of the extensions and their end. -/
def readHelloBody (stop position : ℕ) : Parser (ℕ × ℕ) := do
  -- nothing has said that the length of the session lies within the payload
  let sessionLen ← readU8 position
  let position := position + 1
  guard (within position sessionLen.toNat stop)
  let position := position + sessionLen.toNat
  guard (within position 2 stop)
  let cipherLen ← readU16Be position
  let position := position + 2
  guard (within position cipherLen.toNat stop)
  let position := position + cipherLen.toNat
  guard (within position 1 stop)
  let compressionLen ← readU8 position
  let position := position + 1
  guard (within position compressionLen.toNat stop)
  let position := position + compressionLen.toNat
  guard (within position 2 stop)
  let extensionsLen ← readU16Be position
  let position := position + 2
  guard (within position extensionsLen.toNat stop)
  return (position, position + extensionsLen.toNat)

/-- The record and handshake headers, with the position after the random. -/
def readHelloHead (offset stop : ℕ) : Parser ℕ := do
  guard (within offset 5 stop)
  let contentType ← readU8 offset
  guard (contentType = 0x16)
  let recordLen ← readU16Be (offset + 3)
  let position := offset + 5
  guard (within position recordLen.toNat stop ∧ within position 4 stop)
  let handshakeType ← readU8 position
  guard (handshakeType = 0x01)
  let l0 ← readU8 (position + 1)
  let l1 ← readU8 (position + 2)
  let l2 ← readU8 (position + 3)
  let handshakeLen := l0.toNat * 65536 + l1.toNat * 256 + l2.toNat
  guard (34 ≤ handshakeLen ∧ within (position + 4) handshakeLen stop)
  return position + 4 + 2 + 32

def extractTlsSni (offset stop : ℕ) : Parser (List UInt8) := do
  let position ← readHelloHead offset stop
  let (position, extensionsEnd) ← readHelloBody stop position
  readExtensions extensionsEnd maxTlsExtensions position

end Tls

section Http

variable (stop : ℕ)

def findCrlf : ℕ → ℕ → Parser ℕ
  | 0, _ => failure
  | scan + 1, position => do
    guard (within position 2 stop)
    let b0 ← readU8 position
    if b0 = 13 then
      let b1 ← readU8 (position + 1)
      if b1 = 10 then return position
      else findCrlf scan (position + 1)
    else findCrlf scan (position + 1)

def isHttpRequest (offset : ℕ) : Parser Unit := do
  guard (within offset 4 stop)
  let (b0, b1, b2, b3) ← (readU8 offset).both ((readU8 (offset + 1)).both
    ((readU8 (offset + 2)).both (readU8 (offset + 3))))
  guard ([b0, b1, b2, b3] ∈ httpMethods)

def headerIsHost (position : ℕ) : Parser Unit := do
  guard (within position 5 stop)
  let (b0, b1, b2, b3, b4) ← (readU8 position).both ((readU8 (position + 1)).both
    ((readU8 (position + 2)).both ((readU8 (position + 3)).both (readU8 (position + 4)))))
  guard (isHostName [b0, b1, b2, b3, b4])

def skipBlanks : ℕ → ℕ → Parser ℕ
  | 0, position => return position
  | scan + 1, position =>
    if stop ≤ position then return position
    else do
      match ← (readU8 position).attempt with
      | some byte => if isBlank byte then skipBlanks scan (position + 1) else return position
      | none => return position

def readHost : ℕ → ℕ → List UInt8 → Parser (List UInt8 × ℕ)
  | 0, position, host => return (host, position)
  | scan + 1, position, host =>
    if stop ≤ position then return (host, position)
    else do
      match ← (readU8 position).attempt with
      | some byte =>
        if byte = 13 || byte = 10 || byte = 58 then return (host, position)
        else if host.length < maxHttpHostLen then
          store host.length 1
          readHost scan (position + 1) (host ++ [byte])
        else readHost scan (position + 1) host
      | none => return (host, position)

def readHostValue (position : ℕ) : Parser (List UInt8) := do
  let valueStart ← skipBlanks stop maxHttpScan position
  let (host, position) ← readHost stop maxHttpScan valueStart []
  let host := (host.reverse.dropWhile isBlank).reverse
  guard (position ≠ valueStart ∧ host ≠ [])
  return host

/-- The line does not end where it starts. -/
def notBlankLine (position : ℕ) : Parser Unit := do
  let b0 ← readU8 position
  if b0 = 13 then
    let b1 ← readU8 (position + 1)
    guard (b1 ≠ 10)
  else return ()

def readHeaders : ℕ → ℕ → Parser (List UInt8)
  | 0, _ => failure
  | headers + 1, position => do
    guard (within position 2 stop)
    notBlankLine position
    match ← (headerIsHost stop position).attempt with
    | some () => readHostValue stop (position + 5)
    | none =>
      let crlf ← findCrlf stop maxHttpScan position
      readHeaders headers (crlf + 2)

def extractHttpHost (offset stop : ℕ) : Parser (List UInt8) := do
  let scanEnd := min stop (offset + maxHttpScan)
  isHttpRequest scanEnd offset
  let crlf ← findCrlf scanEnd maxHttpScan offset
  readHeaders scanEnd maxHttpHeaders (crlf + 2)

end Http

/-! ## The results -/

section Run

variable (cursor : PacketCursor) (stop : ℕ)

@[simp]
theorem run_readU8 (p : ℕ) : (readU8 p).run cursor.answer = cursor.readU8 p := rfl

@[simp]
theorem run_readU16Be (p : ℕ) : (readU16Be p).run cursor.answer = cursor.readU16Be p := rfl

@[simp]
theorem run_readU32Be (p : ℕ) : (readU32Be p).run cursor.answer = cursor.readU32Be p := rfl

@[simp]
theorem run_readBytes (p len : ℕ) : (readBytes p len).run cursor.answer = cursor.readBytes p len := rfl

@[simp]
theorem run_store (index len : ℕ) : (store index len).run cursor.answer = some () := rfl

theorem run_readU8_bind {α : Type} {cursor : PacketCursor} {p : ℕ} {byte : UInt8}
    {f : UInt8 → Parser α} (h : cursor.readU8 p = some byte) :
    (readU8 p >>= f).run cursor.answer = (f byte).run cursor.answer :=
  Inquiry.run_question_bind h

theorem run_readU16Be_bind {α : Type} {cursor : PacketCursor} {p : ℕ} {n : UInt16}
    {f : UInt16 → Parser α} (h : cursor.readU16Be p = some n) :
    (readU16Be p >>= f).run cursor.answer = (f n).run cursor.answer :=
  Inquiry.run_question_bind h

theorem run_readQuestionName (labels p : ℕ) (name : List UInt8) :
    (readQuestionName stop labels p name).run cursor.answer =
      ZimaScope.readQuestionName cursor stop labels p name := by
  induction labels generalizing p name with
  | zero => rfl
  | succ labels ih =>
    unfold readQuestionName ZimaScope.readQuestionName separate
    by_cases hname : name = [] <;> simp [ih, hname, Option.bind_assoc]

theorem run_skipAnswerName (labels p : ℕ) : (skipAnswerName stop labels p).run cursor.answer =
    ZimaScope.skipAnswerName cursor stop labels p := by
  induction labels generalizing p with
  | zero => rfl
  | succ labels ih =>
    unfold skipAnswerName ZimaScope.skipAnswerName
    simp [ih]

theorem run_readRecordHeader (p : ℕ) : (readRecordHeader stop p).run cursor.answer =
    ZimaScope.readRecordHeader cursor stop p := by
  unfold readRecordHeader ZimaScope.readRecordHeader
  simp [Option.bind_assoc]

theorem run_readAddress (p : ℕ) :
    (readAddress p).run cursor.answer = ZimaScope.readAddress cursor p := by
  unfold readAddress ZimaScope.readAddress
  simp [Option.bind_assoc]

theorem run_readAnswers (records p answers : ℕ) :
    (readAnswers stop records p answers).run cursor.answer =
      some (ZimaScope.readAnswers cursor stop records p answers) := by
  induction records generalizing p answers with
  | zero =>
    unfold readAnswers ZimaScope.readAnswers
    rfl
  | succ records ih =>
    cases answers with
    | zero =>
      unfold readAnswers ZimaScope.readAnswers
      rfl
    | succ answers =>
      unfold readAnswers ZimaScope.readAnswers
      have hrecord : (readRecord stop p).run cursor.answer = (do
          let position ← ZimaScope.skipAnswerName cursor stop maxDnsLabels p
          let (rtype, rclass, ttl, rdlength) ← ZimaScope.readRecordHeader cursor stop position
          guard (within (position + 10) rdlength stop)
          if rtype = 1 ∧ rclass = 1 ∧ rdlength = 4 then
            let address ← ZimaScope.readAddress cursor (position + 10)
            return (position + 10 + rdlength, some ⟨ttl, address⟩)
          else return (position + 10 + rdlength, none)) := by
        unfold readRecord
        simp [run_skipAnswerName, run_readRecordHeader, run_readAddress]
      rw [← hrecord, Inquiry.run_bind, Inquiry.run_attempt, Option.bind_some]
      cases (readRecord stop p).run cursor.answer with
      | none => rfl
      | some record =>
        obtain ⟨q, _ | answer⟩ := record
        · exact ih q (answers + 1)
        · simp [ih]

theorem run_parseDnsResponse (offset : ℕ) :
    ((parseDnsResponse stop offset).run cursor.answer).getD [] =
      ZimaScope.parseDnsResponse cursor stop offset := by
  unfold parseDnsResponse ZimaScope.parseDnsResponse
  simp [run_readQuestionName, run_readAnswers]

theorem run_readExtensions (extensionsEnd extensions p : ℕ) :
    (readExtensions extensionsEnd extensions p).run cursor.answer =
      ZimaScope.readExtensions cursor extensionsEnd extensions p := by
  induction extensions generalizing p with
  | zero => rfl
  | succ extensions ih =>
    unfold readExtensions ZimaScope.readExtensions readServerName ZimaScope.readServerName
    simp [ih]

theorem run_extractTlsSni (offset : ℕ) :
    (extractTlsSni offset stop).run cursor.answer = ZimaScope.extractTlsSni cursor offset stop := by
  unfold extractTlsSni ZimaScope.extractTlsSni readHelloHead readHelloBody
  simp [run_readExtensions, Option.bind_assoc]

theorem run_findCrlf (scan p : ℕ) :
    (findCrlf stop scan p).run cursor.answer = ZimaScope.findCrlf cursor stop scan p := by
  induction scan generalizing p with
  | zero => rfl
  | succ scan ih =>
    unfold findCrlf ZimaScope.findCrlf
    simp [ih]

theorem run_isHttpRequest (offset : ℕ) :
    ((isHttpRequest stop offset).run cursor.answer).isSome =
      ZimaScope.isHttpRequest cursor stop offset := by
  unfold isHttpRequest ZimaScope.isHttpRequest
  rw [Bool.eq_iff_iff]
  simp [Option.isSome_iff_exists, Option.bind_eq_some_iff, Option.any_eq_true]

theorem run_headerIsHost (p : ℕ) :
    ((headerIsHost stop p).run cursor.answer).isSome = ZimaScope.headerIsHost cursor stop p := by
  unfold headerIsHost ZimaScope.headerIsHost
  rw [Bool.eq_iff_iff]
  simp [Option.isSome_iff_exists, Option.bind_eq_some_iff, Option.any_eq_true]

theorem run_skipBlanks (scan p : ℕ) : (skipBlanks stop scan p).run cursor.answer =
    some (ZimaScope.skipBlanks cursor stop scan p) := by
  induction scan generalizing p with
  | zero => rfl
  | succ scan ih =>
    unfold skipBlanks ZimaScope.skipBlanks
    split
    · rfl
    · rw [Inquiry.run_bind, Inquiry.run_attempt, Option.bind_some, run_readU8]
      cases cursor.readU8 p with
      | none => rfl
      | some byte =>
        simp only [Inquiry.run_ite, ih, Inquiry.run_pure]
        split <;> rfl

theorem run_readHost (scan p : ℕ) (host : List UInt8) :
    (readHost stop scan p host).run cursor.answer =
      some (ZimaScope.readHost cursor stop scan p host) := by
  induction scan generalizing p host with
  | zero => rfl
  | succ scan ih =>
    unfold readHost ZimaScope.readHost
    split
    · rfl
    · rw [Inquiry.run_bind, Inquiry.run_attempt, Option.bind_some, run_readU8]
      cases cursor.readU8 p with
      | none => rfl
      | some byte =>
        simp only [Inquiry.run_ite, Inquiry.run_bind, run_store, Option.bind_some, ih,
          Inquiry.run_pure]
        split
        · rfl
        · split <;> rfl

theorem run_readHostValue (p : ℕ) : (readHostValue stop p).run cursor.answer =
    ZimaScope.readHostValue cursor stop p := by
  unfold readHostValue ZimaScope.readHostValue
  simp [run_skipBlanks, run_readHost]

theorem run_notBlankLine_bind {p : ℕ} {x : Unit → Option (List UInt8)} :
    ((notBlankLine p).run cursor.answer).bind x = (cursor.readU8 p).bind fun b0 =>
      if b0 = 13 then (cursor.readU8 (p + 1)).bind fun b1 => Option.bind (guard (b1 ≠ 10)) x
      else x () := by
  unfold notBlankLine
  rw [Inquiry.run_bind, run_readU8, Option.bind_assoc]
  congr 1
  funext b0
  split
  · simp [Option.bind_assoc]
  · rfl

theorem run_readHeaders (headers p : ℕ) : (readHeaders stop headers p).run cursor.answer =
    ZimaScope.readHeaders cursor stop headers p := by
  induction headers generalizing p with
  | zero => rfl
  | succ headers ih =>
    unfold readHeaders ZimaScope.readHeaders
    rw [← run_headerIsHost, Inquiry.run_bind]
    simp only [Inquiry.run_bind, run_notBlankLine_bind, Inquiry.run_attempt, Option.bind_some]
    cases (headerIsHost stop p).run cursor.answer <;> simp [ih, run_readHostValue, run_findCrlf]

theorem run_extractHttpHost (offset : ℕ) : (extractHttpHost offset stop).run cursor.answer =
    ZimaScope.extractHttpHost cursor offset stop := by
  unfold extractHttpHost ZimaScope.extractHttpHost
  simp only [Inquiry.run_bind, run_findCrlf, run_readHeaders, ← run_isHttpRequest]
  cases (isHttpRequest (min stop (offset + maxHttpScan)) offset).run cursor.answer <;> rfl

end Run

end Tracked

end ZimaScope
