import ZimaScope.Ebpf.Requests

/-! # Well-formed requests

Requests as they are on the wire, and what the parser finds in them: the host of
the first header called `Host`, or nothing where no header before the blank line
is called so.
-/

namespace ZimaScope

def requestMethods : List (List UInt8) :=
  ["GET", "POST", "HEAD", "PUT", "DELETE", "OPTIONS", "PATCH", "CONNECT"].map asciiBytes

/-- A request line and the headers of other names behind it. -/
structure RequestHead where
  method : List UInt8
  target : List UInt8
  headers : List (List UInt8)
  method_mem : method ∈ requestMethods
  line : CrlfFree (method ++ 32 :: target)
  headerLines : ∀ header ∈ headers, CrlfFree header ∧ header ≠ [] ∧ isHostName (header.take 5) = false

/-- Headers that each end with a CRLF. -/
def headerBytes (headers : List (List UInt8)) : List UInt8 :=
  headers.flatMap fun header => header ++ [13, 10]

def RequestHead.encode (head : RequestHead) : List UInt8 :=
  (head.method ++ 32 :: head.target) ++ 13 :: 10 :: headerBytes head.headers

/-- A request with a `Host` header; `rest` is what follows that header. -/
structure HostRequest extends RequestHead where
  name : List UInt8
  leading : List UInt8
  host : List UInt8
  trailing : List UInt8
  port : Option (List UInt8)
  rest : List UInt8
  fewHeaders : headers.length ≤ 15
  isName : isHostName name
  leadingBlank : ∀ byte ∈ leading, isBlank byte
  trailingBlank : ∀ byte ∈ trailing, isBlank byte
  hostLength : host.length ≤ maxHttpHostLen
  hostBytes : ∀ byte ∈ host, isHostEnd byte = false
  hostFirst : ∃ byte ∈ host.head?, isBlank byte = false
  hostLast : ∃ byte ∈ host.getLast?, isBlank byte = false
  scanned : toRequestHead.encode.length + name.length + leading.length + host.length ≤ maxHttpScan

namespace HostRequest

variable (request : HostRequest)

def before : List UInt8 := request.toRequestHead.encode ++ (request.name ++ request.leading)

/-- What follows the host: blanks, the port if there is one, and the end of the line. -/
def after : List UInt8 :=
  request.trailing ++ (request.port.elim [] (58 :: ·) ++ 13 :: 10 :: request.rest)

def encode : List UInt8 := request.before ++ (request.host ++ request.after)

end HostRequest

/-! ## The host is found -/

theorem headerBytes_cons (header : List UInt8) (headers : List (List UInt8)) (rest : List UInt8) :
    headerBytes (header :: headers) ++ rest = header ++ 13 :: 10 :: (headerBytes headers ++ rest) := by
  simp [headerBytes]

theorem hostBefore_headerBytes {headers : List (List UInt8)} {before : List UInt8} {n : ℕ}
    (hheaders : ∀ header ∈ headers,
      CrlfFree header ∧ header ≠ [] ∧ isHostName (header.take 5) = false)
    (hbefore : HostBefore n before) :
    HostBefore (n + headers.length) (headerBytes headers ++ before) := by
  induction headers with
  | nil => exact hbefore
  | cons header headers ih =>
    obtain ⟨hline, hne, hother⟩ := hheaders header List.mem_cons_self
    rw [headerBytes_cons]
    exact .header hline hne hother (ih fun h hmem => hheaders h (List.mem_cons_of_mem _ hmem))

theorem RequestHead.method_take (head : RequestHead) (rest : List UInt8) :
    (head.encode ++ rest).take 4 ∈ httpMethods := by
  have hall : ∀ method ∈ requestMethods,
      (method ++ [32]).take 4 ∈ httpMethods ∧ 4 ≤ (method ++ [32]).length := by decide +kernel
  obtain ⟨hmem, hlength⟩ := hall head.method head.method_mem
  have hsplit : head.encode ++ rest = (head.method ++ [32]) ++
      (head.target ++ 13 :: 10 :: (headerBytes head.headers ++ rest)) := by
    simp [RequestHead.encode]
  rwa [hsplit, List.take_append_of_le_length hlength]

theorem HostRequest.requestBefore (request : HostRequest) : RequestBefore request.before := by
  have hmethod := request.toRequestHead.method_take (request.name ++ request.leading)
  have hbefore := hostBefore_headerBytes request.headerLines
    (.host request.isName request.leadingBlank)
  have hfew := request.fewHeaders
  unfold HostRequest.before
  unfold RequestHead.encode at hmethod ⊢
  rw [List.append_assoc, List.cons_append, List.cons_append] at hmethod ⊢
  refine .mk hmethod request.line ?_ hbefore
  unfold maxHttpHeaders
  omega

/-- A host is read up to the byte that ends it, without the blanks before that byte. -/
theorem hostOf_append {host rest : List UInt8} (hlength : host.length ≤ maxHttpHostLen)
    (hbytes : ∀ byte ∈ host, isHostEnd byte = false)
    (hlast : ∃ byte ∈ host.getLast?, isBlank byte = false)
    (hrest : ∀ byte ∈ rest.takeWhile fun byte => !isHostEnd byte, isBlank byte) :
    hostOf (host ++ rest) = some host := by
  obtain ⟨last, hmem, hblank⟩ := hlast
  have hbytesOf : hostBytes (host ++ rest) = host ++
      (rest.takeWhile fun byte => !isHostEnd byte).take (maxHttpHostLen - host.length) := by
    unfold hostBytes
    rw [List.takeWhile_append_of_pos (by simpa using hbytes), List.take_append,
      List.take_of_length_le hlength]
  have hself : host.rdropWhile isBlank = host := by
    apply List.rdropWhile_eq_self_iff.mpr
    intro hne hlast
    rw [List.getLast?_eq_getLast_of_ne_nil hne] at hmem
    rw [Option.some.inj hmem, hblank] at hlast
    cases hlast
  unfold hostOf
  rw [hbytesOf, rdropWhile_append_of_pos fun byte h => hrest byte (List.mem_of_mem_take h), hself]
  simp only
  rw [if_neg]
  rintro rfl
  cases hmem

/-- After the host there are only blanks up to the colon or the end of the line. -/
theorem HostRequest.after_blank (request : HostRequest) (n : ℕ) :
    ∀ byte ∈ (request.after.take n).takeWhile fun byte => !isHostEnd byte, isBlank byte := by
  have hblank : ∀ byte, isBlank byte → (!isHostEnd byte) = true := by
    intro byte h
    simp only [isBlank, Bool.or_eq_true, decide_eq_true_iff] at h
    rcases h with rfl | rfl <;> rfl
  have hend : ∃ byte rest, isHostEnd byte ∧
      request.port.elim [] (58 :: ·) ++ 13 :: 10 :: request.rest = byte :: rest := by
    cases request.port with
    | none => exact ⟨13, _, rfl, rfl⟩
    | some port => exact ⟨58, _, rfl, rfl⟩
  obtain ⟨last, rest, hlast, heq⟩ := hend
  intro byte hbyte
  rw [← List.take_takeWhile] at hbyte
  have hwhole := List.mem_of_mem_take hbyte
  unfold after at hwhole
  rw [heq, List.takeWhile_append_of_pos fun b hb => hblank b (request.trailingBlank b hb),
    List.takeWhile_cons_of_neg (by simp [hlast]), List.append_nil] at hwhole
  exact request.trailingBlank byte hwhole

theorem httpHost_encode (request : HostRequest) : httpHost request.encode = some request.host := by
  have hscanned := request.scanned
  have hlength : request.before.length + request.host.length ≤ maxHttpScan := by
    unfold HostRequest.before
    rw [List.length_append, List.length_append]
    omega
  have hwindow : request.encode.take maxHttpScan = request.before ++
      (request.host ++
        request.after.take (maxHttpScan - request.before.length - request.host.length)) := by
    unfold HostRequest.encode
    rw [List.take_append, List.take_of_length_le (by omega), List.take_append,
      List.take_of_length_le (by omega)]
  rw [httpHost_append request.requestBefore ?_ hwindow]
  · exact hostOf_append request.hostLength request.hostBytes request.hostLast (request.after_blank _)
  · obtain ⟨first, hmem, hblank⟩ := request.hostFirst
    rw [dropWhile_eq_self_iff]
    intro byte hbyte
    rw [List.head?_append, Option.mem_def.mp hmem] at hbyte
    obtain rfl := Option.some.inj hbyte
    exact hblank

/-! ## No host is found -/

/-- A request with no `Host` header before its blank line; `rest` is what follows that line. -/
structure HostlessRequest extends RequestHead where
  rest : List UInt8

def HostlessRequest.encode (request : HostlessRequest) : List UInt8 :=
  request.toRequestHead.encode ++ 13 :: 10 :: request.rest

theorem hostIn_headerBytes {headers : List (List UInt8)} {limit k : ℕ} {rest : List UInt8}
    (hheaders : ∀ header ∈ headers,
      CrlfFree header ∧ header ≠ [] ∧ isHostName (header.take 5) = false) :
    hostIn limit ((headerBytes headers ++ 13 :: 10 :: rest).take k) = none := by
  induction headers generalizing limit k with
  | nil =>
    cases limit with
    | zero => rfl
    | succ limit =>
      rcases k with _ | _ | k
      · exact hostIn_eq_none (by simp [headerBytes, CrlfFree])
          fun hname => absurd hname Bool.false_ne_true
      · exact hostIn_eq_none (by simp [headerBytes, CrlfFree, List.infix_cons_iff])
          fun hname => absurd hname Bool.false_ne_true
      · exact if_pos (List.prefix_append [13, 10] (rest.take k))
  | cons header headers ih =>
    obtain ⟨hline, hne, hother⟩ := hheaders header List.mem_cons_self
    rw [headerBytes_cons]
    by_cases hk : k ≤ header.length + 1
    · exact hostIn_cut_line hline hother hk
    · rw [take_past_line (Nat.lt_of_not_le hk)]
      cases limit with
      | zero => rfl
      | succ limit =>
        rw [hostIn_header hline hne hother]
        exact ih fun h hmem => hheaders h (List.mem_cons_of_mem _ hmem)

theorem httpHost_hostless (request : HostlessRequest) : httpHost request.encode = none := by
  have hencode : request.encode = (request.method ++ 32 :: request.target) ++
      13 :: 10 :: (headerBytes request.headers ++ 13 :: 10 :: request.rest) := by
    simp [HostlessRequest.encode, RequestHead.encode]
  unfold httpHost
  simp only [hencode]
  split
  · by_cases hscan : maxHttpScan ≤ (request.method ++ 32 :: request.target).length + 1
    · rw [afterCrlf_eq_none (crlfFree_take request.line hscan)]
      rfl
    · rw [take_past_line (Nat.lt_of_not_le hscan), afterCrlf_append request.line]
      exact hostIn_headerBytes request.headerLines
  · rfl

/-- The parser returns the host of a well-formed request, and nothing from one that has no `Host` header
before its blank line. -/
theorem extractHttpHost_requests :
    (∀ request : HostRequest,
      extractHttpHost (memoryCursor request.encode) 0 request.encode.length = some request.host) ∧
    ∀ request : HostlessRequest,
      extractHttpHost (memoryCursor request.encode) 0 request.encode.length = none := by
  simp only [extractHttpHost_eq, List.take_length, List.drop_zero]
  exact ⟨httpHost_encode, httpHost_hostless⟩

example : ∃ request : HostRequest, request.encode = hostedRequest := by
  refine ⟨{
    method := asciiBytes "GET"
    target := asciiBytes "/ HTTP/1.1"
    headers := []
    method_mem := by decide +kernel
    line := by unfold CrlfFree; decide +kernel
    headerLines := nofun
    name := asciiBytes "Host:"
    leading := [32]
    host := asciiBytes "example.com"
    trailing := []
    port := none
    rest := [13, 10]
    fewHeaders := Nat.zero_le _
    isName := by decide +kernel
    leadingBlank := by decide +kernel
    trailingBlank := nofun
    hostLength := by decide +kernel
    hostBytes := by decide +kernel
    hostFirst := ⟨101, by decide +kernel, rfl⟩
    hostLast := ⟨109, by decide +kernel, rfl⟩
    scanned := by decide +kernel }, by decide +kernel⟩

end ZimaScope
