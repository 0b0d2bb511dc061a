import Mathlib.Data.List.TakeWhile
import ZimaScope.Ebpf.Dns
import ZimaScope.Ebpf.Wire

/-! # Written DNS responses

A response with one question and A records only, as it is written to a message, and
what the parser makes of it. The steps that read the labels of a name have to reach
the root behind them as well.
-/

namespace ZimaScope

/-- A label of a name. -/
structure DnsLabel where
  bytes : List UInt8
  positive : 0 < bytes.length
  short : bytes.length ≤ 63

namespace DnsLabel

variable (label : DnsLabel)

def len : UInt8 := .ofNat label.bytes.length

def encode : List UInt8 := label.len :: label.bytes

theorem length_encode : label.encode.length = 1 + label.bytes.length := Nat.add_comm ..

theorem toNat_len : label.len.toNat = label.bytes.length := by
  have hshort := label.short
  rw [len, UInt8.toNat_ofNat']
  omega

/-- The length of a label is neither the root nor a pointer. -/
theorem len_checked : label.len ≠ 0 ∧ label.len &&& 0xC0 = 0 ∧ label.len ≤ 63 := by
  have hall : ∀ n : Fin 64, UInt8.ofNat n &&& 0xC0 = 0 := by decide
  have hpositive := label.positive
  have hshort := label.short
  have htoNat := label.toNat_len
  refine ⟨fun h => ?_, hall ⟨label.bytes.length, by omega⟩, UInt8.le_iff_toNat_le.mpr ?_⟩
  · rw [h] at htoNat
    exact hpositive.ne htoNat
  · exact htoNat.trans_le hshort

end DnsLabel

def encodeLabels (labels : List DnsLabel) : List UInt8 := labels.flatMap DnsLabel.encode

theorem encodeLabels_cons (label : DnsLabel) (labels : List DnsLabel) :
    encodeLabels (label :: labels) = label.encode ++ encodeLabels labels := rfl

def dottedLabels (labels : List DnsLabel) : List UInt8 := [46].intercalate (labels.map DnsLabel.bytes)

/-- A name, as a question has it. -/
structure DnsName where
  labels : List DnsLabel
  count : labels.length ≤ maxDnsLabels
  dotted_le : (dottedLabels labels).length ≤ domainMaxLen

/-- The owner of a record: labels, and behind them the root or a pointer to where the name goes on. -/
structure DnsOwner where
  labels : List DnsLabel
  pointer : Option (Fin 0x4000)
  count : labels.length ≤ maxDnsLabels

def DnsOwner.encode (owner : DnsOwner) : List UInt8 :=
  encodeLabels owner.labels ++ owner.pointer.elim [0] fun offset => u16Bytes (.ofNat (0xC000 + offset))

structure ARecord where
  owner : DnsOwner
  ttl : UInt32
  address : Ipv4Addr

namespace ARecord

variable (record : ARecord)

def encode : List UInt8 :=
  record.owner.encode ++ (u16Bytes 1 ++ (u16Bytes 1 ++ (u32Bytes record.ttl ++
    (u16Bytes 4 ++ record.address.octets.toList))))

def answer : DnsAnswer := ⟨record.ttl, ipv4Storage record.address⟩

end ARecord

/-- A response to one question, with A records for answers and no others. -/
structure DnsResponse where
  id : UInt16
  flags : UInt16
  isResponse : flags &&& 0x8000 ≠ 0
  question : DnsName
  qtype : UInt16
  qclass : UInt16
  records : List ARecord
  count : records.length < 65536

def DnsResponse.encode (response : DnsResponse) : List UInt8 :=
  u16Bytes response.id ++ (u16Bytes response.flags ++ (u16Bytes 1 ++
    (u16Bytes (.ofNat response.records.length) ++ (u16Bytes 0 ++ (u16Bytes 0 ++
      (encodeLabels response.question.labels ++ (0 :: (u16Bytes response.qtype ++
        (u16Bytes response.qclass ++ response.records.flatMap ARecord.encode)))))))))

/-! ## Names -/

theorem appendLabel_eq {name : List UInt8} (h : name ≠ []) (label : List UInt8) :
    appendLabel name label = name ++ 46 :: label := by
  simp [appendLabel, h]

theorem foldl_appendLabel {name : List UInt8} (h : name ≠ []) (labels : List DnsLabel) :
    (labels.map DnsLabel.bytes).foldl appendLabel name =
      [46].intercalate (name :: labels.map DnsLabel.bytes) := by
  induction labels generalizing name with
  | nil => simp
  | cons label labels ih =>
    rw [List.map_cons, List.foldl_cons, appendLabel_eq h, ih (by simp)]
    cases labels <;> simp [List.intercalate_cons_cons]

/-- Labels appended one behind the other are joined by dots. -/
theorem foldl_appendLabel_nil (labels : List DnsLabel) :
    (labels.map DnsLabel.bytes).foldl appendLabel [] = dottedLabels labels := by
  cases labels with
  | nil => rfl
  | cons label labels =>
    have hlabel : label.bytes ≠ [] := List.ne_nil_of_length_pos label.positive
    rw [List.map_cons, List.foldl_cons]
    exact foldl_appendLabel hlabel labels

theorem length_le_foldl_appendLabel (name : List UInt8) (labels : List (List UInt8)) :
    name.length ≤ (labels.foldl appendLabel name).length := by
  induction labels generalizing name with
  | nil => exact Nat.le_refl _
  | cons label labels ih =>
    have happend : name.length ≤ (appendLabel name label).length := by
      unfold appendLabel
      split <;> simp only [List.length_append] <;> omega
    exact happend.trans (ih _)

theorem dottedLabels_eq_nil {labels : List DnsLabel} : dottedLabels labels = [] ↔ labels = [] := by
  cases labels with
  | nil => simp [dottedLabels]
  | cons label labels =>
    have hpositive := label.positive
    have hlength : label.bytes.length ≤ (dottedLabels (label :: labels)).length := by
      rw [← foldl_appendLabel_nil]
      exact length_le_foldl_appendLabel label.bytes (labels.map DnsLabel.bytes)
    refine iff_of_false (fun h => ?_) (List.cons_ne_nil _ _)
    rw [h, List.length_nil] at hlength
    omega

section Read

variable {data rest : List UInt8} {p stop : ℕ}

/-- A label is read with its length in front, and lies within the message. -/
theorem DnsLabel.reads {label : DnsLabel} (h : HasAt data p (label.encode ++ rest))
    (hstop : p + label.encode.length ≤ stop) :
    within p 1 stop = true ∧ (memoryCursor data).readU8 p = some label.len ∧
      within (p + 1) label.bytes.length stop = true ∧
      (memoryCursor data).readBytes (p + 1) label.bytes.length = some label.bytes ∧
      HasAt data (p + 1 + label.bytes.length) rest := by
  unfold encode at h hstop
  rw [List.length_cons] at hstop
  exact ⟨within_iff.mpr (by omega), h.readByte, within_iff.mpr (by omega), h.tail.readBytes, h.tail.skip⟩

/-- A name that fits with a label behind it passes both checks of its length. -/
theorem appendLabel_fits {name label : List UInt8} (hpositive : 0 < label.length)
    (h : (appendLabel name label).length ≤ domainMaxLen) : (name = [] ∨ name.length + 1 < domainMaxLen) ∧
      (if name = [] then name else name ++ [46]).length + label.length ≤ domainMaxLen := by
  have happend : (appendLabel name label).length =
      (if name = [] then name else name ++ [46]).length + label.length := List.length_append
  refine ⟨?_, happend.symm.trans_le h⟩
  by_cases hname : name = []
  · exact Or.inl hname
  · rw [if_neg hname, List.length_append, List.length_singleton] at happend
    omega

/-- A question name is read if and only if one of the steps is left for its root. -/
theorem readQuestionName_encode {labels : List DnsLabel} {name : List UInt8}
    (h : HasAt data p (encodeLabels labels ++ 0 :: rest))
    (hstop : p + ((encodeLabels labels).length + 1) ≤ stop)
    (hlen : ((labels.map DnsLabel.bytes).foldl appendLabel name).length ≤ domainMaxLen) (n : ℕ) :
    readQuestionName (memoryCursor data) stop n p name =
      if labels.length < n then
        some ((labels.map DnsLabel.bytes).foldl appendLabel name, p + ((encodeLabels labels).length + 1))
      else none := by
  induction n generalizing labels p name with
  | zero => rfl
  | succ n ih =>
    have hfirst : within p 1 stop = true := within_iff.mpr (by omega)
    unfold readQuestionName
    cases labels with
    | nil =>
      have hread : (memoryCursor data).readU8 p = some 0 := h.readByte
      simp [guard, hfirst, hread, encodeLabels]
    | cons label labels =>
      rw [encodeLabels_cons, List.append_assoc] at h
      rw [encodeLabels_cons, List.length_append] at hstop ⊢
      rw [List.map_cons, List.foldl_cons] at hlen ⊢
      have hlabel_le : p + label.encode.length ≤ stop := by omega
      obtain ⟨-, hread, hlabel, hbytes, hrest⟩ := DnsLabel.reads h hlabel_le
      obtain ⟨hzero, htag, hsmall⟩ := label.len_checked
      obtain ⟨hdot, hfits⟩ := appendLabel_fits label.positive
        ((length_le_foldl_appendLabel (appendLabel name label.bytes) _).trans hlen)
      have hname : (if name = [] then name else name ++ [46]) ++ label.bytes =
          appendLabel name label.bytes := rfl
      have hend : p + 1 + label.bytes.length + ((encodeLabels labels).length + 1) =
          p + (label.encode.length + (encodeLabels labels).length + 1) := by
        rw [label.length_encode]
        omega
      have hnext := ih hrest (by omega) hlen
      rw [hend] at hnext
      simpa [guard, hfirst, hread, hzero, htag, hsmall, label.toNat_len, hlabel, hdot, hfits, hbytes,
        hname] using hnext

/-- The first byte of a pointer has the bits of a pointer. -/
theorem pointer_bytes (offset : Fin 0x4000) : ∃ first second,
    u16Bytes (.ofNat (0xC000 + offset)) = [first, second] ∧ first ≠ 0 ∧ first &&& 0xC0 = 0xC0 := by
  have hall : ∀ n : Fin 64, UInt8.ofNat (192 + n) ≠ 0 ∧ UInt8.ofNat (192 + n) &&& 0xC0 = 0xC0 := by decide
  have hlt := offset.isLt
  have hoffset : (UInt16.ofNat (0xC000 + offset)).toNat = 0xC000 + offset := by
    rw [UInt16.toNat_ofNat']
    omega
  have hfirst : (0xC000 + (offset : ℕ)) / 256 = 192 + offset / 256 := by omega
  refine ⟨_, _, rfl, ?_⟩
  rw [hoffset, hfirst]
  exact hall ⟨offset / 256, by omega⟩

/-- An owner name is skipped if and only if one of the steps is left for what is behind its labels. -/
theorem skipAnswerName_encode {owner : DnsOwner} (h : HasAt data p (owner.encode ++ rest))
    (hstop : p + owner.encode.length ≤ stop) (n : ℕ) :
    skipAnswerName (memoryCursor data) stop n p =
      if owner.labels.length < n then some (p + owner.encode.length) else none := by
  induction n generalizing owner p with
  | zero => rfl
  | succ n ih =>
    obtain ⟨labels, pointer, hcount⟩ := owner
    unfold skipAnswerName
    cases labels with
    | nil =>
      cases pointer with
      | none =>
        simp only [DnsOwner.encode, encodeLabels, List.flatMap_nil, List.nil_append, Option.elim_none,
          List.singleton_append, List.length_singleton] at h hstop ⊢
        have hread : (memoryCursor data).readU8 p = some 0 := h.readByte
        simp [guard, within_iff.mpr hstop, hread]
      | some offset =>
        obtain ⟨first, second, hbytes, hzero, htag⟩ := pointer_bytes offset
        simp only [DnsOwner.encode, encodeLabels, List.flatMap_nil, List.nil_append, Option.elim_some,
          hbytes, List.cons_append, List.length_cons, List.length_nil] at h hstop ⊢
        have hread : (memoryCursor data).readU8 p = some first := h.readByte
        have hfirst : within p 1 stop = true := within_iff.mpr (by omega)
        have hsecond : within (p + 1) 1 stop = true := within_iff.mpr (by omega)
        simp [guard, hfirst, hread, hzero, htag, hsecond]
    | cons label labels =>
      let owner : DnsOwner := ⟨labels, pointer, (Nat.le_succ _).trans hcount⟩
      have hencode : (DnsOwner.mk (label :: labels) pointer hcount).encode =
          label.encode ++ owner.encode := by
        simp [DnsOwner.encode, encodeLabels_cons, owner]
      rw [hencode, List.append_assoc] at h
      rw [hencode, List.length_append] at hstop ⊢
      have hlabel_le : p + label.encode.length ≤ stop := by omega
      obtain ⟨hfirst, hread, hlabel, -, hrest⟩ := DnsLabel.reads h hlabel_le
      obtain ⟨hzero, htag, hsmall⟩ := label.len_checked
      have hpointer : label.len &&& 0xC0 ≠ 0xC0 := by
        rw [htag]
        decide
      have hend : p + 1 + label.bytes.length + owner.encode.length =
          p + (label.encode.length + owner.encode.length) := by
        rw [label.length_encode]
        omega
      have hnext := ih hrest (by omega)
      rw [hend] at hnext
      simpa [guard, hfirst, hread, hzero, hpointer, hsmall, label.toNat_len, hlabel] using hnext

theorem skipAnswerName_stop (cursor : PacketCursor) (h : stop ≤ p) (n : ℕ) :
    skipAnswerName cursor stop n p = none := by
  cases n with
  | zero => rfl
  | succ n =>
    have hbehind : ¬ within p 1 stop = true := by
      rw [within_iff]
      omega
    simp [skipAnswerName, guard, hbehind]

/-! ## Records -/

theorem readAddress_octets {address : Ipv4Addr} (h : HasAt data p (address.octets.toList ++ rest)) :
    readAddress (memoryCursor data) p = some (ipv4Storage address) := by
  have hread (k : ℕ) (hk : k < 4) : (memoryCursor data).readU8 (p + k) = some address.octets[k] := by
    rw [h.readU8, List.getElem?_append_left (by simpa using hk), Vector.getElem?_toList,
      Vector.getElem?_eq_getElem hk]
  have hread0 : (memoryCursor data).readU8 p = some address.octets[0] := hread 0 (by decide)
  unfold readAddress
  rw [hread0, hread 1 (by decide), hread 2 (by decide), hread 3 (by decide)]
  rfl

/-- The fields of a written record behind its owner. -/
theorem ARecord.reads {record : ARecord} (h : HasAt data p (record.encode ++ rest))
    (hstop : p + record.encode.length ≤ stop) :
    let header := p + record.owner.encode.length
    readRecordHeader (memoryCursor data) stop header = some (1, 1, record.ttl, 4) ∧
      readAddress (memoryCursor data) (header + 10) = some (ipv4Storage record.address) ∧
      p + record.encode.length = header + 10 + 4 := by
  unfold ARecord.encode at h hstop ⊢
  simp only [List.append_assoc, List.length_append, length_u16Bytes, length_u32Bytes,
    Vector.length_toList] at h hstop ⊢
  have htype := h.skip
  have hclass := htype.skip
  have httl := hclass.skip
  have hlength := httl.skip
  have haddress := hlength.skip
  have hheader : within (p + record.owner.encode.length) 10 stop = true := within_iff.mpr (by omega)
  refine ⟨?_, readAddress_octets haddress, by omega⟩
  have hclass' := hclass.readWord
  have httl' := httl.readDoubleWord
  have hlength' := hlength.readWord
  simp only [length_u16Bytes, length_u32Bytes, Nat.add_assoc] at hclass' httl' hlength'
  unfold readRecordHeader
  simp [guard, hheader, htype.readWord, hclass', httl', hlength', Nat.add_assoc]

/-- A record is read if and only if its owner name is skipped. -/
theorem readRecord_encode {record : ARecord} (h : HasAt data p (record.encode ++ rest))
    (hstop : p + record.encode.length ≤ stop) :
    if record.owner.labels.length < maxDnsLabels then
      ∃ read : DnsRecord, readRecord (memoryCursor data) stop p = some (read, p + record.encode.length) ∧
        read.answer (memoryCursor data) = some record.answer
    else readRecord (memoryCursor data) stop p = none := by
  obtain ⟨hheader, haddress, hend⟩ := ARecord.reads h hstop
  have howner := h
  unfold ARecord.encode at howner
  rw [List.append_assoc] at howner
  have howner_le : p + record.owner.encode.length ≤ stop := by omega
  have hskip := skipAnswerName_encode howner howner_le maxDnsLabels
  have hinside : within (p + record.owner.encode.length + 10) 4 stop = true := within_iff.mpr (by omega)
  unfold readRecord
  rw [hskip]
  split
  · refine ⟨⟨1, 1, record.ttl, 4, p + record.owner.encode.length + 10⟩, ?_, ?_⟩
    · simp [guard, hheader, hinside, haddress, hend]
    · simp [DnsRecord.answer, haddress, ARecord.answer]
  · rfl

/-- The first records are read, up to one whose owner name is not skipped. -/
theorem readRecords_encode {records : List ARecord}
    (h : HasAt data p (records.flatMap ARecord.encode ++ rest))
    (hstop : p + (records.flatMap ARecord.encode).length = stop) (n : ℕ) :
    (readRecords (memoryCursor data) stop n p).filterMap (DnsRecord.answer (memoryCursor data)) =
      ((records.take n).takeWhile fun record => record.owner.labels.length < maxDnsLabels).map
        ARecord.answer := by
  induction n generalizing records p with
  | zero => rfl
  | succ n ih =>
    unfold readRecords
    cases records with
    | nil =>
      have hnone : readRecord (memoryCursor data) stop p = none := by
        unfold readRecord
        rw [skipAnswerName_stop _ (show stop ≤ p from hstop.symm.le)]
        rfl
      rw [hnone]
      rfl
    | cons record records =>
      rw [List.flatMap_cons, List.append_assoc] at h
      rw [List.flatMap_cons, List.length_append] at hstop
      have hinside : p + record.encode.length ≤ stop := by omega
      have hrecord := readRecord_encode h hinside
      rw [List.take_succ_cons]
      split at hrecord
      · next hshort =>
        obtain ⟨read, hread, hanswer⟩ := hrecord
        have hnext := ih h.skip (by omega)
        simp only [hread, List.takeWhile_cons, hshort, decide_true, if_true, List.map_cons,
          List.filterMap_cons, hanswer, hnext]
      · next hlong =>
        simp [hrecord, hlong]

end Read

/-! ## Responses -/

namespace DnsResponse

variable (response : DnsResponse)

/-- The answers that a response has within the number that is read. -/
def answers : List (List UInt8 × DnsAnswer) :=
  (response.records.take maxDnsAnswers).map fun record =>
    (dottedLabels response.question.labels, record.answer)

theorem length_encode : response.encode.length =
    12 + ((encodeLabels response.question.labels).length + 1 +
      (4 + (response.records.flatMap ARecord.encode).length)) := by
  simp only [encode, List.length_append, List.length_cons, length_u16Bytes]
  omega

variable {data rest : List UInt8} {p : ℕ}

/-- Its records are behind its question. -/
theorem records_at {response : DnsResponse} (h : HasAt data p (response.encode ++ rest)) :
    HasAt data (p + 12 + ((encodeLabels response.question.labels).length + 1) + 4)
      (response.records.flatMap ARecord.encode ++ rest) := by
  unfold encode at h
  simp only [List.append_assoc, List.cons_append] at h
  exact h.skip.skip.skip.skip.skip.skip.skip.tail.skip.skip.cast rfl

/-- A written response is read up to its records if and only if it has some, and a name for which a
step is left behind its labels. -/
theorem readResponse_encode {response : DnsResponse} (h : HasAt data p (response.encode ++ rest)) :
    readResponse (memoryCursor data) (p + response.encode.length) p =
      if response.records ≠ [] ∧ response.question.labels ≠ [] ∧
          response.question.labels.length < maxDnsLabels then
        some (1, .ofNat response.records.length, dottedLabels response.question.labels,
          p + 12 + ((encodeLabels response.question.labels).length + 1))
      else none := by
  have hlength := response.length_encode
  unfold encode at h
  simp only [List.append_assoc, List.cons_append] at h
  have hflags := h.skip
  have hquestions := hflags.skip
  have hanswers := hquestions.skip
  have hquestion := hanswers.skip.skip.skip.cast (q := p + 12) rfl
  have hresponse : (memoryCursor data).readU16Be (p + 2) = some response.flags := hflags.readWord
  have hone : (memoryCursor data).readU16Be (p + 4) = some 1 := hquestions.readWord
  have hmany : (memoryCursor data).readU16Be (p + 6) = some (.ofNat response.records.length) :=
    hanswers.readWord
  have hcount : 0 < UInt16.ofNat response.records.length ↔ response.records ≠ [] := by
    have hlt := response.count
    rw [UInt16.lt_iff_toNat_lt, UInt16.toNat_ofNat', ← List.length_pos_iff]
    simp
    omega
  have hname_le : p + 12 + ((encodeLabels response.question.labels).length + 1) ≤
      p + response.encode.length := by omega
  have hname := readQuestionName_encode hquestion hname_le
    ((congrArg List.length (foldl_appendLabel_nil _)).trans_le response.question.dotted_le) maxDnsLabels
  have hheader : within p 12 (p + response.encode.length) = true := within_iff.mpr (by omega)
  have hclass : within (p + 12 + ((encodeLabels response.question.labels).length + 1)) 4
      (p + response.encode.length) = true := within_iff.mpr (by omega)
  rw [foldl_appendLabel_nil] at hname
  unfold readResponse
  rw [hname]
  by_cases hsome : response.records = []
  · simp [guard, hheader, hresponse, hone, hmany, hsome]
  · by_cases hlabels : response.question.labels.length < maxDnsLabels
    · by_cases hroot : response.question.labels = [] <;>
        simp [guard, hheader, hresponse, response.isResponse, hone, hmany, hcount, hsome, hlabels,
          dottedLabels_eq_nil, hroot, hclass]
    · simp [guard, hheader, hresponse, hone, hmany, hsome, hlabels]

/-- What is emitted for a written response with records, and a name for which a step is left behind
its labels. -/
theorem parse_encode {response : DnsResponse} (h : HasAt data p (response.encode ++ rest))
    (hread : response.records ≠ [] ∧ response.question.labels ≠ [] ∧
      response.question.labels.length < maxDnsLabels) :
    parseDnsResponse (memoryCursor data) (p + response.encode.length) p =
      ((response.records.take maxDnsAnswers).takeWhile fun record =>
        record.owner.labels.length < maxDnsLabels).map fun record =>
          (dottedLabels response.question.labels, record.answer) := by
  have hend : p + 12 + ((encodeLabels response.question.labels).length + 1) + 4 +
      (response.records.flatMap ARecord.encode).length = p + response.encode.length := by
    rw [response.length_encode]
    omega
  have hcount : (UInt16.ofNat response.records.length).toNat = response.records.length := by
    rw [UInt16.toNat_ofNat', Nat.mod_eq_of_lt response.count]
  rw [parseDnsResponse_eq, readResponse_encode h, if_pos hread]
  simp only [Option.elim_some, hcount]
  rw [readRecords_encode (records_at h) hend, List.take_of_length_le, List.map_map]
  · rfl
  · have hle := (List.takeWhile_prefix (fun record : ARecord =>
      decide (record.owner.labels.length < maxDnsLabels))
      (l := response.records.take maxDnsAnswers)).length_le
    rw [List.length_take] at hle
    rw [List.length_map]
    omega

/-- The parser emits the first answers of a written response if and only if there are none, or
a step is left behind the labels of each name that it walks over. -/
theorem parse_encode_iff (front : List UInt8) :
    parseDnsResponse (memoryCursor (front ++ (response.encode ++ rest)))
        (front.length + response.encode.length) front.length = response.answers ↔
      response.records = [] ∨
        response.question.labels ≠ [] ∧ response.question.labels.length < maxDnsLabels ∧
          ∀ record ∈ response.records.take maxDnsAnswers, record.owner.labels.length < maxDnsLabels := by
  have h : HasAt (front ++ (response.encode ++ rest)) front.length (response.encode ++ rest) := .append
  by_cases hsome : response.records = []
  · rw [parseDnsResponse_eq, readResponse_encode h, if_neg fun hread => hread.1 hsome]
    simp [answers, hsome]
  by_cases hname : response.question.labels ≠ [] ∧ response.question.labels.length < maxDnsLabels
  · rw [parse_encode h ⟨hsome, hname⟩, answers, or_iff_right hsome, ← and_assoc, and_iff_right hname]
    constructor
    · intro hall record hrecord
      have hlength := congrArg List.length hall
      rw [List.length_map, List.length_map] at hlength
      have hsame := (List.takeWhile_prefix _).eq_of_length hlength
      exact of_decide_eq_true (List.takeWhile_eq_self_iff.mp hsame record hrecord)
    · intro hall
      rw [List.takeWhile_eq_self_iff.mpr fun record hrecord => decide_eq_true (hall record hrecord)]
  · rw [parseDnsResponse_eq, readResponse_encode h, if_neg fun hread => hname hread.2]
    have hanswers : response.answers ≠ [] := by
      simp [answers, hsome, maxDnsAnswers]
    refine iff_of_false hanswers.symm ?_
    rintro (hnone | ⟨hroot, hlabels, -⟩)
    · exact hsome hnone
    · exact hname ⟨hroot, hlabels⟩

end DnsResponse

/-- A response for a name of as many labels as a name may have, each of them `a`. -/
def longNameResponse : DnsResponse where
  id := 0
  flags := 0x8180
  isResponse := by decide
  question := ⟨List.replicate 16 ⟨[97], by decide, by decide⟩, by decide, by decide⟩
  qtype := 1
  qclass := 1
  records := [⟨⟨[], some 12, by decide⟩, 300, .new 198 51 100 7⟩]
  count := by decide

/-- The root of the longest names is not reached. -/
theorem long_name_dropped : ¬ ∀ (response : DnsResponse) (front rest : List UInt8),
    parseDnsResponse (memoryCursor (front ++ (response.encode ++ rest)))
      (front.length + response.encode.length) front.length = response.answers := by
  intro hall
  have hsame := hall longNameResponse [] []
  revert hsame
  decide +kernel

end ZimaScope
