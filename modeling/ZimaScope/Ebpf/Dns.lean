import ZimaScope.Ebpf.Domain

/-! # Sections of a DNS response

Names and records as a message lays them out, one behind the other, and which of
the records the parser emits: it counts the ones it emits, so that behind an answer
section with other records it goes on into the sections that follow.
-/

namespace ZimaScope

/-- A resource record, less its owner; `rdata` is the position of its data. -/
structure DnsRecord where
  rtype : UInt16
  rclass : UInt16
  ttl : UInt32
  rdlength : ℕ
  rdata : ℕ
  deriving DecidableEq

/-- A name with another label. -/
def appendLabel (name label : List UInt8) : List UInt8 :=
  (if name = [] then name else name ++ [46]) ++ label

section Layout

variable (cursor : PacketCursor) (stop : ℕ)

/-- The labels of a question, from a position up to another. -/
inductive QuestionLabels : ℕ → List (List UInt8) → ℕ → Prop
  | root {p : ℕ} (hread : cursor.readU8 p = some 0) : QuestionLabels p [] (p + 1)
  | label {p q : ℕ} {len : UInt8} {bytes : List UInt8} {labels : List (List UInt8)}
      (hread : cursor.readU8 p = some len) (hlen : len ≠ 0)
      (hbytes : cursor.readBytes (p + 1) len.toNat = some bytes)
      (hrest : QuestionLabels (p + 1 + len.toNat) labels q) : QuestionLabels p (bytes :: labels) q

/-- The owner of a record: labels, and behind them the root or a pointer. -/
inductive OwnerName : ℕ → ℕ → Prop
  | root {p : ℕ} (hread : cursor.readU8 p = some 0) : OwnerName p (p + 1)
  | pointer {p : ℕ} {len : UInt8} (hread : cursor.readU8 p = some len) (hlen : len ≠ 0)
      (htag : len &&& 0xC0 = 0xC0) : OwnerName p (p + 2)
  | label {p q : ℕ} {len : UInt8} (hread : cursor.readU8 p = some len) (hlen : len ≠ 0)
      (htag : len &&& 0xC0 ≠ 0xC0) (hsmall : len ≤ 63) (hrest : OwnerName (p + 1 + len.toNat) q) :
      OwnerName p q

/-- A record from a position up to another, within the payload. -/
structure RecordAt (p : ℕ) (record : DnsRecord) (q : ℕ) : Prop where
  owner : ∃ header, OwnerName cursor p header ∧ cursor.readU16Be header = some record.rtype ∧
    cursor.readU16Be (header + 2) = some record.rclass ∧
    cursor.readU32Be (header + 4) = some record.ttl ∧
    (cursor.readU16Be (header + 8)).map UInt16.toNat = some record.rdlength ∧
    record.rdata = header + 10
  next : q = record.rdata + record.rdlength
  inside : q ≤ stop

/-- Records one behind the other. -/
inductive RecordsFrom : ℕ → List DnsRecord → Prop
  | nil {p : ℕ} : RecordsFrom p []
  | cons {p q : ℕ} {record : DnsRecord} {records : List DnsRecord} (h : RecordAt cursor stop p record q)
      (hrest : RecordsFrom q records) : RecordsFrom p (record :: records)

/-- What an A record of class IN says. -/
def DnsRecord.answer (record : DnsRecord) : Option DnsAnswer :=
  if record.rtype = 1 ∧ record.rclass = 1 ∧ record.rdlength = 4 then
    (readAddress cursor record.rdata).map fun address => ⟨record.ttl, address⟩
  else none

/-- What was emitted is, in this order, of A records among the first as many records behind the one
question as the response has answers. -/
def AnswersOnly (offset : ℕ) (emitted : List (List UInt8 × DnsAnswer)) : Prop :=
  emitted = [] ∨ ∃ flags count labels position records,
    cursor.readU16Be (offset + 2) = some flags ∧ flags &&& 0x8000 ≠ 0 ∧
    cursor.readU16Be (offset + 4) = some 1 ∧ cursor.readU16Be (offset + 6) = some count ∧
    QuestionLabels cursor (offset + 12) labels position ∧
    RecordsFrom cursor stop (position + 4) records ∧ records.length ≤ count.toNat ∧
    emitted.Sublist ((records.filterMap (DnsRecord.answer cursor)).map fun answer =>
      (labels.foldl appendLabel [], answer))

/-! ## What the parser reads -/

/-- What stands before the records: the counts of questions and answers, the name of the question
and the position behind it. -/
def readResponse (offset : ℕ) : Option (UInt16 × UInt16 × List UInt8 × ℕ) := do
  guard (within offset 12 stop)
  let flags ← cursor.readU16Be (offset + 2)
  guard (flags &&& 0x8000 ≠ 0)
  let questions ← cursor.readU16Be (offset + 4)
  guard (questions ≠ 0)
  let answers ← cursor.readU16Be (offset + 6)
  guard (0 < answers)
  let (name, position) ← readQuestionName cursor stop maxDnsLabels (offset + 12) []
  guard (name ≠ [] ∧ within position 4 stop)
  return (questions, answers, name, position)

/-- One record, with the position behind it; an A record of class IN must have its address. -/
def readRecord (position : ℕ) : Option (DnsRecord × ℕ) := do
  let position ← skipAnswerName cursor stop maxDnsLabels position
  let (rtype, rclass, ttl, rdlength) ← readRecordHeader cursor stop position
  guard (within (position + 10) rdlength stop)
  if rtype = 1 ∧ rclass = 1 ∧ rdlength = 4 then
    let _ ← readAddress cursor (position + 10)
    return (⟨rtype, rclass, ttl, rdlength, position + 10⟩, position + 10 + rdlength)
  else return (⟨rtype, rclass, ttl, rdlength, position + 10⟩, position + 10 + rdlength)

/-- The first records from a position on, up to one that cannot be read. -/
def readRecords : ℕ → ℕ → List DnsRecord
  | 0, _ => []
  | records + 1, position =>
    match readRecord cursor stop position with
    | some (record, position) => record :: readRecords records position
    | none => []

end Layout

section Read

variable {cursor : PacketCursor} {stop offset : ℕ}

theorem questionLabels_of_read {labels p q : ℕ} {name name' : List UInt8}
    (h : readQuestionName cursor stop labels p name = some (name', q)) :
    ∃ read, QuestionLabels cursor p read q ∧ name' = read.foldl appendLabel name := by
  induction labels generalizing p name with
  | zero => simp [readQuestionName] at h
  | succ labels ih =>
    unfold readQuestionName at h
    rw [guard_bind_eq_some] at h
    obtain ⟨len, hlen, h⟩ := Option.bind_eq_some_iff.mp h.2
    simp only at h
    split at h
    · next hzero =>
      obtain ⟨rfl, rfl⟩ := Prod.mk.inj (Option.some.inj h)
      exact ⟨[], .root (hzero ▸ hlen), rfl⟩
    · next hzero =>
      rw [guard_bind_eq_some, guard_bind_eq_some, guard_bind_eq_some] at h
      obtain ⟨bytes, hbytes, h⟩ := Option.bind_eq_some_iff.mp h.2.2.2
      obtain ⟨read, hread, rfl⟩ := ih h
      exact ⟨bytes :: read, .label hlen hzero hbytes hread, rfl⟩

theorem ownerName_of_skip {labels p q : ℕ} (h : skipAnswerName cursor stop labels p = some q) :
    OwnerName cursor p q := by
  induction labels generalizing p with
  | zero => simp [skipAnswerName] at h
  | succ labels ih =>
    unfold skipAnswerName at h
    rw [guard_bind_eq_some] at h
    obtain ⟨len, hlen, h⟩ := Option.bind_eq_some_iff.mp h.2
    simp only at h
    split at h
    · next hzero =>
      obtain rfl := Option.some.inj h
      exact .root (hzero ▸ hlen)
    · next hzero =>
      split at h
      · next htag =>
        rw [guard_bind_eq_some] at h
        obtain rfl := Option.some.inj h.2
        exact .pointer hlen hzero htag
      · next htag =>
        rw [guard_bind_eq_some] at h
        exact .label hlen hzero htag h.1.1 (ih h.2)

theorem QuestionLabels.eq {p q q' : ℕ} {labels labels' : List (List UInt8)}
    (h : QuestionLabels cursor p labels q) (h' : QuestionLabels cursor p labels' q') :
    labels = labels' ∧ q = q' := by
  induction h generalizing labels' with
  | root hread =>
    cases h' with
    | root => exact ⟨rfl, rfl⟩
    | label hread' hlen =>
      rw [hread] at hread'
      exact absurd (Option.some.inj hread').symm hlen
  | label hread hlen hbytes _ ih =>
    cases h' with
    | root hread' =>
      rw [hread] at hread'
      exact absurd (Option.some.inj hread') hlen
    | label hread' _ hbytes' hrest' =>
      rw [hread] at hread'
      obtain rfl := Option.some.inj hread'
      rw [hbytes] at hbytes'
      obtain rfl := Option.some.inj hbytes'
      obtain ⟨rfl, rfl⟩ := ih hrest'
      exact ⟨rfl, rfl⟩

theorem OwnerName.eq {p q q' : ℕ} (h : OwnerName cursor p q) (h' : OwnerName cursor p q') :
    q = q' := by
  induction h with
  | root hread =>
    cases h' with
    | root => rfl
    | pointer hread' hlen =>
      rw [hread] at hread'
      exact absurd (Option.some.inj hread').symm hlen
    | label hread' hlen =>
      rw [hread] at hread'
      exact absurd (Option.some.inj hread').symm hlen
  | pointer hread hlen htag =>
    cases h' with
    | root hread' =>
      rw [hread] at hread'
      exact absurd (Option.some.inj hread') hlen
    | pointer => rfl
    | label hread' _ htag' =>
      rw [hread] at hread'
      obtain rfl := Option.some.inj hread'
      exact absurd htag htag'
  | label hread hlen htag _ _ ih =>
    cases h' with
    | root hread' =>
      rw [hread] at hread'
      exact absurd (Option.some.inj hread') hlen
    | pointer hread' _ htag' =>
      rw [hread] at hread'
      obtain rfl := Option.some.inj hread'
      exact absurd htag' htag
    | label hread' _ _ _ hrest' =>
      rw [hread] at hread'
      obtain rfl := Option.some.inj hread'
      exact ih hrest'

theorem RecordAt.eq {p q q' : ℕ} {record record' : DnsRecord} (h : RecordAt cursor stop p record q)
    (h' : RecordAt cursor stop p record' q') : record = record' ∧ q = q' := by
  obtain ⟨header, howner, htype, hclass, httl, hlength, hdata⟩ := h.owner
  obtain ⟨header', howner', htype', hclass', httl', hlength', hdata'⟩ := h'.owner
  obtain rfl := howner.eq howner'
  have hrecord : record = record' := by
    cases record
    cases record'
    simp_all
  subst hrecord
  exact ⟨rfl, h.next.trans h'.next.symm⟩

/-- Of two walks over the records one is the beginning of the other. -/
theorem RecordsFrom.begins {p : ℕ} {records records' : List DnsRecord}
    (h : RecordsFrom cursor stop p records) (h' : RecordsFrom cursor stop p records')
    (hle : records.length ≤ records'.length) : records <+: records' := by
  induction h generalizing records' with
  | nil => exact List.nil_prefix
  | cons hrecord _ ih =>
    cases h' with
    | nil => simp at hle
    | cons hrecord' hrest' =>
      obtain ⟨rfl, rfl⟩ := hrecord.eq hrecord'
      simp only [List.length_cons, Nat.add_le_add_iff_right] at hle
      exact (List.prefix_cons_inj _).mpr (ih hrest' hle)

theorem RecordsFrom.take {p : ℕ} {records : List DnsRecord} (h : RecordsFrom cursor stop p records)
    (n : ℕ) : RecordsFrom cursor stop p (records.take n) := by
  induction h generalizing n with
  | nil =>
    rw [List.take_nil]
    exact .nil
  | cons hrecord _ ih =>
    cases n with
    | zero => exact .nil
    | succ n => exact .cons hrecord (ih n)

theorem recordAt_of_read {p q : ℕ} {record : DnsRecord}
    (h : readRecord cursor stop p = some (record, q)) : RecordAt cursor stop p record q := by
  unfold readRecord at h
  obtain ⟨header, howner, h⟩ := Option.bind_eq_some_iff.mp h
  obtain ⟨⟨rtype, rclass, ttl, rdlength⟩, hheader, h⟩ := Option.bind_eq_some_iff.mp h
  simp only at h
  rw [guard_bind_eq_some] at h
  obtain ⟨hinside, h⟩ := h
  have heq : (⟨rtype, rclass, ttl, rdlength, header + 10⟩, header + 10 + rdlength) = (record, q) := by
    split at h
    · obtain ⟨-, -, h⟩ := Option.bind_eq_some_iff.mp h
      exact Option.some.inj h
    · exact Option.some.inj h
  obtain ⟨rfl, rfl⟩ := Prod.mk.inj heq
  unfold readRecordHeader at hheader
  rw [guard_bind_eq_some] at hheader
  obtain ⟨rtype', htype, hheader⟩ := Option.bind_eq_some_iff.mp hheader.2
  obtain ⟨rclass', hclass, hheader⟩ := Option.bind_eq_some_iff.mp hheader
  obtain ⟨ttl', httl, hheader⟩ := Option.bind_eq_some_iff.mp hheader
  obtain ⟨rdlength', hlength, hheader⟩ := Option.bind_eq_some_iff.mp hheader
  simp only [Option.pure_def, Option.some.injEq, Prod.mk.injEq] at hheader
  obtain ⟨rfl, rfl, rfl, rfl⟩ := hheader
  refine ⟨⟨header, ownerName_of_skip howner, htype, hclass, httl, ?_, rfl⟩, rfl, ?_⟩
  · rw [hlength]
    rfl
  · exact of_decide_eq_true hinside

theorem recordsFrom_read {n p : ℕ} : RecordsFrom cursor stop p (readRecords cursor stop n p) := by
  induction n generalizing p with
  | zero => exact .nil
  | succ n ih =>
    unfold readRecords
    split
    · next hrecord => exact .cons (recordAt_of_read hrecord) ih
    · exact .nil

theorem length_readRecords {n p : ℕ} : (readRecords cursor stop n p).length ≤ n := by
  induction n generalizing p with
  | zero => exact Nat.le_refl _
  | succ n ih =>
    unfold readRecords
    split
    · exact Nat.succ_le_succ ih
    · exact Nat.zero_le _

/-- The parser emits the first A records that it reads. -/
theorem readAnswers_eq_take {n p k : ℕ} : readAnswers cursor stop n p k =
    ((readRecords cursor stop n p).filterMap (DnsRecord.answer cursor)).take k := by
  induction n generalizing p k with
  | zero => simp [readAnswers, readRecords]
  | succ n ih =>
    cases k with
    | zero => simp [readAnswers]
    | succ k =>
      unfold readAnswers readRecords readRecord
      cases howner : skipAnswerName cursor stop maxDnsLabels p with
      | none => rfl
      | some header =>
        cases hheader : readRecordHeader cursor stop header with
        | none => simp [hheader]
        | some fields =>
          obtain ⟨rtype, rclass, ttl, rdlength⟩ := fields
          by_cases hinside : within (header + 10) rdlength stop = true
          · by_cases ha : rtype = 1 ∧ rclass = 1 ∧ rdlength = 4
            · obtain ⟨rfl, rfl, rfl⟩ := ha
              cases haddress : readAddress cursor (header + 10) with
              | none => simp [hheader, hinside, haddress, guard]
              | some address => simp [hheader, hinside, haddress, guard, DnsRecord.answer, ih]
            · simp [hheader, hinside, ha, guard, DnsRecord.answer, ih]
          · simp [hheader, hinside, guard]

theorem parseDnsResponse_eq : parseDnsResponse cursor stop offset =
    (readResponse cursor stop offset).elim [] fun (_, count, name, position) =>
      (((readRecords cursor stop maxDnsAnswers (position + 4)).filterMap
        (DnsRecord.answer cursor)).take (min count.toNat maxDnsAnswers)).map fun answer =>
          (name, answer) := by
  have hread : ((do
      let (_, count, name, position) ← readResponse cursor stop offset
      return (readAnswers cursor stop maxDnsAnswers (position + 4)
        (min count.toNat maxDnsAnswers)).map fun answer => (name, answer)) :
      Option (List (List UInt8 × DnsAnswer))).getD [] = parseDnsResponse cursor stop offset := by
    unfold readResponse parseDnsResponse
    simp only [bind_assoc, pure_bind]
  rw [← hread]
  cases readResponse cursor stop offset with
  | none => rfl
  | some response =>
    obtain ⟨questions, count, name, position⟩ := response
    simp only [Option.elim_some, ← readAnswers_eq_take]
    rfl

/-- A response that cannot be read, or without A records among the first that follow its question;
or one with one question, all of whose answers are A records or none of whose other records is. -/
def AnswersFirst (cursor : PacketCursor) (stop offset : ℕ) : Prop :=
  ∀ questions count name position,
    readResponse cursor stop offset = some (questions, count, name, position) →
      let records := readRecords cursor stop maxDnsAnswers (position + 4)
      (∀ record ∈ records, record.answer cursor = none) ∨ questions = 1 ∧
        ((∀ record ∈ records.take count.toNat, (record.answer cursor).isSome) ∨
          ∀ record ∈ records.drop count.toNat, record.answer cursor = none)

theorem readResponse_eq_some {questions count : UInt16} {name : List UInt8} {position : ℕ}
    (h : readResponse cursor stop offset = some (questions, count, name, position)) :
    0 < count.toNat ∧ cursor.readU16Be (offset + 4) = some questions ∧
      cursor.readU16Be (offset + 6) = some count ∧
      (∃ flags, cursor.readU16Be (offset + 2) = some flags ∧ flags &&& 0x8000 ≠ 0) ∧
      ∃ labels, QuestionLabels cursor (offset + 12) labels position ∧
        name = labels.foldl appendLabel [] := by
  unfold readResponse at h
  rw [guard_bind_eq_some] at h
  obtain ⟨flags, hflags, h⟩ := Option.bind_eq_some_iff.mp h.2
  rw [guard_bind_eq_some] at h
  obtain ⟨hresponse, h⟩ := h
  obtain ⟨questions', hquestions, h⟩ := Option.bind_eq_some_iff.mp h
  rw [guard_bind_eq_some] at h
  obtain ⟨count', hcount, h⟩ := Option.bind_eq_some_iff.mp h.2
  rw [guard_bind_eq_some] at h
  obtain ⟨hpositive, h⟩ := h
  obtain ⟨⟨name', position'⟩, hname, h⟩ := Option.bind_eq_some_iff.mp h
  simp only at h
  rw [guard_bind_eq_some] at h
  obtain ⟨rfl, rfl, rfl, rfl⟩ : questions' = questions ∧ count' = count ∧ name' = name ∧
      position' = position := by simpa using h.2
  exact ⟨hpositive, hquestions, hcount, ⟨flags, hflags, hresponse⟩, questionLabels_of_read hname⟩

/-- The records emitted are among the answers if and only if these come first. -/
theorem length_take_le_iff (cursor : PacketCursor) {records : List DnsRecord} (count : ℕ)
    (hlength : records.length ≤ maxDnsAnswers) :
    ((records.filterMap (DnsRecord.answer cursor)).take (min count maxDnsAnswers)).length ≤
        ((records.take count).filterMap (DnsRecord.answer cursor)).length ↔
      (∀ record ∈ records.take count, (record.answer cursor).isSome) ∨
        ∀ record ∈ records.drop count, record.answer cursor = none := by
  have hsplit : (records.filterMap (DnsRecord.answer cursor)).length =
      ((records.take count).filterMap (DnsRecord.answer cursor)).length +
        ((records.drop count).filterMap (DnsRecord.answer cursor)).length := by
    rw [← List.length_append, ← List.filterMap_append, List.take_append_drop]
  have hfirst : ((records.take count).filterMap (DnsRecord.answer cursor)).length =
      (records.take count).length ↔ ∀ record ∈ records.take count, (record.answer cursor).isSome := by
    rw [List.length_filterMap_eq_countP, List.countP_eq_length]
  have hle : ((records.take count).filterMap (DnsRecord.answer cursor)).length ≤
      (records.take count).length := List.length_filterMap_le _ _
  have hrest : ((records.drop count).filterMap (DnsRecord.answer cursor)).length = 0 ↔
      ∀ record ∈ records.drop count, record.answer cursor = none := by
    rw [List.length_eq_zero_iff, List.filterMap_eq_nil_iff]
  have hdrop : ((records.drop count).filterMap (DnsRecord.answer cursor)).length ≤
      records.length - count := (List.length_filterMap_le _ _).trans_eq List.length_drop
  rw [List.length_take, hsplit, ← hfirst, ← hrest]
  rw [List.length_take] at *
  omega

/-- Only A records of the answer section are emitted if and only if these come first in it, or none
comes after it. -/
theorem answersOnly_iff : AnswersOnly cursor stop offset (parseDnsResponse cursor stop offset) ↔
    AnswersFirst cursor stop offset := by
  rw [parseDnsResponse_eq]
  cases hread : readResponse cursor stop offset with
  | none => simp [AnswersOnly, AnswersFirst, hread]
  | some response =>
    obtain ⟨questions, count, name, position⟩ := response
    obtain ⟨hpositive, hquestions, hcount, ⟨flags, hflags, hresponse⟩, labels, hlabels, rfl⟩ :=
      readResponse_eq_some hread
    have hrecords : RecordsFrom cursor stop (position + 4)
        (readRecords cursor stop maxDnsAnswers (position + 4)) := recordsFrom_read
    have hlength : (readRecords cursor stop maxDnsAnswers (position + 4)).length ≤ maxDnsAnswers :=
      length_readRecords
    have hfirst : AnswersFirst cursor stop offset ↔
        (∀ record ∈ readRecords cursor stop maxDnsAnswers (position + 4),
          record.answer cursor = none) ∨ questions = 1 ∧ _ :=
      ⟨fun h => h questions count _ position hread, fun h questions' count' name' position' hread' => by
        obtain ⟨rfl, rfl, rfl, rfl⟩ : questions = questions' ∧ count = count' ∧ _ = name' ∧
          position = position' := by simpa [hread] using hread'
        exact h⟩
    simp only [Option.elim_some]
    rw [hfirst, ← length_take_le_iff cursor count.toNat hlength]
    generalize readRecords cursor stop maxDnsAnswers (position + 4) = records at *
    have hprefix : ((records.take count.toNat).filterMap (DnsRecord.answer cursor)) <+:
        records.filterMap (DnsRecord.answer cursor) :=
      (List.take_prefix _ _).filterMap _
    constructor
    · rintro (hnone | ⟨flags', count', labels', position', walk, -, -, hone, hcount', hlabels', hwalk,
        hle, hsublist⟩)
      · left
        rw [List.map_eq_nil_iff, List.take_eq_nil_iff] at hnone
        rcases hnone with hzero | hnone
        · unfold maxDnsAnswers at hzero
          omega
        · exact List.filterMap_eq_nil_iff.mp hnone
      · right
        obtain ⟨rfl, rfl⟩ := hlabels.eq hlabels'
        rw [hcount] at hcount'
        obtain rfl := Option.some.inj hcount'
        rw [hquestions] at hone
        refine ⟨Option.some.inj hone, ?_⟩
        have hemitted := hsublist.length_le
        rw [List.length_map, List.length_map] at hemitted
        rcases Nat.le_total walk.length records.length with hshort | hlong
        · have hbegins : walk <+: records.take count.toNat :=
            List.prefix_of_prefix_length_le (hwalk.begins hrecords hshort) (List.take_prefix _ _)
              (by rw [List.length_take]; omega)
          exact hemitted.trans (hbegins.filterMap _).length_le
        · rw [List.take_of_length_le (hlong.trans hle)]
          exact List.length_take_le' _ _
    · rintro (hnone | ⟨rfl, hle⟩)
      · left
        rw [List.filterMap_eq_nil_iff.mpr hnone, List.take_nil, List.map_nil]
      · right
        refine ⟨flags, count, labels, position, records.take count.toNat, hflags, hresponse,
          hquestions, hcount, hlabels, hrecords.take _, List.length_take_le _ _, ?_⟩
        exact ((List.prefix_of_prefix_length_le (List.take_prefix _ _) hprefix hle).sublist).map _

end Read

/-! ## An alias -/

/-- A response for `a` with one answer, an alias, and one record behind the answers, an address. -/
def aliasResponse : List UInt8 :=
  [0, 0, 0x80, 0, 0, 1, 0, 1, 0, 0, 0, 1] ++ [1, 97, 0, 0, 1, 0, 1] ++
    [0xC0, 12, 0, 5, 0, 1, 0, 0, 0, 0, 0, 2, 0xC0, 12] ++
    [0xC0, 12, 0, 1, 0, 1, 0, 0, 0, 0, 0, 4, 198, 51, 100, 7]

/-- The address of the additional section is emitted. -/
theorem additional_record_emitted : ¬ ∀ (data : List UInt8) (offset stop : ℕ),
    AnswersOnly (memoryCursor data) stop offset (parseDnsResponse (memoryCursor data) stop offset) := by
  intro hall
  have hemitted : (parseDnsResponse (memoryCursor aliasResponse) 49 0).length = 1 := by decide +kernel
  have hcount : (memoryCursor aliasResponse).readU16Be 6 = some 1 := by decide +kernel
  have hquestion : readQuestionName (memoryCursor aliasResponse) 49 maxDnsLabels 12 [] =
      some ([97], 15) := by
    decide +kernel
  have halias : (readRecords (memoryCursor aliasResponse) 49 1 19).length = 1 ∧
      (readRecords (memoryCursor aliasResponse) 49 1 19).filterMap
        (DnsRecord.answer (memoryCursor aliasResponse)) = [] := by
    decide +kernel
  rcases hall aliasResponse 0 49 with hnone | ⟨flags, count, labels, position, records, -, -, -, hone,
    hlabels, hrecords, hle, hsublist⟩
  · rw [hnone] at hemitted
    simp at hemitted
  · obtain ⟨read, hread, -⟩ := questionLabels_of_read hquestion
    obtain ⟨rfl, rfl⟩ := hlabels.eq hread
    rw [Nat.zero_add, hcount] at hone
    obtain rfl := Option.some.inj hone
    have hbegins := hrecords.begins recordsFrom_read (hle.trans halias.1.ge)
    have hanswers := (hbegins.filterMap (DnsRecord.answer (memoryCursor aliasResponse))).length_le
    have hlength := hsublist.length_le
    rw [halias.2, List.length_nil] at hanswers
    rw [List.length_map, hemitted] at hlength
    omega

end ZimaScope
