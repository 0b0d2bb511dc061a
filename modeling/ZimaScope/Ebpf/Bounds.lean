import ZimaScope.Ebpf.Accesses
import ZimaScope.Ebpf.ClientHello

/-! # The end of the payload

Which bytes the domain parsers read. A ClientHello that ends with its random, where
the length of the session would follow, is read one byte too far; nothing else is,
and even there the result depends on the payload only.
-/

namespace ZimaScope

namespace Access

variable {offset stop p len : ℕ}

theorem forall_range' (hlen : 0 < len) : (∀ i ∈ List.range' p len, offset ≤ i ∧ i < stop) ↔
    offset ≤ p ∧ p + len ≤ stop := by
  simp only [List.mem_range'_1]
  constructor
  · intro h
    have hfirst := h p (by omega)
    have hlast := h (p + len - 1) (by omega)
    omega
  · intro h i hi
    omega

theorem inside_u8 : (u8 p).Inside offset stop ↔ offset ≤ p ∧ p < stop := by
  simp [Inside, reads, writes]

/-- Inside, and not a read of nothing, which a cursor need not answer. -/
def Proper (offset stop : ℕ) (access : Access) : Prop :=
  access.Inside offset stop ∧ ∀ p, access ≠ bytes p 0

theorem proper_u8 (hp : offset ≤ p) (hstop : p < stop) : (u8 p).Proper offset stop :=
  ⟨inside_u8.mpr ⟨hp, hstop⟩, nofun⟩

theorem proper_u16 (hp : offset ≤ p) (hstop : p + 2 ≤ stop) : (u16 p).Proper offset stop :=
  ⟨⟨(forall_range' Nat.two_pos).mpr ⟨hp, hstop⟩, nofun⟩, nofun⟩

theorem proper_u32 (hp : offset ≤ p) (hstop : p + 4 ≤ stop) : (u32 p).Proper offset stop :=
  ⟨⟨(forall_range' four_pos).mpr ⟨hp, hstop⟩, nofun⟩, nofun⟩

theorem proper_bytes (hlen : 0 < len) (hp : offset ≤ p) (hstop : p + len ≤ stop) :
    (bytes p len).Proper offset stop := by
  refine ⟨⟨(forall_range' hlen).mpr ⟨hp, hstop⟩, nofun⟩, ?_⟩
  rintro _ ⟨⟩
  exact Nat.lt_irrefl 0 hlen

theorem proper_store (h : p + len ≤ domainMaxLen) : (store p len).Proper offset stop := by
  refine ⟨⟨nofun, ?_⟩, nofun⟩
  intro i hi
  rw [writes, List.mem_range'_1] at hi
  omega

theorem Proper.mono {access : Access} {stop' : ℕ} (h : access.Proper offset stop)
    (hstop : stop ≤ stop') : access.Proper offset stop' := by
  refine ⟨⟨?_, h.1.2⟩, h.2⟩
  intro i hi
  have hread := h.1.1 i hi
  omega

end Access

namespace Tracked

/-- Stays inside, and whatever results has the property. -/
abbrev StaysInside {α : Type} (cursor : PacketCursor) (offset stop : ℕ) (R : α → Prop)
    (parser : Parser α) : Prop :=
  Inquiry.Ensures cursor.answer (Access.Proper offset stop) R parser

variable {cursor : PacketCursor} {offset stop : ℕ}

section Reads

variable {p len : ℕ}

theorem inside_readU8 (hp : offset ≤ p) (hstop : p < stop) :
    StaysInside cursor offset stop (fun byte => cursor.readU8 p = some byte) (readU8 p) :=
  Inquiry.ensures_question (Access.proper_u8 hp hstop)

theorem inside_readU16Be (hp : offset ≤ p) (hstop : p + 2 ≤ stop) :
    StaysInside cursor offset stop (fun n => cursor.readU16Be p = some n) (readU16Be p) :=
  Inquiry.ensures_question (Access.proper_u16 hp hstop)

theorem inside_readU32Be (hp : offset ≤ p) (hstop : p + 4 ≤ stop) :
    StaysInside cursor offset stop (fun n => cursor.readU32Be p = some n) (readU32Be p) :=
  Inquiry.ensures_question (Access.proper_u32 hp hstop)

theorem inside_readBytes (hlen : 0 < len) (hp : offset ≤ p) (hstop : p + len ≤ stop) :
    StaysInside cursor offset stop (fun bytes => cursor.readBytes p len = some bytes)
      (readBytes p len) :=
  Inquiry.ensures_question (Access.proper_bytes hlen hp hstop)

theorem inside_within {bound : ℕ} :
    StaysInside cursor offset stop (fun _ => p + len ≤ bound) (guard (within p len bound)) :=
  Inquiry.ensures_guard.mono fun _ => within_iff.mp

theorem inside_store {index : ℕ} (h : index + len ≤ domainMaxLen) :
    StaysInside cursor offset stop (fun _ => True) (store index len) :=
  (Inquiry.ensures_question (Access.proper_store h)).mono fun _ _ => trivial

end Reads

section Dns

theorem inside_skipAnswerName {labels p : ℕ} (hp : offset ≤ p) :
    StaysInside cursor offset stop (fun q => p ≤ q) (skipAnswerName stop labels p) := by
  induction labels generalizing p with
  | zero => exact Inquiry.ensures_failure
  | succ labels ih =>
    unfold skipAnswerName
    apply inside_within.bind
    intro _ hstart
    apply (inside_readU8 hp (by omega)).bind
    intro labelLen _
    split
    · exact Inquiry.ensures_pure (by omega)
    · split
      · apply Inquiry.ensures_guard.bind
        intro _ _
        exact Inquiry.ensures_pure (by omega)
      · apply Inquiry.ensures_guard.bind
        intro _ _
        apply (ih (by omega)).mono
        intro q hq
        omega

theorem inside_separate {name : List UInt8} :
    StaysInside cursor offset stop (fun _ => True) (separate name) := by
  unfold separate
  split
  · exact Inquiry.ensures_pure trivial
  · apply Inquiry.ensures_guard.bind
    intro _ hlen
    apply (inside_store (by omega)).bind
    intro _ _
    exact Inquiry.ensures_pure trivial

theorem inside_readQuestionName {labels p : ℕ} {name : List UInt8} (hp : offset ≤ p) :
    StaysInside cursor offset stop (fun read => p ≤ read.2) (readQuestionName stop labels p name) := by
  induction labels generalizing p name with
  | zero => exact Inquiry.ensures_failure
  | succ labels ih =>
    unfold readQuestionName
    apply inside_within.bind
    intro _ hstart
    apply (inside_readU8 hp (by omega)).bind
    intro labelLen _
    split
    · exact Inquiry.ensures_pure (by simp)
    · next hne =>
      have hpos : 0 < labelLen.toNat := Nat.pos_of_ne_zero fun h => hne (UInt8.toNat_inj.mp h)
      apply Inquiry.ensures_guard.bind
      rintro _ ⟨-, -, hlabel⟩
      rw [within_iff] at hlabel
      apply inside_separate.bind
      intro name _
      apply Inquiry.ensures_guard.bind
      intro _ hlen
      apply (inside_store hlen).bind
      intro _ _
      apply (inside_readBytes hpos (by omega) hlabel).bind
      intro label _
      apply (ih (by omega)).mono
      intro read hread
      omega

theorem inside_readRecordHeader {p : ℕ} (hp : offset ≤ p) :
    StaysInside cursor offset stop (fun _ => p + 10 ≤ stop) (readRecordHeader stop p) := by
  unfold readRecordHeader
  apply inside_within.bind
  intro _ hheader
  apply ((inside_readU16Be hp (by omega)).both ((inside_readU16Be (by omega) (by omega)).both
    ((inside_readU32Be (by omega) (by omega)).both (inside_readU16Be (by omega) (by omega))))).bind
  intro _ _
  exact Inquiry.ensures_pure hheader

theorem inside_readAddress {p : ℕ} (hp : offset ≤ p) (hstop : p + 4 ≤ stop) :
    StaysInside cursor offset stop (fun _ => True) (readAddress p) := by
  unfold readAddress
  apply ((inside_readU8 hp (by omega)).both ((inside_readU8 (by omega) (by omega)).both
    ((inside_readU8 (by omega) (by omega)).both (inside_readU8 (by omega) (by omega))))).bind
  intro _ _
  exact Inquiry.ensures_pure trivial

theorem inside_readRecord {p : ℕ} (hp : offset ≤ p) :
    StaysInside cursor offset stop (fun read => offset ≤ read.1) (readRecord stop p) := by
  unfold readRecord
  apply (inside_skipAnswerName hp).bind
  intro q hq
  apply (inside_readRecordHeader (by omega)).bind
  rintro ⟨rtype, rclass, ttl, rdlength⟩ _
  apply inside_within.bind
  intro _ hdata
  split
  · next haddress =>
    apply (inside_readAddress (by omega) (by omega)).bind
    intro _ _
    exact Inquiry.ensures_pure (by simp only; omega)
  · exact Inquiry.ensures_pure (by simp only; omega)

theorem inside_readAnswers {records p answers : ℕ} (hp : offset ≤ p) :
    StaysInside cursor offset stop (fun _ => True) (readAnswers stop records p answers) := by
  induction records generalizing p answers with
  | zero =>
    unfold readAnswers
    exact Inquiry.ensures_pure trivial
  | succ records ih =>
    cases answers with
    | zero =>
      unfold readAnswers
      exact Inquiry.ensures_pure trivial
    | succ answers =>
      unfold readAnswers
      apply (inside_readRecord hp).attempt_bind
      · rintro ⟨q, _ | answer⟩ hq
        · exact ih hq
        · apply (ih hq).bind
          intro _ _
          exact Inquiry.ensures_pure trivial
      · exact Inquiry.ensures_pure trivial

theorem inside_parseDnsResponse :
    StaysInside cursor offset stop (fun _ => True) (parseDnsResponse stop offset) := by
  unfold parseDnsResponse
  apply inside_within.bind
  intro _ hheader
  apply (inside_readU16Be (by omega) (by omega)).bind
  intro flags _
  apply Inquiry.ensures_guard.bind
  intro _ _
  apply (inside_readU16Be (by omega) (by omega)).bind
  intro questions _
  apply Inquiry.ensures_guard.bind
  intro _ _
  apply (inside_readU16Be (by omega) (by omega)).bind
  intro answers _
  apply Inquiry.ensures_guard.bind
  intro _ _
  apply (inside_readQuestionName (by omega)).bind
  rintro ⟨name, p⟩ hp
  apply Inquiry.ensures_guard.bind
  intro _ _
  apply (inside_readAnswers (by simp only at hp; omega)).bind
  intro emitted _
  exact Inquiry.ensures_pure trivial

end Dns

section Tls

theorem inside_readServerName {extensionsEnd p extensionLen : ℕ} (hp : offset ≤ p)
    (hextension : p + extensionLen ≤ extensionsEnd) (hstop : extensionsEnd ≤ stop) :
    StaysInside cursor offset stop (fun _ => True) (readServerName extensionsEnd p extensionLen) := by
  unfold readServerName
  apply Inquiry.ensures_guard.bind
  intro _ hlen
  apply (inside_readU16Be hp (by omega)).bind
  intro listLen _
  apply Inquiry.ensures_guard.bind
  intro _ _
  apply (inside_readU8 (by omega) (by omega)).bind
  intro nameType _
  apply Inquiry.ensures_guard.bind
  intro _ _
  apply (inside_readU16Be (by omega) (by omega)).bind
  intro nameLen _
  apply Inquiry.ensures_guard.bind
  rintro _ ⟨hne, hmax, hname⟩
  rw [within_iff] at hname
  have hpos : 0 < nameLen.toNat := Nat.pos_of_ne_zero fun h => hne (UInt16.toNat_inj.mp h)
  apply (inside_store (by omega)).bind
  intro _ _
  exact (inside_readBytes hpos (by omega) (by omega)).mono fun _ _ => trivial

theorem inside_readExtensions {extensionsEnd extensions p : ℕ} (hp : offset ≤ p)
    (hstop : extensionsEnd ≤ stop) :
    StaysInside cursor offset stop (fun _ => True) (readExtensions extensionsEnd extensions p) := by
  induction extensions generalizing p with
  | zero => exact Inquiry.ensures_failure
  | succ extensions ih =>
    unfold readExtensions
    apply inside_within.bind
    intro _ hstart
    apply (inside_readU16Be hp (by omega)).bind
    intro extensionType _
    apply (inside_readU16Be (by omega) (by omega)).bind
    intro extensionLen _
    apply inside_within.bind
    intro _ hextension
    split
    · exact inside_readServerName (by omega) hextension hstop
    · exact ih (by omega)

/-- All parts behind the random are inside once the first byte is. -/
theorem inside_readHelloBody {p : ℕ} (hp : offset ≤ p) (hstop : p < stop) :
    StaysInside cursor offset stop (fun body => offset ≤ body.1 ∧ body.2 ≤ stop)
      (readHelloBody stop p) := by
  unfold readHelloBody
  apply (inside_readU8 hp hstop).bind
  intro sessionLen _
  apply Inquiry.ensures_guard.bind
  intro _ _
  apply inside_within.bind
  intro _ hcipher
  apply (inside_readU16Be (by omega) hcipher).bind
  intro cipherLen _
  apply Inquiry.ensures_guard.bind
  intro _ _
  apply inside_within.bind
  intro _ hcompression
  apply (inside_readU8 (by omega) (by omega)).bind
  intro compressionLen _
  apply Inquiry.ensures_guard.bind
  intro _ _
  apply inside_within.bind
  intro _ hextensions
  apply (inside_readU16Be (by omega) hextensions).bind
  intro extensionsLen _
  apply inside_within.bind
  intro _ hend
  apply Inquiry.ensures_pure
  constructor
  · simp only
    omega
  · exact hend

end Tls

section Http

theorem inside_findCrlf {scan p : ℕ} (hp : offset ≤ p) :
    StaysInside cursor offset stop (fun crlf => offset ≤ crlf) (findCrlf stop scan p) := by
  induction scan generalizing p with
  | zero => exact Inquiry.ensures_failure
  | succ scan ih =>
    unfold findCrlf
    apply inside_within.bind
    intro _ hstart
    apply (inside_readU8 hp (by omega)).bind
    intro b0 _
    split
    · apply (inside_readU8 (by omega) (by omega)).bind
      intro b1 _
      split
      · exact Inquiry.ensures_pure hp
      · exact ih (by omega)
    · exact ih (by omega)

theorem inside_isHttpRequest :
    StaysInside cursor offset stop (fun _ => True) (isHttpRequest stop offset) := by
  unfold isHttpRequest
  apply inside_within.bind
  intro _ hstart
  apply ((inside_readU8 le_rfl (by omega)).both ((inside_readU8 (by omega) (by omega)).both
    ((inside_readU8 (by omega) (by omega)).both (inside_readU8 (by omega) (by omega))))).bind
  intro _ _
  exact Inquiry.ensures_guard.mono fun _ _ => trivial

theorem inside_headerIsHost {p : ℕ} (hp : offset ≤ p) :
    StaysInside cursor offset stop (fun _ => True) (headerIsHost stop p) := by
  unfold headerIsHost
  apply inside_within.bind
  intro _ hstart
  apply ((inside_readU8 hp (by omega)).both ((inside_readU8 (by omega) (by omega)).both
    ((inside_readU8 (by omega) (by omega)).both ((inside_readU8 (by omega) (by omega)).both
      (inside_readU8 (by omega) (by omega)))))).bind
  intro _ _
  exact Inquiry.ensures_guard.mono fun _ _ => trivial

theorem inside_skipBlanks {scan p : ℕ} (hp : offset ≤ p) :
    StaysInside cursor offset stop (fun q => offset ≤ q) (skipBlanks stop scan p) := by
  induction scan generalizing p with
  | zero => exact Inquiry.ensures_pure hp
  | succ scan ih =>
    unfold skipBlanks
    split
    · exact Inquiry.ensures_pure hp
    · next hstop =>
      apply (inside_readU8 hp (by omega)).attempt_bind
      · intro byte _
        simp only
        split
        · exact ih (by omega)
        · exact Inquiry.ensures_pure hp
      · exact Inquiry.ensures_pure hp

theorem inside_readHost {scan p : ℕ} {host : List UInt8} (hp : offset ≤ p) :
    StaysInside cursor offset stop (fun _ => True) (readHost stop scan p host) := by
  induction scan generalizing p host with
  | zero => exact Inquiry.ensures_pure trivial
  | succ scan ih =>
    unfold readHost
    split
    · exact Inquiry.ensures_pure trivial
    · next hstop =>
      apply (inside_readU8 hp (by omega)).attempt_bind
      · intro byte _
        simp only
        split
        · exact Inquiry.ensures_pure trivial
        · split
          · next hroom =>
            apply (inside_store (Nat.succ_le_of_lt hroom)).bind
            intro _ _
            exact ih (by omega)
          · exact ih (by omega)
      · exact Inquiry.ensures_pure trivial

theorem inside_readHostValue {p : ℕ} (hp : offset ≤ p) :
    StaysInside cursor offset stop (fun _ => True) (readHostValue stop p) := by
  unfold readHostValue
  apply (inside_skipBlanks hp).bind
  intro valueStart hstart
  apply (inside_readHost hstart).bind
  intro _ _
  apply Inquiry.ensures_guard.bind
  intro _ _
  exact Inquiry.ensures_pure trivial

theorem inside_notBlankLine {p : ℕ} (hp : offset ≤ p) (hstop : p + 2 ≤ stop) :
    StaysInside cursor offset stop (fun _ => True) (notBlankLine p) := by
  unfold notBlankLine
  apply (inside_readU8 hp (by omega)).bind
  intro b0 _
  split
  · apply (inside_readU8 (by omega) (by omega)).bind
    intro b1 _
    exact Inquiry.ensures_guard.mono fun _ _ => trivial
  · exact Inquiry.ensures_pure trivial

theorem inside_readHeaders {headers p : ℕ} (hp : offset ≤ p) :
    StaysInside cursor offset stop (fun _ => True) (readHeaders stop headers p) := by
  induction headers generalizing p with
  | zero => exact Inquiry.ensures_failure
  | succ headers ih =>
    unfold readHeaders
    apply inside_within.bind
    intro _ hstart
    apply (inside_notBlankLine hp (by omega)).bind
    intro _ _
    apply (inside_headerIsHost hp).attempt_bind
    · rintro ⟨⟩ _
      exact inside_readHostValue (by omega)
    · apply (inside_findCrlf hp).bind
      intro crlf hcrlf
      exact ih (by omega)

theorem inside_extractHttpHost :
    StaysInside cursor offset stop (fun _ => True) (extractHttpHost offset stop) := by
  have hscan : StaysInside cursor offset (min stop (offset + maxHttpScan)) (fun _ => True)
      (extractHttpHost offset stop) := by
    unfold extractHttpHost
    apply inside_isHttpRequest.bind
    intro _ _
    apply (inside_findCrlf le_rfl).bind
    intro crlf hcrlf
    exact inside_readHeaders (by omega)
  exact hscan.weaken fun _ haccess => haccess.mono (Nat.min_le_left ..)

end Http

end Tracked

/-! ## The first byte after the random -/

/-- A ClientHello so short that the payload ends with its random: the length of the session would
be the first byte after it. -/
structure EndsWithRandom (cursor : PacketCursor) (offset stop : ℕ) : Prop where
  ends : stop = offset + 43
  contentType : cursor.readU8 offset = some 0x16
  record : ∃ len, cursor.readU16Be (offset + 3) = some len ∧ offset + 5 + len.toNat ≤ stop
  handshakeType : cursor.readU8 (offset + 5) = some 0x01
  handshakeLen : cursor.readU8 (offset + 6) = some 0 ∧ cursor.readU8 (offset + 7) = some 0 ∧
    cursor.readU8 (offset + 8) = some 34

namespace Tracked

variable {cursor : PacketCursor} {offset stop : ℕ}

theorem inside_readHelloHead : StaysInside cursor offset stop
    (fun p => p = offset + 43 ∧ p ≤ stop ∧ (stop = p → EndsWithRandom cursor offset stop))
    (readHelloHead offset stop) := by
  unfold readHelloHead
  apply inside_within.bind
  intro _ hstart
  apply (inside_readU8 le_rfl (by omega)).bind
  intro contentType hcontent
  apply Inquiry.ensures_guard.bind
  rintro _ rfl
  apply (inside_readU16Be (by omega) (by omega)).bind
  intro recordLen hrecord
  apply Inquiry.ensures_guard.bind
  rintro _ ⟨hrecordEnd, hfour⟩
  rw [within_iff] at hrecordEnd hfour
  apply (inside_readU8 (by omega) (by omega)).bind
  intro handshakeType hhandshake
  apply Inquiry.ensures_guard.bind
  rintro _ rfl
  apply (inside_readU8 (by omega) (by omega)).bind
  intro l0 hl0
  apply (inside_readU8 (by omega) (by omega)).bind
  intro l1 hl1
  apply (inside_readU8 (by omega) (by omega)).bind
  intro l2 hl2
  apply Inquiry.ensures_guard.bind
  rintro _ ⟨hmin, hend⟩
  rw [within_iff] at hend
  apply Inquiry.ensures_pure
  refine ⟨rfl, by omega, ?_⟩
  rintro rfl
  have h0 : l0 = 0 := UInt8.toNat_inj.mp (by rw [UInt8.toNat_zero]; omega)
  have h1 : l1 = 0 := UInt8.toNat_inj.mp (by rw [UInt8.toNat_zero]; omega)
  have h2 : l2 = 34 := UInt8.toNat_inj.mp (by
    have : UInt8.toNat 34 = 34 := rfl
    omega)
  subst h0 h1 h2
  constructor
  · rfl
  · exact hcontent
  · exact ⟨recordLen, hrecord, hrecordEnd⟩
  · exact hhandshake
  · exact ⟨hl0, hl1, hl2⟩

theorem inside_extractTlsSni (h : ¬ EndsWithRandom cursor offset stop) :
    StaysInside cursor offset stop (fun _ => True) (extractTlsSni offset stop) := by
  unfold extractTlsSni
  apply inside_readHelloHead.bind
  rintro _ ⟨rfl, hle, hboundary⟩
  have hlt : offset + 43 < stop := by
    by_contra hnot
    exact h (hboundary (by omega))
  apply (inside_readHelloBody (by omega) hlt).bind
  rintro ⟨p, extensionsEnd⟩ ⟨hp, hend⟩
  exact inside_readExtensions hp hend

theorem run_readHelloHead (h : EndsWithRandom cursor offset stop) :
    (readHelloHead offset stop).run cursor.answer = some (offset + 43) := by
  obtain ⟨rfl, hcontent, ⟨len, hrecord, hend⟩, hhandshake, h0, h1, h2⟩ := h
  -- as variables, so that the length they encode is not evaluated
  obtain ⟨l0, hread0, h0⟩ : ∃ l, cursor.readU8 (offset + 5 + 1) = some l ∧ l.toNat = 0 := ⟨0, h0, rfl⟩
  obtain ⟨l1, hread1, h1⟩ : ∃ l, cursor.readU8 (offset + 5 + 2) = some l ∧ l.toNat = 0 := ⟨0, h1, rfl⟩
  obtain ⟨l2, hread2, h2⟩ : ∃ l, cursor.readU8 (offset + 5 + 3) = some l ∧ l.toNat = 34 :=
    ⟨34, h2, rfl⟩
  unfold readHelloHead
  dsimp only
  rw [Inquiry.run_guard_bind (within_iff.mpr (by omega)), run_readU8_bind hcontent,
    Inquiry.run_guard_bind rfl, run_readU16Be_bind hrecord,
    Inquiry.run_guard_bind ⟨within_iff.mpr hend, within_iff.mpr (by omega)⟩,
    run_readU8_bind hhandshake, Inquiry.run_guard_bind rfl, run_readU8_bind hread0,
    run_readU8_bind hread1, run_readU8_bind hread2,
    Inquiry.run_guard_bind ⟨by omega, within_iff.mpr (by omega)⟩]
  rfl

end Tracked

section Payload

variable {cursor : PacketCursor} {offset stop : ℕ}

/-- What the three parsers touch. -/
def parserAccesses (cursor : PacketCursor) (offset stop : ℕ) : List Access :=
  (Tracked.parseDnsResponse stop offset).asked cursor.answer ++
    (Tracked.extractTlsSni offset stop).asked cursor.answer ++
      (Tracked.extractHttpHost offset stop).asked cursor.answer

/-- The cursors hold the same bytes of the payload. -/
def SamePayload (offset stop : ℕ) (cursor cursor' : PacketCursor) : Prop :=
  ∀ access : Access, access.Proper offset stop → cursor.answer access = cursor'.answer access

theorem slice_congr {data data' : List UInt8} {p len : ℕ} (hlen : 0 < len)
    (h : ∀ i, p ≤ i → i < p + len → data[i]? = data'[i]?) :
    MemoryCursor.slice data p len = MemoryCursor.slice data' p len := by
  have hlast := h (p + len - 1) (by omega) (by omega)
  have hlength : p + len ≤ data.length ↔ p + len ≤ data'.length := by
    have hnone : data.length ≤ p + len - 1 ↔ data'.length ≤ p + len - 1 := by
      rw [← List.getElem?_eq_none_iff, hlast, List.getElem?_eq_none_iff]
    omega
  have hbytes : (data.drop p).take len = (data'.drop p).take len := by
    apply List.ext_getElem?
    intro i
    rw [List.getElem?_take, List.getElem?_take, List.getElem?_drop, List.getElem?_drop]
    split
    · exact h (p + i) (by omega) (by omega)
    · rfl
  unfold MemoryCursor.slice
  simp only [hlength, hbytes]

/-- Slices of memory that agree within the payload. -/
theorem samePayload_memoryCursor {data data' : List UInt8}
    (h : ∀ i, offset ≤ i → i < stop → data[i]? = data'[i]?) :
    SamePayload offset stop (memoryCursor data) (memoryCursor data') := by
  have hslice {p len : ℕ} (hlen : 0 < len)
      (hinside : ∀ i ∈ List.range' p len, offset ≤ i ∧ i < stop) :
      MemoryCursor.slice data p len = MemoryCursor.slice data' p len :=
    slice_congr hlen fun i hp hlt =>
      (hinside i (List.mem_range'_1.mpr ⟨hp, hlt⟩)).elim (h i)
  rintro access ⟨hinside, hproper⟩
  cases access with
  | u8 p =>
    obtain ⟨hp, hstop⟩ := Access.inside_u8.mp hinside
    exact h p hp hstop
  | u16 p =>
    exact congrArg (Option.map fun bytes => UInt16.ofNat (MemoryCursor.ofBeBytes bytes))
      (hslice Nat.two_pos hinside.1)
  | u32 p =>
    exact congrArg (Option.map fun bytes => UInt32.ofNat (MemoryCursor.ofBeBytes bytes))
      (hslice four_pos hinside.1)
  | bytes p len =>
    have hlen : 0 < len := Nat.pos_of_ne_zero fun h => hproper p (h ▸ rfl)
    exact hslice hlen hinside.1
  | store => rfl

theorem not_extractTlsSni (h : EndsWithRandom cursor offset stop) :
    extractTlsSni cursor offset stop = none := by
  rw [Option.eq_none_iff_forall_ne_some]
  intro name hname
  obtain ⟨layout, -, hchecked, -⟩ := extractTlsSni_eq_some.mp hname
  have hends := h.ends
  have hextensions := hchecked.extensions
  simp only [HelloLayout.extensionsEnd, HelloLayout.extensionsStart, HelloLayout.compressionStart,
    HelloLayout.cipherStart, HelloLayout.sessionStart] at hextensions
  omega

theorem EndsWithRandom.of_samePayload {cursor' : PacketCursor} (h : EndsWithRandom cursor offset stop)
    (hsame : SamePayload offset stop cursor cursor') : EndsWithRandom cursor' offset stop := by
  obtain ⟨rfl, hcontent, ⟨len, hrecord, hend⟩, hhandshake, h0, h1, h2⟩ := h
  have hread (p : ℕ) (hp : offset ≤ p) (hstop : p < offset + 43) : cursor.readU8 p = cursor'.readU8 p :=
    hsame (.u8 p) (Access.proper_u8 hp hstop)
  have hlen : cursor.readU16Be (offset + 3) = cursor'.readU16Be (offset + 3) :=
    hsame (.u16 (offset + 3)) (Access.proper_u16 (by omega) (by omega))
  constructor
  · rfl
  · rwa [← hread offset le_rfl (by omega)]
  · exact ⟨len, hlen ▸ hrecord, hend⟩
  · rwa [← hread _ (by omega) (by omega)]
  · rw [← hread _ (by omega) (by omega), ← hread _ (by omega) (by omega),
      ← hread _ (by omega) (by omega)]
    exact ⟨h0, h1, h2⟩

/-- What is extracted depends on the payload only. -/
theorem parsers_congr {cursor' : PacketCursor} (hsame : SamePayload offset stop cursor cursor') :
    parseDnsResponse cursor stop offset = parseDnsResponse cursor' stop offset ∧
      extractTlsSni cursor offset stop = extractTlsSni cursor' offset stop ∧
      extractHttpHost cursor offset stop = extractHttpHost cursor' offset stop := by
  have hrun {α : Type} {R : α → Prop} {parser : Tracked.Parser α}
      (h : Tracked.StaysInside cursor offset stop R parser) :
      parser.run cursor.answer = parser.run cursor'.answer :=
    (Inquiry.run_congr fun access haccess => hsame access (h.asks access haccess)).1
  constructor
  · rw [← Tracked.run_parseDnsResponse, ← Tracked.run_parseDnsResponse,
      hrun Tracked.inside_parseDnsResponse]
  constructor
  · by_cases hboundary : EndsWithRandom cursor offset stop
    · rw [not_extractTlsSni hboundary, not_extractTlsSni (hboundary.of_samePayload hsame)]
    · rw [← Tracked.run_extractTlsSni, ← Tracked.run_extractTlsSni,
        hrun (Tracked.inside_extractTlsSni hboundary)]
  · rw [← Tracked.run_extractHttpHost, ← Tracked.run_extractHttpHost,
      hrun Tracked.inside_extractHttpHost]

theorem reads_after_random (h : EndsWithRandom cursor offset stop) :
    Access.u8 stop ∈ parserAccesses cursor offset stop := by
  apply List.mem_append_left
  apply List.mem_append_right
  unfold Tracked.extractTlsSni
  rw [Inquiry.asked_bind, Tracked.run_readHelloHead h, h.ends]
  apply List.mem_append_right
  exact List.mem_cons_self

/-- The parsers read the payload only, write to the buffer only and return what depends on the payload
only, if and only if no ClientHello ends with its random where the payload does. -/
theorem parsers_stay_inside_iff (cursor : PacketCursor) (offset stop : ℕ) :
    ((∀ access ∈ parserAccesses cursor offset stop, access.Inside offset stop) ∧
      ∀ cursor', SamePayload offset stop cursor cursor' →
        parseDnsResponse cursor stop offset = parseDnsResponse cursor' stop offset ∧
          extractTlsSni cursor offset stop = extractTlsSni cursor' offset stop ∧
          extractHttpHost cursor offset stop = extractHttpHost cursor' offset stop) ↔
      ¬ EndsWithRandom cursor offset stop := by
  constructor
  · rintro ⟨hinside, -⟩ h
    have hstop := Access.inside_u8.mp (hinside _ (reads_after_random h))
    omega
  · intro h
    constructor
    · intro access haccess
      rcases List.mem_append.mp haccess with haccess | hhttp
      · rcases List.mem_append.mp haccess with hdns | htls
        · exact (Tracked.inside_parseDnsResponse.asks access hdns).1
        · exact ((Tracked.inside_extractTlsSni h).asks access htls).1
      · exact (Tracked.inside_extractHttpHost.asks access hhttp).1
    · intro cursor' hsame
      exact parsers_congr hsame

/-- A ClientHello of 43 bytes, and behind the payload another byte. -/
def shortHello : List UInt8 :=
  [0x16, 3, 1, 0, 38, 1, 0, 0, 34, 3, 3] ++ List.replicate 32 0 ++ [7]

theorem shortHello_ends : EndsWithRandom (memoryCursor shortHello) 0 43 := by
  constructor
  · rfl
  · decide +kernel
  · exact ⟨38, by decide +kernel, by decide⟩
  · decide +kernel
  · decide +kernel

/-- The byte behind the payload is read. -/
theorem short_hello_read_beyond : ¬ ∀ (cursor : PacketCursor) (offset stop : ℕ),
    ((∀ access ∈ parserAccesses cursor offset stop, access.Inside offset stop) ∧
      ∀ cursor', SamePayload offset stop cursor cursor' →
        parseDnsResponse cursor stop offset = parseDnsResponse cursor' stop offset ∧
          extractTlsSni cursor offset stop = extractTlsSni cursor' offset stop ∧
          extractHttpHost cursor offset stop = extractHttpHost cursor' offset stop) := by
  intro hall
  have hstop := Access.inside_u8.mp ((hall _ _ _).1 _ (reads_after_random shortHello_ends))
  omega

end Payload

end ZimaScope
