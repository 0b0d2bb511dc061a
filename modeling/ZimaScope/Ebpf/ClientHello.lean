import ZimaScope.Ebpf.Domain

/-! # The lengths of a ClientHello

Where the length fields of a ClientHello put its parts, what the parser compares them
with, and which of the comparisons it leaves out.
-/

namespace ZimaScope

/-- The lengths in a ClientHello up to a server name; `extension` is the position of the data of the
`server_name` extension, behind `skipped` others. -/
structure HelloLayout where
  recordLen : ℕ
  handshakeLen : ℕ
  sessionLen : ℕ
  cipherLen : ℕ
  compressionLen : ℕ
  extensionsLen : ℕ
  skipped : ℕ
  extension : ℕ
  extensionLen : ℕ
  listLen : ℕ
  nameLen : ℕ
  name : List UInt8

namespace HelloLayout

variable (layout : HelloLayout) (offset stop : ℕ)

def recordEnd : ℕ := offset + 5 + layout.recordLen

def handshakeEnd : ℕ := offset + 9 + layout.handshakeLen

/-- The end of version and random. -/
def sessionStart : ℕ := offset + 43

def cipherStart : ℕ := sessionStart offset + 1 + layout.sessionLen

def compressionStart : ℕ := layout.cipherStart offset + 2 + layout.cipherLen

def extensionsStart : ℕ := layout.compressionStart offset + 1 + layout.compressionLen

def extensionsEnd : ℕ := layout.extensionsStart offset + 2 + layout.extensionsLen

def listEnd : ℕ := layout.extension + 2 + layout.listLen

def nameEnd : ℕ := layout.extension + 5 + layout.nameLen

end HelloLayout

section Hello

variable (cursor : PacketCursor)

/-- From a position on, `skipped` extensions and then the data of a `server_name` extension. -/
inductive ServerNameAt : ℕ → ℕ → ℕ → ℕ → Prop
  | here {p : ℕ} {len : UInt16} (htype : cursor.readU16Be p = some 0)
      (hlen : cursor.readU16Be (p + 2) = some len) : ServerNameAt p 0 (p + 4) len.toNat
  | skip {p skipped extension extensionLen : ℕ} {type len : UInt16}
      (htype : cursor.readU16Be p = some type) (hother : type ≠ 0)
      (hlen : cursor.readU16Be (p + 2) = some len)
      (hrest : ServerNameAt (p + 4 + len.toNat) skipped extension extensionLen) :
      ServerNameAt p (skipped + 1) extension extensionLen

/-- The bytes from `offset` on are a ClientHello with these lengths, by what its fields say. -/
structure HelloAt (offset : ℕ) (layout : HelloLayout) : Prop where
  contentType : cursor.readU8 offset = some 0x16
  recordLen : (cursor.readU16Be (offset + 3)).map UInt16.toNat = some layout.recordLen
  handshakeType : cursor.readU8 (offset + 5) = some 0x01
  handshakeLen : ∃ l0 l1 l2, cursor.readU8 (offset + 6) = some l0 ∧
    cursor.readU8 (offset + 7) = some l1 ∧ cursor.readU8 (offset + 8) = some l2 ∧
    layout.handshakeLen = l0.toNat * 65536 + l1.toNat * 256 + l2.toNat
  sessionLen : (cursor.readU8 (HelloLayout.sessionStart offset)).map UInt8.toNat =
    some layout.sessionLen
  cipherLen : (cursor.readU16Be (layout.cipherStart offset)).map UInt16.toNat = some layout.cipherLen
  compressionLen : (cursor.readU8 (layout.compressionStart offset)).map UInt8.toNat =
    some layout.compressionLen
  extensionsLen : (cursor.readU16Be (layout.extensionsStart offset)).map UInt16.toNat =
    some layout.extensionsLen
  serverName : ServerNameAt cursor (layout.extensionsStart offset + 2) layout.skipped layout.extension
    layout.extensionLen
  listLen : (cursor.readU16Be layout.extension).map UInt16.toNat = some layout.listLen
  nameType : cursor.readU8 (layout.extension + 2) = some 0
  nameLen : (cursor.readU16Be (layout.extension + 3)).map UInt16.toNat = some layout.nameLen
  name : cursor.readBytes (layout.extension + 5) layout.nameLen = some layout.name

end Hello

/-- What the parser compares. -/
structure HelloLayout.Checked (layout : HelloLayout) (offset stop : ℕ) : Prop where
  recordStart : offset + 9 ≤ stop
  record : layout.recordEnd offset ≤ stop
  handshakeLen : 34 ≤ layout.handshakeLen
  handshake : layout.handshakeEnd offset ≤ stop
  extensions : layout.extensionsEnd offset ≤ stop
  skipped : layout.skipped < maxTlsExtensions
  extension : layout.extension + layout.extensionLen ≤ layout.extensionsEnd offset
  extensionLen : 5 ≤ layout.extensionLen
  list : layout.listEnd ≤ layout.extension + layout.extensionLen
  nameLen : layout.nameLen ≠ 0 ∧ layout.nameLen ≤ domainMaxLen
  name : layout.nameEnd ≤ layout.extensionsEnd offset

/-- What it does not compare. -/
structure HelloLayout.Unchecked (layout : HelloLayout) (offset : ℕ) : Prop where
  handshake : layout.handshakeEnd offset ≤ layout.recordEnd offset
  extensions : layout.extensionsEnd offset ≤ layout.handshakeEnd offset
  name : layout.nameEnd ≤ layout.listEnd

/-- Every part lies within the part around it. -/
structure HelloLayout.Nested (layout : HelloLayout) (offset stop : ℕ) : Prop where
  record : layout.recordEnd offset ≤ stop
  handshake : layout.handshakeEnd offset ≤ layout.recordEnd offset
  extensions : layout.extensionsEnd offset ≤ layout.handshakeEnd offset
  extension : layout.extension + layout.extensionLen ≤ layout.extensionsEnd offset
  list : layout.listEnd ≤ layout.extension + layout.extensionLen
  name : layout.nameEnd ≤ layout.listEnd

/-! ## The parts read -/

section Read

variable {cursor : PacketCursor} {offset stop : ℕ}

theorem ServerNameAt.eq {p skipped extension extensionLen : ℕ}
    (h : ServerNameAt cursor p skipped extension extensionLen) {skipped' extension' extensionLen' : ℕ}
    (h' : ServerNameAt cursor p skipped' extension' extensionLen') :
    skipped = skipped' ∧ extension = extension' ∧ extensionLen = extensionLen' := by
  induction h generalizing skipped' with
  | here htype hlen =>
    cases h' with
    | here htype' hlen' => simp_all
    | skip htype' hother hlen' hrest => simp_all
  | skip htype hother hlen hrest ih =>
    cases h' with
    | here htype' hlen' => simp_all
    | skip htype' hother' hlen' hrest' =>
      rw [hlen] at hlen'
      obtain rfl := Option.some.inj hlen'
      obtain ⟨rfl, rfl, rfl⟩ := ih hrest'
      exact ⟨rfl, rfl, rfl⟩

/-- An extension starts within whatever its data ends within. -/
theorem ServerNameAt.le {p skipped extension extensionLen : ℕ}
    (h : ServerNameAt cursor p skipped extension extensionLen) : p + 4 ≤ extension := by
  induction h with
  | here => exact le_rfl
  | skip htype hother hlen hrest ih => omega

/-- The fields of a ClientHello say all its lengths. -/
theorem HelloAt.eq {layout layout' : HelloLayout} (h : HelloAt cursor offset layout)
    (h' : HelloAt cursor offset layout') : layout = layout' := by
  obtain ⟨-, hrecord, -, ⟨l0, l1, l2, h0, h1, h2, hhandshake⟩, hsession, hcipher, hcompression,
    hextensions, hserver, hlist, -, hlen, hname⟩ := h
  obtain ⟨-, hrecord', -, ⟨l0', l1', l2', h0', h1', h2', hhandshake'⟩, hsession', hcipher',
    hcompression', hextensions', hserver', hlist', -, hlen', hname'⟩ := h'
  cases layout with
  | mk recordLen handshakeLen sessionLen cipherLen compressionLen extensionsLen skipped extension
      extensionLen listLen nameLen name =>
    cases layout' with
    | mk recordLen' handshakeLen' sessionLen' cipherLen' compressionLen' extensionsLen' skipped'
        extension' extensionLen' listLen' nameLen' name' =>
      simp only at *
      obtain rfl := Option.some.inj (hrecord.symm.trans hrecord')
      obtain rfl := Option.some.inj (h0.symm.trans h0')
      obtain rfl := Option.some.inj (h1.symm.trans h1')
      obtain rfl := Option.some.inj (h2.symm.trans h2')
      obtain rfl := Option.some.inj (hsession.symm.trans hsession')
      obtain rfl := Option.some.inj (hcipher.symm.trans hcipher')
      obtain rfl := Option.some.inj (hcompression.symm.trans hcompression')
      obtain rfl := Option.some.inj (hextensions.symm.trans hextensions')
      obtain ⟨rfl, rfl, rfl⟩ := hserver.eq hserver'
      obtain rfl := Option.some.inj (hlist.symm.trans hlist')
      obtain rfl := Option.some.inj (hlen.symm.trans hlen')
      obtain rfl := Option.some.inj (hname.symm.trans hname')
      rw [hhandshake, hhandshake']

theorem readServerName_eq_some {extensionsEnd p extensionLen : ℕ} {name : List UInt8} :
    readServerName cursor extensionsEnd p extensionLen = some name ↔
      ∃ listLen nameLen : ℕ, 5 ≤ extensionLen ∧
        (cursor.readU16Be p).map UInt16.toNat = some listLen ∧ listLen + 2 ≤ extensionLen ∧
        cursor.readU8 (p + 2) = some 0 ∧
        (cursor.readU16Be (p + 3)).map UInt16.toNat = some nameLen ∧
        (nameLen ≠ 0 ∧ nameLen ≤ domainMaxLen) ∧ p + 5 + nameLen ≤ extensionsEnd ∧
        cursor.readBytes (p + 5) nameLen = some name := by
  unfold readServerName
  simp only [Option.bind_eq_bind, Option.bind_eq_some_iff, Option.guard_eq_some', exists_const, within_iff]
  constructor
  · rintro ⟨h5, listLen, hlist, hfit, type, htype, rfl, nameLen, hname, ⟨hzero, hmax, hinside⟩, hbytes⟩
    refine ⟨listLen.toNat, nameLen.toNat, h5, by rw [hlist]; rfl, hfit, htype, by rw [hname]; rfl,
      ⟨?_, hmax⟩, hinside, hbytes⟩
    intro h
    exact hzero (UInt16.toNat_inj.mp h)
  · rintro ⟨listLen, nameLen, h5, hlist, hfit, htype, hname, ⟨hzero, hmax⟩, hinside, hbytes⟩
    obtain ⟨list, hread, rfl⟩ := Option.map_eq_some_iff.mp hlist
    obtain ⟨len, hread', rfl⟩ := Option.map_eq_some_iff.mp hname
    refine ⟨h5, list, hread, hfit, 0, htype, rfl, len, hread', ⟨?_, hmax, hinside⟩, hbytes⟩
    rintro rfl
    exact hzero rfl

/-- The extensions are searched for the first `server_name` within the bound. -/
theorem readExtensions_eq_some {extensionsEnd n p : ℕ} {name : List UInt8} :
    readExtensions cursor extensionsEnd n p = some name ↔
      ∃ skipped extension extensionLen, ServerNameAt cursor p skipped extension extensionLen ∧
        skipped < n ∧ extension + extensionLen ≤ extensionsEnd ∧
        readServerName cursor extensionsEnd extension extensionLen = some name := by
  induction n generalizing p with
  | zero => simp [readExtensions]
  | succ n ih =>
    unfold readExtensions
    simp only [Option.bind_eq_bind, Option.bind_eq_some_iff, Option.guard_eq_some', exists_const, within_iff]
    constructor
    · rintro ⟨-, type, htype, len, hlen, hinside, h⟩
      by_cases hserver : type = 0
      · obtain rfl := hserver
        rw [if_pos rfl] at h
        exact ⟨0, p + 4, len.toNat, .here htype hlen, Nat.succ_pos n, hinside, h⟩
      · rw [if_neg hserver, ih] at h
        obtain ⟨skipped, extension, extensionLen, hat, hlt, hfit, hname⟩ := h
        exact ⟨skipped + 1, extension, extensionLen, .skip htype hserver hlen hat,
          Nat.succ_lt_succ hlt, hfit, hname⟩
    · rintro ⟨skipped, extension, extensionLen, hat, hlt, hfit, hname⟩
      cases hat with
      | here htype hlen =>
        refine ⟨by omega, 0, htype, _, hlen, hfit, ?_⟩
        rw [if_pos rfl]
        exact hname
      | @skip _ skipped _ _ type len htype hother hlen hrest =>
        have hle := hrest.le
        refine ⟨by omega, type, htype, len, hlen, by omega, ?_⟩
        rw [if_neg hother, ih]
        exact ⟨skipped, extension, extensionLen, hrest, Nat.lt_of_succ_lt_succ hlt, hfit, hname⟩

/-- The parser returns the name of the ClientHello whose lengths it has compared. -/
theorem extractTlsSni_eq_some {name : List UInt8} : extractTlsSni cursor offset stop = some name ↔
    ∃ layout, HelloAt cursor offset layout ∧ layout.Checked offset stop ∧ layout.name = name := by
  unfold extractTlsSni
  simp only [Option.bind_eq_bind, Option.bind_eq_some_iff, Option.guard_eq_some', exists_const,
    within_iff, readExtensions_eq_some, readServerName_eq_some]
  constructor
  · rintro ⟨-, type, htype, rfl, recordLen, hrecord, ⟨hrecordEnd, hstart⟩, handshake, hhandshake, rfl,
      l0, h0, l1, h1, l2, h2, ⟨h34, hhandshakeEnd⟩, sessionLen, hsession, -, -, cipherLen, hcipher, -, -,
      compressionLen, hcompression, -, -, extensionsLen, hextensions, hextensionsEnd, skipped,
      extension, extensionLen, hat, hlt, hfit, listLen, nameLen, h5, hlist, hlistEnd, hnameType, hnameLen,
      hmax, hnameEnd, hname⟩
    refine ⟨⟨recordLen.toNat, l0.toNat * 65536 + l1.toNat * 256 + l2.toNat, sessionLen.toNat,
      cipherLen.toNat, compressionLen.toNat, extensionsLen.toNat, skipped, extension, extensionLen,
      listLen, nameLen, name⟩, ?_, ?_, rfl⟩
    · constructor
      case handshakeLen => exact ⟨l0, l1, l2, h0, h1, h2, rfl⟩
      case serverName => exact hat
      all_goals simp_all [HelloLayout.sessionStart, HelloLayout.cipherStart,
        HelloLayout.compressionStart, HelloLayout.extensionsStart]
    · constructor
      case recordStart => exact hstart
      case handshakeLen => exact h34
      case extension => exact hfit
      case skipped => exact hlt
      case extensionLen => exact h5
      case nameLen => exact hmax
      all_goals
        simp only [HelloLayout.recordEnd, HelloLayout.handshakeEnd, HelloLayout.extensionsEnd,
          HelloLayout.listEnd, HelloLayout.nameEnd, HelloLayout.extensionsStart,
          HelloLayout.compressionStart, HelloLayout.cipherStart, HelloLayout.sessionStart]
        omega
  · rintro ⟨⟨recordLen, handshakeLen, sessionLen, cipherLen, compressionLen, extensionsLen, skipped,
      extension, extensionLen, listLen, nameLen, name⟩, hat, hchecked, rfl⟩
    have hserver := hat.serverName.le
    obtain ⟨record, hrecord, rfl⟩ := Option.map_eq_some_iff.mp hat.recordLen
    obtain ⟨l0, l1, l2, h0, h1, h2, rfl⟩ := hat.handshakeLen
    obtain ⟨session, hsession, rfl⟩ := Option.map_eq_some_iff.mp hat.sessionLen
    obtain ⟨cipher, hcipher, rfl⟩ := Option.map_eq_some_iff.mp hat.cipherLen
    obtain ⟨compression, hcompression, rfl⟩ := Option.map_eq_some_iff.mp hat.compressionLen
    obtain ⟨extensions, hextensions, rfl⟩ := Option.map_eq_some_iff.mp hat.extensionsLen
    obtain ⟨hstart, hrecordEnd, h34, hhandshakeEnd, hextensionsEnd, hskipped, hextension, h5, hlistEnd,
      hmax, hnameEnd⟩ := hchecked
    simp only [HelloLayout.recordEnd, HelloLayout.handshakeEnd, HelloLayout.extensionsEnd,
      HelloLayout.listEnd, HelloLayout.nameEnd, HelloLayout.extensionsStart,
      HelloLayout.compressionStart, HelloLayout.cipherStart, HelloLayout.sessionStart] at *
    refine ⟨by omega, 0x16, hat.contentType, rfl, record, hrecord, ⟨hrecordEnd, by omega⟩, 0x01,
      hat.handshakeType, rfl, l0, h0, l1, h1, l2, h2, ⟨h34, by omega⟩, session, hsession, by omega,
      by omega, cipher, hcipher, by omega, by omega, compression, hcompression, by omega, by omega,
      extensions, hextensions, by omega, skipped, extension, extensionLen, hat.serverName, hskipped,
      hextension, listLen, nameLen, h5, hat.listLen, by omega, hat.nameType, hat.nameLen, hmax, hnameEnd,
      hat.name⟩

/-- The parts that are compared and those that are not make a nested ClientHello. -/
theorem HelloLayout.Checked.nested_iff {layout : HelloLayout} (h : layout.Checked offset stop) :
    layout.Nested offset stop ↔ layout.Unchecked offset := by
  constructor
  · intro hnested
    exact ⟨hnested.handshake, hnested.extensions, hnested.name⟩
  · intro hunchecked
    exact ⟨h.record, hunchecked.handshake, hunchecked.extensions, h.extension, h.list, hunchecked.name⟩

/-- A name is returned only out of nested parts if and only if the parts that are not compared, the
handshake in its record, the extensions in the handshake and the name in its list, are nested too
where all compared ones are. -/
theorem sni_nested_iff (cursor : PacketCursor) (offset stop : ℕ) :
    (∀ name, extractTlsSni cursor offset stop = some name → ∃ layout, HelloAt cursor offset layout ∧
        layout.Nested offset stop ∧ layout.name = name) ↔
      ∀ layout, HelloAt cursor offset layout → layout.Checked offset stop → layout.Unchecked offset := by
  constructor
  · intro h layout hat hchecked
    obtain ⟨layout', hat', hnested, -⟩ :=
      h layout.name (extractTlsSni_eq_some.mpr ⟨layout, hat, hchecked, rfl⟩)
    obtain rfl := hat.eq hat'
    exact hchecked.nested_iff.mp hnested
  · intro h name hname
    obtain ⟨layout, hat, hchecked, hlayout⟩ := extractTlsSni_eq_some.mp hname
    exact ⟨layout, hat, hchecked.nested_iff.mpr (h layout hat hchecked), hlayout⟩

end Read

/-! ## A name beyond its list -/

/-- A ClientHello whose `server_name` extension holds an empty list, and behind it the length of a
name that lies outside the extension too. -/
def strayName : List UInt8 :=
  [0x16, 3, 1, 0, 56, 1, 0, 0, 52, 3, 3] ++ List.replicate 32 0 ++ [0, 0, 0, 0, 0, 12] ++
    [0, 0, 0, 5, 0, 0, 0, 0, 3] ++ [97, 98, 99]

def strayLayout : HelloLayout := ⟨56, 52, 0, 0, 0, 12, 0, 53, 5, 0, 3, [97, 98, 99]⟩

theorem strayName_layout : HelloAt (memoryCursor strayName) 0 strayLayout := by
  constructor
  case handshakeLen => exact ⟨0, 0, 52, by decide +kernel, by decide +kernel, by decide +kernel, rfl⟩
  case serverName =>
    have htype : (memoryCursor strayName).readU16Be 49 = some 0 := by decide +kernel
    have hlen : (memoryCursor strayName).readU16Be 51 = some 5 := by decide +kernel
    exact .here htype hlen
  all_goals decide +kernel

/-- The name is returned, though its list has ended before it. -/
theorem name_outside_list : ¬ ∀ (data : List UInt8) (offset stop : ℕ) (name : List UInt8),
    extractTlsSni (memoryCursor data) offset stop = some name →
      ∃ layout, HelloAt (memoryCursor data) offset layout ∧ layout.Nested offset stop ∧
        layout.name = name := by
  intro hall
  have hname : extractTlsSni (memoryCursor strayName) 0 61 = some [97, 98, 99] := by decide +kernel
  obtain ⟨layout, hat, hnested, -⟩ := hall strayName 0 61 _ hname
  obtain rfl := hat.eq strayName_layout
  have houtside : ¬ strayLayout.nameEnd ≤ strayLayout.listEnd := by decide
  exact houtside hnested.name

end ZimaScope
