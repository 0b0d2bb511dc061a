import Mathlib.Data.String.Basic
import Mathlib.Tactic.IntervalCases
import ZimaScope.Collector.Fingerprint
import ZimaScope.Lib.Pairs

/-! # Hex patterns

The patterns of an uploaded library are written in hexadecimal digits. They are read exactly,
except that the number parser takes a plus sign for the first digit of a byte.
-/

namespace ZimaScope

namespace Fingerprint

/-- An ASCII hexadecimal digit. -/
def IsHexDigit (c : Char) : Prop := c ∈ "0123456789abcdefABCDEF".toList

instance : DecidablePred IsHexDigit := fun c =>
  inferInstanceAs (Decidable (c ∈ "0123456789abcdefABCDEF".toList))

/-- The digit of a number below 16, in either case. -/
def IsDigitOf (c : Char) (n : ℕ) : Prop := c = Nat.digitChar n ∨ c = (Nat.digitChar n).toUpper

instance {c : Char} {n : ℕ} : Decidable (IsDigitOf c n) :=
  inferInstanceAs (Decidable (c = Nat.digitChar n ∨ c = (Nat.digitChar n).toUpper))

/-- The two digits of a byte. -/
def SpellsByte (high low : Char) (byte : UInt8) : Prop :=
  IsDigitOf high (byte.toNat / 16) ∧ IsDigitOf low (byte.toNat % 16)

instance {high low : Char} {byte : UInt8} : Decidable (SpellsByte high low byte) :=
  inferInstanceAs (Decidable (_ ∧ _))

/-- The string without whitespace. -/
def compact (value : String) : List Char := value.toList.filter fun char => !isWhiteSpace char

/-- The digits of the bytes, in any case and with whitespace between them. -/
def Spells (value : String) (bytes : List UInt8) : Prop :=
  ReadsPairs SpellsByte (compact value) bytes

/-- An even number of digits. -/
def HexText (value : String) : Prop :=
  (compact value).length % 2 = 0 ∧ ∀ c ∈ compact value, IsHexDigit c

/-- What has an even number of digits is accepted, nothing else is, and it is read as the bytes that
the digits spell. -/
structure ReadExactly (context value : String) : Prop where
  accepted : (parseHex context value).isOk = true ↔ HexText value
  denoted : ∀ bytes, parseHex context value = .ok bytes → Spells value bytes

/-- Pairs of digits, in some of which a plus sign stands for the first one. -/
def SignedPairs (value : String) : Prop :=
  InPairs (fun high low => (IsHexDigit high ∨ high = '+') ∧ IsHexDigit low) (compact value) ∧
    '+' ∈ compact value

/-- The hex patterns of a document. -/
def LibraryDocument.patterns (document : LibraryDocument) : List String :=
  document.rules.flatMap fun rule => rule.predicates.filterMap fun spec =>
    match spec with
    | .bytes _ hex => some hex
    | _ => none

/-! ## Digits -/

section Digits

variable {c high low : Char} {n : ℕ} {byte : UInt8}

/-- `to_digit` knows the digits and no other character. -/
theorem isHexDigit_of_hexDigit (h : hexDigit c = some n) : IsHexDigit c := by
  have hrange := toNat_of_hexDigit h
  rw [← Char.ofNat_toNat c]
  generalize c.toNat = code at hrange
  rcases hrange with ⟨hle, hge⟩ | ⟨hle, hge⟩ | ⟨hle, hge⟩
  all_goals
    interval_cases code
    all_goals decide

theorem exists_hexDigit_iff : (∃ n, hexDigit c = some n) ↔ IsHexDigit c := by
  refine ⟨fun ⟨n, h⟩ => isHexDigit_of_hexDigit h, fun h => ?_⟩
  have hall : "0123456789abcdefABCDEF".toList.all (fun c => (hexDigit c).isSome) = true := by decide
  exact Option.isSome_iff_exists.mp (List.all_eq_true.mp hall c h)

theorem hexDigit_eq_some_iff : hexDigit c = some n ↔ n < 16 ∧ IsDigitOf c n := by
  constructor
  · intro h
    have hall : "0123456789abcdefABCDEF".toList.all (fun c =>
        (hexDigit c).all fun n => decide (n < 16 ∧ IsDigitOf c n)) = true := by decide
    have hdigit := List.all_eq_true.mp hall c (isHexDigit_of_hexDigit h)
    rw [h, Option.all_some] at hdigit
    exact of_decide_eq_true hdigit
  · rintro ⟨hn, rfl | rfl⟩
    · interval_cases n
      all_goals decide
    · interval_cases n
      all_goals decide

/-- The byte of two digits. -/
theorem spellsByte_iff : SpellsByte high low byte ↔
    ∃ n m, hexDigit high = some n ∧ hexDigit low = some m ∧ byte = .ofNat (16 * n + m) := by
  have hlt := byte.toNat_lt
  constructor
  · rintro ⟨hhigh, hlow⟩
    refine ⟨_, _, hexDigit_eq_some_iff.mpr ⟨by omega, hhigh⟩,
      hexDigit_eq_some_iff.mpr ⟨Nat.mod_lt _ (by decide), hlow⟩, ?_⟩
    rw [Nat.div_add_mod, UInt8.ofNat_toNat]
  · rintro ⟨n, m, hhigh, hlow, rfl⟩
    obtain ⟨hn, hhigh⟩ := hexDigit_eq_some_iff.mp hhigh
    obtain ⟨hm, hlow⟩ := hexDigit_eq_some_iff.mp hlow
    have hbyte : (UInt8.ofNat (16 * n + m)).toNat = 16 * n + m := by
      rw [UInt8.toNat_ofNat', Nat.mod_eq_of_lt (by omega)]
    unfold SpellsByte
    rw [hbyte, show (16 * n + m) / 16 = n by omega, show (16 * n + m) % 16 = m by omega]
    exact ⟨hhigh, hlow⟩

/-! ## The number parser -/

/-- The text behind a plus sign that digits follow. -/
def unsigned : List Char → List Char
  | '+' :: digit :: rest => digit :: rest
  | text => text

def valueOf (digits : List ℕ) : ℕ := digits.foldl (fun value digit => 16 * value + digit) 0

theorem unsigned_eq_self {text : List Char} (h : ∀ digit rest, text ≠ '+' :: digit :: rest) :
    unsigned text = text := by
  unfold unsigned
  split
  · next digit rest => exact absurd rfl (h digit rest)
  · rfl

theorem valueOf_one (n : ℕ) : valueOf [n] = n := by
  simp [valueOf]

theorem valueOf_two (n m : ℕ) : valueOf [n, m] = 16 * n + m := by
  simp [valueOf]

theorem u8FromHex_eq_some_iff {text : List Char} : u8FromHex text = some byte ↔
    unsigned text ≠ [] ∧ ∃ digits,
      List.Forall₂ (fun c n => hexDigit c = some n) (unsigned text) digits ∧
        valueOf digits < 256 ∧ byte = .ofNat (valueOf digits) := by
  have hunfold : u8FromHex text = (do
      guard (unsigned text ≠ [])
      let digits ← (unsigned text).mapM hexDigit
      guard (valueOf digits < 256)
      return .ofNat (valueOf digits)) := by
    unfold u8FromHex
    split
    · rfl
    · next hne =>
      rw [unsigned_eq_self hne]
      rfl
  rw [hunfold, Option.bind_eq_bind, Option.bind_eq_some_iff]
  simp only [Option.guard_eq_some', exists_const, Option.bind_eq_bind, Option.bind_eq_some_iff,
    mapM_eq_some_iff, Option.pure_def, Option.some.injEq, eq_comm (a := byte)]

theorem u8FromHex_pair (hplus : high ≠ '+') :
    u8FromHex [high, low] = some byte ↔ SpellsByte high low byte := by
  have hunsigned : unsigned [high, low] = [high, low] :=
    unsigned_eq_self fun _ _ heq => hplus (List.cons.inj heq).1
  rw [u8FromHex_eq_some_iff, hunsigned, spellsByte_iff]
  constructor
  · rintro ⟨-, _, hdigits, -, rfl⟩
    cases hdigits with
    | cons hhigh hdigits =>
      cases hdigits with
      | cons hlow hdigits =>
        obtain rfl := List.forall₂_nil_left_iff.mp hdigits
        exact ⟨_, _, hhigh, hlow, by rw [valueOf_two]⟩
  · rintro ⟨n, m, hhigh, hlow, rfl⟩
    have hn := (hexDigit_eq_some_iff.mp hhigh).1
    have hm := (hexDigit_eq_some_iff.mp hlow).1
    refine ⟨List.cons_ne_nil _ _, [n, m], .cons hhigh (.cons hlow .nil), ?_, ?_⟩
    · rw [valueOf_two]
      omega
    · rw [valueOf_two]

theorem u8FromHex_plus :
    u8FromHex ['+', low] = some byte ↔ ∃ n, hexDigit low = some n ∧ byte = .ofNat n := by
  rw [u8FromHex_eq_some_iff, show unsigned ['+', low] = [low] from rfl]
  constructor
  · rintro ⟨-, _, hdigits, -, rfl⟩
    cases hdigits with
    | cons hlow hdigits =>
      cases hdigits
      exact ⟨_, hlow, by rw [valueOf_one]⟩
  · rintro ⟨n, hlow, rfl⟩
    have hn := (hexDigit_eq_some_iff.mp hlow).1
    refine ⟨List.cons_ne_nil _ _, [n], .cons hlow .nil, ?_, ?_⟩
    · rw [valueOf_one]
      omega
    · rw [valueOf_one]

/-- Only digits and plus signs are taken for numbers. -/
theorem mem_of_u8FromHex {text : List Char} (h : u8FromHex text = some byte) :
    ∀ c ∈ text, IsHexDigit c ∨ c = '+' := by
  obtain ⟨-, digits, hdigits, -, -⟩ := u8FromHex_eq_some_iff.mp h
  have hunsigned : ∀ c ∈ unsigned text, IsHexDigit c := fun c hc =>
    exists_hexDigit_iff.mp (hdigits.exists_of_mem hc)
  unfold unsigned at hunsigned
  split at hunsigned
  · next digit rest =>
    intro c hc
    rcases List.mem_cons.mp hc with rfl | hc
    · exact Or.inr rfl
    · exact Or.inl (hunsigned c hc)
  · exact fun c hc => Or.inl (hunsigned c hc)

/-- A pair is two digits, or a plus sign and a digit. -/
theorem exists_u8FromHex_iff : (∃ byte, u8FromHex [high, low] = some byte) ↔
    (IsHexDigit high ∨ high = '+') ∧ IsHexDigit low := by
  by_cases hplus : high = '+'
  · subst hplus
    simp only [u8FromHex_plus, ← exists_hexDigit_iff]
    constructor
    · rintro ⟨_, n, hlow, -⟩
      exact ⟨Or.inr trivial, n, hlow⟩
    · rintro ⟨-, n, hlow⟩
      exact ⟨_, n, hlow, rfl⟩
  · simp only [u8FromHex_pair hplus, spellsByte_iff, or_iff_left hplus, ← exists_hexDigit_iff]
    constructor
    · rintro ⟨_, n, m, hhigh, hlow, -⟩
      exact ⟨⟨n, hhigh⟩, m, hlow⟩
    · rintro ⟨⟨n, hhigh⟩, m, hlow⟩
      exact ⟨_, n, m, hhigh, hlow, rfl⟩

theorem IsHexDigit.ne_plus (h : IsHexDigit c) : c ≠ '+' := by
  rintro rfl
  exact absurd h (by decide)

theorem SpellsByte.ne_plus (h : SpellsByte high low byte) : high ≠ '+' := by
  obtain ⟨n, _, hhigh, -, -⟩ := spellsByte_iff.mp h
  exact (isHexDigit_of_hexDigit hhigh).ne_plus

end Digits

/-! ## The loop over pairs -/

section Text

variable {context value : String} {bytes : List UInt8}

/-- Only characters of one byte are accepted, so bytes and characters are as many. -/
theorem utf8ByteSize_of_digits {cs : List Char} (h : ∀ c ∈ cs, IsHexDigit c ∨ c = '+') :
    (String.ofList cs).utf8ByteSize = cs.length := by
  have hone : ∀ c, IsHexDigit c ∨ c = '+' → c.utf8Size = 1 := by
    rintro c (hdigit | rfl)
    · have hall : "0123456789abcdefABCDEF".toList.all (fun c => c.utf8Size == 1) = true := by decide
      exact eq_of_beq (List.all_eq_true.mp hall c hdigit)
    · rfl
  rw [String.utf8ByteSize_ofList]
  induction cs with
  | nil => rfl
  | cons c cs ih =>
    rw [List.forall_mem_cons] at h
    rw [String.utf8Len_cons, ih h.2, hone c h.1, List.length_cons]

/-- One turn of the loop. -/
def pairByte (context : String) (pair : List Char) : Except String UInt8 :=
  match u8FromHex pair with
  | some byte => .ok byte
  | none => .error s!"{context}: invalid hex {repr (String.ofList pair)}"

theorem pairByte_eq_ok_iff {pair : List Char} {byte : UInt8} :
    pairByte context pair = .ok byte ↔ u8FromHex pair = some byte := by
  unfold pairByte
  cases u8FromHex pair with
  | none => simp
  | some byte => simp

/-- What is read, read a pair at a time. -/
theorem parseHex_eq_ok_iff : parseHex context value = .ok bytes ↔
    ReadsPairs (fun high low byte => u8FromHex [high, low] = some byte) (compact value) bytes := by
  have hparse : parseHex context value =
      if (String.ofList (compact value)).utf8ByteSize % 2 ≠ 0 then
        .error s!"{context}: hex value has an odd number of digits"
      else ((compact value).toChunks 2).mapM (pairByte context) := rfl
  rw [hparse]
  constructor
  · intro h
    split_ifs at h with heven
    simp only [mapM_eq_ok_iff, pairByte_eq_ok_iff] at h
    have hchars : ∀ c ∈ compact value, IsHexDigit c ∨ c = '+' := by
      intro c hc
      obtain ⟨pair, hpair, hc⟩ := exists_mem_toChunks hc
      obtain ⟨byte, hbyte⟩ := h.exists_of_mem hpair
      exact mem_of_u8FromHex hbyte c hc
    rw [utf8ByteSize_of_digits hchars, not_not] at heven
    exact (forall₂_toChunks_iff heven).mp h
  · intro h
    have hpairs : InPairs (fun high low => (IsHexDigit high ∨ high = '+') ∧
        (IsHexDigit low ∨ low = '+')) (compact value) := by
      refine (ReadsPairs.exists_iff.mp ⟨bytes, h⟩).mono ?_
      rintro high - low - ⟨byte, hbyte⟩
      exact ⟨mem_of_u8FromHex hbyte high (by simp), mem_of_u8FromHex hbyte low (by simp)⟩
    obtain ⟨heven, hchars⟩ := InPairs.both_iff.mp hpairs
    rw [if_neg (by rw [utf8ByteSize_of_digits hchars, not_not]; exact heven)]
    simp only [mapM_eq_ok_iff, pairByte_eq_ok_iff]
    exact (forall₂_toChunks_iff heven).mpr h

/-- What is accepted. -/
theorem parseHex_isOk_iff : (parseHex context value).isOk = true ↔
    InPairs (fun high low => (IsHexDigit high ∨ high = '+') ∧ IsHexDigit low) (compact value) := by
  simp only [Except.isOk_iff_exists, parseHex_eq_ok_iff, ReadsPairs.exists_iff,
    exists_u8FromHex_iff]

theorem HexText.not_plus (h : HexText value) : '+' ∉ compact value :=
  fun hmem => (h.2 _ hmem).ne_plus rfl

theorem HexText.isOk (h : HexText value) : (parseHex context value).isOk = true :=
  parseHex_isOk_iff.mpr ((InPairs.both_iff.mpr h).mono fun _ _ _ _ ⟨hhigh, hlow⟩ =>
    ⟨Or.inl hhigh, hlow⟩)

theorem hexText_of_isOk (hplus : '+' ∉ compact value)
    (h : (parseHex context value).isOk = true) : HexText value := by
  refine InPairs.both_iff.mp ((parseHex_isOk_iff.mp h).mono fun high hmem _ _ hpair => ?_)
  exact ⟨hpair.1.resolve_right fun heq => hplus (heq ▸ hmem), hpair.2⟩

theorem spells_of_parseHex (hplus : '+' ∉ compact value)
    (h : parseHex context value = .ok bytes) : Spells value bytes :=
  (parseHex_eq_ok_iff.mp h).mono fun _ hmem _ _ _ hpair =>
    (u8FromHex_pair fun heq => hplus (heq ▸ hmem)).mp hpair

/-- Every spelling of a list of bytes is read as that list. -/
theorem parseHex_of_spells (h : Spells value bytes) : parseHex context value = .ok bytes :=
  parseHex_eq_ok_iff.mpr (h.mono fun _ _ _ _ _ hpair => (u8FromHex_pair hpair.ne_plus).mpr hpair)

theorem signedPairs_iff (context value : String) : SignedPairs value ↔
    (parseHex context value).isOk = true ∧ '+' ∈ compact value := by
  rw [parseHex_isOk_iff]
  rfl

theorem readExactly_iff : ReadExactly context value ↔ ¬SignedPairs value := by
  rw [signedPairs_iff context, not_and]
  constructor
  · intro h hok
    exact (h.accepted.mp hok).not_plus
  · intro h
    refine ⟨⟨fun hok => hexText_of_isOk (h hok) hok, HexText.isOk⟩, fun bytes hbytes => ?_⟩
    exact spells_of_parseHex (h (Except.isOk_iff_exists.mpr ⟨bytes, hbytes⟩)) hbytes

end Text

/-! ## Uploaded libraries -/

section Library

variable {parse : String → Except String LibraryDocument} {raw : String}
  {document : LibraryDocument} {library : FingerprintLibrary}

theorem exists_of_mem_patterns {hex : String} (h : hex ∈ document.patterns) :
    ∃ rule ∈ document.rules, ∃ offset, .bytes offset hex ∈ rule.predicates := by
  obtain ⟨rule, hrule, h⟩ := List.mem_flatMap.mp h
  obtain ⟨spec, hspec, h⟩ := List.mem_filterMap.mp h
  cases spec with
  | bytes offset hex =>
    obtain rfl := Option.some.inj h
    exact ⟨rule, hrule, offset, hspec⟩
  | _ => cases h

theorem compilePredicate_of_compileRule {index : ℕ} {spec : RuleSpec} {rule : CompiledRule}
    (h : compileRule index spec = .ok rule) {predicate : PredicateSpec}
    (hmem : predicate ∈ spec.predicates) :
    ∃ compiled, compilePredicate index (trim spec.service) predicate = .ok compiled := by
  unfold compileRule at h
  simp only at h
  split_ifs at h
  obtain ⟨predicates, hpredicates, -⟩ := Except.bind_eq_ok.mp h
  exact (mapM_eq_ok_iff.mp hpredicates).exists_of_mem hmem

theorem compileRule_of_fromJson (hparse : parse raw = .ok document)
    (h : FingerprintLibrary.fromJson parse raw = .ok library) {spec : RuleSpec}
    (hmem : spec ∈ document.rules) : ∃ index rule, compileRule index spec = .ok rule := by
  unfold FingerprintLibrary.fromJson at h
  rw [hparse] at h
  obtain ⟨_, hdocument, h⟩ := Except.bind_eq_ok.mp h
  obtain rfl := Except.ok.inj hdocument
  split_ifs at h
  obtain ⟨rules, hrules, -⟩ := Except.bind_eq_ok.mp h
  obtain ⟨index, hlt, hindex⟩ := List.mem_iff_getElem.mp hmem
  have hpair : (spec, index) ∈ document.rules.zipIdx :=
    List.mk_mem_zipIdx_iff_getElem?.mpr (List.getElem?_eq_some_iff.mpr ⟨hlt, hindex⟩)
  obtain ⟨rule, hrule⟩ := (mapM_eq_ok_iff.mp hrules).exists_of_mem hpair
  exact ⟨index, rule, hrule⟩

/-- Every pattern of an accepted library has been read. -/
theorem parseHex_of_fromJson (hparse : parse raw = .ok document)
    (h : FingerprintLibrary.fromJson parse raw = .ok library) :
    ∀ hex ∈ document.patterns, ∃ context, (parseHex context hex).isOk = true := by
  intro hex hmem
  obtain ⟨spec, hspec, offset, hpredicate⟩ := exists_of_mem_patterns hmem
  obtain ⟨index, rule, hrule⟩ := compileRule_of_fromJson hparse h hspec
  obtain ⟨compiled, hcompiled⟩ := compilePredicate_of_compileRule hrule hpredicate
  obtain ⟨_, -, h⟩ := Except.bind_eq_ok.mp hcompiled
  obtain ⟨bytes, hbytes, -⟩ := Except.bind_eq_ok.mp h
  exact ⟨_, Except.isOk_iff_exists.mpr ⟨bytes, hbytes⟩⟩

end Library

/-- A text is read exactly unless a pair of it has a plus sign for its first digit; every spelling
of bytes is read as these; and the patterns of an uploaded library are digits unless one of them has
such a pair. -/
theorem hexPatterns_exact_iff (context value : String)
    (parse : String → Except String LibraryDocument) (raw : String) :
    (ReadExactly context value ↔ ¬SignedPairs value) ∧
      (∀ bytes, Spells value bytes → parseHex context value = .ok bytes) ∧
      ∀ document library, parse raw = .ok document →
        FingerprintLibrary.fromJson parse raw = .ok library →
        ((∀ hex ∈ document.patterns, HexText hex) ↔
          ∀ hex ∈ document.patterns, ¬SignedPairs hex) := by
  refine ⟨readExactly_iff, fun bytes => parseHex_of_spells, ?_⟩
  intro document library hparse hlibrary
  refine forall₂_congr fun hex hmem => ?_
  obtain ⟨context, hok⟩ := parseHex_of_fromJson hparse hlibrary hex hmem
  constructor
  · exact fun htext hsigned => htext.not_plus hsigned.2
  · exact fun hsigned => (readExactly_iff.mpr hsigned).accepted.mp hok

theorem parseHex_spaced : parseHex "rule 0 (X)" "16 0A" = .ok [0x16, 0x0a] := by
  have hcompact : compact "16 0A" = ['1', '6', '0', 'A'] := by decide +kernel
  have hspells : Spells "16 0A" [0x16, 0x0a] := by
    unfold Spells
    rw [hcompact]
    exact .cons (by decide) (.cons (by decide) .nil)
  exact (hexPatterns_exact_iff "rule 0 (X)" "16 0A" (fun _ => .error "") "").2.1 _ hspells

/-- A plus sign and a digit are taken for a byte. -/
theorem plusSign_accepted : parseHex "rule 0 (X)" "+f" = .ok [15] ∧ ¬HexText "+f" ∧
    ¬ReadExactly "rule 0 (X)" "+f" ∧
    (FingerprintLibrary.fromJson (fun _ => .ok ⟨1, [⟨"X", [.bytes 0 "+f"]⟩]⟩) "").isOk = true := by
  have htext : ¬HexText "+f" := fun h => absurd h.not_plus (by decide +kernel)
  refine ⟨by decide +kernel, htext, fun h => ?_, by decide +kernel⟩
  exact htext (h.accepted.mp (by decide +kernel))

end Fingerprint

end ZimaScope
