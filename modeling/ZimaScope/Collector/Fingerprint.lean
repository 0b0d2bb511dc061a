import ZimaScope.Common.Model
import ZimaScope.Lib.Storage

/-! # Protocol fingerprints

A rule engine over the bounded first-payload sample. Whatever indexes, adds or shifts could
panic; a check that does has no result.
-/

namespace ZimaScope

namespace Fingerprint

/-- Maximum accepted payload offset in any predicate. -/
def maxOffset : ℕ := 4096

def maxRules : ℕ := 512

def maxPredicatesPerRule : ℕ := 16

def maxServiceName : ℕ := 32

/-! ## Documents -/

inductive Endian | be | le
  deriving DecidableEq, Repr

structure Compare where
  eq : Option UInt64 := none
  ne : Option UInt64 := none
  lt : Option UInt64 := none
  lte : Option UInt64 := none
  gt : Option UInt64 := none
  gte : Option UInt64 := none
  in' : Option (List UInt64) := none
  deriving DecidableEq, Repr

inductive Builtin | dnsQuery
  deriving DecidableEq, Repr

/-- One predicate; the rule matches when every predicate matches. -/
inductive PredicateSpec
  | minLen (value : ℕ)
  | prefixText (value : String)
  | prefixTextAny (values : List String)
  /-- An exact byte sequence at an offset, hex-encoded. -/
  | bytes (offset : ℕ) (hex : String)
  | byte (offset : ℕ) (mask : Option UInt8) (compare : Compare)
  | int (offset : ℕ) (size : UInt8) (endian : Endian) (compare : Compare)
  | builtin (name : Builtin)
  deriving DecidableEq, Repr

structure RuleSpec where
  service : String
  predicates : List PredicateSpec
  deriving DecidableEq, Repr

structure LibraryDocument where
  version : ℕ := 1
  rules : List RuleSpec
  deriving DecidableEq, Repr

inductive Predicate
  | minLen (minimum : ℕ)
  | prefixText (start : List UInt8)
  | prefixTextAny (starts : List (List UInt8))
  | bytes (offset : ℕ) (sequence : List UInt8)
  | byte (offset : ℕ) (mask : Option UInt8) (compare : Compare)
  | int (offset : ℕ) (size : UInt8) (endian : Endian) (compare : Compare)
  | builtin (name : Builtin)
  deriving DecidableEq, Repr

structure CompiledRule where
  service : String
  predicates : List Predicate
  deriving DecidableEq, Repr

end Fingerprint

/-- A validated, compiled fingerprint library. -/
structure FingerprintLibrary where
  rules : List Fingerprint.CompiledRule
  raw : String
  custom : Bool
  deriving DecidableEq, Repr

namespace Fingerprint

/-! ## Validation -/

def Compare.validate (c : Compare) : Except String Unit :=
  if c.eq.isNone ∧ c.ne.isNone ∧ c.lt.isNone ∧ c.lte.isNone ∧ c.gt.isNone ∧ c.gte.isNone ∧
      c.in'.isNone then
    .error "compare block is empty"
  else .ok ()

def checkOffset (context : String) (offset : ℕ) : Except String Unit :=
  if maxOffset < offset then .error s!"{context}: offset exceeds {maxOffset}" else .ok ()

def checkText (context value : String) : Except String Unit :=
  if value = "" ∨ 64 < value.utf8ByteSize then
    .error s!"{context}: text values must be 1..=64 bytes"
  else .ok ()

/-- `char::to_digit(16)`. -/
def hexDigit (c : Char) : Option ℕ :=
  if '0' ≤ c ∧ c ≤ '9' then some (c.toNat - '0'.toNat)
  else if 'a' ≤ c ∧ c ≤ 'f' then some (c.toNat - 'a'.toNat + 10)
  else if 'A' ≤ c ∧ c ≤ 'F' then some (c.toNat - 'A'.toNat + 10)
  else none

/-- `u8::from_str_radix(.., 16)`, which takes a plus sign before digits. -/
def u8FromHex (text : List Char) : Option UInt8 := do
  let digits := match text with
    | '+' :: digit :: rest => digit :: rest
    | _ => text
  guard (digits ≠ [])
  let value := (← digits.mapM hexDigit).foldl (fun value digit => 16 * value + digit) 0
  guard (value < 256)
  return .ofNat value

def parseHex (context value : String) : Except String (List UInt8) :=
  let compact := value.toList.filter fun char => !isWhiteSpace char
  if (String.ofList compact).utf8ByteSize % 2 ≠ 0 then
    .error s!"{context}: hex value has an odd number of digits"
  else (compact.toChunks 2).mapM fun pair =>
    match u8FromHex pair with
    | some byte => .ok byte
    | none => .error s!"{context}: invalid hex {repr (String.ofList pair)}"

def compilePredicate (index : ℕ) (service : String) (spec : PredicateSpec) :
    Except String Predicate :=
  let context := s!"rule {index} ({service})"
  match spec with
  | .minLen value =>
    if value = 0 ∨ maxOffset < value then
      .error s!"{context}: min_len must be between 1 and {maxOffset}"
    else .ok (.minLen value)
  | .prefixText value => do
    checkText context value
    return .prefixText (textBytes value)
  | .prefixTextAny values =>
    if values = [] then .error s!"{context}: prefix_text_any is empty"
    else do
      values.forM (checkText context)
      return .prefixTextAny (values.map textBytes)
  | .bytes offset hex => do
    checkOffset context offset
    let bytes ← parseHex context hex
    if bytes = [] ∨ 64 < bytes.length then
      .error s!"{context}: bytes must decode to 1..=64 bytes"
    else return .bytes offset bytes
  | .byte offset mask compare => do
    checkOffset context offset
    compare.validate.mapError fun error => s!"{context}: {error}"
    return .byte offset mask compare
  | .int offset size endian compare => do
    checkOffset context offset
    if size < 1 ∨ 4 < size then .error s!"{context}: int size must be 1, 2, 3 or 4"
    else do
      compare.validate.mapError fun error => s!"{context}: {error}"
      return .int offset size endian compare
  | .builtin name => .ok (.builtin name)

def compileRule (index : ℕ) (spec : RuleSpec) : Except String CompiledRule :=
  let service := trim spec.service
  if service = "" then .error s!"rule {index}: empty service name"
  else if maxServiceName < service.utf8ByteSize then
    .error s!"rule {index}: service name is longer than {maxServiceName} characters"
  else if spec.predicates = [] then .error s!"rule {index} ({service}): no match predicates"
  else if maxPredicatesPerRule < spec.predicates.length then
    .error s!"rule {index} ({service}): more than {maxPredicatesPerRule} predicates"
  else do
    let predicates ← spec.predicates.mapM (compilePredicate index service)
    return { service, predicates }

end Fingerprint

open Fingerprint

/-- Parses and validates a library document; `parse` is that of the JSON library. -/
def FingerprintLibrary.fromJson (parse : String → Except String LibraryDocument) (raw : String) :
    Except String FingerprintLibrary := do
  let document ← (parse raw).mapError fun error => s!"invalid fingerprint JSON: {error}"
  if document.rules = [] then .error "library has no rules"
  else if maxRules < document.rules.length then
    .error s!"library has {document.rules.length} rules; the maximum is {maxRules}"
  else
    let rules ← document.rules.zipIdx.mapM fun (spec, index) => compileRule index spec
    return { rules, raw, custom := true }

/-! ## Evaluation -/

namespace Fingerprint

def Compare.matches (c : Compare) (value : UInt64) : Bool :=
  (c.eq.all fun eq => value = eq) && (c.ne.all fun ne => value ≠ ne) &&
    (c.lt.all fun lt => value < lt) && (c.lte.all fun lte => value ≤ lte) &&
    (c.gt.all fun gt => gt < value) && (c.gte.all fun gte => gte ≤ value) &&
    (c.in'.all fun choices => choices.contains value)

/-- A sum of `usize`. -/
def usizeAdd (a b : ℕ) : Option ℕ := do
  guard (a + b < 2 ^ 64)
  return a + b

/-- `<<` on `u64`. -/
def shiftLeft (value : UInt64) (bits : ℕ) : Option UInt64 := do
  guard (bits < 64)
  return value <<< .ofNat bits

/-- `get(start..stop)`. -/
def getRange (payload : List UInt8) (start stop : ℕ) : Option (List UInt8) :=
  if start ≤ stop ∧ stop ≤ payload.length then some ((payload.drop start).take (stop - start))
  else none

/-- The number in a window. -/
def intOf (window : List UInt8) : Endian → Option UInt64
  | .be => window.foldlM (fun value byte => do return (← shiftLeft value 8) ||| byte.toUInt64) 0
  | .le => window.zipIdx.foldlM (fun value (byte, shift) => do
      return value ||| (← shiftLeft byte.toUInt64 (8 * shift))) 0

def readInt (payload : List UInt8) (offset : ℕ) (size : UInt8) (endian : Endian) :
    Option (Option UInt64) := do
  let stop ← usizeAdd offset size.toNat
  match getRange payload offset stop with
  | none => return none
  | some window => return some (← intOf window endian)

def u16FromBe (high low : UInt8) : UInt16 := high.toUInt16 <<< 8 ||| low.toUInt16

/-- The loop over the labels of the question, of which so many more may follow; it returns the
position behind the name. -/
def walkLabels (payload : List UInt8) : (more position : ℕ) → Option (Option ℕ)
  | more, position =>
    match payload[position]? with
    | none => some none
    | some length => do
      let position ← usizeAdd position 1
      if length = 0 then return some position
      else if 63 < length then return none
      else
        let position ← usizeAdd position length.toNat
        match more with
        | 0 => return none
        | more + 1 =>
          if payload.length < position then return none else walkLabels payload more position

def maxLabels : ℕ := 20

/-- A DNS message with a structurally valid question section. -/
def isDnsQuery (payload : List UInt8) : Option Bool := do
  if payload.length < 13 then return false
  else
    let flags := u16FromBe (← payload[2]?) (← payload[3]?)
    -- The opcode must be that of a query.
    if flags &&& 0x7800 ≠ 0 then return false
    else
      let questions := u16FromBe (← payload[4]?) (← payload[5]?)
      if questions = 0 ∨ 4 < questions then return false
      else
        match ← walkLabels payload maxLabels 12 with
        | none => return false
        | some position =>
          if payload.length < (← usizeAdd position 4) then return false
          else
            let class' := u16FromBe (← payload[position + 2]?) (← payload[position + 3]?)
            return class' = 1 ∨ class' = 255

def Predicate.matches (payload : List UInt8) : Predicate → Option Bool
  | .minLen minimum => some (minimum ≤ payload.length)
  | .prefixText start => some (start.isPrefixOf payload)
  | .prefixTextAny starts => some (starts.any fun start => start.isPrefixOf payload)
  | .bytes offset sequence => do
    let stop ← usizeAdd offset sequence.length
    return (getRange payload offset stop).any fun window => window = sequence
  | .byte offset mask compare => some (payload[offset]?.any fun byte =>
      compare.matches (mask.elim byte.toUInt64 fun mask => (byte &&& mask).toUInt64))
  | .int offset size endian compare => do
    return (← readInt payload offset size endian).any compare.matches
  | .builtin .dnsQuery => isDnsQuery payload

def CompiledRule.matches (rule : CompiledRule) (payload : List UInt8) : Option Bool :=
  rule.predicates.allM (Predicate.matches payload)

end Fingerprint

/-- The first matching service name. -/
def FingerprintLibrary.classify (library : FingerprintLibrary) (payload : List UInt8) :
    Option (Option String) := do
  return (← library.rules.findM? fun rule => rule.matches payload).map CompiledRule.service

/-! ## What is accepted -/

namespace Fingerprint

/-- The bounds that validation leaves on what is added and shifted. -/
def Predicate.Accepted : Predicate → Prop
  | .bytes offset sequence => offset ≤ maxOffset ∧ sequence.length ≤ 64
  | .int offset size _ _ => offset ≤ maxOffset ∧ size.toNat ≤ 4
  | _ => True

theorem toNat_of_hexDigit {c : Char} {n : ℕ} (h : hexDigit c = some n) :
    (0x30 ≤ c.toNat ∧ c.toNat ≤ 0x39) ∨ (0x61 ≤ c.toNat ∧ c.toNat ≤ 0x66) ∨
      (0x41 ≤ c.toNat ∧ c.toNat ≤ 0x46) := by
  unfold hexDigit at h
  split at h
  · next hdigit => exact Or.inl hdigit
  · split at h
    · next hlower => exact Or.inr (Or.inl hlower)
    · split at h
      · next hupper => exact Or.inr (Or.inr hupper)
      · cases h

theorem le_maxOffset {context : String} {offset : ℕ} (h : checkOffset context offset = .ok ()) :
    offset ≤ maxOffset := by
  unfold checkOffset at h
  split at h
  · cases h
  · next hle => exact not_lt.mp hle

theorem accepted_of_compilePredicate {index : ℕ} {service : String} {spec : PredicateSpec}
    {predicate : Predicate} (h : compilePredicate index service spec = .ok predicate) :
    predicate.Accepted := by
  unfold compilePredicate at h
  cases spec with
  | minLen value =>
    simp only at h
    split at h
    · cases h
    · obtain rfl := Except.ok.inj h
      trivial
  | prefixText value =>
    obtain ⟨_, -, h⟩ := Except.bind_eq_ok.mp h
    obtain rfl := Except.ok.inj h
    trivial
  | prefixTextAny values =>
    simp only at h
    split at h
    · cases h
    · obtain ⟨_, -, h⟩ := Except.bind_eq_ok.mp h
      obtain rfl := Except.ok.inj h
      trivial
  | bytes offset hex =>
    obtain ⟨_, hoffset, h⟩ := Except.bind_eq_ok.mp h
    obtain ⟨sequence, -, h⟩ := Except.bind_eq_ok.mp h
    split at h
    · cases h
    · next hlength =>
      obtain rfl := Except.ok.inj h
      exact ⟨le_maxOffset hoffset, not_lt.mp (not_or.mp hlength).2⟩
  | byte offset mask compare =>
    obtain ⟨_, -, h⟩ := Except.bind_eq_ok.mp h
    obtain ⟨_, -, h⟩ := Except.bind_eq_ok.mp h
    obtain rfl := Except.ok.inj h
    trivial
  | int offset size endian compare =>
    obtain ⟨_, hoffset, h⟩ := Except.bind_eq_ok.mp h
    split at h
    · cases h
    · next hsize =>
      obtain ⟨_, -, h⟩ := Except.bind_eq_ok.mp h
      obtain rfl := Except.ok.inj h
      exact ⟨le_maxOffset hoffset, not_lt.mp (not_or.mp hsize).2⟩
  | builtin name =>
    obtain rfl := Except.ok.inj h
    trivial

theorem accepted_of_compileRule {index : ℕ} {spec : RuleSpec} {rule : CompiledRule}
    (h : compileRule index spec = .ok rule) :
    ∀ predicate ∈ rule.predicates, predicate.Accepted := by
  unfold compileRule at h
  simp only at h
  split_ifs at h
  obtain ⟨predicates, hpredicates, h⟩ := Except.bind_eq_ok.mp h
  obtain rfl := Except.ok.inj h
  intro predicate hmem
  obtain ⟨spec, -, hspec⟩ := Except.exists_of_mem_mapM hpredicates hmem
  exact accepted_of_compilePredicate hspec

theorem accepted_of_fromJson {parse : String → Except String LibraryDocument} {raw : String}
    {library : FingerprintLibrary} (h : FingerprintLibrary.fromJson parse raw = .ok library) :
    ∀ rule ∈ library.rules, ∀ predicate ∈ rule.predicates, predicate.Accepted := by
  obtain ⟨document, -, h⟩ := Except.bind_eq_ok.mp h
  split_ifs at h
  obtain ⟨rules, hrules, h⟩ := Except.bind_eq_ok.mp h
  obtain rfl := Except.ok.inj h
  intro rule hmem
  obtain ⟨⟨spec, index⟩, -, hspec⟩ := Except.exists_of_mem_mapM hrules hmem
  exact accepted_of_compileRule hspec

/-! ## Evaluation does not panic -/

section Total

variable {payload : List UInt8}

theorem usizeAdd_eq {a b : ℕ} (h : a + b < 2 ^ 64) : usizeAdd a b = some (a + b) := by
  unfold usizeAdd
  rw [guard, if_pos h]
  rfl

theorem shiftLeft_eq {value : UInt64} {bits : ℕ} (h : bits < 64) :
    shiftLeft value bits = some (value <<< .ofNat bits) := by
  unfold shiftLeft
  rw [guard, if_pos h]
  rfl

theorem foldlM_total {α β : Type} {f : β → α → Option β} {xs : List α} (init : β)
    (h : ∀ b, ∀ x ∈ xs, ∃ b', f b x = some b') : ∃ b, xs.foldlM f init = some b := by
  induction xs generalizing init with
  | nil => exact ⟨init, rfl⟩
  | cons x xs ih =>
    obtain ⟨b, hb⟩ := h init x List.mem_cons_self
    obtain ⟨b', hb'⟩ := ih b fun b y hy => h b y (List.mem_cons_of_mem _ hy)
    exact ⟨b', by rw [List.foldlM_cons, hb]; exact hb'⟩

theorem length_of_getRange {start stop : ℕ} {window : List UInt8}
    (h : getRange payload start stop = some window) : window.length = stop - start := by
  unfold getRange at h
  split at h
  · obtain rfl := Option.some.inj h
    rw [List.length_take, List.length_drop]
    omega
  · simp at h

theorem intOf_total {window : List UInt8} (endian : Endian) (h : window.length ≤ 4) :
    ∃ value, intOf window endian = some value := by
  cases endian with
  | be =>
    refine foldlM_total 0 fun value byte _ => ?_
    rw [shiftLeft_eq (by norm_num)]
    exact ⟨_, rfl⟩
  | le =>
    refine foldlM_total 0 fun value (byte, shift) hp => ?_
    have hlt := List.snd_lt_of_mem_zipIdx hp
    simp only at hlt ⊢
    rw [shiftLeft_eq (by omega)]
    exact ⟨_, rfl⟩

theorem readInt_total (payload : List UInt8) {offset : ℕ} {size : UInt8} (endian : Endian)
    (hoffset : offset ≤ maxOffset) (hsize : size.toNat ≤ 4) :
    ∃ value, readInt payload offset size endian = some value := by
  have hstop : usizeAdd offset size.toNat = some (offset + size.toNat) := by
    apply usizeAdd_eq
    unfold maxOffset at hoffset
    omega
  unfold readInt
  rw [hstop, Option.bind_eq_bind, Option.bind_some]
  cases hwindow : getRange payload offset (offset + size.toNat) with
  | none => exact ⟨none, rfl⟩
  | some window =>
    have hlength := length_of_getRange hwindow
    obtain ⟨value, hvalue⟩ := intOf_total endian (show window.length ≤ 4 by omega)
    simp only [hvalue]
    exact ⟨some value, rfl⟩

section Walk

variable {more position : ℕ} {length : UInt8}

theorem walkLabels_root (hread : payload[position]? = some 0) (hposition : position + 64 < 2 ^ 64) :
    walkLabels payload more position = some (some (position + 1)) := by
  unfold walkLabels
  rw [hread]
  simp only [usizeAdd_eq (show position + 1 < 2 ^ 64 by omega)]
  rfl

theorem walkLabels_label (hread : payload[position]? = some length) (hne : length ≠ 0)
    (hlength : ¬ 63 < length) (hposition : position + 64 < 2 ^ 64)
    (hinside : position + 1 + length.toNat ≤ payload.length) :
    walkLabels payload (more + 1) position = walkLabels payload more (position + 1 + length.toNat) := by
  have hsmall : length.toNat ≤ 63 := Nat.le_of_not_lt hlength
  conv_lhs => unfold walkLabels
  rw [hread]
  simp only [usizeAdd_eq (show position + 1 < 2 ^ 64 by omega),
    usizeAdd_eq (show position + 1 + length.toNat < 2 ^ 64 by omega), Option.bind_eq_bind,
    Option.bind_some, if_neg hne, if_neg hlength, if_neg (not_lt.mpr hinside)]

/-- What one turn of the loop comes to. -/
theorem walkLabels_cases (payload : List UInt8) (more position : ℕ)
    (hposition : position + 64 < 2 ^ 64) :
    walkLabels payload more position = some none ∨
      (payload[position]? = some 0 ∧ walkLabels payload more position = some (some (position + 1))) ∨
      ∃ length more', payload[position]? = some length ∧ length ≠ 0 ∧ ¬ 63 < length ∧
        position + 1 + length.toNat ≤ payload.length ∧ more = more' + 1 ∧
        walkLabels payload more position = walkLabels payload more' (position + 1 + length.toNat) := by
  cases hread : payload[position]? with
  | none =>
    left
    unfold walkLabels
    rw [hread]
  | some length =>
    by_cases hzero : length = 0
    · subst hzero
      exact Or.inr (Or.inl ⟨rfl, walkLabels_root hread hposition⟩)
    · by_cases hlength : 63 < length
      · left
        unfold walkLabels
        rw [hread]
        simp only [usizeAdd_eq (show position + 1 < 2 ^ 64 by omega), Option.bind_eq_bind,
          Option.bind_some, if_neg hzero, if_pos hlength]
        rfl
      · have hsmall : length.toNat ≤ 63 := Nat.le_of_not_lt hlength
        by_cases hinside : position + 1 + length.toNat ≤ payload.length ∧ ∃ more', more = more' + 1
        · obtain ⟨hinside, more', rfl⟩ := hinside
          exact Or.inr (Or.inr ⟨length, more', rfl, hzero, hlength, hinside, rfl,
            walkLabels_label hread hzero hlength hposition hinside⟩)
        · left
          unfold walkLabels
          rw [hread]
          simp only [usizeAdd_eq (show position + 1 < 2 ^ 64 by omega),
            usizeAdd_eq (show position + 1 + length.toNat < 2 ^ 64 by omega), Option.bind_eq_bind,
            Option.bind_some, if_neg hzero, if_neg hlength]
          cases more with
          | zero => rfl
          | succ more' =>
            have hbeyond : payload.length < position + 1 + length.toNat :=
              not_le.mp fun hle => hinside ⟨hle, more', rfl⟩
            exact if_pos hbeyond

/-- The walk over the labels ends, and before any position overflows. -/
theorem walkLabels_total (payload : List UInt8) {more position : ℕ}
    (h : position + 64 * (more + 1) < 2 ^ 64) :
    ∃ result, walkLabels payload more position = some result ∧
      ∀ stop, result = some stop → stop ≤ position + 64 * (more + 1) := by
  induction more generalizing position with
  | zero =>
    rcases walkLabels_cases payload 0 position (by omega) with
      hnone | ⟨-, hroot⟩ | ⟨_, _, -, -, -, -, hmore, -⟩
    · exact ⟨none, hnone, by simp⟩
    · refine ⟨_, hroot, ?_⟩
      rintro _ ⟨rfl⟩
      omega
    · simp at hmore
  | succ more ih =>
    rcases walkLabels_cases payload (more + 1) position (by omega) with
      hnone | ⟨-, hroot⟩ | ⟨length, more', -, -, hlength, -, hmore, hlabel⟩
    · exact ⟨none, hnone, by simp⟩
    · refine ⟨_, hroot, ?_⟩
      rintro _ ⟨rfl⟩
      omega
    · obtain rfl : more = more' := Nat.succ_inj.mp hmore
      have hsmall : length.toNat ≤ 63 := Nat.le_of_not_lt hlength
      have hfits : position + 1 + length.toNat + 64 * (more + 1) < 2 ^ 64 := by omega
      obtain ⟨result, hresult, hstop⟩ := ih hfits
      refine ⟨result, hlabel.trans hresult, fun stop heq => ?_⟩
      have hle := hstop stop heq
      omega

end Walk

theorem isDnsQuery_total : ∃ verdict, isDnsQuery payload = some verdict := by
  unfold isDnsQuery
  split
  · exact ⟨false, rfl⟩
  · next hlong =>
    have hread {i : ℕ} (hi : i < payload.length) : payload[i]? = some payload[i] :=
      List.getElem?_eq_getElem hi
    rw [hread (show 2 < payload.length by omega), hread (show 3 < payload.length by omega),
      hread (show 4 < payload.length by omega), hread (show 5 < payload.length by omega)]
    simp only [Option.bind_eq_bind, Option.bind_some]
    split
    · exact ⟨false, rfl⟩
    · split
      · exact ⟨false, rfl⟩
      · obtain ⟨result, hresult, hstop⟩ :=
          walkLabels_total payload (show 12 + 64 * (maxLabels + 1) < 2 ^ 64 by decide)
        rw [hresult, Option.bind_some]
        cases result with
        | none => exact ⟨false, rfl⟩
        | some position =>
          have hposition : position ≤ 12 + 64 * (maxLabels + 1) := hstop position rfl
          unfold maxLabels at hposition
          simp only [usizeAdd_eq (show position + 4 < 2 ^ 64 by omega), Option.bind_some]
          split
          · exact ⟨false, rfl⟩
          · rw [hread (show position + 2 < payload.length by omega),
              hread (show position + 3 < payload.length by omega)]
            exact ⟨_, rfl⟩

theorem Predicate.matches_total {predicate : Predicate} (h : predicate.Accepted) :
    ∃ verdict, predicate.matches payload = some verdict := by
  cases predicate with
  | bytes offset sequence =>
    obtain ⟨hoffset, hlength⟩ := h
    unfold maxOffset at hoffset
    simp only [Predicate.matches, usizeAdd_eq (show offset + sequence.length < 2 ^ 64 by omega)]
    exact ⟨_, rfl⟩
  | int offset size endian compare =>
    obtain ⟨value, hvalue⟩ := readInt_total payload endian h.1 h.2
    simp only [Predicate.matches, hvalue]
    exact ⟨_, rfl⟩
  | builtin name => exact isDnsQuery_total
  | _ => exact ⟨_, rfl⟩

theorem allM_total {α : Type} {f : α → Option Bool} {xs : List α}
    (h : ∀ x ∈ xs, ∃ verdict, f x = some verdict) : ∃ verdict, xs.allM f = some verdict := by
  induction xs with
  | nil => exact ⟨true, rfl⟩
  | cons x xs ih =>
    obtain ⟨verdict, hverdict⟩ := h x List.mem_cons_self
    cases verdict with
    | false => exact ⟨false, by rw [List.allM, hverdict]; rfl⟩
    | true =>
      obtain ⟨all, hall⟩ := ih fun y hy => h y (List.mem_cons_of_mem _ hy)
      exact ⟨all, by rw [List.allM, hverdict]; exact hall⟩

theorem findM?_total {α : Type} {f : α → Option Bool} {xs : List α}
    (h : ∀ x ∈ xs, ∃ verdict, f x = some verdict) : ∃ found, xs.findM? f = some found := by
  induction xs with
  | nil => exact ⟨none, rfl⟩
  | cons x xs ih =>
    obtain ⟨verdict, hverdict⟩ := h x List.mem_cons_self
    cases verdict with
    | true => exact ⟨some x, by rw [List.findM?, hverdict]; rfl⟩
    | false =>
      obtain ⟨found, hfound⟩ := ih fun y hy => h y (List.mem_cons_of_mem _ hy)
      exact ⟨found, by rw [List.findM?, hverdict]; exact hfound⟩

theorem CompiledRule.matches_total (payload : List UInt8) {rule : CompiledRule}
    (h : ∀ predicate ∈ rule.predicates, predicate.Accepted) :
    ∃ verdict, rule.matches payload = some verdict :=
  allM_total fun predicate hmem => Predicate.matches_total (h predicate hmem)

end Total

/-! ## A longer payload matches what its start matches -/

section Append

variable {payload : List UInt8} (rest : List UInt8)

theorem getElem?_append_of_some {i : ℕ} {byte : UInt8} (h : payload[i]? = some byte) :
    (payload ++ rest)[i]? = some byte := by
  obtain ⟨hi, -⟩ := List.getElem?_eq_some_iff.mp h
  rw [List.getElem?_append_left hi, h]

theorem getRange_append {start stop : ℕ} {window : List UInt8}
    (h : getRange payload start stop = some window) :
    getRange (payload ++ rest) start stop = some window := by
  unfold getRange at h ⊢
  split at h
  · next hinside =>
    have hlonger : start ≤ stop ∧ stop ≤ (payload ++ rest).length := by
      rw [List.length_append]
      omega
    rw [if_pos hlonger, ← h, List.drop_append_of_le_length (by omega),
      List.take_append_of_le_length (by rw [List.length_drop]; omega)]
  · cases h

theorem readInt_append {offset : ℕ} {size : UInt8} {endian : Endian} {value : UInt64}
    (h : readInt payload offset size endian = some (some value)) :
    readInt (payload ++ rest) offset size endian = some (some value) := by
  unfold readInt at h ⊢
  obtain ⟨stop, hstop, h⟩ := Option.bind_eq_some_iff.mp h
  rw [hstop, Option.bind_eq_bind, Option.bind_some]
  cases hwindow : getRange payload offset stop with
  | none => simp [hwindow] at h
  | some window =>
    rw [hwindow] at h
    rw [getRange_append rest hwindow]
    exact h

theorem walkLabels_append {more position stop : ℕ} (hposition : position + 64 * (more + 1) < 2 ^ 64)
    (h : walkLabels payload more position = some (some stop)) :
    walkLabels (payload ++ rest) more position = some (some stop) := by
  induction more generalizing position with
  | zero =>
    rcases walkLabels_cases payload 0 position (by omega) with
      hnone | ⟨hread, hroot⟩ | ⟨_, _, -, -, -, -, hmore, -⟩
    · simp [hnone] at h
    · rw [← h, hroot]
      exact walkLabels_root (getElem?_append_of_some rest hread) (by omega)
    · simp at hmore
  | succ more ih =>
    rcases walkLabels_cases payload (more + 1) position (by omega) with
      hnone | ⟨hread, hroot⟩ | ⟨length, more', hread, hne, hlength, hinside, hmore, hlabel⟩
    · simp [hnone] at h
    · rw [← h, hroot]
      exact walkLabels_root (getElem?_append_of_some rest hread) (by omega)
    · obtain rfl : more = more' := Nat.succ_inj.mp hmore
      have hsmall : length.toNat ≤ 63 := Nat.le_of_not_lt hlength
      have hlonger : position + 1 + length.toNat ≤ (payload ++ rest).length := by
        rw [List.length_append]
        omega
      rw [walkLabels_label (getElem?_append_of_some rest hread) hne hlength (by omega) hlonger]
      exact ih (by omega) (hlabel.symm.trans h)

theorem isDnsQuery_append (h : isDnsQuery payload = some true) :
    isDnsQuery (payload ++ rest) = some true := by
  unfold isDnsQuery at h ⊢
  split at h
  · simp at h
  · next hlong =>
    rw [if_neg (by rw [List.length_append]; omega)]
    have hread {i : ℕ} {byte : UInt8} (hbyte : payload[i]? = some byte) :=
      getElem?_append_of_some rest hbyte
    obtain ⟨b2, hb2, h⟩ := Option.bind_eq_some_iff.mp h
    obtain ⟨b3, hb3, h⟩ := Option.bind_eq_some_iff.mp h
    rw [hread hb2, hread hb3]
    simp only [Option.bind_eq_bind, Option.bind_some] at h ⊢
    split at h
    · simp at h
    · next hopcode =>
      rw [if_neg hopcode]
      obtain ⟨b4, hb4, h⟩ := Option.bind_eq_some_iff.mp h
      obtain ⟨b5, hb5, h⟩ := Option.bind_eq_some_iff.mp h
      rw [hread hb4, hread hb5]
      simp only [Option.bind_some] at h ⊢
      split at h
      · simp at h
      · next hquestions =>
        rw [if_neg hquestions]
        obtain ⟨result, hresult, h⟩ := Option.bind_eq_some_iff.mp h
        cases result with
        | none => simp at h
        | some position =>
          rw [walkLabels_append rest (by decide) hresult]
          simp only [Option.bind_some]
          obtain ⟨stop, hstop, h⟩ := Option.bind_eq_some_iff.mp h
          rw [hstop]
          simp only [Option.bind_some]
          split at h
          · simp at h
          · next hinside =>
            rw [if_neg (by rw [List.length_append]; omega)]
            obtain ⟨high, hhigh, h⟩ := Option.bind_eq_some_iff.mp h
            obtain ⟨low, hlow, h⟩ := Option.bind_eq_some_iff.mp h
            rw [hread hhigh, hread hlow]
            exact h

theorem isPrefixOf_append {start : List UInt8} (h : start.isPrefixOf payload = true) :
    start.isPrefixOf (payload ++ rest) = true :=
  List.isPrefixOf_iff_prefix.mpr
    ((List.isPrefixOf_iff_prefix.mp h).trans (List.prefix_append payload rest))

theorem Predicate.matches_append {predicate : Predicate}
    (h : predicate.matches payload = some true) :
    predicate.matches (payload ++ rest) = some true := by
  cases predicate with
  | minLen minimum =>
    have hle : minimum ≤ payload.length := of_decide_eq_true (Option.some.inj h)
    refine congrArg some (decide_eq_true ?_)
    rw [List.length_append]
    omega
  | prefixText start => exact congrArg some (isPrefixOf_append rest (Option.some.inj h))
  | prefixTextAny starts =>
    obtain ⟨start, hmem, hstart⟩ := List.any_eq_true.mp (Option.some.inj h)
    exact congrArg some (List.any_eq_true.mpr ⟨start, hmem, isPrefixOf_append rest hstart⟩)
  | bytes offset sequence =>
    obtain ⟨stop, hstop, h⟩ := Option.bind_eq_some_iff.mp h
    obtain ⟨window, hwindow, hsequence⟩ := (Option.any_eq_true _ _).mp (Option.some.inj h)
    simp only [Predicate.matches, hstop, Option.bind_eq_bind, Option.bind_some,
      getRange_append rest hwindow]
    exact congrArg some hsequence
  | byte offset mask compare =>
    obtain ⟨byte, hbyte, hcompare⟩ := (Option.any_eq_true _ _).mp (Option.some.inj h)
    simp only [Predicate.matches, getElem?_append_of_some rest hbyte]
    exact congrArg some hcompare
  | int offset size endian compare =>
    obtain ⟨found, hfound, h⟩ := Option.bind_eq_some_iff.mp h
    obtain ⟨value, rfl, hcompare⟩ := (Option.any_eq_true _ _).mp (Option.some.inj h)
    simp only [Predicate.matches, readInt_append rest hfound]
    exact congrArg some hcompare
  | builtin name => exact isDnsQuery_append rest h

theorem allM_mono {α : Type} {f g : α → Option Bool} {xs : List α}
    (hfg : ∀ x ∈ xs, f x = some true → g x = some true) (h : xs.allM f = some true) :
    xs.allM g = some true := by
  induction xs with
  | nil => rfl
  | cons x xs ih =>
    rw [List.allM] at h ⊢
    obtain ⟨verdict, hverdict, h⟩ := Option.bind_eq_some_iff.mp h
    cases verdict with
    | false => simp at h
    | true =>
      rw [hfg x List.mem_cons_self hverdict]
      exact ih (fun y hy => hfg y (List.mem_cons_of_mem _ hy)) h

theorem CompiledRule.matches_append {rule : CompiledRule} (h : rule.matches payload = some true) :
    rule.matches (payload ++ rest) = some true :=
  allM_mono (fun _ _ => Predicate.matches_append rest) h

end Append

/-- An accepted library is evaluated on every payload, and a rule that matches the sample also
matches whatever continues it. -/
theorem rules_mono_of_fromJson (parse : String → Except String LibraryDocument) (raw : String)
    (library : FingerprintLibrary) (h : FingerprintLibrary.fromJson parse raw = .ok library) :
    (∀ payload, ∃ service, library.classify payload = some service) ∧
      ∀ rule ∈ library.rules,
        (∀ payload, ∃ verdict, rule.matches payload = some verdict) ∧
          ∀ p q, rule.matches p = some true → rule.matches (p ++ q) = some true := by
  have haccepted := accepted_of_fromJson h
  refine ⟨fun payload => ?_, fun rule hrule => ⟨fun payload => ?_, fun p q hp => ?_⟩⟩
  · obtain ⟨found, hfound⟩ := findM?_total fun rule hrule =>
      CompiledRule.matches_total payload (haccepted rule hrule)
    refine ⟨found.map CompiledRule.service, ?_⟩
    unfold FingerprintLibrary.classify
    rw [hfound]
    rfl
  · exact CompiledRule.matches_total payload (haccepted rule hrule)
  · exact CompiledRule.matches_append q hp

/-- A rule over the start, one byte and a number. -/
def greeting : LibraryDocument where
  rules := [{
    service := "SOCKS5"
    predicates := [
      .byte 0 none { eq := some 5 },
      .int 1 1 .be { gte := some 1, lte := some 16 }] }]

theorem rules_mono_of_fromJson_greeting :
    ∃ rule : CompiledRule, rule.service = "SOCKS5" ∧
      rule.matches [5, 1, 0] = some true ∧ rule.matches ([5, 1, 0] ++ [22, 3]) = some true := by
  have hmono := (rules_mono_of_fromJson (fun _ => .ok greeting) "" _ rfl).2 _ List.mem_cons_self
  exact ⟨_, rfl, by decide, hmono.2 [5, 1, 0] [22, 3] (by decide)⟩

end Fingerprint

end ZimaScope
