import Mathlib.Data.Nat.Digits.Defs
import ZimaScope.Collector.Fingerprint
import ZimaScope.Lib.Framing
import ZimaScope.Query.Comm

/-! # Response bodies of the proxy controller

Chunked bodies are decoded by a loop that adds the size each chunk announces to its
position. Where the sum leaves the range of `usize` the poller panics; on every
other body the loop ends with the bytes or with an error.
-/

namespace ZimaScope.Http

open Framing
open Fingerprint (hexDigit toNat_of_hexDigit)

/-- How decoding fails: with an error that is returned, or with a panic. -/
inductive DecodeFailure
  | malformed (error : String)
  | overflow
  | outOfRange
  deriving DecidableEq, Repr

abbrev Decoded (α : Type) := Except DecodeFailure α

namespace Decoded

variable {α : Type}

def okOrElse (value : Option α) (error : String) : Decoded α :=
  value.elim (.error (.malformed error)) .ok

/-- Neither arithmetic nor a slice panics. -/
def Returns (result : Decoded α) : Prop :=
  (∃ value, result = .ok value) ∨ ∃ error, result = .error (.malformed error)

end Decoded

/-- The bytes of a `Vec`, of which there are at most `isize::MAX`. -/
def Bytes := { bytes : List UInt8 // bytes.length < 2 ^ 63 }

/-- Addition of `usize`, which is checked in a debug build and wraps in a release build. -/
def usizeAdd (checked : Bool) (a b : ℕ) : Decoded ℕ :=
  if a + b < 2 ^ 64 then .ok (a + b)
  else if checked then .error .overflow
  else .ok ((a + b) % 2 ^ 64)

/-- `&body[start..stop]`. -/
def slice (body : List UInt8) (start stop : ℕ) : Decoded (List UInt8) :=
  if start ≤ stop ∧ stop ≤ body.length then .ok ((body.take stop).drop start) else .error .outOfRange

/-- The number of which these are the hexadecimal digits. -/
def hexValue (digits : List Char) : Option ℕ :=
  digits.foldlM (fun value c => (hexDigit c).map fun digit => value * 16 + digit) 0

/-- `usize::from_str_radix(_, 16)`. -/
def usizeFromHex (text : List Char) : Option ℕ :=
  let digits := if text.head? = some '+' then text.tail else text
  if digits = [] then none else (hexValue digits).filter (· < 2 ^ 64)

/-- The size in a line: its text up to the first `;`, trimmed. -/
def chunkSize (line : List UInt8) : Decoded ℕ := do
  let sizeLine ← .okOrElse (String.fromUTF8? ⟨line.toArray⟩)
    "malformed chunked response: non-UTF-8 size"
  .okOrElse (usizeFromHex (trim (String.ofList (sizeLine.toList.takeWhile (· ≠ ';')))).toList)
    "malformed chunked response: bad chunk size"

def crlf : List UInt8 := [13, 10]

section Decoding

variable (checked : Bool) (body : List UInt8)

/-- The size that is announced at a position, and the position of its chunk. -/
def sizeAt (position : ℕ) : Decoded (ℕ × ℕ) := do
  let rest ← slice body position body.length
  let offset ← .okOrElse (pairIndex 13 10 rest) "malformed chunked response: missing size line"
  let lineEnd ← usizeAdd checked position offset
  let line ← slice body position lineEnd
  let size ← chunkSize line
  let position ← usizeAdd checked lineEnd 2
  return (size, position)

/-- A chunk of that size, and the position behind its terminator. -/
def chunkAt (position size : ℕ) : Decoded (List UInt8 × ℕ) := do
  let stop ← usizeAdd checked position size
  if body.length < stop then throw (.malformed "malformed chunked response: truncated chunk")
  let chunk ← slice body position stop
  let next ← usizeAdd checked stop 2
  if (body.drop stop).take 2 ≠ crlf then
    throw (.malformed "malformed chunked response: missing chunk terminator")
  return (chunk, next)

/-- One round of the loop: nothing at the last chunk, whose size is zero. -/
def nextChunk (position : ℕ) : Decoded (Option (List UInt8 × ℕ)) := do
  let (size, position) ← sizeAt checked body position
  if size = 0 then return none
  let chunk ← chunkAt checked body position size
  return some chunk

end Decoding

/-- The code reads that size in the line. -/
def SizeLine (line : List UInt8) (size : ℕ) : Prop :=
  ¬ [13, 10] <:+: line ∧ chunkSize line = .ok size

section Steps

variable {checked : Bool} {body before line chunk rest tail : List UInt8} {size : ℕ}

theorem usizeAdd_eq {a b : ℕ} (h : a + b < 2 ^ 64) : usizeAdd checked a b = .ok (a + b) := if_pos h

theorem slice_append (hbody : body = before ++ (chunk ++ rest)) :
    slice body before.length (before.length + chunk.length) = .ok chunk := by
  have hstop : before.length + chunk.length ≤ body.length := by
    rw [hbody, List.length_append, List.length_append]
    omega
  rw [slice, if_pos ⟨Nat.le_add_right _ _, hstop⟩, hbody, ← List.append_assoc, ← List.length_append,
    List.take_left, List.drop_left]

theorem slice_tail (hbody : body = before ++ tail) :
    slice body before.length body.length = .ok tail := by
  have hlength : body.length = before.length + tail.length := by rw [hbody, List.length_append]
  have hbody' : body = before ++ (tail ++ []) := by rw [hbody, List.append_nil]
  rw [hlength]
  exact slice_append hbody'

theorem sizeAt_of_none (hbody : body = before ++ tail) (h : pairIndex 13 10 tail = none) :
    sizeAt checked body before.length =
      .error (.malformed "malformed chunked response: missing size line") := by
  rw [sizeAt, slice_tail hbody]
  change (Decoded.okOrElse (pairIndex 13 10 tail) _ >>= _) = _
  rw [h]
  rfl

theorem sizeAt_line (hlength : body.length < 2 ^ 63)
    (hbody : body = before ++ (line ++ 13 :: 10 :: rest)) (hline : ¬ [13, 10] <:+: line) :
    sizeAt checked body before.length =
      (chunkSize line).map fun size => (size, before.length + line.length + 2) := by
  have hle : before.length + line.length + 2 ≤ body.length := by
    rw [hbody]
    simp only [List.length_append, List.length_cons]
    omega
  rw [sizeAt, slice_tail hbody]
  change (Decoded.okOrElse (pairIndex 13 10 (line ++ 13 :: 10 :: rest)) _ >>= _) = _
  rw [pairIndex_append (by decide) hline]
  change (usizeAdd checked before.length line.length >>= _) = _
  rw [usizeAdd_eq (by omega)]
  change (slice body before.length (before.length + line.length) >>= _) = _
  rw [slice_append hbody]
  change (chunkSize line >>= fun size => usizeAdd checked (before.length + line.length) 2 >>= _) = _
  rw [usizeAdd_eq (by omega)]
  cases chunkSize line <;> rfl

/-- The failure at a size that reaches beyond `usize`. -/
def overrun (checked : Bool) : DecodeFailure := if checked then .overflow else .outOfRange

theorem chunkAt_overrun (hlength : body.length < 2 ^ 63) (hbody : body = before ++ rest)
    (hsize : size < 2 ^ 64) (h : 2 ^ 64 ≤ before.length + size) :
    chunkAt checked body before.length size = .error (overrun checked) := by
  have hbefore : before.length ≤ body.length := by
    rw [hbody, List.length_append]
    omega
  cases checked with
  | true =>
    rw [chunkAt, usizeAdd, if_neg (by omega)]
    rfl
  | false =>
    -- The sum wraps to a position before the chunk, where no slice ends.
    have hwrap : (before.length + size) % 2 ^ 64 < before.length := by omega
    rw [chunkAt, usizeAdd, if_neg (by omega)]
    change (if _ then _ else _) = _
    rw [if_neg (by omega), slice, if_neg (by omega)]
    rfl

theorem chunkAt_truncated (hbody : body = before ++ rest) (hsize : before.length + size < 2 ^ 64)
    (h : rest.length < size) :
    chunkAt checked body before.length size =
      .error (.malformed "malformed chunked response: truncated chunk") := by
  have hlt : body.length < before.length + size := by
    rw [hbody, List.length_append]
    omega
  rw [chunkAt, usizeAdd_eq hsize]
  change (if _ then _ else _) = _
  rw [if_pos hlt]
  rfl

theorem chunkAt_append (hlength : body.length < 2 ^ 63) (hbody : body = before ++ (chunk ++ rest)) :
    chunkAt checked body before.length chunk.length =
      if rest.take 2 = crlf then .ok (chunk, before.length + chunk.length + 2)
      else .error (.malformed "malformed chunked response: missing chunk terminator") := by
  have hle : before.length + chunk.length ≤ body.length := by
    rw [hbody, List.length_append, List.length_append]
    omega
  have hdrop : body.drop (before.length + chunk.length) = rest := by
    rw [hbody, ← List.append_assoc, ← List.length_append, List.drop_left]
  rw [chunkAt, usizeAdd_eq (by omega)]
  change (if _ then _ else _) = _
  rw [if_neg (by omega), slice_append hbody]
  change (usizeAdd checked (before.length + chunk.length) 2 >>= _) = _
  rw [usizeAdd_eq (by omega)]
  change (if (body.drop (before.length + chunk.length)).take 2 ≠ crlf then _ else _) = _
  rw [hdrop]
  by_cases hterminator : rest.take 2 = crlf
  · rw [if_neg (not_not.mpr hterminator), if_pos hterminator]
    rfl
  · rw [if_pos hterminator, if_neg hterminator]
    rfl

/-! ## Rounds -/

theorem nextChunk_of_none (hbody : body = before ++ tail) (h : pairIndex 13 10 tail = none) :
    nextChunk checked body before.length =
      .error (.malformed "malformed chunked response: missing size line") := by
  rw [nextChunk, sizeAt_of_none hbody h]
  rfl

theorem nextChunk_line (hlength : body.length < 2 ^ 63)
    (hbody : body = before ++ (line ++ 13 :: 10 :: rest)) (hline : SizeLine line size) :
    nextChunk checked body before.length =
      if size = 0 then .ok none
      else (chunkAt checked body (before.length + line.length + 2) size).map some := by
  rw [nextChunk, sizeAt_line hlength hbody hline.1, hline.2]
  change (if _ then _ else _) = _
  split
  · rfl
  · cases chunkAt checked body (before.length + line.length + 2) size <;> rfl

theorem nextChunk_badSize {e : DecodeFailure} (hlength : body.length < 2 ^ 63)
    (hbody : body = before ++ (line ++ 13 :: 10 :: rest)) (hline : ¬ [13, 10] <:+: line)
    (hsize : chunkSize line = .error e) : nextChunk checked body before.length = .error e := by
  rw [nextChunk, sizeAt_line hlength hbody hline, hsize]
  rfl

theorem Decoded.okOrElse_eq_ok {α : Type} {value : Option α} {error : String} {a : α} :
    okOrElse value error = .ok a ↔ value = some a := by
  cases value with
  | none => exact iff_of_false (fun h => by cases h) (Option.some_ne_none a).symm
  | some b => exact Except.ok.injEq b a ▸ Option.some.injEq b a ▸ Iff.rfl

theorem Decoded.okOrElse_eq_error {α : Type} {value : Option α} {error : String} {e : DecodeFailure}
    (h : okOrElse value error = .error e) : e = .malformed error := by
  cases value with
  | none => exact (Except.error.inj h).symm
  | some a => cases h

theorem chunkSize_error {e : DecodeFailure} (h : chunkSize line = .error e) :
    ∃ error, e = .malformed error := by
  unfold chunkSize at h
  cases htext : Decoded.okOrElse (String.fromUTF8? ⟨line.toArray⟩)
      "malformed chunked response: non-UTF-8 size" with
  | error e' =>
    rw [htext] at h
    simp only [bind, Except.bind, Except.error.injEq] at h
    exact ⟨_, h.symm.trans (Decoded.okOrElse_eq_error htext)⟩
  | ok text =>
    rw [htext] at h
    simp only [bind, Except.bind] at h
    exact ⟨_, Decoded.okOrElse_eq_error h⟩

theorem chunkSize_eq_ok : chunkSize line = .ok size ↔
    ∃ text, String.fromUTF8? ⟨line.toArray⟩ = some text ∧
      usizeFromHex (trim (String.ofList (text.toList.takeWhile (· ≠ ';')))).toList = some size := by
  unfold chunkSize
  rw [Except.bind_eq_ok]
  simp only [Decoded.okOrElse_eq_ok]

theorem usizeFromHex_lt {text : List Char} (h : usizeFromHex text = some size) : size < 2 ^ 64 := by
  unfold usizeFromHex at h
  generalize (if text.head? = some '+' then text.tail else text) = digits at h
  dsimp only at h
  split at h
  · cases h
  · exact of_decide_eq_true (Option.filter_eq_some_iff.mp h).2

theorem SizeLine.lt (h : SizeLine line size) : size < 2 ^ 64 := by
  obtain ⟨text, -, hsize⟩ := chunkSize_eq_ok.mp h.2
  exact usizeFromHex_lt hsize

theorem before_line (hbody : body = before ++ (line ++ 13 :: 10 :: rest)) :
    body = (before ++ (line ++ crlf)) ++ rest ∧
      (before ++ (line ++ crlf)).length = before.length + line.length + 2 := by
  rw [hbody]
  simp only [crlf, List.append_assoc, List.cons_append, List.nil_append, List.length_append,
    List.length_cons, List.length_nil, true_and]
  omega

theorem nextChunk_last (hlength : body.length < 2 ^ 63)
    (hbody : body = before ++ (line ++ 13 :: 10 :: rest)) (hline : SizeLine line 0) :
    nextChunk checked body before.length = .ok none :=
  (nextChunk_line hlength hbody hline).trans (if_pos rfl)

theorem nextChunk_overrun (hlength : body.length < 2 ^ 63)
    (hbody : body = before ++ (line ++ 13 :: 10 :: rest)) (hline : SizeLine line size)
    (h : 2 ^ 64 ≤ before.length + line.length + 2 + size) :
    nextChunk checked body before.length = .error (overrun checked) := by
  obtain ⟨hbody', hposition⟩ := before_line hbody
  have hne : size ≠ 0 := by
    rintro rfl
    rw [hbody', List.length_append, hposition] at hlength
    omega
  rw [nextChunk_line hlength hbody hline, if_neg hne, ← hposition,
    chunkAt_overrun hlength hbody' hline.lt (by rw [hposition]; exact h)]
  rfl

theorem nextChunk_truncated (hlength : body.length < 2 ^ 63)
    (hbody : body = before ++ (line ++ 13 :: 10 :: rest)) (hline : SizeLine line size)
    (h : before.length + line.length + 2 + size < 2 ^ 64) (hrest : rest.length < size) :
    nextChunk checked body before.length =
      .error (.malformed "malformed chunked response: truncated chunk") := by
  obtain ⟨hbody', hposition⟩ := before_line hbody
  rw [nextChunk_line hlength hbody hline, if_neg (by omega), ← hposition,
    chunkAt_truncated hbody' (by rw [hposition]; exact h) hrest]
  rfl

theorem nextChunk_chunk (hlength : body.length < 2 ^ 63)
    (hbody : body = before ++ (line ++ 13 :: 10 :: (chunk ++ rest)))
    (hline : SizeLine line chunk.length) (hne : chunk ≠ []) :
    nextChunk checked body before.length =
      if rest.take 2 = crlf then
        .ok (some (chunk, before.length + line.length + 2 + chunk.length + 2))
      else .error (.malformed "malformed chunked response: missing chunk terminator") := by
  obtain ⟨hbody', hposition⟩ := before_line hbody
  rw [nextChunk_line hlength hbody hline, if_neg fun h => hne (List.length_eq_zero_iff.mp h),
    ← hposition, chunkAt_append hlength hbody']
  split <;> rfl

/-- What a round of the loop can do. -/
theorem nextChunk_cases (hlength : body.length < 2 ^ 63) (hbody : body = before ++ tail) :
    (∃ error, nextChunk checked body before.length = .error (.malformed error)) ∨
    nextChunk checked body before.length = .ok none ∨
    (∃ line chunk rest, tail = line ++ 13 :: 10 :: (chunk ++ 13 :: 10 :: rest) ∧
      SizeLine line chunk.length ∧ chunk ≠ [] ∧ nextChunk checked body before.length =
        .ok (some (chunk, before.length + line.length + 2 + chunk.length + 2))) ∨
    ∃ line rest size, tail = line ++ 13 :: 10 :: rest ∧ SizeLine line size ∧
      2 ^ 64 ≤ before.length + line.length + 2 + size ∧
      nextChunk checked body before.length = .error (overrun checked) := by
  rcases exists_line (a := (13 : UInt8)) (b := 10) tail with hnone | ⟨line, rest, rfl, hline⟩
  · exact Or.inl ⟨_, nextChunk_of_none hbody hnone⟩
  · cases hsize : chunkSize line with
    | error e =>
      obtain ⟨error, rfl⟩ := chunkSize_error hsize
      exact Or.inl ⟨error, nextChunk_badSize hlength hbody hline hsize⟩
    | ok size =>
      by_cases hzero : size = 0
      · subst hzero
        exact Or.inr (Or.inl (nextChunk_last hlength hbody ⟨hline, hsize⟩))
      · by_cases hover : 2 ^ 64 ≤ before.length + line.length + 2 + size
        · exact Or.inr (Or.inr (Or.inr ⟨line, rest, size, rfl, ⟨hline, hsize⟩, hover,
            nextChunk_overrun hlength hbody ⟨hline, hsize⟩ hover⟩))
        · by_cases hrest : rest.length < size
          · exact Or.inl ⟨_, nextChunk_truncated hlength hbody ⟨hline, hsize⟩ (by omega) hrest⟩
          · obtain ⟨chunk, rest', rfl, rfl⟩ : ∃ chunk rest', rest = chunk ++ rest' ∧ chunk.length = size :=
              ⟨rest.take size, rest.drop size, (List.take_append_drop _ _).symm,
                List.length_take_of_le (by omega)⟩
            have hne : chunk ≠ [] := fun h => hzero (List.length_eq_zero_iff.mpr h)
            have hround := @nextChunk_chunk checked _ _ _ _ _ hlength hbody ⟨hline, hsize⟩ hne
            by_cases hterminator : rest'.take 2 = crlf
            · rw [if_pos hterminator] at hround
              refine Or.inr (Or.inr (Or.inl
                ⟨line, chunk, rest'.drop 2, ?_, ⟨hline, hsize⟩, hne, hround⟩))
              have hrest' : rest' = 13 :: 10 :: rest'.drop 2 := by
                conv_lhs => rw [← List.take_append_drop 2 rest', hterminator]
                rfl
              rw [← hrest']
            · rw [if_neg hterminator] at hround
              exact Or.inl ⟨_, hround⟩

theorem nextChunk_progress {position next : ℕ} (hlength : body.length < 2 ^ 63)
    (h : nextChunk checked body position = .ok (some (chunk, next))) :
    position < next ∧ next ≤ body.length := by
  have hle : position ≤ body.length := by
    by_contra hlt
    rw [nextChunk, sizeAt, slice, if_neg fun hslice => hlt hslice.1] at h
    cases h
  have hbody : body = body.take position ++ body.drop position := (List.take_append_drop _ _).symm
  have hposition : (body.take position).length = position := List.length_take_of_le hle
  have hcases := @nextChunk_cases checked _ _ _ hlength hbody
  rw [hposition, h] at hcases
  rcases hcases with ⟨_, herror⟩ | hnone | ⟨line, chunk', rest, htail, -, -, hnext⟩ |
    ⟨_, _, _, -, -, -, herror⟩
  · cases herror
  · cases hnone
  · obtain ⟨-, rfl⟩ := Prod.mk.inj (Option.some.inj (Except.ok.inj hnext))
    have hdrop := congrArg List.length htail
    simp only [List.length_drop, List.length_append, List.length_cons] at hdrop
    omega
  · cases herror

end Steps

/-! ## The loop -/

section Loop

variable (checked : Bool) (body : Bytes)

def decodeLoop (position : ℕ) (decoded : List UInt8) : Decoded (List UInt8) :=
  match _h : nextChunk checked body.1 position with
  | .error e => .error e
  | .ok none => .ok decoded
  | .ok (some (chunk, next)) => decodeLoop next (decoded ++ chunk)
termination_by body.1.length - position
decreasing_by
  have hprogress := nextChunk_progress body.2 _h
  omega

def decodeBody (chunked : Bool) : Decoded (List UInt8) :=
  if chunked then decodeLoop checked body 0 [] else .ok body.1

end Loop

section Runs

variable {checked : Bool} {body : Bytes} {before text tail decoded line rest chunk : List UInt8}
  {chunks : List (List UInt8)} {position next size : ℕ} {e : DecodeFailure}

theorem decodeLoop_error (h : nextChunk checked body.1 position = .error e) :
    decodeLoop checked body position decoded = .error e := by
  rw [decodeLoop]
  split
  next e' h' => rw [h] at h'; exact congrArg _ (Except.error.inj h').symm
  next h' => rw [h] at h'; cases h'
  next h' => rw [h] at h'; cases h'

theorem decodeLoop_last (h : nextChunk checked body.1 position = .ok none) :
    decodeLoop checked body position decoded = .ok decoded := by
  rw [decodeLoop]
  split
  next h' => rw [h] at h'; cases h'
  next => rfl
  next h' => rw [h] at h'; cases h'

theorem decodeLoop_chunk (h : nextChunk checked body.1 position = .ok (some (chunk, next))) :
    decodeLoop checked body position decoded = decodeLoop checked body next (decoded ++ chunk) := by
  rw [decodeLoop]
  split
  next h' => rw [h] at h'; cases h'
  next h' => rw [h] at h'; cases h'
  next h' =>
    rw [h] at h'
    obtain ⟨rfl, rfl⟩ := Prod.mk.inj (Option.some.inj (Except.ok.inj h'))
    rfl

/-- The loop takes whole chunks one after the other. -/
theorem decodeLoop_frames (h : Frames 13 10 SizeLine chunks text)
    (hbody : body.1 = before ++ (text ++ tail)) :
    decodeLoop checked body before.length decoded =
      decodeLoop checked body (before ++ text).length (decoded ++ chunks.flatten) := by
  induction h generalizing before decoded with
  | nil => rw [List.append_nil, List.flatten_nil, List.append_nil]
  | @cons line chunk chunks text hline hne _ ih =>
    have hbody' : body.1 = before ++ (line ++ 13 :: 10 :: (chunk ++ 13 :: 10 :: (text ++ tail))) := by
      rw [hbody]
      simp only [List.append_assoc, List.cons_append]
    have hterminator : (13 :: 10 :: (text ++ tail)).take 2 = crlf := rfl
    have hround : nextChunk checked body.1 before.length =
        .ok (some (chunk, before.length + line.length + 2 + chunk.length + 2)) := by
      rw [nextChunk_chunk body.2 hbody' hline hne, if_pos hterminator]
    have hnext : before.length + line.length + 2 + chunk.length + 2 =
        (before ++ (line ++ 13 :: 10 :: (chunk ++ [13, 10]))).length := by
      simp only [List.length_append, List.length_cons, List.length_nil]
      omega
    have hrest : body.1 = (before ++ (line ++ 13 :: 10 :: (chunk ++ [13, 10]))) ++ (text ++ tail) := by
      rw [hbody']
      simp only [List.append_assoc, List.cons_append, List.nil_append]
    rw [decodeLoop_chunk hround, hnext, ih hrest, List.flatten_cons, List.append_assoc decoded]
    simp only [List.append_assoc, List.cons_append, List.nil_append]

theorem decodeBody_frames (h : Frames 13 10 SizeLine chunks text) (hbody : body.1 = text ++ tail) :
    decodeBody checked body true = decodeLoop checked body text.length chunks.flatten :=
  @decodeLoop_frames checked body [] text tail [] chunks h hbody

/-- Behind whole chunks a line announces a size with which the position leaves the range. -/
def Overruns (bytes : List UInt8) : Prop :=
  ∃ chunks text line rest size, Frames 13 10 SizeLine chunks text ∧
    bytes = text ++ (line ++ 13 :: 10 :: rest) ∧ SizeLine line size ∧
    2 ^ 64 ≤ text.length + line.length + 2 + size

theorem decodeBody_overruns (h : Overruns body.1) :
    decodeBody checked body true = .error (overrun checked) := by
  obtain ⟨chunks, text, line, rest, size, hframes, hbody, hline, hsize⟩ := h
  rw [decodeBody_frames hframes hbody]
  exact decodeLoop_error (nextChunk_overrun body.2 hbody hline hsize)

theorem decodeLoop_returns (hover : ¬ Overruns body.1) (hframes : Frames 13 10 SizeLine chunks before)
    (hbody : body.1 = before ++ tail) :
    (decodeLoop checked body before.length decoded).Returns := by
  induction hn : tail.length using Nat.strong_induction_on generalizing before tail decoded chunks with
  | _ n ih =>
    rcases @nextChunk_cases checked _ _ _ body.2 hbody with ⟨error, hround⟩ | hround |
      ⟨line, chunk, rest, rfl, hline, hne, hround⟩ | ⟨line, rest, size, rfl, hline, hsize, -⟩
    · exact Or.inr ⟨error, decodeLoop_error hround⟩
    · exact Or.inl ⟨decoded, decodeLoop_last hround⟩
    · have hnext : before.length + line.length + 2 + chunk.length + 2 =
          (before ++ (line ++ 13 :: 10 :: (chunk ++ [13, 10]))).length := by
        simp only [List.length_append, List.length_cons, List.length_nil]
        omega
      rw [decodeLoop_chunk hround, hnext]
      refine ih rest.length ?_ (hframes.snoc hline hne) ?_ rfl
      · rw [← hn]
        simp only [List.length_append, List.length_cons]
        omega
      · rw [hbody]
        simp only [List.append_assoc, List.cons_append, List.nil_append]
    · exact absurd ⟨chunks, before, line, rest, size, hframes, hbody, hline, hsize⟩ hover

/-- Decoding returns exactly on the bodies that announce no size beyond the range. -/
theorem decodeBody_returns_iff :
    (decodeBody checked body true).Returns ↔ ¬ Overruns body.1 := by
  constructor
  · intro h hover
    rw [decodeBody_overruns hover] at h
    rcases h with ⟨_, h⟩ | ⟨_, h⟩
    · cases h
    · cases checked <;> cases h
  · intro hover
    have hbody : body.1 = [] ++ body.1 := rfl
    exact decodeLoop_returns hover .nil hbody

end Runs

/-! ## Encodings -/

/-- A size in hexadecimal digits, and an extension behind a semicolon or none. -/
def HexLine (line : List UInt8) (size : ℕ) : Prop :=
  ∃ digits extension : List Char, digits ≠ [] ∧ hexValue digits = some size ∧
    (extension = [] ∨ ∃ text, extension = ';' :: text) ∧
    line = textBytes (String.ofList (digits ++ extension)) ∧ ¬ [13, 10] <:+: line

example : HexLine (textBytes "1A;x=y") 26 :=
  ⟨['1', 'A'], [';', 'x', '=', 'y'], by decide, by decide, Or.inr ⟨_, rfl⟩, rfl, by decide +kernel⟩

/-- The chunks encoded, up to the end of the line of size zero. -/
def Encodes (chunks : List (List UInt8)) (text : List UInt8) : Prop :=
  ∃ frames line, Frames 13 10 HexLine chunks frames ∧ HexLine line 0 ∧
    text = frames ++ (line ++ [13, 10])

/-- Decoding is total and inverts encoding: it returns, it finds the chunks of an encoding whatever
trails it, and what is cut from an encoding is an error. -/
def Inverts (decode : Bytes → Decoded (List UInt8)) (body : Bytes) : Prop :=
  (decode body).Returns ∧
    (∀ chunks text trailers, Encodes chunks text → body.1 = text ++ trailers →
      decode body = .ok chunks.flatten) ∧
    ∀ chunks, ∀ whole : Bytes, Encodes chunks whole.1 → body.1 <+: whole.1 → body.1 ≠ whole.1 →
      ∃ error, decode body = .error (.malformed error)

section Digits

variable {digits : List Char} {c : Char} {value n : ℕ}

theorem hexDigit_plain (h : hexDigit c = some value) :
    isWhiteSpace c = false ∧ c ≠ ';' ∧ c ≠ '+' := by
  have hrange := toNat_of_hexDigit h
  refine ⟨?_, ?_, ?_⟩
  · simp only [isWhiteSpace, Bool.or_eq_false_iff, Bool.and_eq_false_iff, decide_eq_false_iff_not]
    omega
  · rintro rfl
    exact absurd hrange (by decide)
  · rintro rfl
    exact absurd hrange (by decide)

theorem exists_hexDigit (h : hexValue digits = some n) (hc : c ∈ digits) :
    ∃ value, hexDigit c = some value := by
  have hfold : ∀ value : ℕ,
      digits.foldlM (fun value c => (hexDigit c).map fun digit => value * 16 + digit) value = some n →
        ∃ value, hexDigit c = some value := by
    clear h
    induction digits with
    | nil => cases hc
    | cons d digits ih =>
      intro value hvalue
      rw [List.foldlM_cons] at hvalue
      obtain ⟨value', hdigit, hrest⟩ := Option.bind_eq_some_iff.mp hvalue
      rcases List.mem_cons.mp hc with rfl | hc
      · obtain ⟨digit, hdigit, -⟩ := Option.map_eq_some_iff.mp hdigit
        exact ⟨digit, hdigit⟩
      · exact ih hc value' hrest
  exact hfold 0 h

theorem plain_of_hexValue (h : hexValue digits = some n) (hc : c ∈ digits) :
    isWhiteSpace c = false ∧ c ≠ ';' ∧ c ≠ '+' := by
  obtain ⟨value, hvalue⟩ := exists_hexDigit h hc
  exact hexDigit_plain hvalue

theorem usizeFromHex_digits (hne : digits ≠ []) (h : hexValue digits = some n) (hn : n < 2 ^ 64) :
    usizeFromHex digits = some n := by
  have hsign : digits.head? ≠ some '+' := by
    intro hhead
    exact (plain_of_hexValue h (List.mem_of_mem_head? hhead)).2.2 rfl
  unfold usizeFromHex
  rw [if_neg hsign]
  dsimp only
  rw [if_neg hne, h, Option.filter_some, if_pos (decide_eq_true hn)]

theorem dropWhile_of_forall {p : Char → Bool} {l : List Char} (h : ∀ c ∈ l, p c = false) :
    l.dropWhile p = l := by
  cases l with
  | nil => rfl
  | cons c l =>
    refine List.dropWhile_cons_of_neg ?_
    rw [h c List.mem_cons_self]
    exact Bool.false_ne_true

theorem trim_digits (h : hexValue digits = some n) :
    (trim (String.ofList digits)).toList = digits := by
  have hplain : ∀ c ∈ digits, isWhiteSpace c = false := fun c hc => (plain_of_hexValue h hc).1
  unfold trim
  rw [String.toList_ofList, String.toList_ofList, dropWhile_of_forall hplain,
    dropWhile_of_forall fun c hc => hplain c (List.mem_reverse.mp hc), List.reverse_reverse]

/-- The text up to the first semicolon. -/
theorem takeWhile_digits {extension : List Char} (h : hexValue digits = some n)
    (hextension : extension = [] ∨ ∃ text, extension = ';' :: text) :
    (digits ++ extension).takeWhile (· ≠ ';') = digits := by
  rw [List.takeWhile_append_of_pos fun c hc => decide_eq_true (plain_of_hexValue h hc).2.1]
  rcases hextension with rfl | ⟨text, rfl⟩
  · rw [List.takeWhile_nil, List.append_nil]
  · rw [List.takeWhile_cons_of_neg (by decide), List.append_nil]

end Digits

theorem HexLine.sizeLine {line : List UInt8} {size : ℕ} (h : HexLine line size) (hsize : size < 2 ^ 64) :
    SizeLine line size := by
  obtain ⟨digits, extension, hne, hvalue, hextension, rfl, hcrlf⟩ := h
  refine ⟨hcrlf, chunkSize_eq_ok.mpr ⟨String.ofList (digits ++ extension), ?_, ?_⟩⟩
  · exact fromUTF8?_eq_some_iff.mpr rfl
  · rw [String.toList_ofList, takeWhile_digits hvalue hextension, trim_digits hvalue,
      usizeFromHex_digits hne hvalue hsize]

section Encodings

variable {checked : Bool} {body : Bytes} {text tail : List UInt8} {chunks : List (List UInt8)}

/-- A line of an encoding that fits in memory. -/
def BoundedLine (line : List UInt8) (size : ℕ) : Prop := SizeLine line size ∧ size < 2 ^ 63

theorem Encodes.bounded (h : Encodes chunks text) (hlength : text.length < 2 ^ 63) :
    ∃ frames line, Frames 13 10 BoundedLine chunks frames ∧ SizeLine line 0 ∧
      text = frames ++ (line ++ [13, 10]) := by
  obtain ⟨frames, line, hframes, hline, rfl⟩ := h
  rw [List.length_append] at hlength
  refine ⟨frames, line, hframes.imp fun line' n hn hline' => ?_, hline.sizeLine (by decide), rfl⟩
  exact ⟨hline'.sizeLine (by omega), by omega⟩

theorem decodeBody_encodes {trailers : List UInt8} (h : Encodes chunks text)
    (hbody : body.1 = text ++ trailers) : decodeBody checked body true = .ok chunks.flatten := by
  have hlength : text.length < 2 ^ 63 := by
    have hlt := body.2
    rw [hbody, List.length_append] at hlt
    omega
  obtain ⟨frames, line, hframes, hline, rfl⟩ := h.bounded hlength
  have hbody' : body.1 = frames ++ (line ++ 13 :: 10 :: trailers) := by
    rw [hbody]
    simp only [List.append_assoc, List.cons_append, List.nil_append]
  rw [decodeBody_frames (hframes.imp fun _ _ _ => And.left) hbody']
  exact decodeLoop_last (nextChunk_last body.2 hbody' hline)

theorem decodeBody_cut {whole : Bytes} (h : Encodes chunks whole.1) (hcut : body.1 <+: whole.1)
    (hne : body.1 ≠ whole.1) : ∃ error, decodeBody checked body true = .error (.malformed error) := by
  obtain ⟨frames, line, hframes, hline, hwhole⟩ := h.bounded whole.2
  rw [hwhole] at hcut hne
  obtain ⟨chunks', text', q, hframes', hbody, hq⟩ := hframes.cut hcut hne
  rw [decodeBody_frames (hframes'.imp fun _ _ _ => And.left) hbody]
  rcases hq with ⟨line', hline', hq, hne'⟩ | ⟨line', chunk, r, hline', hchunk, rfl, hr, hne'⟩
  · have hpair : ¬ [13, 10] <:+: line' := by
      rcases hline' with rfl | ⟨n, hline'⟩
      · exact hline.1
      · exact hline'.1.1
    exact ⟨_, decodeLoop_error (nextChunk_of_none hbody
      (pairIndex_eq_none.mpr (not_infix_of_cut (by decide) hpair hq hne')))⟩
  · have hposition : text'.length + line'.length + 2 < 2 ^ 63 := by
      have hlt := body.2
      rw [hbody] at hlt
      simp only [List.length_append, List.length_cons] at hlt
      omega
    rcases prefix_append_cases hr with ⟨hr, hne''⟩ | ⟨t, rfl, ht⟩
    · have hshort : r.length < chunk.length :=
        hr.length_le.lt_of_ne fun heq => hne'' (hr.eq_of_length heq)
      have hfits : text'.length + line'.length + 2 + chunk.length < 2 ^ 64 := by
        have hsize := hline'.2
        omega
      exact ⟨_, decodeLoop_error (nextChunk_truncated body.2 hbody hline'.1 hfits hshort)⟩
    · have hterminator : t.take 2 ≠ crlf := by
        have hlength : t.length ≤ 2 := ht.length_le
        rw [List.take_of_length_le hlength]
        exact fun heq => hne' (by rw [heq, crlf])
      have hround := @nextChunk_chunk checked _ _ _ _ _ body.2 hbody hline'.1 hchunk
      rw [if_neg hterminator] at hround
      exact ⟨_, decodeLoop_error hround⟩

end Encodings

/-- Decoding is total and inverts encoding exactly on the bodies that announce no size with which the
position leaves the range of `usize`. -/
theorem decodeBody_inverts_iff (checked : Bool) (body : Bytes) :
    Inverts (fun bytes => decodeBody checked bytes true) body ↔ ¬ Overruns body.1 := by
  constructor
  · intro h
    exact decodeBody_returns_iff.mp h.1
  · intro hover
    exact ⟨decodeBody_returns_iff.mpr hover, fun _ _ _ => decodeBody_encodes, fun _ _ => decodeBody_cut⟩

/-- A size line of the largest `usize`. -/
def largestSize : Bytes := ⟨textBytes "ffffffffffffffff\r\n", by decide +kernel⟩

theorem overruns_largestSize : Overruns largestSize.1 := by
  have hbody : largestSize.1 = [] ++ (textBytes "ffffffffffffffff" ++ 13 :: 10 :: []) := by
    decide +kernel
  have hsize : chunkSize (textBytes "ffffffffffffffff") = .ok (2 ^ 64 - 1) :=
    chunkSize_eq_ok.mpr ⟨"ffffffffffffffff", fromUTF8?_eq_some_iff.mpr rfl, by decide +kernel⟩
  exact ⟨[], [], _, [], _, .nil, hbody, ⟨by decide +kernel, hsize⟩, by decide +kernel⟩

/-- The poller panics, whether or not additions are checked. -/
theorem largestSize_panics :
    decodeBody true largestSize true = .error .overflow ∧
      decodeBody false largestSize true = .error .outOfRange ∧
      ¬ Inverts (fun bytes => decodeBody true bytes true) largestSize ∧
      ¬ Inverts (fun bytes => decodeBody false bytes true) largestSize := by
  refine ⟨decodeBody_overruns overruns_largestSize, decodeBody_overruns overruns_largestSize, ?_, ?_⟩
  · exact fun h => decodeBody_returns_iff.mp h.1 overruns_largestSize
  · exact fun h => decodeBody_returns_iff.mp h.1 overruns_largestSize

end ZimaScope.Http
