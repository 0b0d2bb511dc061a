import Mathlib.Data.List.DropRight
import ZimaScope.Ebpf.Domain

/-! # The Host header of a request

The `Host` parser as a function of the bytes that it scans.
-/

namespace ZimaScope

/-- The bytes of a text in ASCII. -/
def asciiBytes (text : String) : List UInt8 := text.toList.map fun c => .ofNat c.toNat

/-- What follows the first CRLF. -/
def afterCrlf : List UInt8 → Option (List UInt8)
  | b0 :: b1 :: rest => if b0 = 13 ∧ b1 = 10 then some rest else afterCrlf (b1 :: rest)
  | _ => none

/-- The bytes that end a host. -/
def isHostEnd (byte : UInt8) : Bool := byte = 13 || byte = 10 || byte = 58

/-- The bytes of a host that are kept. -/
def hostBytes (value : List UInt8) : List UInt8 :=
  (value.takeWhile fun byte => !isHostEnd byte).take maxHttpHostLen

/-- The host that a value begins with. -/
def hostOf (value : List UInt8) : Option (List UInt8) :=
  let host := (hostBytes value).rdropWhile isBlank
  if host = [] then none else some host

/-- The host in the first header called `Host`, of at most so many headers. -/
def hostIn : ℕ → List UInt8 → Option (List UInt8)
  | 0, _ => none
  | headers + 1, rest =>
    if [13, 10] <+: rest then none
    else if isHostName (rest.take 5) then hostOf ((rest.drop 5).dropWhile isBlank)
    else (afterCrlf rest).bind (hostIn headers)

def httpHost (payload : List UInt8) : Option (List UInt8) :=
  let window := payload.take maxHttpScan
  if window.take 4 ∈ httpMethods then (afterCrlf window).bind (hostIn maxHttpHeaders) else none

/-! ## Lines -/

def CrlfFree (line : List UInt8) : Prop := ¬ [13, 10] <:+: line

theorem CrlfFree.part {line part : List UInt8} (h : CrlfFree line) (hpart : part <:+: line) :
    CrlfFree part := fun hcrlf => h (hcrlf.trans hpart)

theorem crlfFree_cons {b0 : UInt8} {rest : List UInt8} :
    CrlfFree (b0 :: rest) ↔ ¬ (b0 = 13 ∧ rest.head? = some 10) ∧ CrlfFree rest := by
  unfold CrlfFree
  rw [List.infix_cons_iff, not_or, List.cons_prefix_cons]
  cases rest with
  | nil => simp
  | cons b1 rest => simp [eq_comm]

theorem afterCrlf_append {line rest : List UInt8} (h : CrlfFree line) :
    afterCrlf (line ++ 13 :: 10 :: rest) = some rest := by
  induction line with
  | nil => rfl
  | cons b0 line ih =>
    rw [crlfFree_cons] at h
    obtain ⟨hcrlf, hline⟩ := h
    cases line with
    | nil => simp [afterCrlf]
    | cons b1 line =>
      rw [List.cons_append, List.cons_append, afterCrlf, if_neg (by simpa using hcrlf)]
      exact ih hline

theorem afterCrlf_eq_none {rest : List UInt8} (h : CrlfFree rest) : afterCrlf rest = none := by
  induction rest with
  | nil => rfl
  | cons b0 rest ih =>
    rw [crlfFree_cons] at h
    obtain ⟨hcrlf, hrest⟩ := h
    cases rest with
    | nil => rfl
    | cons b1 rest =>
      rw [afterCrlf, if_neg (by simpa using hcrlf)]
      exact ih hrest

theorem afterCrlf_eq_some {rest after : List UInt8} (h : afterCrlf rest = some after) :
    ∃ line, CrlfFree line ∧ rest = line ++ 13 :: 10 :: after := by
  induction rest with
  | nil => cases h
  | cons b0 rest ih =>
    cases rest with
    | nil => cases h
    | cons b1 rest =>
      rw [afterCrlf] at h
      split at h
      · next hcrlf =>
        obtain ⟨rfl, rfl⟩ := hcrlf
        cases h
        exact ⟨[], by simp [CrlfFree], rfl⟩
      · next hcrlf =>
        obtain ⟨line, hline, heq⟩ := ih h
        refine ⟨b0 :: line, crlfFree_cons.mpr ⟨?_, hline⟩, by rw [heq]; rfl⟩
        rintro ⟨rfl, hhead⟩
        cases line with
        | nil => cases hhead
        | cons b line =>
          obtain ⟨rfl, -⟩ := List.cons.inj heq
          exact hcrlf ⟨rfl, Option.some.inj hhead⟩

theorem length_afterCrlf_le {rest after : List UInt8} (h : afterCrlf rest = some after) :
    after.length ≤ rest.length := by
  obtain ⟨line, -, rfl⟩ := afterCrlf_eq_some h
  simp
  omega

/-! ## The parser -/

section Parser

variable {data : List UInt8} {stop p scan : ℕ}

theorem read_of_drop_cons {byte : UInt8} {rest : List UInt8}
    (h : (data.take stop).drop p = byte :: rest) :
    (memoryCursor data).readU8 p = some byte ∧ p < stop ∧ (data.take stop).drop (p + 1) = rest := by
  have hread : (data.take stop)[p]? = some byte := by
    have hhead := congrArg List.head? h
    rwa [List.head?_drop] at hhead
  have hlt := (List.getElem?_eq_some_iff.mp hread).1
  rw [List.length_take] at hlt
  refine ⟨?_, by omega, ?_⟩
  · rwa [List.getElem?_take_of_lt (by omega)] at hread
  · rw [← List.drop_drop, h, List.drop_one, List.tail_cons]

theorem read_of_drop_nil (h : (data.take stop).drop p = []) :
    stop ≤ p ∨ (memoryCursor data).readU8 p = none := by
  rw [List.drop_eq_nil_iff, List.length_take] at h
  by_cases hstop : stop ≤ p
  · exact Or.inl hstop
  · right
    exact List.getElem?_eq_none (by omega)

theorem not_within_of_le {offset len stop : ℕ} (h : stop < offset + len) : ¬ within offset len stop := by
  rw [within_iff]
  omega

theorem map_findCrlf (hscan : ((data.take stop).drop p).length ≤ scan) :
    (findCrlf (memoryCursor data) stop scan p).map (fun q => (data.take stop).drop (q + 2)) =
      afterCrlf ((data.take stop).drop p) := by
  induction scan generalizing p with
  | zero =>
    rw [List.length_eq_zero_iff.mp (Nat.le_zero.mp hscan)]
    rfl
  | succ scan ih =>
    have hnext : ((data.take stop).drop (p + 1)).length ≤ scan := by
      rw [List.length_drop] at *
      omega
    unfold findCrlf
    cases h : (data.take stop).drop p with
    | nil =>
      rcases read_of_drop_nil h with hstop | hread
      · simp [not_within_of_le (show stop < p + 2 by omega), afterCrlf, guard]
      · simp [hread, afterCrlf]
    | cons b0 rest =>
      obtain ⟨hread, -, hrest⟩ := read_of_drop_cons h
      cases rest with
      | nil =>
        have hnone := ih hnext
        rw [hrest] at hnone
        rcases read_of_drop_nil hrest with hstop | hread1
        · simp [not_within_of_le (show stop < p + 2 by omega), afterCrlf, guard]
        · by_cases hwithin : within p 2 stop <;> by_cases hcr : b0 = 13 <;>
            simp_all [afterCrlf, guard]
      | cons b1 rest =>
        obtain ⟨hread1, hlt, -⟩ := read_of_drop_cons hrest
        have hwithin : within p 2 stop := within_iff.mpr (by omega)
        have hih := ih hnext
        rw [hrest] at hih
        have htail : (data.take stop).drop (p + 2) = rest := by
          rw [← List.drop_drop, h]
          rfl
        by_cases hcr : b0 = 13
        · by_cases hlf : b1 = 10
          · simp [guard, hwithin, hread, hread1, hcr, hlf, afterCrlf, htail]
          · simp [guard, hwithin, hread, hread1, hcr, hlf, afterCrlf, hih]
        · simp [guard, hwithin, hread, hcr, afterCrlf, hih]

theorem drop_skipBlanks (hscan : ((data.take stop).drop p).length ≤ scan) :
    (data.take stop).drop (skipBlanks (memoryCursor data) stop scan p) =
      ((data.take stop).drop p).dropWhile isBlank := by
  induction scan generalizing p with
  | zero =>
    have hnil := List.length_eq_zero_iff.mp (Nat.le_zero.mp hscan)
    unfold skipBlanks
    rw [hnil]
    rfl
  | succ scan ih =>
    unfold skipBlanks
    cases h : (data.take stop).drop p with
    | nil =>
      rcases read_of_drop_nil h with hstop | hread
      · rw [if_pos hstop, h]
        rfl
      · rw [hread]
        split <;> rw [h] <;> rfl
    | cons byte rest =>
      obtain ⟨hread, hlt, hrest⟩ := read_of_drop_cons h
      rw [if_neg (by omega), hread]
      simp only
      by_cases hblank : isBlank byte
      · rw [if_pos hblank, ih (by rw [List.length_drop] at *; omega), hrest,
          List.dropWhile_cons_of_pos hblank]
      · rw [if_neg hblank, h, List.dropWhile_cons_of_neg hblank]

/-- One more byte of a host. -/
theorem take_hostBytes (seen : List UInt8) (byte : UInt8) :
    (if (seen.take maxHttpHostLen).length < maxHttpHostLen then seen.take maxHttpHostLen ++ [byte]
      else seen.take maxHttpHostLen) = (seen ++ [byte]).take maxHttpHostLen := by
  by_cases h : seen.length < maxHttpHostLen
  · rw [List.take_of_length_le h.le, if_pos h, List.take_of_length_le (by simp; omega)]
  · have hle : maxHttpHostLen ≤ seen.length := Nat.le_of_not_lt h
    rw [List.length_take, min_eq_left hle, if_neg (Nat.lt_irrefl _), List.take_append_of_le_length hle]

/-- The host after the bytes that were seen, with the position where it ends. -/
theorem readHost_eq (seen : List UInt8) (hscan : ((data.take stop).drop p).length ≤ scan) :
    readHost (memoryCursor data) stop scan p (seen.take maxHttpHostLen) =
      ((seen ++ ((data.take stop).drop p).takeWhile fun byte => !isHostEnd byte).take maxHttpHostLen,
        p + (((data.take stop).drop p).takeWhile fun byte => !isHostEnd byte).length) := by
  induction scan generalizing p seen with
  | zero =>
    have hnil := List.length_eq_zero_iff.mp (Nat.le_zero.mp hscan)
    unfold readHost
    rw [hnil, List.takeWhile_nil, List.append_nil]
    rfl
  | succ scan ih =>
    unfold readHost
    cases h : (data.take stop).drop p with
    | nil =>
      rw [List.takeWhile_nil, List.append_nil]
      rcases read_of_drop_nil h with hstop | hread
      · rw [if_pos hstop]
        rfl
      · rw [hread]
        split <;> rfl
    | cons byte rest =>
      obtain ⟨hread, hlt, hrest⟩ := read_of_drop_cons h
      have hnext : ((data.take stop).drop (p + 1)).length ≤ scan := by
        rw [List.length_drop] at *
        omega
      rw [if_neg (by omega), hread]
      change (if isHostEnd byte then _ else _) = _
      cases hend : isHostEnd byte with
      | true =>
        rw [if_pos rfl, List.takeWhile_cons_of_neg (by simp [hend]), List.append_nil]
        rfl
      | false =>
        rw [if_neg Bool.false_ne_true, List.takeWhile_cons_of_pos (by simp [hend]), take_hostBytes,
          ih _ hnext, hrest, List.append_assoc, List.singleton_append, List.length_cons, Nat.add_assoc,
          Nat.add_comm 1]

theorem readHostValue_eq (hscan : ((data.take stop).drop p).length ≤ maxHttpScan) :
    readHostValue (memoryCursor data) stop p =
      hostOf (((data.take stop).drop p).dropWhile isBlank) := by
  have hstart := drop_skipBlanks hscan
  unfold readHostValue
  simp only
  generalize skipBlanks (memoryCursor data) stop maxHttpScan p = start at hstart ⊢
  have hlength : ((data.take stop).drop start).length ≤ maxHttpScan := by
    rw [hstart]
    exact (List.dropWhile_sublist _).length_le.trans hscan
  have hread : readHost (memoryCursor data) stop maxHttpScan start [] = _ := readHost_eq [] hlength
  rw [hread, hstart, List.nil_append]
  generalize ((data.take stop).drop p).dropWhile isBlank = value
  change (guard (start + (value.takeWhile fun byte => !isHostEnd byte).length ≠ start ∧
    (hostBytes value).rdropWhile isBlank ≠ []) >>= fun _ =>
      some ((hostBytes value).rdropWhile isBlank)) = hostOf value
  unfold hostOf
  have hmoved : (hostBytes value).rdropWhile isBlank ≠ [] →
      value.takeWhile (fun byte => !isHostEnd byte) ≠ [] := by
    intro hhost hnil
    apply hhost
    unfold hostBytes
    rw [hnil]
    rfl
  generalize (hostBytes value).rdropWhile isBlank = host at hmoved ⊢
  by_cases hhost : host = []
  · simp [hhost, guard]
  · simp [hhost, hmoved hhost, guard]

/-- Too few bytes. -/
theorem stop_or_read_none {n : ℕ} (h : ((data.take stop).drop p).length < n) :
    stop < p + n ∨ (memoryCursor data).readU8 (p + (n - 1)) = none := by
  rw [List.length_drop, List.length_take] at h
  by_cases hstop : stop < p + n
  · exact Or.inl hstop
  · right
    exact List.getElem?_eq_none (by omega)

theorem headerIsHost_eq : headerIsHost (memoryCursor data) stop p =
    isHostName (((data.take stop).drop p).take 5) := by
  unfold headerIsHost
  match h : (data.take stop).drop p with
  | b0 :: b1 :: b2 :: b3 :: b4 :: rest =>
    obtain ⟨h0, -, hrest⟩ := read_of_drop_cons h
    obtain ⟨h1, -, hrest⟩ := read_of_drop_cons hrest
    obtain ⟨h2, -, hrest⟩ := read_of_drop_cons hrest
    obtain ⟨h3, -, hrest⟩ := read_of_drop_cons hrest
    obtain ⟨h4, hlt, -⟩ := read_of_drop_cons hrest
    have hwithin : within p 5 stop := within_iff.mpr (by omega)
    simp [hwithin, h0, h1, h2, h3, h4]
  | [] | [_] | [_, _] | [_, _, _] | [_, _, _, _] =>
    have hshort : ((data.take stop).drop p).length < 5 := by
      rw [h]
      simp
    rcases stop_or_read_none hshort with hstop | hread
    · simp [not_within_of_le hstop, isHostName]
    · simp [hread, isHostName]

theorem isHttpRequest_eq : isHttpRequest (memoryCursor data) stop p =
    decide (((data.take stop).drop p).take 4 ∈ httpMethods) := by
  unfold isHttpRequest
  match h : (data.take stop).drop p with
  | b0 :: b1 :: b2 :: b3 :: rest =>
    obtain ⟨h0, -, hrest⟩ := read_of_drop_cons h
    obtain ⟨h1, -, hrest⟩ := read_of_drop_cons hrest
    obtain ⟨h2, -, hrest⟩ := read_of_drop_cons hrest
    obtain ⟨h3, hlt, -⟩ := read_of_drop_cons hrest
    have hwithin : within p 4 stop := within_iff.mpr (by omega)
    rw [Bool.eq_iff_iff, decide_eq_true_iff]
    simp [hwithin, h0, h1, h2, h3]
  | [] | [_] | [_, _] | [_, _, _] =>
    have hshort : ((data.take stop).drop p).length < 4 := by
      rw [h]
      simp
    have hmethods : ∀ method ∈ httpMethods, method.length = 4 := by decide +kernel
    have hnot : (((data.take stop).drop p).take 4) ∉ httpMethods := by
      intro hmem
      have hlength := hmethods _ hmem
      rw [List.length_take] at hlength
      omega
    rw [← h, decide_eq_false hnot]
    rcases stop_or_read_none hshort with hstop | hread
    · simp [not_within_of_le hstop]
    · simp [hread]

theorem not_isHostName_of_length {bytes : List UInt8} (h : bytes.length ≠ 5) :
    isHostName bytes = false := by
  unfold isHostName
  split
  · exact absurd rfl h
  · rfl

/-- A header that does not end the headers. -/
theorem header_eq {headers : ℕ} (hscan : ((data.take stop).drop p).length ≤ maxHttpScan)
    (ih : ∀ q, ((data.take stop).drop q).length ≤ maxHttpScan →
      readHeaders (memoryCursor data) stop headers q = hostIn headers ((data.take stop).drop q)) :
    (if headerIsHost (memoryCursor data) stop p then readHostValue (memoryCursor data) stop (p + 5)
      else do
        let crlf ← findCrlf (memoryCursor data) stop maxHttpScan p
        readHeaders (memoryCursor data) stop headers (crlf + 2)) =
    if isHostName (((data.take stop).drop p).take 5) then
      hostOf ((((data.take stop).drop p).drop 5).dropWhile isBlank)
    else (afterCrlf ((data.take stop).drop p)).bind (hostIn headers) := by
  have hcrlf := map_findCrlf hscan
  rw [headerIsHost_eq, ← hcrlf, List.drop_drop]
  split
  · apply readHostValue_eq
    rw [← List.drop_drop, List.length_drop]
    omega
  · cases hfind : findCrlf (memoryCursor data) stop maxHttpScan p with
    | none => rfl
    | some q =>
      rw [hfind] at hcrlf
      exact ih (q + 2) ((length_afterCrlf_le hcrlf.symm).trans hscan)

theorem readHeaders_eq {headers : ℕ} (hscan : ((data.take stop).drop p).length ≤ maxHttpScan) :
    readHeaders (memoryCursor data) stop headers p = hostIn headers ((data.take stop).drop p) := by
  induction headers generalizing p with
  | zero => rfl
  | succ headers ih =>
    have hheader := header_eq hscan fun q => ih
    unfold readHeaders hostIn
    simp only at hheader ⊢
    rw [hheader]
    match h : (data.take stop).drop p with
    | [] =>
      rcases read_of_drop_nil h with hstop | hread
      · simp [not_within_of_le (show stop < p + 2 by omega), guard, isHostName, afterCrlf]
      · simp [hread, isHostName, afterCrlf]
    | [b0] =>
      obtain ⟨hread, -, hrest⟩ := read_of_drop_cons h
      rcases read_of_drop_nil hrest with hstop | hread1
      · simp [not_within_of_le (show stop < p + 2 by omega), guard, isHostName, afterCrlf]
      · simp [hread, hread1, isHostName, afterCrlf]
    | b0 :: b1 :: rest =>
      obtain ⟨hread, -, hrest⟩ := read_of_drop_cons h
      obtain ⟨hread1, hlt, -⟩ := read_of_drop_cons hrest
      have hwithin : within p 2 stop := within_iff.mpr (by omega)
      have hblank : [13, 10] <+: b0 :: b1 :: rest ↔ b0 = 13 ∧ b1 = 10 := by
        simp only [List.cons_prefix_cons, List.nil_prefix, and_true]
        exact and_congr eq_comm eq_comm
      simp only [hblank, hwithin, hread, hread1]
      by_cases hcr : b0 = 13
      · by_cases hlf : b1 = 10
        · simp [guard, hcr, hlf]
        · simp [guard, hcr, hlf]
      · simp [guard, hcr]

/-- The parser of a payload within a packet is the function on its bytes. -/
theorem extractHttpHost_eq (data : List UInt8) (offset stop : ℕ) :
    extractHttpHost (memoryCursor data) offset stop = httpHost ((data.take stop).drop offset) := by
  have hwindow : (data.take (min stop (offset + maxHttpScan))).drop offset =
      ((data.take stop).drop offset).take maxHttpScan := by
    rw [List.take_drop, List.take_take, Nat.min_comm, Nat.add_comm]
  have hscan : ((data.take (min stop (offset + maxHttpScan))).drop offset).length ≤ maxHttpScan := by
    rw [hwindow]
    exact List.length_take_le ..
  have hcrlf := map_findCrlf hscan
  unfold extractHttpHost httpHost
  simp only
  rw [isHttpRequest_eq, ← hwindow]
  generalize min stop (offset + maxHttpScan) = scanEnd at hscan hcrlf ⊢
  by_cases hmethod : ((data.take scanEnd).drop offset).take 4 ∈ httpMethods
  · simp only [hmethod, decide_true, if_true]
    rw [← hcrlf]
    cases hfind : findCrlf (memoryCursor data) scanEnd maxHttpScan offset with
    | none => rfl
    | some q =>
      rw [hfind] at hcrlf
      exact readHeaders_eq ((length_afterCrlf_le hcrlf.symm).trans hscan)
  · simp only [hmethod, decide_false, if_false]
    rfl

end Parser

end ZimaScope
