import ZimaScope.Ebpf.HttpHost

/-! # Requests

Where a request has its `Host` header: what precedes the value is a request line,
headers with other names, and the name with blanks. From such a request the parser
returns the host; from a request that is cut within the value it returns the part
of the host that is left.
-/

namespace ZimaScope

section Names

variable {bytes line rest : List UInt8}

theorem isHostName_bytes (h : isHostName bytes) :
    ∃ b0 b1 b2 b3, bytes = [b0, b1, b2, b3, 58] ∧ b0 ≠ 13 ∧ 13 ∉ bytes := by
  unfold isHostName at h
  split at h
  · next b0 b1 b2 b3 b4 =>
    simp only [Bool.and_eq_true, Bool.or_eq_true, decide_eq_true_iff] at h
    obtain ⟨⟨⟨⟨h0, h1⟩, h2⟩, h3⟩, rfl⟩ := h
    refine ⟨b0, b1, b2, b3, rfl, ?_, ?_⟩
    · rintro rfl
      simp at h0
    · intro hmem
      simp only [List.mem_cons, List.not_mem_nil, or_false] at hmem
      rcases hmem with rfl | rfl | rfl | rfl | h
      · simp at h0
      · simp at h1
      · simp at h2
      · simp at h3
      · cases h
  · cases h

theorem isHostName_length (h : isHostName bytes) : bytes.length = 5 := by
  obtain ⟨b0, b1, b2, b3, rfl, -⟩ := isHostName_bytes h
  rfl

/-- The name of a header lies in its line. -/
theorem isHostName_take_append : isHostName ((line ++ 13 :: rest).take 5) = isHostName (line.take 5) := by
  by_cases hlen : 5 ≤ line.length
  · rw [List.take_append_of_le_length hlen]
  · have hshort : isHostName (line.take 5) = false := by
      apply not_isHostName_of_length
      rw [List.length_take]
      omega
    rw [hshort, Bool.eq_false_iff]
    intro hname
    obtain ⟨-, -, -, -, -, -, hcr⟩ := isHostName_bytes hname
    apply hcr
    rw [List.take_append]
    apply List.mem_append_right
    obtain ⟨n, hn⟩ : ∃ n, 5 - line.length = n + 1 := ⟨4 - line.length, by omega⟩
    rw [hn, List.take_succ_cons]
    exact List.mem_cons_self

end Names

/-- So many headers with other names, and the name of a `Host` header with the blanks before its value. -/
inductive HostBefore : ℕ → List UInt8 → Prop
  | host {name blanks : List UInt8} (hname : isHostName name) (hblanks : ∀ byte ∈ blanks, isBlank byte) :
      HostBefore 0 (name ++ blanks)
  | header {headers : ℕ} {line before : List UInt8} (hline : CrlfFree line) (hne : line ≠ [])
      (hother : isHostName (line.take 5) = false) (hbefore : HostBefore headers before) :
      HostBefore (headers + 1) (line ++ 13 :: 10 :: before)

theorem HostBefore.five_le {n : ℕ} {before : List UInt8} (h : HostBefore n before) :
    5 ≤ before.length := by
  induction h with
  | host hname hblanks =>
    rw [List.length_append, isHostName_length hname]
    exact Nat.le_add_right ..
  | header hline hne hother hbefore ih =>
    rw [List.length_append, List.length_cons, List.length_cons]
    omega

section Headers

variable {headers : ℕ} {line rest : List UInt8}

theorem not_blankLine (hline : CrlfFree line) (hne : line ≠ []) :
    ¬ [13, 10] <+: line ++ 13 :: 10 :: rest := by
  cases line with
  | nil => exact absurd rfl hne
  | cons b0 line =>
    rw [crlfFree_cons] at hline
    rw [List.cons_append, List.cons_prefix_cons]
    rintro ⟨rfl, hprefix⟩
    cases line with
    | nil => simp at hprefix
    | cons b1 line =>
      rw [List.cons_append, List.cons_prefix_cons] at hprefix
      obtain ⟨rfl, -⟩ := hprefix
      exact hline.1 ⟨rfl, rfl⟩

theorem hostIn_header (hline : CrlfFree line) (hne : line ≠ [])
    (hother : isHostName (line.take 5) = false) :
    hostIn (headers + 1) (line ++ 13 :: 10 :: rest) = hostIn headers rest := by
  rw [hostIn, if_neg (not_blankLine hline hne), isHostName_take_append, hother,
    if_neg Bool.false_ne_true, afterCrlf_append hline]
  rfl

theorem hostIn_host {name blanks value : List UInt8} (hname : isHostName name)
    (hblanks : ∀ byte ∈ blanks, isBlank byte) (hvalue : value.dropWhile isBlank = value) :
    hostIn (headers + 1) (name ++ (blanks ++ value)) = hostOf value := by
  have hlength := isHostName_length hname
  have htake : (name ++ (blanks ++ value)).take 5 = name := by rw [← hlength, List.take_left]
  have hdrop : (name ++ (blanks ++ value)).drop 5 = blanks ++ value := by
    rw [← hlength, List.drop_left]
  have hblank : ¬ [13, 10] <+: name ++ (blanks ++ value) := by
    obtain ⟨b0, b1, b2, b3, rfl, hcr, -⟩ := isHostName_bytes hname
    intro hprefix
    exact hcr (List.cons_prefix_cons.mp hprefix).1.symm
  rw [hostIn, if_neg hblank, htake, if_pos hname, hdrop, List.dropWhile_append_of_pos hblanks, hvalue]

theorem hostIn_append {n : ℕ} {before value : List UInt8} (h : HostBefore n before) (hn : n < headers)
    (hvalue : value.dropWhile isBlank = value) : hostIn headers (before ++ value) = hostOf value := by
  induction h generalizing headers with
  | host hname hblanks =>
    obtain ⟨headers, rfl⟩ : ∃ k, headers = k + 1 := ⟨headers - 1, by omega⟩
    rw [List.append_assoc]
    exact hostIn_host hname hblanks hvalue
  | header hline hne hother hbefore ih =>
    obtain ⟨headers, rfl⟩ : ∃ k, headers = k + 1 := ⟨headers - 1, by omega⟩
    rw [List.append_assoc, List.cons_append, List.cons_append, hostIn_header hline hne hother]
    exact ih (by omega)

/-- What has no CRLF has a host only in its value. -/
theorem hostIn_eq_none (hcrlf : CrlfFree rest)
    (hhost : isHostName (rest.take 5) → ∀ byte ∈ rest.drop 5, isBlank byte) :
    hostIn headers rest = none := by
  cases headers with
  | zero => rfl
  | succ headers =>
    rw [hostIn]
    split
    · rfl
    · split
      · next hname =>
        rw [List.dropWhile_eq_nil_iff.mpr (hhost hname)]
        rfl
      · rw [afterCrlf_eq_none hcrlf]
        rfl

theorem crlfFree_append_cr (hline : CrlfFree line) : CrlfFree (line ++ [13]) := by
  induction line with
  | nil => exact crlfFree_cons.mpr ⟨by simp, hline⟩
  | cons b0 line ih =>
    rw [crlfFree_cons] at hline
    rw [List.cons_append, crlfFree_cons]
    refine ⟨?_, ih hline.2⟩
    rintro ⟨rfl, hhead⟩
    cases line with
    | nil => simp at hhead
    | cons b1 line => exact hline.1 ⟨rfl, hhead⟩

/-- A line that is cut before its LF. -/
theorem crlfFree_take {k : ℕ} (hline : CrlfFree line) (hk : k ≤ line.length + 1) :
    CrlfFree ((line ++ 13 :: 10 :: rest).take k) := by
  have hsplit : line ++ 13 :: 10 :: rest = (line ++ [13]) ++ 10 :: rest := by simp
  rw [hsplit, List.take_append_of_le_length (by rw [List.length_append]; exact hk)]
  exact (crlfFree_append_cr hline).part (List.take_prefix _ _).isInfix

theorem take_past_line {k : ℕ} (hk : line.length + 1 < k) :
    (line ++ 13 :: 10 :: rest).take k = line ++ 13 :: 10 :: rest.take (k - (line.length + 2)) := by
  obtain ⟨n, rfl⟩ : ∃ n, k = line.length + (n + 2) := ⟨k - (line.length + 2), by omega⟩
  rw [List.take_length_add_append]
  simp only [List.take_succ_cons]
  congr 4
  omega

theorem crlfFree_of_not_mem (h : 13 ∉ rest) : CrlfFree rest :=
  fun hcrlf => h (hcrlf.subset List.mem_cons_self)

theorem not_mem_blanks {blanks : List UInt8} (hblanks : ∀ byte ∈ blanks, isBlank byte) : 13 ∉ blanks := by
  intro hmem
  cases hblanks 13 hmem

theorem hostIn_cut_line {k : ℕ} (hline : CrlfFree line) (hother : isHostName (line.take 5) = false)
    (hk : k ≤ line.length + 1) : hostIn headers ((line ++ 13 :: 10 :: rest).take k) = none := by
  apply hostIn_eq_none (crlfFree_take hline hk)
  intro hname
  have hwhole := isHostName_length hname
  rw [List.length_take, List.length_take] at hwhole
  rw [List.take_take, Nat.min_eq_left (by omega), isHostName_take_append, hother] at hname
  cases hname

/-- Without its value a `Host` header has no host. -/
theorem hostIn_take_before {n k : ℕ} {before : List UInt8} (h : HostBefore n before) :
    hostIn headers (before.take k) = none := by
  induction h generalizing headers k with
  | @host name blanks hname hblanks =>
    have hlength := isHostName_length hname
    obtain ⟨-, -, -, -, -, -, hcr⟩ := isHostName_bytes hname
    apply hostIn_eq_none
    · apply crlfFree_of_not_mem
      intro hmem
      rcases List.mem_append.mp (List.mem_of_mem_take hmem) with h | h
      · exact hcr h
      · exact not_mem_blanks hblanks h
    · intro _ byte hbyte
      rw [List.drop_take, ← hlength, List.drop_left] at hbyte
      exact hblanks byte (List.mem_of_mem_take hbyte)
  | @header n line before hline hne hother hbefore ih =>
    by_cases hk : k ≤ line.length + 1
    · exact hostIn_cut_line hline hother hk
    · rw [take_past_line (Nat.lt_of_not_le hk)]
      cases headers with
      | zero => rfl
      | succ headers =>
        rw [hostIn_header hline hne hother]
        exact ih

/-- A host is found behind headers with other names. -/
theorem hostIn_eq_some {host : List UInt8} (h : hostIn headers rest = some host) :
    ∃ n before value, n < headers ∧ rest = before ++ value ∧ HostBefore n before ∧
      value.dropWhile isBlank = value := by
  induction headers generalizing rest with
  | zero => cases h
  | succ headers ih =>
    rw [hostIn] at h
    split at h
    · cases h
    · next hblank =>
      split at h
      · next hname =>
        refine ⟨0, rest.take 5 ++ (rest.drop 5).takeWhile isBlank, (rest.drop 5).dropWhile isBlank,
          Nat.succ_pos _, ?_, .host hname ?_, List.dropWhile_idempotent ..⟩
        · rw [List.append_assoc, List.takeWhile_append_dropWhile, List.take_append_drop]
        · intro byte hbyte
          exact List.mem_takeWhile_imp hbyte
      · next hname =>
        obtain ⟨after, hafter, hhost⟩ := Option.bind_eq_some_iff.mp h
        obtain ⟨line, hline, rfl⟩ := afterCrlf_eq_some hafter
        obtain ⟨n, before, value, hn, rfl, hbefore, hvalue⟩ := ih hhost
        rw [isHostName_take_append, Bool.not_eq_true] at hname
        refine ⟨n + 1, line ++ 13 :: 10 :: before, value, Nat.succ_lt_succ hn, by simp,
          .header hline ?_ hname hbefore, hvalue⟩
        rintro rfl
        exact hblank (List.prefix_append _ _)

end Headers

/-- What precedes the value of a request's `Host` header, behind fewer headers than are read. -/
inductive RequestBefore : List UInt8 → Prop
  | mk {n : ℕ} {line before : List UInt8} (hmethod : (line ++ 13 :: 10 :: before).take 4 ∈ httpMethods)
      (hline : CrlfFree line) (hn : n < maxHttpHeaders) (hbefore : HostBefore n before) :
      RequestBefore (line ++ 13 :: 10 :: before)

section Requests

variable {payload before value : List UInt8}

theorem length_httpMethod {method : List UInt8} (h : method ∈ httpMethods) : method.length = 4 := by
  have hmethods : ∀ method ∈ httpMethods, method.length = 4 := by decide +kernel
  exact hmethods method h

theorem RequestBefore.take_append (h : RequestBefore before) (rest : List UInt8) :
    (before ++ rest).take 4 ∈ httpMethods := by
  obtain ⟨hmethod, -, -, -⟩ := h
  have hlength := length_httpMethod hmethod
  rw [List.length_take] at hlength
  rwa [List.take_append_of_le_length (by omega)]

/-- The host is that of the value. -/
theorem httpHost_append (h : RequestBefore before) (hvalue : value.dropWhile isBlank = value)
    (hwindow : payload.take maxHttpScan = before ++ value) : httpHost payload = hostOf value := by
  have hmethod := h.take_append value
  unfold httpHost
  simp only [hwindow]
  rw [if_pos hmethod]
  obtain ⟨-, hline, hn, hbefore⟩ := h
  rw [List.append_assoc, List.cons_append, List.cons_append, afterCrlf_append hline]
  exact hostIn_append hbefore hn hvalue

/-- There is none before the value. -/
theorem httpHost_take_before {k : ℕ} (h : RequestBefore before)
    (hwindow : payload.take maxHttpScan = before.take k) : httpHost payload = none := by
  obtain @⟨n, line, before, -, hline, hn, hbefore⟩ := h
  unfold httpHost
  simp only [hwindow]
  split
  · by_cases hk : k ≤ line.length + 1
    · rw [afterCrlf_eq_none (crlfFree_take hline hk)]
      rfl
    · rw [take_past_line (Nat.lt_of_not_le hk), afterCrlf_append hline]
      exact hostIn_take_before hbefore
  · rfl

theorem httpHost_eq_some {host : List UInt8} (h : httpHost payload = some host) :
    ∃ before value, payload.take maxHttpScan = before ++ value ∧ RequestBefore before ∧
      value.dropWhile isBlank = value := by
  unfold httpHost at h
  simp only at h
  split at h
  · next hmethod =>
    obtain ⟨after, hafter, hhost⟩ := Option.bind_eq_some_iff.mp h
    obtain ⟨line, hline, hwindow⟩ := afterCrlf_eq_some hafter
    obtain ⟨n, before, value, hn, rfl, hbefore, hvalue⟩ := hostIn_eq_some hhost
    rw [hwindow] at hmethod
    refine ⟨line ++ 13 :: 10 :: before, value, by rw [hwindow]; simp, .mk ?_ hline hn hbefore, hvalue⟩
    have hlength := hbefore.five_le
    have hsplit : line ++ 13 :: 10 :: (before ++ value) = (line ++ 13 :: 10 :: before) ++ value := by simp
    rwa [hsplit, List.take_append_of_le_length] at hmethod
    rw [List.length_append, List.length_cons, List.length_cons]
    omega
  · cases h

end Requests

/-! ## Truncation -/

section Truncation

theorem rdropWhile_append_of_pos {α : Type} {p : α → Bool} {l l' : List α} (h : ∀ a ∈ l', p a) :
    (l ++ l').rdropWhile p = l.rdropWhile p := by
  unfold List.rdropWhile
  rw [List.reverse_append, List.dropWhile_append_of_pos]
  intro a ha
  exact h a (List.mem_reverse.mp ha)

/-- Where trailing elements are dropped, a list and a beginning of it agree if only such follow. -/
theorem rdropWhile_take_eq_iff {α : Type} {p : α → Bool} {l : List α} {m : ℕ} :
    (l.take m).rdropWhile p = l.rdropWhile p ↔ ∀ a ∈ l.drop m, p a := by
  constructor
  · intro h a ha
    have hle : (l.rdropWhile p).length ≤ m := by
      rw [← h]
      exact (List.rdropWhile_prefix ..).length_le.trans (List.length_take_le ..)
    have hsplit := List.rdropWhile_append_rtakeWhile (p := p) (l := l)
    rw [← hsplit, List.drop_append, List.drop_eq_nil_of_le hle, List.nil_append] at ha
    exact List.mem_rtakeWhile_imp (List.mem_of_mem_drop ha)
  · intro h
    conv_rhs => rw [← List.take_append_drop m l]
    exact (rdropWhile_append_of_pos h).symm

theorem hostBytes_take (value : List UInt8) (m : ℕ) :
    hostBytes (value.take m) = (hostBytes value).take m := by
  unfold hostBytes
  rw [← List.take_takeWhile, List.take_take, List.take_take, Nat.min_comm]

theorem dropWhile_eq_self_iff {α : Type} {p : α → Bool} {l : List α} :
    l.dropWhile p = l ↔ ∀ a ∈ l.head?, p a = false := by
  cases l with
  | nil => simp
  | cons a l =>
    simp only [List.head?_cons, Option.mem_def, Option.some.injEq, forall_eq']
    cases hp : p a with
    | false => simp [hp]
    | true =>
      rw [List.dropWhile_cons_of_pos hp]
      have hle := (List.dropWhile_sublist p (l := l)).length_le
      constructor
      · intro h
        rw [h, List.length_cons] at hle
        omega
      · exact fun h => absurd h nofun

theorem dropWhile_take {α : Type} {p : α → Bool} {l : List α} (h : l.dropWhile p = l) (m : ℕ) :
    (l.take m).dropWhile p = l.take m := by
  rw [dropWhile_eq_self_iff] at *
  intro a ha
  cases m with
  | zero => cases ha
  | succ m =>
    cases l with
    | nil => cases ha
    | cons b l => exact h a ha

/-- A value begins with no blank, so neither does its host. -/
theorem hostBytes_eq_nil {value : List UInt8} (hvalue : value.dropWhile isBlank = value)
    (h : hostOf value = none) : hostBytes value = [] := by
  unfold hostOf at h
  simp only [ite_eq_left_iff, reduceCtorEq, imp_false, not_not, List.rdropWhile_eq_nil_iff] at h
  rw [dropWhile_eq_self_iff] at hvalue
  cases value with
  | nil => rfl
  | cons byte rest =>
    have hblank := hvalue byte rfl
    unfold hostBytes maxHttpHostLen at *
    cases hend : isHostEnd byte with
    | true =>
      rw [List.takeWhile_cons_of_neg (by simp [hend])]
      rfl
    | false =>
      rw [List.takeWhile_cons_of_pos (by simp [hend]), List.take_succ_cons] at h
      rw [h byte List.mem_cons_self] at hblank
      cases hblank

theorem hostOf_inj {value value' : List UInt8} (h : hostOf value = hostOf value') :
    (hostBytes value).rdropWhile isBlank = (hostBytes value').rdropWhile isBlank := by
  unfold hostOf at h
  simp only at h
  split at h <;> split at h
  · next hvalue hvalue' => rw [hvalue, hvalue']
  · cases h
  · cases h
  · exact Option.some.inj h

/-- A cut within the value leaves the host as it is if it leaves out nothing but blanks. -/
theorem hostOf_take_iff {value : List UInt8} {m : ℕ} (hm : 0 < m)
    (hvalue : value.dropWhile isBlank = value) :
    (hostOf (value.take m) = none ∨ hostOf (value.take m) = hostOf value) ↔
      ∀ byte ∈ (hostBytes value).drop m, isBlank byte := by
  rw [← rdropWhile_take_eq_iff, ← hostBytes_take]
  constructor
  · rintro (hnone | hsame)
    · have hcut := hostBytes_eq_nil (dropWhile_take hvalue m) hnone
      have hwhole : hostBytes value = [] := by
        rw [hostBytes_take, List.take_eq_nil_iff] at hcut
        exact hcut.resolve_left hm.ne'
      rw [hcut, hwhole]
    · exact hostOf_inj hsame
  · intro h
    right
    unfold hostOf
    rw [h]

/-- What precedes the value of the `Host` header, and what there is of the payload from it on, as far as
the payload is scanned. -/
structure HostAt (payload before value : List UInt8) : Prop where
  window : payload.take maxHttpScan = before ++ value
  before : RequestBefore before
  value : value.dropWhile isBlank = value

/-- What is found in a payload that is cut. -/
theorem HostAt.httpHost_take {payload before value : List UInt8} (h : HostAt payload before value)
    (k : ℕ) :
    httpHost (payload.take k) =
      if k ≤ before.length then none else hostOf (value.take (k - before.length)) := by
  have hwindow : (payload.take k).take maxHttpScan = (before ++ value).take k := by
    rw [← h.window, List.take_take, List.take_take, Nat.min_comm]
  split
  · next hk =>
    rw [List.take_append_of_le_length hk] at hwindow
    exact httpHost_take_before h.before hwindow
  · next hk =>
    rw [List.take_append, List.take_of_length_le (Nat.le_of_not_le hk)] at hwindow
    exact httpHost_append h.before (dropWhile_take h.value _) hwindow

/-- A host that is found in a cut payload belongs to a header of the whole. -/
theorem exists_hostAt {payload host : List UInt8} {k : ℕ} (h : httpHost (payload.take k) = some host) :
    ∃ before value, HostAt payload before value := by
  obtain ⟨before, part, hwindow, hbefore, hpart⟩ := httpHost_eq_some h
  rw [httpHost_append hbefore hpart hwindow] at h
  refine ⟨before, part ++ (payload.take maxHttpScan).drop k, ?_, hbefore, ?_⟩
  · rw [← List.append_assoc, ← hwindow, List.take_take, Nat.min_comm, ← List.take_take,
      List.take_append_drop]
  · cases part with
    | nil => cases h
    | cons byte part =>
      rw [dropWhile_eq_self_iff] at hpart ⊢
      exact hpart

/-- The first bytes of a payload give no host or the host of the whole if and only if they end before the
host begins or leave out none of it but blanks. -/
theorem truncated_host_iff (payload : List UInt8) (k : ℕ) :
    (extractHttpHost (memoryCursor (payload.take k)) 0 (payload.take k).length = none ∨
      extractHttpHost (memoryCursor (payload.take k)) 0 (payload.take k).length =
        extractHttpHost (memoryCursor payload) 0 payload.length) ↔
    ∀ before value, HostAt payload before value →
      k ≤ before.length ∨ ∀ byte ∈ (hostBytes value).drop (k - before.length), isBlank byte := by
  simp only [extractHttpHost_eq, List.take_length, List.drop_zero]
  constructor
  · intro h before value hat
    rw [hat.httpHost_take, httpHost_append hat.before hat.value hat.window] at h
    by_cases hk : k ≤ before.length
    · exact Or.inl hk
    · rw [if_neg hk] at h
      exact Or.inr ((hostOf_take_iff (by omega) hat.value).mp h)
  · intro h
    cases hcut : httpHost (payload.take k) with
    | none => exact Or.inl rfl
    | some host =>
      obtain ⟨before, value, hat⟩ := exists_hostAt hcut
      have hlt : ¬ k ≤ before.length := by
        intro hk
        rw [hat.httpHost_take, if_pos hk] at hcut
        cases hcut
      have hblanks := (h before value hat).resolve_left hlt
      rw [← hcut, hat.httpHost_take, httpHost_append hat.before hat.value hat.window, if_neg hlt]
      exact (hostOf_take_iff (by omega) hat.value).mpr hblanks

/-- A request that is cut within the name of its host. -/
def hostedRequest : List UInt8 := asciiBytes "GET / HTTP/1.1\r\nHost: example.com\r\n\r\n"

theorem truncated_host_invented : ¬ ∀ (payload : List UInt8) (k : ℕ),
    extractHttpHost (memoryCursor (payload.take k)) 0 (payload.take k).length = none ∨
      extractHttpHost (memoryCursor (payload.take k)) 0 (payload.take k).length =
        extractHttpHost (memoryCursor payload) 0 payload.length := by
  intro h
  have hcut : (httpHost (hostedRequest.take 28)).isSome := by decide +kernel
  have hdiffer : httpHost (hostedRequest.take 28) ≠ httpHost hostedRequest := by decide +kernel
  have hclaim := h hostedRequest 28
  simp only [extractHttpHost_eq, List.take_length, List.drop_zero] at hclaim
  rcases hclaim with hnone | hsame
  · rw [hnone] at hcut
    cases hcut
  · exact hdiffer hsame

end Truncation

end ZimaScope
