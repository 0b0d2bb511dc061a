import Mathlib.Data.List.OfFn
import Mathlib.Algebra.Group.Nat.Even
import ZimaScope.Common.Text
import ZimaScope.Lib.Delimited

/-! # Address texts

Columns and keys hold addresses as text. Two addresses have the same text only
if they are the same: the groups of the text of an IPv6 address tell the run of
zeroes that was left out.
-/

namespace ZimaScope

/-! ## Digits -/

theorem exists_digit_of_mem_toDigits {b n : ℕ} {c : Char} (hb : 1 < b) (h16 : b ≤ 16)
    (h : c ∈ Nat.toDigits b n) : ∃ d < 16, c = Nat.digitChar d := by
  induction n using Nat.strongRecOn with
  | ind n ih =>
    rcases lt_or_ge n b with hn | hn
    · rw [Nat.toDigits_of_lt_base hn, List.mem_singleton] at h
      exact ⟨n, by omega, h⟩
    · rw [Nat.toDigits_of_base_le hb hn, List.mem_append, List.mem_singleton] at h
      rcases h with h | rfl
      · exact ih (n / b) (Nat.div_lt_self (by omega) hb) h
      · exact ⟨n % b, (Nat.mod_lt n (by omega)).trans_le h16, rfl⟩

theorem digit_ne {c : Char} {b n : ℕ} (hb : 1 < b) (h16 : b ≤ 16) (h : c ∈ Nat.toDigits b n) :
    c ≠ ':' ∧ c ≠ '.' := by
  obtain ⟨d, hd, rfl⟩ := exists_digit_of_mem_toDigits hb h16 h
  have hdigit : ∀ d < 16, Nat.digitChar d ≠ ':' ∧ Nat.digitChar d ≠ '.' := by decide
  exact hdigit d hd

/-- The number that lower-case digits stand for. -/
def hexValue (digits : List Char) : ℕ :=
  digits.foldl (fun n c => n * 16 + if c.isDigit then c.toNat - 48 else c.toNat - 87) 0

theorem hexValue_append_digit {digits : List Char} {d : ℕ} (hd : d < 16) :
    hexValue (digits ++ [Nat.digitChar d]) = hexValue digits * 16 + d := by
  have hdigit : ∀ d < 16, (if (Nat.digitChar d).isDigit then (Nat.digitChar d).toNat - 48
      else (Nat.digitChar d).toNat - 87) = d := by decide
  unfold hexValue
  rw [List.foldl_append, List.foldl_cons, List.foldl_nil, hdigit d hd]

theorem hexValue_toDigits (n : ℕ) : hexValue (Nat.toDigits 16 n) = n := by
  induction n using Nat.strongRecOn with
  | ind n ih =>
    rcases lt_or_ge n 16 with hn | hn
    · rw [Nat.toDigits_of_lt_base hn, ← List.nil_append [_], hexValue_append_digit hn]
      exact Nat.zero_add n
    · rw [Nat.toDigits_of_base_le (by decide) hn, hexValue_append_digit (Nat.mod_lt n (by decide)),
        ih (n / 16) (Nat.div_lt_self (by omega) (by decide))]
      omega

/-- Numbers of a base, with a separator between them. -/
def joined (sep : Char) (b : ℕ) (ns : List ℕ) : List Char := [sep].intercalate (ns.map (Nat.toDigits b))

section Joined

variable {sep : Char} {b : ℕ} {ns ms : List ℕ} (hb : 1 < b) (h16 : b ≤ 16)
include hb h16

theorem splitOn_joined (hsep : sep = ':' ∨ sep = '.') (hns : ns ≠ []) :
    (joined sep b ns).splitOn sep = ns.map (Nat.toDigits b) := by
  apply List.splitOn_intercalate
  · intro digits hdigits hmem
    obtain ⟨n, -, rfl⟩ := List.mem_map.mp hdigits
    rcases hsep with rfl | rfl
    · exact (digit_ne hb h16 hmem).1 rfl
    · exact (digit_ne hb h16 hmem).2 rfl
  · simpa using hns

theorem colon_notMem_joined : ':' ∉ joined '.' b ns := by
  intro h
  rcases List.mem_intercalate h with h | ⟨digits, hdigits, hmem⟩
  · exact absurd h (by decide)
  · obtain ⟨n, -, rfl⟩ := List.mem_map.mp hdigits
    exact (digit_ne hb h16 hmem).1 rfl

theorem dot_notMem_joined : '.' ∉ joined ':' b ns := by
  intro h
  rcases List.mem_intercalate h with h | ⟨digits, hdigits, hmem⟩
  · exact absurd h (by decide)
  · obtain ⟨n, -, rfl⟩ := List.mem_map.mp hdigits
    exact (digit_ne hb h16 hmem).2 rfl

end Joined

theorem toDigits_ten_injective : Function.Injective (Nat.toDigits 10) := by
  intro m n h
  rw [← Nat.ofDigitChars_ten_toDigits (n := m), h, Nat.ofDigitChars_ten_toDigits]

/-! ## IPv4 -/

theorem toList_ipv4 (address : Ipv4Addr) : address.toString.toList =
    joined '.' 10 (address.octets.toList.map UInt8.toNat) := by
  unfold Ipv4Addr.toString joined
  rw [String.toList_intercalate, List.map_map, List.map_map]
  congr 2
  ext octet
  simp [toString, Nat.toList_repr]

theorem ipv4_toString_injective : Function.Injective Ipv4Addr.toString := by
  intro a b h
  have hne : ∀ address : Ipv4Addr, address.octets.toList.map UInt8.toNat ≠ [] := by
    intro address hnil
    have hlength := congrArg List.length hnil
    simp at hlength
  have htext := congrArg (fun s => s.toList.splitOn '.') h
  simp only [toList_ipv4] at htext
  rw [splitOn_joined (by decide) (by decide) (.inr rfl) (hne a),
    splitOn_joined (by decide) (by decide) (.inr rfl) (hne b)] at htext
  have hoctets := List.map_injective_iff.mpr (fun _ _ => UInt8.toNat_inj.mp)
    (List.map_injective_iff.mpr toDigits_ten_injective htext)
  cases a
  cases b
  exact congrArg Ipv4Addr.mk (Vector.toList_inj.mp hoctets)

/-! ## IPv6 -/

/-- A run of zeroes. -/
def ZeroRun (segments : List ℕ) (run : ℕ × ℕ) : Prop :=
  ∀ i, run.1 ≤ i → i < run.1 + run.2 → segments[i]? = some 0

/-- The longest run is a run, and the current one ends where the search is. -/
theorem zeroRun_foldl {segments : List ℕ} {rest : List ℕ} {at' : ℕ} {runs : (ℕ × ℕ) × ℕ × ℕ}
    (hrest : segments.drop at' = rest) (hlongest : ZeroRun segments runs.1)
    (hcurrent : ZeroRun segments runs.2) (hend : runs.2.2 ≠ 0 → runs.2.1 + runs.2.2 = at') :
    ZeroRun segments ((rest.zipIdx at').foldl (fun (longest, current) (segment, i) =>
      if segment = 0 then
        let current := (if current.2 = 0 then i else current.1, current.2 + 1)
        (if longest.2 < current.2 then current else longest, current)
      else (longest, (0, 0))) runs).1 := by
  induction rest generalizing at' runs with
  | nil => exact hlongest
  | cons segment rest ih =>
    have hget : segments[at']? = some segment := by
      rw [← List.head?_drop, hrest]
      rfl
    have hnext : segments.drop (at' + 1) = rest := by
      rw [← List.tail_drop, hrest]
      rfl
    obtain ⟨longest, current⟩ := runs
    rw [List.zipIdx_cons, List.foldl_cons]
    by_cases hzero : segment = 0
    · have hgrown : ZeroRun segments (if current.2 = 0 then at' else current.1, current.2 + 1) := by
        intro i hfirst hlast
        simp only at hfirst hlast hend
        rw [hzero] at hget
        by_cases hat : i = at'
        · rw [hat, hget]
        · by_cases hfresh : current.2 = 0
          · rw [if_pos hfresh] at hfirst hlast
            omega
          · rw [if_neg hfresh] at hfirst hlast
            have hbefore := hend hfresh
            apply hcurrent i hfirst
            change i < current.1 + current.2
            omega
      simp only [hzero, if_true]
      apply ih hnext
      · split
        · exact hgrown
        · exact hlongest
      · exact hgrown
      · intro _
        simp only at hend ⊢
        split
        · omega
        · next hfresh =>
          have hbefore := hend hfresh
          omega
    · change ZeroRun segments (List.foldl _ (if segment = 0 then _ else (longest, (0, 0))) _).1
      rw [if_neg hzero]
      apply ih hnext
      · exact hlongest
      · intro i _ hlast
        exact absurd hlast (Nat.not_lt_zero i)
      · intro h
        exact absurd rfl h

theorem zeroRun_longestZeroes (segments : List ℕ) : ZeroRun segments (longestZeroes segments) := by
  have hnone : ZeroRun segments (0, 0) := by
    intro i _ hlast
    exact absurd hlast (Nat.not_lt_zero i)
  unfold longestZeroes
  apply zeroRun_foldl
  · rfl
  · exact hnone
  · exact hnone
  · intro h
    exact absurd rfl h

/-- The groups around a run of zeroes, and the run. -/
theorem eq_append_of_zeroRun {segments : List ℕ} {run : ℕ × ℕ} (h : ZeroRun segments run) :
    segments =
      segments.take run.1 ++ (List.replicate run.2 0 ++ segments.drop (run.1 + run.2)) := by
  have hzeroes : (segments.drop run.1).take run.2 = List.replicate run.2 0 := by
    apply List.ext_getElem?
    intro i
    rw [List.getElem?_take, List.getElem?_drop, List.getElem?_replicate]
    split
    · exact h (run.1 + i) (by omega) (by omega)
    · rfl
  rw [← hzeroes, ← List.drop_drop, List.take_append_drop, List.take_append_drop]

/-- The segments that the groups of a text stand for: zeroes where a group is empty. -/
def expandGroups (groups : List (List Char)) : List ℕ :=
  let before := groups.takeWhile (· ≠ [])
  let all := groups.filter (· ≠ [])
  before.map hexValue ++ (List.replicate (8 - all.length) 0 ++ (all.drop before.length).map hexValue)

section Groups

theorem map_hexValue (segments : List ℕ) :
    (segments.map (Nat.toDigits 16)).map hexValue = segments := by
  rw [List.map_map]
  exact (List.map_congr_left fun n _ => hexValue_toDigits n).trans (List.map_id _)

/-- The groups of some segments; the text of none is one empty group. -/
def groupsOf (segments : List ℕ) : List (List Char) :=
  if segments = [] then [[]] else segments.map (Nat.toDigits 16)

theorem splitOn_joinSegments (segments : List ℕ) :
    (joinSegments segments).toList.splitOn ':' = groupsOf segments := by
  have htext : (joinSegments segments).toList = joined ':' 16 segments := by
    unfold joinSegments joined
    rw [String.toList_intercalate, List.map_map]
    congr 2
    ext n
    simp [lowerHex]
  unfold groupsOf
  rw [htext]
  split
  · next hnil =>
    rw [hnil]
    rfl
  · next hne => exact splitOn_joined (by decide) (by decide) (.inl rfl) hne

theorem filter_groupsOf (segments : List ℕ) :
    (groupsOf segments).filter (· ≠ []) = segments.map (Nat.toDigits 16) := by
  unfold groupsOf
  split
  · next hnil =>
    rw [hnil]
    rfl
  · rw [List.filter_eq_self]
    intro digits hdigits
    obtain ⟨n, -, rfl⟩ := List.mem_map.mp hdigits
    exact decide_eq_true Nat.toDigits_ne_nil

/-- What the text of the segments around a run of zeroes stands for. -/
theorem expandGroups_around {before behind : List ℕ} {len : ℕ}
    (hlength : before.length + len + behind.length = 8) :
    expandGroups (groupsOf before ++ [] :: groupsOf behind) =
      before ++ (List.replicate len 0 ++ behind) := by
  have hbefore : (groupsOf before ++ [] :: groupsOf behind).takeWhile (· ≠ []) =
      before.map (Nat.toDigits 16) := by
    unfold groupsOf
    split
    · next hnil =>
      rw [hnil]
      rfl
    · rw [List.takeWhile_append_of_pos, List.takeWhile_cons_of_neg (by simp), List.append_nil]
      intro digits hdigits
      obtain ⟨n, -, rfl⟩ := List.mem_map.mp hdigits
      exact decide_eq_true Nat.toDigits_ne_nil
  have hall : (groupsOf before ++ [] :: groupsOf behind).filter (· ≠ []) =
      before.map (Nat.toDigits 16) ++ behind.map (Nat.toDigits 16) := by
    rw [List.filter_append, List.filter_cons_of_neg (by simp), filter_groupsOf, filter_groupsOf]
  unfold expandGroups
  simp only [hbefore, hall]
  rw [map_hexValue, List.drop_left, map_hexValue, List.length_append, List.length_map,
    List.length_map]
  congr 3
  omega

/-- What the text of eight segments stands for. -/
theorem expandGroups_groupsOf {segments : List ℕ} (hlength : segments.length = 8) :
    expandGroups (groupsOf segments) = segments := by
  have hne : segments ≠ [] := by
    rintro rfl
    cases hlength
  have hgroups : groupsOf segments = segments.map (Nat.toDigits 16) := if_neg hne
  have hsome : ∀ digits ∈ segments.map (Nat.toDigits 16), decide (digits ≠ []) = true := by
    intro digits hdigits
    obtain ⟨n, -, rfl⟩ := List.mem_map.mp hdigits
    exact decide_eq_true Nat.toDigits_ne_nil
  unfold expandGroups
  have htake : (segments.map (Nat.toDigits 16)).takeWhile (· ≠ []) = segments.map (Nat.toDigits 16) := by
    conv_lhs => rw [← List.append_nil (segments.map _), List.takeWhile_append_of_pos hsome]
    exact List.append_nil _
  simp only [hgroups, htake, List.filter_eq_self.mpr hsome]
  rw [List.drop_length, map_hexValue, List.length_map, hlength]
  exact List.append_nil _

end Groups

/-! ## Addresses -/

theorem length_ipv6Segments (octets : Vector UInt8 16) : (ipv6Segments octets).length = 8 :=
  List.length_ofFn

theorem ipv6Segments_injective : Function.Injective ipv6Segments := by
  intro a b h
  have hsegments : ∀ i : Fin 8, a[2 * i.val].toNat * 256 + a[2 * i.val + 1].toNat =
      b[2 * i.val].toNat * 256 + b[2 * i.val + 1].toNat := congrFun (List.ofFn_injective h)
  have hoctets : ∀ i : Fin 8, a[2 * i.val] = b[2 * i.val] ∧ a[2 * i.val + 1] = b[2 * i.val + 1] := by
    intro i
    have hsegment := hsegments i
    have hlow := a[2 * i.val + 1].toNat_lt
    have hlow' := b[2 * i.val + 1].toNat_lt
    constructor
    · apply UInt8.toNat_inj.mp
      omega
    · apply UInt8.toNat_inj.mp
      omega
  ext i hi
  obtain ⟨k, rfl | rfl⟩ := Nat.even_or_odd' i
  · rw [(hoctets ⟨k, by omega⟩).1]
  · rw [(hoctets ⟨k, by omega⟩).2]

section Ipv6

variable {octets : Vector UInt8 16}

/-- The text of an address that is not an IPv4 address in IPv6 form. -/
theorem expandGroups_ipv6Text (hmapped : (ipv6Segments octets).take 6 ≠ [0, 0, 0, 0, 0, 0xFFFF]) :
    expandGroups ((ipv6Text octets).toList.splitOn ':') = ipv6Segments octets ∧
      '.' ∉ (ipv6Text octets).toList := by
  have hlength := length_ipv6Segments octets
  have hjoined : ∀ segments, (joinSegments segments).toList = joined ':' 16 segments := by
    intro segments
    unfold joinSegments joined
    rw [String.toList_intercalate, List.map_map]
    congr 2
    ext n
    simp [lowerHex]
  have hdot : ∀ segments, '.' ∉ (joinSegments segments).toList := by
    intro segments
    rw [hjoined]
    exact dot_notMem_joined (by decide) (by decide)
  unfold ipv6Text
  simp only [hmapped, if_false]
  have hrun := zeroRun_longestZeroes (ipv6Segments octets)
  generalize longestZeroes (ipv6Segments octets) = run at hrun
  obtain ⟨start, len⟩ := run
  simp only
  split
  · next hlen =>
    have hlast := hrun (start + len - 1) (by simp only; omega) (by simp only; omega)
    have hbound : start + len - 1 < (ipv6Segments octets).length := by
      by_contra hge
      rw [List.getElem?_eq_none (not_lt.mp hge)] at hlast
      cases hlast
    have htext : (joinSegments ((ipv6Segments octets).take start) ++ "::" ++
        joinSegments ((ipv6Segments octets).drop (start + len))).toList =
          (joinSegments ((ipv6Segments octets).take start)).toList ++ ':' ::
            ([] ++ ':' :: (joinSegments ((ipv6Segments octets).drop (start + len))).toList) := by
      simp
    rw [htext]
    constructor
    · have hempty : ([] : List Char).splitOn ':' = [[]] := rfl
      rw [List.splitOn_append_cons_self, List.splitOn_append_cons_self, hempty, splitOn_joinSegments,
        splitOn_joinSegments]
      change expandGroups (groupsOf _ ++ [] :: groupsOf _) = _
      have hsum : ((ipv6Segments octets).take start).length + len +
          ((ipv6Segments octets).drop (start + len)).length = 8 := by
        rw [List.length_take, List.length_drop, hlength]
        omega
      rw [expandGroups_around hsum]
      exact (eq_append_of_zeroRun hrun).symm
    · simp only [List.mem_append, List.mem_cons, List.nil_append, hdot, false_or, or_false]
      decide
  · constructor
    · rw [splitOn_joinSegments, expandGroups_groupsOf hlength]
    · exact hdot _

/-- An IPv4 address in IPv6 form. -/
theorem toList_ipv6Text_mapped
    (hmapped : (ipv6Segments octets).take 6 = [0, 0, 0, 0, 0, 0xFFFF]) :
    (ipv6Text octets).toList = "::ffff:".toList ++
      (Ipv4Addr.toString ⟨storageOctets octets⟩).toList := by
  unfold ipv6Text
  simp only [hmapped, if_true]
  exact String.toList_append

end Ipv6

theorem dot_mem_ipv4 (address : Ipv4Addr) : '.' ∈ address.toString.toList := by
  by_contra hdot
  have hne : address.octets.toList.map UInt8.toNat ≠ [] := by
    intro hnil
    have hlength := congrArg List.length hnil
    simp at hlength
  have hsplit := congrArg List.length (List.splitOn_eq_singleton hdot)
  rw [toList_ipv4, splitOn_joined (by decide) (by decide) (.inr rfl) hne] at hsplit
  simp at hsplit

theorem colon_notMem_ipv4 (address : Ipv4Addr) : ':' ∉ address.toString.toList := by
  rw [toList_ipv4]
  exact colon_notMem_joined (by decide) (by decide)

theorem ipv6Text_injective : Function.Injective ipv6Text := by
  intro a b h
  apply ipv6Segments_injective
  by_cases ha : (ipv6Segments a).take 6 = [0, 0, 0, 0, 0, 0xFFFF]
  · by_cases hb : (ipv6Segments b).take 6 = [0, 0, 0, 0, 0, 0xFFFF]
    · have htail : ∀ octets : Vector UInt8 16, (ipv6Segments octets).drop 6 =
          [octets[12].toNat * 256 + octets[13].toNat, octets[14].toNat * 256 + octets[15].toNat] :=
        fun _ => rfl
      have htext := congrArg String.toList h
      rw [toList_ipv6Text_mapped ha, toList_ipv6Text_mapped hb] at htext
      have hlast := congrArg Ipv4Addr.octets
        (ipv4_toString_injective (String.toList_inj.mp (List.append_cancel_left htext)))
      simp only [storageOctets, Vector.mk_eq, Array.mk.injEq, List.cons.injEq, and_true] at hlast
      obtain ⟨h12, h13, h14, h15⟩ := hlast
      rw [← List.take_append_drop 6 (ipv6Segments a), ← List.take_append_drop 6 (ipv6Segments b), ha, hb,
        htail, htail, h12, h13, h14, h15]
    · have hdot := (expandGroups_ipv6Text hb).2
      rw [← h, toList_ipv6Text_mapped ha] at hdot
      exact absurd (List.mem_append_right _ (dot_mem_ipv4 _)) hdot
  · have hdot := (expandGroups_ipv6Text ha).2
    by_cases hb : (ipv6Segments b).take 6 = [0, 0, 0, 0, 0, 0xFFFF]
    · rw [h, toList_ipv6Text_mapped hb] at hdot
      exact absurd (List.mem_append_right _ (dot_mem_ipv4 _)) hdot
    · rw [← (expandGroups_ipv6Text ha).1, ← (expandGroups_ipv6Text hb).1, h]

/-- The text of an IPv6 address is not that of an IPv4 address. -/
theorem ipv6Text_ne_ipv4 (octets : Vector UInt8 16) (address : Ipv4Addr) :
    ipv6Text octets ≠ address.toString := by
  intro h
  by_cases hmapped : (ipv6Segments octets).take 6 = [0, 0, 0, 0, 0, 0xFFFF]
  · have hcolon := colon_notMem_ipv4 address
    rw [← h, toList_ipv6Text_mapped hmapped] at hcolon
    exact absurd (List.mem_append_left _ (by decide)) hcolon
  · have hdot := (expandGroups_ipv6Text hmapped).2
    rw [h] at hdot
    exact hdot (dot_mem_ipv4 address)

theorem ipAddr_toString_injective : Function.Injective IpAddr.toString := by
  rintro (a | a) (b | b) h
  · exact congrArg IpAddr.v4 (ipv4_toString_injective h)
  · exact absurd h.symm (ipv6Text_ne_ipv4 b a)
  · exact absurd h (ipv6Text_ne_ipv4 a b)
  · exact congrArg IpAddr.v6 (ipv6Text_injective h)

end ZimaScope
