import Mathlib
import ZimaScope.Collector.Domain

/-! # Normalized domains

What normalization lets through. Its results pass once more and come out as they are:
letters are changed to lowercase ones only, and none of them is a dot.
-/

namespace ZimaScope

/-! ## Lowercase -/

theorem isUpper_iff {c : Char} : c.isUpper = true ↔ 65 ≤ c.toNat ∧ c.toNat ≤ 90 := by
  simp [Char.isUpper, UInt32.le_iff_toNat_le, ← Char.toNat_val]

theorem toLower_cases (c : Char) : c.toLower = c ∨
    65 ≤ c.toNat ∧ c.toNat ≤ 90 ∧ c.toLower.toNat = c.toNat + 32 := by
  by_cases h : c.isUpper = true
  · obtain ⟨hge, hle⟩ := isUpper_iff.mp h
    have hvalid : (c.toNat + 32).isValidChar := by
      unfold Nat.isValidChar
      omega
    refine Or.inr ⟨hge, hle, ?_⟩
    rw [Char.toLower_eq_of_isUpper h, Char.toNat_ofNat, if_pos hvalid]
  · exact Or.inl (Char.toLower_eq_of_not_isUpper h)

/-- No letter becomes a character that is not one. -/
theorem toLower_eq_iff {c mark : Char} (hmark : mark.toNat < 65) : c.toLower = mark ↔ c = mark := by
  obtain hsame | ⟨hge, hle, hlower⟩ := toLower_cases c
  · rw [hsame]
  · constructor
    · rintro rfl
      omega
    · rintro rfl
      omega

theorem isControl_toLower (c : Char) : isControl c.toLower = isControl c := by
  obtain hsame | ⟨hge, hle, hlower⟩ := toLower_cases c
  · rw [hsame]
  · rw [Bool.eq_iff_iff]
    simp only [isControl, Bool.or_eq_true, Bool.and_eq_true, decide_eq_true_eq]
    omega

theorem utf8Size_toLower (c : Char) : c.toLower.utf8Size = c.utf8Size := by
  obtain hsame | ⟨hge, hle, hlower⟩ := toLower_cases c
  · rw [hsame]
  · have hsmall (d : Char) (hd : d.toNat ≤ 127) : d.utf8Size = 1 :=
      Char.utf8Size_eq_one_iff.mpr (UInt32.le_iff_toNat_le.mpr hd)
    rw [hsmall c (by omega), hsmall c.toLower (by omega)]

theorem utf8Len_pos {chars : List Char} (h : chars ≠ []) : 0 < utf8Len chars := by
  obtain ⟨c, chars, rfl⟩ := List.exists_cons_of_ne_nil h
  exact Nat.add_pos_left c.utf8Size_pos _

theorem utf8Len_map_toLower (chars : List Char) : utf8Len (chars.map Char.toLower) = utf8Len chars := by
  unfold utf8Len
  rw [List.map_map]
  congr 1
  exact List.map_congr_left fun c _ => utf8Size_toLower c

theorem utf8Len_toList (s : String) : utf8Len s.toList = s.utf8ByteSize := by
  have hlen (chars : List Char) : utf8Len chars = String.utf8Len chars := by
    induction chars with
    | nil => rfl
    | cons c chars ih =>
      rw [String.utf8Len, ← ih, Nat.add_comm]
      rfl
  rw [hlen, ← String.utf8ByteSize_ofList, String.ofList_toList]

theorem splitOn_map_toLower (chars : List Char) :
    (chars.map Char.toLower).splitOn '.' = (chars.splitOn '.').map (List.map Char.toLower) := by
  induction chars with
  | nil => rfl
  | cons c chars ih =>
    have hdot : (c.toLower == '.') = (c == '.') := by
      rw [Bool.eq_iff_iff, beq_iff_eq, beq_iff_eq]
      exact toLower_eq_iff (by decide)
    rw [List.map_cons, List.splitOn_cons_eq_if_modifyHead, List.splitOn_cons_eq_if_modifyHead, hdot, ih]
    split
    · rfl
    · cases chars.splitOn '.' <;> rfl

/-! ## What is let through -/

/-- Labels of 1 to 63 bytes, 253 in total, of characters that a name can have. -/
structure Wellformed (chars : List Char) : Prop where
  length : utf8Len chars ≤ domainMaxLen
  labels : ∀ label ∈ chars.splitOn '.', label ≠ [] ∧ utf8Len label ≤ domainLabelMaxLen
  chars : ∀ c ∈ chars, isControl c = false ∧ c ≠ ' ' ∧ c ≠ '/'

/-- No label is empty, so there is no dot to remove. -/
theorem Wellformed.getLast?_ne {chars : List Char} (h : Wellformed chars) :
    chars.getLast? ≠ some '.' := by
  intro hdot
  obtain ⟨before, rfl⟩ := List.getLast?_eq_some_iff.mp hdot
  have hlast : [] ∈ (before ++ ['.']).splitOn '.' := by
    rw [List.splitOn_append_cons_self]
    simp
  exact (h.labels [] hlast).1 rfl

theorem Wellformed.lowercase {chars : List Char} (h : Wellformed chars) :
    Wellformed (chars.map Char.toLower) := by
  constructor
  · rw [utf8Len_map_toLower]
    exact h.length
  · rw [splitOn_map_toLower]
    intro lower hlower
    obtain ⟨label, hlabel, rfl⟩ := List.mem_map.mp hlower
    rw [utf8Len_map_toLower, ne_eq, List.map_eq_nil_iff]
    exact h.labels label hlabel
  · intro lower hlower
    obtain ⟨c, hc, rfl⟩ := List.mem_map.mp hlower
    rw [isControl_toLower, ne_eq, ne_eq, toLower_eq_iff (by decide), toLower_eq_iff (by decide)]
    exact h.chars c hc

/-- One trailing root dot removed. -/
def trimRoot (chars : List Char) : List Char :=
  if chars.getLast? = some '.' then chars.dropLast else chars

namespace DomainDecoder

theorem normalizeDomain_eq_some {raw domain : String} : normalizeDomain raw = some domain ↔
    Wellformed (trimRoot raw.toList) ∧
      domain = String.ofList ((trimRoot raw.toList).map Char.toLower) := by
  unfold normalizeDomain
  dsimp only
  generalize htrimmed :
    (if raw.toList.getLast? = some '.' then raw.toList.dropLast else raw.toList) = trimmed
  rw [show trimRoot raw.toList = trimmed from htrimmed]
  simp only [Option.ite_none_left_eq_some, Option.some.injEq, Bool.or_eq_true, List.any_eq_true,
    decide_eq_true_eq]
  constructor
  · rintro ⟨hsize, hlabels, hchars, rfl⟩
    refine ⟨⟨?_, ?_, ?_⟩, rfl⟩
    · omega
    · intro label hlabel
      have hgood := mt (fun hbad => (⟨label, hlabel, hbad⟩ : ∃ _, _)) hlabels
      exact ⟨fun hnil => hgood (Or.inl hnil), by omega⟩
    · intro c hc
      have hgood := mt (fun hbad => (⟨c, hc, hbad⟩ : ∃ _, _)) hchars
      exact ⟨Bool.eq_false_iff.mpr fun h => hgood (Or.inl (Or.inl h)),
        fun h => hgood (Or.inl (Or.inr h)), fun h => hgood (Or.inr h)⟩
  · rintro ⟨h, rfl⟩
    refine ⟨?_, ?_, ?_, rfl⟩
    · rintro (rfl | hlong)
      · exact (h.labels [] (by simp)).1 rfl
      · have hlength := h.length
        omega
    · rintro ⟨label, hlabel, hnil | hlong⟩
      · exact (h.labels label hlabel).1 hnil
      · have hlength := (h.labels label hlabel).2
        omega
    · rintro ⟨c, hc, hbad⟩
      obtain ⟨hcontrol, hspace, hslash⟩ := h.chars c hc
      rcases hbad with (hbad | hbad) | hbad
      · simp [hcontrol] at hbad
      · exact hspace hbad
      · exact hslash hbad

/-- Normalized: it comes out of normalization as it is, and its parts are within bounds. -/
structure NormalDomain (domain : String) : Prop where
  fixed : normalizeDomain domain = some domain
  length : domain.utf8ByteSize ≤ 253
  labels : ∀ label ∈ domain.toList.splitOn '.', 1 ≤ utf8Len label ∧ utf8Len label ≤ 63
  chars : ∀ c ∈ domain.toList, isControl c = false ∧ c ≠ ' ' ∧ c ≠ '/' ∧ c.isUpper = false

theorem normalDomain_of_normalize {raw domain : String} (h : normalizeDomain raw = some domain) :
    NormalDomain domain := by
  obtain ⟨hraw, rfl⟩ := normalizeDomain_eq_some.mp h
  generalize trimRoot raw.toList = trimmed at hraw
  have hlower := hraw.lowercase
  constructor
  · rw [normalizeDomain_eq_some, String.toList_ofList, trimRoot, if_neg hlower.getLast?_ne, List.map_map]
    refine ⟨hlower, congrArg String.ofList (List.map_congr_left fun c _ => ?_)⟩
    exact (Char.toLower_toLower_eq_toLower c).symm
  · rw [← utf8Len_toList, String.toList_ofList]
    exact hlower.length
  · rw [String.toList_ofList]
    intro label hlabel
    obtain ⟨hne, hle⟩ := hlower.labels label hlabel
    exact ⟨utf8Len_pos hne, hle⟩
  · rw [String.toList_ofList]
    intro c hc
    obtain ⟨hcontrol, hspace, hslash⟩ := hlower.chars c hc
    obtain ⟨c, -, rfl⟩ := List.mem_map.mp hc
    exact ⟨hcontrol, hspace, hslash, Char.isUpper_toLower_eq_false c⟩

end DomainDecoder

end ZimaScope
