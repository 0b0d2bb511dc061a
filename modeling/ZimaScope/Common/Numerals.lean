import ZimaScope.Common.AddressParse
import Mathlib.Algebra.Order.Monoid.NatCast

/-! # Numerals

Numbers in the texts that the kernel prints: digits of a radix, padded with zeros, and in capitals
where the radix has letters. What is printed is read back.
-/

namespace ZimaScope

open AddressParse (digitValue)

/-- The digits of a number, read from the left. -/
def readDigits (radix : ℕ) (text : List Char) (value : ℕ) : Option ℕ :=
  text.foldlM (fun value c => (digitValue radix c).map (value * radix + ·)) value

/-- A plus sign is taken before digits. -/
def withoutPlus : List Char → List Char
  | '+' :: digit :: rest => digit :: rest
  | text => text

/-- `from_str_radix` of an unsigned number below the bound. -/
def fromStrRadix (radix bound : ℕ) (text : List Char) : Option ℕ :=
  let digits := withoutPlus text
  if digits = [] then none else (readDigits radix digits 0).filter (· < bound)

/-- `%0{width}X` -/
def hexText (width n : ℕ) : List Char := ((Nat.toDigits 16 n).map Char.toUpper).leftpad width '0'

/-- `%u` -/
def decText (n : ℕ) : List Char := Nat.toDigits 10 n

section Digits

variable {radix bound n : ℕ} {text : List Char}

theorem readDigits_append (text' : List Char) (value : ℕ) : readDigits radix (text ++ text') value =
    (readDigits radix text value).bind (readDigits radix text') :=
  List.foldlM_append

theorem readDigits_zeros (hradix : 0 < radix) (k : ℕ) :
    readDigits radix (List.replicate k '0') 0 = some 0 := by
  have hzero : digitValue radix '0' = some 0 := by simp [digitValue, hradix]
  induction k with
  | zero => rfl
  | succ k ih =>
    rw [List.replicate_succ]
    unfold readDigits at ih ⊢
    rw [List.foldlM_cons, hzero]
    simpa using ih

/-- Digits in any spelling that the reader knows. -/
theorem readDigits_toDigits (hradix : 1 < radix) {spell : Char → Char}
    (hspell : ∀ d < radix, digitValue radix (spell (Nat.digitChar d)) = some d) (n : ℕ) :
    readDigits radix ((Nat.toDigits radix n).map spell) 0 = some n := by
  have hdigit : ∀ d < radix, ∀ value,
      readDigits radix [spell (Nat.digitChar d)] value = some (value * radix + d) := by
    intro d hd value
    unfold readDigits
    rw [List.foldlM_cons, hspell d hd]
    rfl
  induction n using Nat.base_induction radix hradix with
  | single d hd =>
    rw [Nat.toDigits_of_lt_base hd]
    simpa using hdigit d hd 0
  | digit m d hd hm ih =>
    rw [← Nat.toDigits_append_toDigits hradix hm hd, Nat.toDigits_of_lt_base hd, List.map_append,
      readDigits_append, ih]
    simpa [Nat.mul_comm] using hdigit d hd m

theorem withoutPlus_of_ne (h : ∀ digit rest, text = '+' :: digit :: rest → False) :
    withoutPlus text = text := by
  unfold withoutPlus
  split
  · exact (h _ _ rfl).elim
  · rfl

/-- No digit is a sign. -/
theorem withoutPlus_of_read (hread : readDigits radix text 0 = some n) : withoutPlus text = text := by
  refine withoutPlus_of_ne ?_
  rintro digit rest rfl
  unfold readDigits at hread
  rw [List.foldlM_cons] at hread
  have hplus : digitValue radix '+' = none := rfl
  rw [hplus] at hread
  cases hread

theorem fromStrRadix_of_read (hread : readDigits radix text 0 = some n) (htext : text ≠ [])
    (hn : n < bound) : fromStrRadix radix bound text = some n := by
  unfold fromStrRadix
  simp only [withoutPlus_of_read hread, if_neg htext, hread]
  exact Option.filter_some_pos (decide_eq_true hn)

/-! ## Radix ten -/

theorem digitValue_ten (c : Char) :
    digitValue 10 c = if c.isDigit then some (c.toNat - 48) else none := by
  have hdigit : c.isDigit = true ↔ 48 ≤ c.toNat ∧ c.toNat ≤ 57 := by
    unfold Char.isDigit
    simp only [ge_iff_le, Bool.and_eq_true, decide_eq_true_iff, UInt32.le_iff_toNat_le]
    rfl
  unfold digitValue
  simp only [hdigit]
  split
  · next h =>
    exact Option.filter_some_pos (decide_eq_true (by omega))
  · split
    · exact Option.filter_some_neg (by simp; omega)
    · split
      · exact Option.filter_some_neg (by simp; omega)
      · rfl

theorem readDigits_ten (text : List Char) (value : ℕ) : readDigits 10 text value =
    if text.all Char.isDigit then
      some (text.foldl (fun value c => value * 10 + (c.toNat - 48)) value) else none := by
  induction text generalizing value with
  | nil => rfl
  | cons c text ih =>
    unfold readDigits at ih ⊢
    rw [List.foldlM_cons, digitValue_ten, List.all_cons, List.foldl_cons]
    cases hc : c.isDigit with
    | false => rfl
    | true => simpa using ih _

/-- `FromStr` reads in radix ten. -/
theorem parseUnsigned_eq : parseUnsigned bound text = fromStrRadix 10 bound text := by
  have hplus : parseUnsigned bound text =
      if withoutPlus text ≠ [] ∧ (withoutPlus text).all Char.isDigit then
        let value := (withoutPlus text).foldl (fun value c => value * 10 + (c.toNat - 48)) 0
        if value < bound then some value else none
      else none := by
    unfold parseUnsigned
    split
    · rfl
    · next hplus => rw [withoutPlus_of_ne hplus]
  rw [hplus]
  unfold fromStrRadix
  generalize withoutPlus text = digits
  simp only [readDigits_ten]
  by_cases hnil : digits = []
  · simp [hnil]
  · by_cases hall : digits.all Char.isDigit = true
    · simp only [hnil, hall, ne_eq, not_false_iff, and_self, if_true, if_false]
      rw [Option.filter_some]
      simp
    · simp [hnil, hall]

end Digits

/-! ## What is printed -/

section Printed

variable {width bound n : ℕ}

theorem fromStrRadix_hexText (hn : n < bound) : fromStrRadix 16 bound (hexText width n) = some n := by
  have hspell : ∀ d < 16, digitValue 16 (Nat.digitChar d).toUpper = some d := by decide
  refine fromStrRadix_of_read ?_ ?_ hn
  · unfold hexText List.leftpad
    rw [readDigits_append, readDigits_zeros (by decide)]
    exact readDigits_toDigits (by decide) hspell n
  · unfold hexText List.leftpad
    simp [Nat.toDigits_ne_nil]

theorem parseUnsigned_decText (hn : n < bound) : parseUnsigned bound (decText n) = some n := by
  have hspell : ∀ d < 10, digitValue 10 (id (Nat.digitChar d)) = some d := by decide
  have hread := readDigits_toDigits (by decide) hspell n
  rw [List.map_id] at hread
  rw [parseUnsigned_eq]
  exact fromStrRadix_of_read hread Nat.toDigits_ne_nil hn

/-- Numbers in the same width are told apart by their texts. -/
theorem hexText_injective : Function.Injective (hexText width) := by
  intro m n h
  have hm := @fromStrRadix_hexText width _ _ (Nat.lt_succ_of_le (le_max_left m n))
  rw [h, fromStrRadix_hexText (Nat.lt_succ_of_le (le_max_right m n))] at hm
  exact (Option.some.inj hm).symm

end Printed

end ZimaScope
