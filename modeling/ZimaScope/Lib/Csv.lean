import Mathlib.Data.List.Basic

/-! # Comma-separated values

A reader of records after RFC 4180: a record is a line, its fields stand between
commas, and a field between quotes may hold every character, a quote as two of
them. A line ends with a newline, which a carriage return may precede.
-/

namespace Csv

/-- Where in a field the reader stands. -/
inductive Place
  | start
  | plain
  | quoted
  /-- Behind a quote that ends the field or is the first of two. -/
  | quote
  /-- Behind a carriage return. -/
  | lineEnd
  deriving DecidableEq, Repr

structure Reader where
  place : Place := .start
  field : List Char := []
  fields : List (List Char) := []
  records : List (List (List Char)) := []

namespace Reader

def push (r : Reader) (place : Place) (c : Char) : Reader :=
  { r with place, field := r.field ++ [c] }

def endField (r : Reader) : Reader :=
  { r with place := .start, field := [], fields := r.fields ++ [r.field] }

def endRecord (r : Reader) : Reader :=
  { place := .start, field := [], fields := [], records := r.records ++ [r.fields ++ [r.field]] }

/-- What may stand behind a field. -/
def separator? (r : Reader) (c : Char) : Option Reader :=
  if c = ',' then some r.endField
  else if c = '\n' then some r.endRecord
  else if c = '\r' then some { r with place := .lineEnd }
  else none

def step (r : Reader) (c : Char) : Option Reader :=
  match r.place with
  | .start => if c = '"' then some { r with place := .quoted } else r.separator? c <|> some (r.push .plain c)
  | .plain => if c = '"' then none else r.separator? c <|> some (r.push .plain c)
  | .quoted => some (if c = '"' then { r with place := .quote } else r.push .quoted c)
  | .quote => if c = '"' then some (r.push .quoted c) else r.separator? c
  | .lineEnd => if c = '\n' then some r.endRecord else none

/-- The last line need not end. -/
def finish (r : Reader) : Option (List (List (List Char))) :=
  match r.place with
  | .start => some (if r.fields = [] then r.records else r.endRecord.records)
  | .plain | .quote => some r.endRecord.records
  | .quoted | .lineEnd => none

end Reader

def read (text : List Char) : Option (List (List (List Char))) :=
  (text.foldlM Reader.step {}).bind Reader.finish

example : read "a,\"b\"\",\n\"\r\n,".toList =
    some [["a".toList, "b\",\n".toList], [[], []]] := by decide

/-! ## Writing -/

def IsSpecial (c : Char) : Prop := c = ',' ∨ c = '"' ∨ c = '\n' ∨ c = '\r'

instance : DecidablePred IsSpecial := fun _ => inferInstanceAs (Decidable (_ ∨ _ ∨ _ ∨ _))

def doubled (field : List Char) : List Char :=
  field.flatMap fun c => if c = '"' then ['"', '"'] else [c]

/-- A field stands as it is, or between quotes. -/
inductive Writes : List Char → List Char → Prop
  | plain {field : List Char} (h : ∀ c ∈ field, ¬IsSpecial c) : Writes field field
  | quoted {field : List Char} : Writes ('"' :: (doubled field ++ ['"'])) field

/-- A line of written fields. -/
def line (written : List (List Char)) : List Char := [','].intercalate written ++ ['\n']

/-! ## What is written is read -/

section Reading

variable {r : Reader} {written field : List Char}

theorem step_comma (h : r.place ≠ .quoted ∧ r.place ≠ .lineEnd) : r.step ',' = some r.endField := by
  unfold Reader.step
  cases hplace : r.place
  case quoted => exact absurd hplace h.1
  case lineEnd => exact absurd hplace h.2
  all_goals rfl

theorem step_newline (h : r.place ≠ .quoted ∧ r.place ≠ .lineEnd) : r.step '\n' = some r.endRecord := by
  unfold Reader.step
  cases hplace : r.place
  case quoted => exact absurd hplace h.1
  case lineEnd => exact absurd hplace h.2
  all_goals rfl

theorem foldlM_plain (hr : r.place = .start ∨ r.place = .plain) (h : ∀ c ∈ field, ¬IsSpecial c) :
    ∃ place, (place = .start ∨ place = .plain) ∧
      field.foldlM Reader.step r = some { r with place, field := r.field ++ field } := by
  induction field generalizing r with
  | nil => exact ⟨r.place, hr, by simp⟩
  | cons c field ih =>
    have hc := h c List.mem_cons_self
    simp only [IsSpecial, not_or] at hc
    have hstep : r.step c = some (r.push .plain c) := by
      unfold Reader.step
      rcases hr with hplace | hplace <;> simp [hplace, Reader.separator?, hc]
    obtain ⟨place, hplace, hfold⟩ :=
      ih (r := r.push .plain c) (.inr rfl) fun d hd => h d (List.mem_cons_of_mem c hd)
    refine ⟨place, hplace, ?_⟩
    rw [List.foldlM_cons, hstep]
    simpa [Reader.push] using hfold

theorem foldlM_doubled (hr : r.place = .quoted) :
    (doubled field).foldlM Reader.step r = some { r with field := r.field ++ field } := by
  induction field generalizing r with
  | nil => simp [doubled]
  | cons c field ih =>
    have hfirst : (if c = '"' then ['"', '"'] else [c]).foldlM Reader.step r =
        some (r.push .quoted c) := by
      split
      · next hquote => simp [Reader.step, hr, hquote, Reader.push]
      · next hquote => simp [Reader.step, hr, hquote]
    change ((if c = '"' then ['"', '"'] else [c]) ++ doubled field).foldlM Reader.step r = _
    rw [List.foldlM_append, hfirst]
    have hrest := ih (r := r.push .quoted c) rfl
    simpa [Reader.push, hr] using hrest

/-- A written field is read from its start to where it may end. -/
theorem Writes.foldlM_eq (h : Writes written field) (hstart : r.place = .start)
    (hfield : r.field = []) : ∃ place, (place ≠ .quoted ∧ place ≠ .lineEnd) ∧
      written.foldlM Reader.step r = some { r with place, field } := by
  cases h with
  | plain h =>
    obtain ⟨place, hplace, hfold⟩ := foldlM_plain (.inl hstart) h
    rw [hfield] at hfold
    refine ⟨place, ?_, hfold⟩
    rcases hplace with rfl | rfl <;> decide
  | quoted =>
    refine ⟨.quote, by decide, ?_⟩
    have hopen : r.step '"' = some { r with place := .quoted } := by simp [Reader.step, hstart]
    rw [List.foldlM_cons, hopen]
    change (doubled field ++ ['"']).foldlM Reader.step { r with place := .quoted } = _
    rw [List.foldlM_append, foldlM_doubled rfl]
    simp [Reader.step, hfield]

variable {ws fs : List (List Char)} (fields : List (List Char)) (records : List (List (List Char)))

theorem foldlM_line (hne : ws ≠ []) (h : List.Forall₂ Writes ws fs) :
    (line ws).foldlM Reader.step { fields, records } =
      some { records := records ++ [fields ++ fs] } := by
  induction h generalizing fields with
  | nil => exact absurd rfl hne
  | @cons w f ws fs hw hws ih =>
    obtain ⟨place, hplace, hfold⟩ := hw.foldlM_eq (r := { fields, records }) rfl rfl
    cases hws with
    | nil =>
      rw [line, List.intercalate_singleton, List.foldlM_append, hfold]
      change (Reader.step _ '\n').bind _ = _
      rw [step_newline hplace]
      rfl
    | @cons w' f' ws fs hw' hws =>
      have hline : line (w :: w' :: ws) = w ++ ',' :: line (w' :: ws) := by
        simp [line, List.intercalate_cons_of_ne_nil]
      rw [hline, List.foldlM_append, hfold]
      change (Reader.step _ ',').bind _ = _
      rw [step_comma hplace]
      have hrest := ih (fields ++ [f]) (by simp)
      simpa [Reader.endField] using hrest

theorem foldlM_lines {lines written : List (List (List Char))}
    (h : List.Forall₂ (fun ws fs => ws ≠ [] ∧ List.Forall₂ Writes ws fs) written lines) :
    (written.flatMap line).foldlM Reader.step { records } =
      some { records := records ++ lines } := by
  induction h generalizing records with
  | nil => simp
  | @cons ws fs _ _ hline _ ih =>
    rw [List.flatMap_cons, List.foldlM_append, foldlM_line [] records hline.1 hline.2]
    have hrest := ih (records ++ [fs])
    rw [List.append_assoc, List.singleton_append] at hrest
    exact hrest

/-- Written lines of at least one field are read as what was written. -/
theorem read_lines {lines written : List (List (List Char))}
    (h : List.Forall₂ (fun ws fs => ws ≠ [] ∧ List.Forall₂ Writes ws fs) written lines) :
    read (written.flatMap line) = some lines := by
  rw [read, foldlM_lines [] h]
  simp [Reader.finish]

end Reading

end Csv
