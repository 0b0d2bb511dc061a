import ZimaScope.Api.FlowQuery
import ZimaScope.Lib.Delimited

/-! # What the text of a list mentions

`domains_json` is searched for a text in quotation marks. What is found that way
are the words between the quotation marks of the list: names of fields and
enumerations, punctuation, and the domains as JSON escapes them.
-/

namespace ZimaScope

/-! ## Words -/

/-- The words of one association, from the first quotation mark to the last. -/
def associationWords (d : DomainRefDto) : List (List Char) :=
  ["domain".toList, ":".toList] ++ (jsonEscape d.domain).toList.splitOn '"' ++
    [",".toList, "evidence".toList, ":".toList, d.evidence.value.toList, ",".toList,
      "confidence".toList, ":".toList, d.confidence.value.toList]

/-- The words of the associations that come after another. -/
def followingWords : List DomainRefDto → List (List Char)
  | [] => []
  | d :: domains => "\x7d,\x7b".toList :: (associationWords d ++ followingWords domains)

/-- The words between the quotation marks of a list. -/
def quotedWords : List DomainRefDto → List (List Char)
  | [] => []
  | d :: domains => associationWords d ++ followingWords domains

/-- The words of a name follow one another in the list. -/
def Mentions (domains : List DomainRefDto) (name : String) : Prop :=
  name.toList.splitOn '"' <:+: quotedWords domains

instance (domains : List DomainRefDto) (name : String) : Decidable (Mentions domains name) :=
  inferInstanceAs (Decidable (_ <:+: _))

/-! ## The text -/

section Text

variable {d : DomainRefDto} {domains : List DomainRefDto}

/-- The text of an association between its first and its last quotation mark. -/
def associationText (d : DomainRefDto) : List Char :=
  "domain".toList ++ '"' :: (":".toList ++ '"' :: ((jsonEscape d.domain).toList ++ '"' ::
    (",".toList ++ '"' :: ("evidence".toList ++ '"' :: (":".toList ++ '"' ::
      (d.evidence.value.toList ++ '"' :: (",".toList ++ '"' :: ("confidence".toList ++ '"' ::
        (":".toList ++ '"' :: d.confidence.value.toList)))))))))

/-- The text behind an association. -/
def followingText : List DomainRefDto → List Char
  | [] => "\x7d]".toList
  | d :: domains => "\x7d,\x7b".toList ++ '"' :: (associationText d ++ '"' :: followingText domains)

theorem toList_associationJson : d.json.toList = '{' :: '"' :: (associationText d ++ ['"', '}']) := by
  unfold DomainRefDto.json associationText
  simp

theorem toList_domainsText :
    (domainsText (d :: domains)).toList =
      "[\x7b".toList ++ '"' :: (associationText d ++ '"' :: followingText domains) := by
  have hrest : ∀ domains : List DomainRefDto, ∀ d : DomainRefDto,
      (",".intercalate ((d :: domains).map DomainRefDto.json)).toList ++ [']'] =
        '{' :: '"' :: (associationText d ++ '"' :: followingText domains) := by
    intro domains
    induction domains with
    | nil =>
      intro d
      simp [followingText, toList_associationJson]
    | cons d' domains ih =>
      intro d
      rw [List.map_cons, List.map_cons, String.intercalate_cons_cons, ← List.map_cons,
        String.toList_append, String.toList_append, List.append_assoc, ih, toList_associationJson]
      simp [followingText]
  unfold domainsText
  rw [String.toList_append, String.toList_append, List.append_assoc]
  exact congrArg _ (hrest domains d)

theorem splitOn_evidenceValue (evidence : DomainEvidence) :
    evidence.value.toList.splitOn '"' = [evidence.value.toList] := by
  cases evidence <;> exact List.splitOn_eq_singleton (by decide)

theorem splitOn_confidenceValue (confidence : AssociationConfidence) :
    confidence.value.toList.splitOn '"' = [confidence.value.toList] := by
  cases confidence <;> exact List.splitOn_eq_singleton (by decide)

theorem splitOn_associationText : (associationText d).splitOn '"' = associationWords d := by
  have hdomain : "domain".toList.splitOn '"' = ["domain".toList] :=
    List.splitOn_eq_singleton (by decide)
  have hcolon : ":".toList.splitOn '"' = [":".toList] := List.splitOn_eq_singleton (by decide)
  have hcomma : ",".toList.splitOn '"' = [",".toList] := List.splitOn_eq_singleton (by decide)
  have hevidence : "evidence".toList.splitOn '"' = ["evidence".toList] :=
    List.splitOn_eq_singleton (by decide)
  have hconfidence : "confidence".toList.splitOn '"' = ["confidence".toList] :=
    List.splitOn_eq_singleton (by decide)
  unfold associationText associationWords
  simp only [List.splitOn_append_cons_self, hdomain, hcolon, hcomma, hevidence, hconfidence,
    splitOn_evidenceValue, splitOn_confidenceValue]
  simp

theorem splitOn_followingText : (followingText domains).splitOn '"' =
    followingWords domains ++ ["\x7d]".toList] := by
  induction domains with
  | nil => exact List.splitOn_eq_singleton (by decide)
  | cons d domains ih =>
    have hbetween : "\x7d,\x7b".toList.splitOn '"' = ["\x7d,\x7b".toList] :=
      List.splitOn_eq_singleton (by decide)
    unfold followingText followingWords
    rw [List.splitOn_append_cons_self, List.splitOn_append_cons_self, splitOn_associationText, ih,
      hbetween]
    simp

theorem innerParts_domainsText (domains : List DomainRefDto) :
    (domainsText domains).toList.innerParts '"' = quotedWords domains := by
  cases domains with
  | nil =>
    have hempty : "[]".toList.splitOn '"' = ["[]".toList] := List.splitOn_eq_singleton (by decide)
    have htext : (domainsText []).toList = "[]".toList := by decide
    unfold List.innerParts
    rw [htext, hempty]
    rfl
  | cons d domains =>
    have hbefore : "[\x7b".toList.splitOn '"' = ["[\x7b".toList] :=
      List.splitOn_eq_singleton (by decide)
    rw [toList_domainsText, List.innerParts_append_cons, splitOn_associationText,
      splitOn_followingText, hbefore]
    simp [quotedWords]

/-- A text in quotation marks is found where the words of it are. -/
theorem domainsContain_iff {row : FlowRow} {name : String} :
    domainsContain row ("\"" ++ name ++ "\"") = true ↔ Mentions row.domainsJson name := by
  have hquoted : ("\"" ++ name ++ "\"").toList = '"' :: name.toList ++ ['"'] := by simp
  unfold domainsContain containsText Mentions
  rw [decide_eq_true_iff, hquoted, List.delimited_infix_iff, innerParts_domainsText]

/-- A domain that JSON leaves as it is. -/
theorem mentions_of_mem {name : String} (hplain : jsonEscape name = name) (hd : d ∈ domains)
    (hname : d.domain = name) : Mentions domains name := by
  have hwords : name.toList.splitOn '"' <:+: associationWords d := by
    unfold associationWords
    rw [hname, hplain]
    exact List.infix_append _ _ _
  have hfollowing : ∀ domains : List DomainRefDto, d ∈ domains →
      associationWords d <:+: followingWords domains := by
    intro domains
    induction domains with
    | nil => simp
    | cons d' domains ih =>
      intro hd
      unfold followingWords
      apply List.infix_cons
      rcases List.mem_cons.mp hd with rfl | hd
      · exact (List.prefix_append _ _).isInfix
      · exact (ih hd).trans (List.suffix_append _ _).isInfix
  unfold Mentions
  cases domains with
  | nil => cases hd
  | cons d' domains =>
    unfold quotedWords
    rcases List.mem_cons.mp hd with rfl | hd
    · exact hwords.trans (List.prefix_append _ _).isInfix
    · exact hwords.trans ((hfollowing domains hd).trans (List.suffix_append _ _).isInfix)

end Text

/-! ## Evidence and confidence

A quotation mark inside a domain has a backslash before it, so a field is found where it is
one. -/

section Fields

theorem quote_notMem_jsonChar {c : Char} (h : c ≠ '"') : '"' ∉ jsonChar c := by
  have hdigit : ∀ n < 16, '"' ≠ Nat.digitChar n := by decide
  unfold jsonChar
  rw [if_neg h]
  split_ifs with h₁ h₂ h₃ h₄ h₅ h₆ h₇
  all_goals simp only [List.mem_cons, List.not_mem_nil, or_false, not_or]
  all_goals first
    | exact Ne.symm h
    | decide
    | exact ⟨by decide, by decide, by decide, by decide, hdigit _ (by omega), hdigit _ (by omega)⟩

theorem splitOn_append_of_notMem {a : Char} {l rest : List Char} (h : a ∉ l) :
    (l ++ rest).splitOn a = (rest.splitOn a).modifyHead (l ++ ·) := by
  induction l with
  | nil => exact (List.modifyHead_id ▸ rfl)
  | cons c l ih =>
    rw [List.mem_cons, not_or] at h
    have hne : (c == a) = false := by simpa using Ne.symm h.1
    rw [List.cons_append, List.splitOn_cons_eq_if_modifyHead, hne, ih h.2]
    simp [List.modifyHead_modifyHead, Function.comp_def]

/-- The parts of an escaped text end with the backslash of the next quotation mark. -/
theorem getLast?_escaped {s : List Char} : ∀ part ∈ ((s.flatMap jsonChar).splitOn '"').dropLast,
    part.getLast? = some '\\' := by
  induction s with
  | nil => simp
  | cons c s ih =>
    intro part hpart
    rw [List.flatMap_cons] at hpart
    by_cases hquote : c = '"'
    · have hchar : jsonChar c ++ s.flatMap jsonChar = ['\\'] ++ '"' :: s.flatMap jsonChar := by
        rw [hquote]
        rfl
      rw [hchar, List.splitOn_append_cons_self,
        List.dropLast_append_of_ne_nil (List.splitOn_ne_nil _ _)] at hpart
      rcases List.mem_append.mp hpart with hpart | hpart
      · rw [List.splitOn_eq_singleton (by decide), List.mem_singleton] at hpart
        rw [hpart]
        rfl
      · exact ih part hpart
    · rw [splitOn_append_of_notMem (quote_notMem_jsonChar hquote)] at hpart
      obtain ⟨first, rest, hfirst⟩ := List.exists_cons_of_ne_nil
        (List.splitOn_ne_nil '"' (s.flatMap jsonChar))
      rw [hfirst] at ih hpart
      cases rest with
      | nil => simp at hpart
      | cons second rest =>
        rw [List.modifyHead_cons, List.dropLast_cons_cons, List.mem_cons] at hpart
        rw [List.dropLast_cons_cons] at ih
        rcases hpart with rfl | hpart
        · rw [List.getLast?_append, ih first List.mem_cons_self]
          rfl
        · exact ih part (List.mem_cons_of_mem _ hpart)

theorem cons_infix_cons_iff_of_ne {α : Type} {first second : α} {word rest : List α}
    (h : first ≠ second) : first :: word <:+: second :: rest ↔ first :: word <:+: rest := by
  rw [List.infix_cons_iff, List.cons_prefix_cons]
  exact or_iff_right fun h' => h h'.1

/-- A field is not found among the parts of a domain. -/
theorem infix_escaped_iff {parts rest : List (List Char)} {field value : List Char}
    (hparts : ∀ part ∈ parts.dropLast, part ≠ field) (hfield : field ≠ [',']) :
    [field, [':'], value] <:+: parts ++ [','] :: rest ↔ [field, [':'], value] <:+: rest := by
  have hseparator : [field, [':'], value] <:+: [','] :: rest ↔
      [field, [':'], value] <:+: rest := cons_infix_cons_iff_of_ne hfield
  induction parts with
  | nil => exact hseparator
  | cons part parts ih =>
    rw [List.cons_append]
    cases parts with
    | nil =>
      rw [List.nil_append, List.infix_cons_iff, List.cons_prefix_cons, List.cons_prefix_cons, hseparator]
      simp
    | cons next parts =>
      rw [List.dropLast_cons_cons] at hparts
      have hne : field ≠ part := (hparts part List.mem_cons_self).symm
      rw [cons_infix_cons_iff_of_ne hne]
      exact ih fun part hpart => hparts part (List.mem_cons_of_mem _ hpart)

/-- A field of an association or of one that follows. -/
theorem infix_associationWords_iff {d : DomainRefDto} {rest : List (List Char)}
    {field value : List Char} (hfield : field = "evidence".toList ∨ field = "confidence".toList) :
    [field, [':'], value] <:+: associationWords d ++ rest ↔
      (field = "evidence".toList ∧ value = d.evidence.value.toList) ∨
      (field = "confidence".toList ∧ value = d.confidence.value.toList) ∨
      [field, [':'], value] <:+: d.confidence.value.toList :: rest := by
  have hparts : ∀ part ∈ ((jsonEscape d.domain).toList.splitOn '"').dropLast, part ≠ field := by
    intro part hpart heq
    have hlast : part.getLast? = some '\\' := by
      unfold jsonEscape at hpart
      rw [String.toList_ofList] at hpart
      exact getLast?_escaped part hpart
    rw [heq] at hlast
    rcases hfield with rfl | rfl <;> simp at hlast
  have hne : field ≠ [','] := by
    rcases hfield with rfl | rfl <;> decide
  have hwords : associationWords d ++ rest =
      "domain".toList :: [':'] :: ((jsonEscape d.domain).toList.splitOn '"' ++
        [','] :: ("evidence".toList :: [':'] :: d.evidence.value.toList :: [','] ::
          "confidence".toList :: [':'] :: d.confidence.value.toList :: rest)) := by
    simp [associationWords]
  rw [hwords, List.infix_cons_iff, List.infix_cons_iff, infix_escaped_iff hparts hne]
  rcases hfield with rfl | rfl
  · simp [List.infix_cons_iff, List.cons_prefix_cons]
  · simp [List.infix_cons_iff, List.cons_prefix_cons]

/-- A field in the associations that come after another. -/
theorem infix_followingWords_iff {domains : List DomainRefDto} {field value last : List Char}
    (hfield : field = "evidence".toList ∨ field = "confidence".toList)
    (hlast : last ≠ "evidence".toList ∧ last ≠ "confidence".toList) :
    [field, [':'], value] <:+: last :: followingWords domains ↔
      ∃ d ∈ domains, (field = "evidence".toList ∧ value = d.evidence.value.toList) ∨
        (field = "confidence".toList ∧ value = d.confidence.value.toList) := by
  induction domains generalizing last with
  | nil =>
    have hne : field ≠ last := by
      rcases hfield with rfl | rfl
      · exact hlast.1.symm
      · exact hlast.2.symm
    simp [followingWords, List.infix_cons_iff, List.cons_prefix_cons, hne]
  | cons d domains ih =>
    have hbetween : field ≠ "\x7d,\x7b".toList := by
      rcases hfield with rfl | rfl <;> decide
    have hne : field ≠ last := by
      rcases hfield with rfl | rfl
      · exact hlast.1.symm
      · exact hlast.2.symm
    have hconfidence : d.confidence.value.toList ≠ "evidence".toList ∧
        d.confidence.value.toList ≠ "confidence".toList := by
      cases d.confidence <;> decide
    have hlast : [field, [':'], value] <:+: last :: followingWords (d :: domains) ↔
        [field, [':'], value] <:+: associationWords d ++ followingWords domains := by
      rw [followingWords, cons_infix_cons_iff_of_ne hne, cons_infix_cons_iff_of_ne hbetween]
    rw [hlast, infix_associationWords_iff hfield, ih hconfidence, List.exists_mem_cons_iff, or_assoc]

theorem infix_quotedWords_iff {domains : List DomainRefDto} {field value : List Char}
    (hfield : field = "evidence".toList ∨ field = "confidence".toList) :
    [field, [':'], value] <:+: quotedWords domains ↔
      ∃ d ∈ domains, (field = "evidence".toList ∧ value = d.evidence.value.toList) ∨
        (field = "confidence".toList ∧ value = d.confidence.value.toList) := by
  cases domains with
  | nil => simp [quotedWords]
  | cons d domains =>
    have hconfidence : d.confidence.value.toList ≠ "evidence".toList ∧
        d.confidence.value.toList ≠ "confidence".toList := by
      cases d.confidence <;> decide
    unfold quotedWords
    rw [infix_associationWords_iff hfield, infix_followingWords_iff hfield hconfidence,
      List.exists_mem_cons_iff, or_assoc]

theorem value_injective : Function.Injective DomainEvidence.value := by
  intro a b h
  cases a <;> cases b <;> first
    | rfl
    | exact absurd h (by decide)

theorem confidenceValue_injective : Function.Injective AssociationConfidence.value := by
  intro a b h
  cases a <;> cases b <;> first
    | rfl
    | exact absurd h (by decide)

theorem domainsContain_evidence_iff {row : FlowRow} {evidence : DomainEvidence} :
    domainsContain row ("\"evidence\":\"" ++ evidence.value ++ "\"") = true ↔
      ∃ d ∈ row.domainsJson, d.evidence = evidence := by
  have htext : "\"evidence\":\"" ++ evidence.value ++ "\"" =
      "\"" ++ ("evidence\":\"" ++ evidence.value) ++ "\"" := by
    rw [String.append_assoc, String.append_assoc, String.append_assoc]
    rfl
  have hwords : ("evidence\":\"" ++ evidence.value).toList.splitOn '"' =
      ["evidence".toList, [':'], evidence.value.toList] := by
    cases evidence <;> decide
  rw [htext, domainsContain_iff, Mentions, hwords, infix_quotedWords_iff (.inl rfl)]
  have hfield : "evidence".toList ≠ "confidence".toList := by decide
  have hvalue : ∀ d : DomainRefDto, evidence.value.toList = d.evidence.value.toList ↔
      d.evidence = evidence := by
    intro d
    rw [String.toList_inj, value_injective.eq_iff, eq_comm]
  simp only [true_and, hfield, false_and, or_false, hvalue]

theorem domainsContain_confidence_iff {row : FlowRow} {confidence : AssociationConfidence} :
    domainsContain row ("\"confidence\":\"" ++ confidence.value ++ "\"") = true ↔
      ∃ d ∈ row.domainsJson, d.confidence = confidence := by
  have htext : "\"confidence\":\"" ++ confidence.value ++ "\"" =
      "\"" ++ ("confidence\":\"" ++ confidence.value) ++ "\"" := by
    rw [String.append_assoc, String.append_assoc, String.append_assoc]
    rfl
  have hwords : ("confidence\":\"" ++ confidence.value).toList.splitOn '"' =
      ["confidence".toList, [':'], confidence.value.toList] := by
    cases confidence <;> decide
  rw [htext, domainsContain_iff, Mentions, hwords, infix_quotedWords_iff (.inr rfl)]
  have hfield : "confidence".toList ≠ "evidence".toList := by decide
  have hvalue : ∀ d : DomainRefDto, confidence.value.toList = d.confidence.value.toList ↔
      d.confidence = confidence := by
    intro d
    rw [String.toList_inj, confidenceValue_injective.eq_iff, eq_comm]
  simp only [true_and, hfield, false_and, false_or, hvalue]

end Fields

end ZimaScope
