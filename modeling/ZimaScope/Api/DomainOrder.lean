import ZimaScope.Api.Orders
import ZimaScope.Collector.NormalDomain
import ZimaScope.Lib.Delimited
import ZimaScope.Lib.Lexicographic
import ZimaScope.Query.Comm

/-! # The order of domains

Domains are listed by a key that joins their labels from the root with NULs. The
keys compare as the lists of the labels, so that a domain stands before its
subdomains and nothing else stands between them.
-/

namespace ZimaScope

/-- Labels from the root, as bytes. -/
def rootLabels (domain : String) : List (List UInt8) :=
  ((domain.toList.splitOn '.').map fun label => textBytes (String.ofList label)).reverse

/-- Labels are not empty and hold no NUL. -/
def Labelled (domain : String) : Prop :=
  ∀ label ∈ domain.toList.splitOn '.', label ≠ [] ∧ (0 : UInt8) ∉ textBytes (String.ofList label)

instance : DecidablePred Labelled := fun domain =>
  inferInstanceAs (Decidable (∀ label ∈ domain.toList.splitOn '.', _))

/-- The domain itself and its subdomains. -/
def InSubtree (root domain : String) : Prop := domain = root ∨ ∃ host, domain = host ++ "." ++ root

/-! ## Texts as bytes -/

theorem textBytes_ofList (l : List Char) :
    textBytes (String.ofList l) = l.flatMap String.utf8EncodeChar := by
  change (String.ofList l).toByteArray.data.toList = _
  rw [String.toByteArray_ofList, List.utf8Encode, List.toList_data_toByteArray]

theorem textBytes_eq_flatMap (s : String) :
    textBytes s = s.toList.flatMap String.utf8EncodeChar := by
  rw [← textBytes_ofList, String.ofList_toList]

/-- Texts compare byte for byte. -/
theorem textBytes_lt_iff {s t : String} : textBytes s < textBytes t ↔ s < t := by
  rw [textBytes_eq_flatMap, textBytes_eq_flatMap, List.orderedCode_utf8.flatMap_lt_iff,
    String.lt_iff_toList_lt]

theorem textBytes_le_iff {s t : String} : textBytes s ≤ textBytes t ↔ s ≤ t := by
  rw [← not_lt, ← not_lt, textBytes_lt_iff]

/-! ## Labels -/

section Labels

variable {a b : String}

theorem Labelled.rootLabels (h : Labelled a) :
    ∀ label ∈ rootLabels a, label ≠ [] ∧ ∀ byte ∈ label, 0 < byte := by
  intro label hlabel
  obtain ⟨chars, hchars, rfl⟩ := List.mem_map.mp (List.mem_reverse.mp hlabel)
  obtain ⟨hne, hnul⟩ := h chars hchars
  refine ⟨fun hnil => hne ?_, fun byte hbyte => ?_⟩
  · have htext : String.ofList chars = String.ofList [] := textBytes_inj.mp hnil
    simpa using congrArg String.toList htext
  · have hbyte0 : byte ≠ 0 := fun h => hnul (h ▸ hbyte)
    rw [ne_eq, ← UInt8.toNat_inj] at hbyte0
    rw [UInt8.lt_iff_toNat_lt]
    exact Nat.pos_of_ne_zero hbyte0

theorem DomainDecoder.NormalDomain.labelled (h : DomainDecoder.NormalDomain a) : Labelled a := by
  intro label hlabel
  constructor
  · rintro rfl
    exact absurd (h.labels [] hlabel).1 (by decide)
  · rw [textBytes_ofList, List.mem_flatMap]
    rintro ⟨c, hc, hnul⟩
    have hcontrol := (h.chars c (List.subset_of_mem_splitOn hlabel hc)).1
    simp [isControl, List.nul_mem_utf8EncodeChar hnul] at hcontrol

theorem textBytes_domainSortKey (h : Labelled a) :
    textBytes (domainSortKey a) = [0].intercalate (rootLabels a) := by
  have hkept : (a.toList.splitOn '.').filter (· ≠ []) = a.toList.splitOn '.' :=
    List.filter_eq_self.mpr fun label hlabel => by simpa using (h label hlabel).1
  have hnul : String.utf8EncodeChar (Char.ofNat 0) = [0] := by decide
  rw [domainSortKey, hkept, textBytes_ofList, List.flatMap_intercalate hnul, List.map_reverse,
    rootLabels]
  congr 2
  exact List.map_congr_left fun label _ => (textBytes_ofList label).symm

theorem label_injective : Function.Injective fun label : List Char => textBytes (String.ofList label) := by
  intro x y h
  simpa using congrArg String.toList (textBytes_inj.mp h)

theorem rootLabels_prefix_iff :
    rootLabels a <+: rootLabels b ↔ a.toList.splitOn '.' <:+ b.toList.splitOn '.' := by
  unfold rootLabels
  rw [← List.map_reverse, ← List.map_reverse, List.prefix_map_iff_of_injective label_injective,
    List.reverse_prefix]

/-- The labels of a domain begin those of its subtree, from the root. -/
theorem inSubtree_iff : InSubtree a b ↔ rootLabels a <+: rootLabels b := by
  rw [rootLabels_prefix_iff]
  constructor
  · rintro (rfl | ⟨host, rfl⟩)
    · exact List.suffix_rfl
    · have htext : (host ++ "." ++ a).toList = host.toList ++ '.' :: a.toList := by simp
      rw [htext, List.splitOn_append_cons_self]
      exact List.suffix_append _ _
  · rintro ⟨before, hbefore⟩
    have htext : ['.'].intercalate (b.toList.splitOn '.') = b.toList := List.intercalate_splitOn '.'
    rw [← hbefore] at htext
    by_cases hnil : before = []
    · rw [hnil, List.nil_append, List.intercalate_splitOn] at htext
      exact .inl (String.toList_inj.mp htext).symm
    · rw [List.intercalate_append hnil (List.splitOn_ne_nil '.' _), List.intercalate_splitOn] at htext
      refine .inr ⟨String.ofList (['.'].intercalate before), String.toList_inj.mp ?_⟩
      rw [← htext]
      simp

theorem rootLabels_inj : rootLabels a = rootLabels b ↔ a = b := by
  constructor
  · intro h
    have hlabels := label_injective.list_map (List.reverse_injective h)
    have htext := congrArg ['.'].intercalate hlabels
    rw [List.intercalate_splitOn, List.intercalate_splitOn] at htext
    exact String.toList_inj.mp htext
  · rintro rfl
    rfl

end Labels

/-! ## The order -/

section Keys

variable {a b : String} (ha : Labelled a) (hb : Labelled b)
include ha hb

theorem domainSortKey_lt_iff :
    textBytes (domainSortKey a) < textBytes (domainSortKey b) ↔ rootLabels a < rootLabels b := by
  rw [textBytes_domainSortKey ha, textBytes_domainSortKey hb]
  exact List.intercalate_lt_iff ha.rootLabels hb.rootLabels

theorem domainSortKey_le_iff :
    textBytes (domainSortKey a) ≤ textBytes (domainSortKey b) ↔ rootLabels a ≤ rootLabels b := by
  rw [← not_lt, ← not_lt, domainSortKey_lt_iff hb ha]

theorem eq_of_domainSortKey_eq (h : domainSortKey a = domainSortKey b) : a = b := by
  have hle := (domainSortKey_le_iff ha hb).mp (le_of_eq (congrArg textBytes h))
  have hge := (domainSortKey_le_iff hb ha).mp (le_of_eq (congrArg textBytes h.symm))
  exact rootLabels_inj.mp (le_antisymm hle hge)

theorem domainSortKey_orders :
    (textBytes (domainSortKey a) ≤ textBytes (domainSortKey b) ↔ rootLabels a ≤ rootLabels b) ∧
      (domainSortKey a = domainSortKey b → a = b) ∧
        (InSubtree a b → a ≠ b → textBytes (domainSortKey a) < textBytes (domainSortKey b)) ∧
          ∀ root c, Labelled c → InSubtree root a → InSubtree root b →
            textBytes (domainSortKey a) ≤ textBytes (domainSortKey c) →
              textBytes (domainSortKey c) ≤ textBytes (domainSortKey b) → InSubtree root c := by
  refine ⟨domainSortKey_le_iff ha hb, eq_of_domainSortKey_eq ha hb, fun h hne => ?_, ?_⟩
  · rw [domainSortKey_lt_iff ha hb]
    obtain ⟨rest, hrest⟩ := inSubtree_iff.mp h
    rw [← hrest]
    refine List.lt_append_of_ne_nil ?_
    rintro rfl
    exact hne (rootLabels_inj.mp ((List.append_nil _).symm.trans hrest))
  · intro root c hc hroota hrootb hac hcb
    rw [inSubtree_iff] at *
    exact List.prefix_of_between hroota hrootb ((domainSortKey_le_iff ha hc).mp hac)
      ((domainSortKey_le_iff hc hb).mp hcb)

end Keys

theorem domainSortKey_orders_example :
    textBytes (domainSortKey "example.com") < textBytes (domainSortKey "api.example.com") :=
  (domainSortKey_orders (by decide +kernel : Labelled "example.com")
    (by decide +kernel : Labelled "api.example.com")).2.2.1 (.inr ⟨"api", by decide +kernel⟩)
      (by decide)

/-! ## Listing -/

namespace SqlValue

theorem text_le_text {s t : String} : text s ≤ text t ↔ s ≤ t := by
  change rank (text s) ≤ rank (text t) ↔ _
  simp [rank, Prod.Lex.toLex_le_toLex]

end SqlValue

section Listing

variable {t : Tables} {bare : List IdRow → Option IdRow} {sort : Option String}
  {order : OrderBy (String × List DomainPair)} {group group' : String × List DomainPair}

/-- Sorted by domain, the rows come in the order of the labels from the root. -/
theorem domainOrder_le_iff (h : domainOrder t bare sort = .ok order)
    (hfield : (splitSort sort "-bytes").1 = "domain") (hl : Labelled group.1)
    (hl' : Labelled group'.1) : order.le group group' ↔
      if order.descending then rootLabels group'.1 ≤ rootLabels group.1
      else rootLabels group.1 ≤ rootLabels group'.1 := by
  have hkeys : ∀ {g g' : String × List DomainPair}, Labelled g.1 → Labelled g'.1 →
      ([.text (domainSortKey g.1), .text g.1] ≤ [SqlValue.text (domainSortKey g'.1), .text g'.1] ↔
        rootLabels g.1 ≤ rootLabels g'.1) := by
    intro g g' hg hg'
    rw [List.cons_le_cons_iff', ← domainSortKey_le_iff hg hg', textBytes_le_iff]
    constructor
    · rintro (hlt | ⟨heq, -⟩)
      · exact SqlValue.text_le_text.mp hlt.le
      · exact SqlValue.text_le_text.mp heq.le
    · intro hle
      rcases (SqlValue.text_le_text.mpr hle).lt_or_eq with hlt | heq
      · exact .inl hlt
      · have hname := eq_of_domainSortKey_eq hg hg' (SqlValue.text.inj heq)
        exact .inr ⟨heq, hname ▸ le_rfl⟩
  obtain ⟨column, hcolumn, rfl⟩ := orderOf_ok.mp h
  rw [hfield] at hcolumn
  obtain rfl := Option.some.inj hcolumn
  unfold OrderBy.le
  simp only
  split_ifs
  · exact hkeys hl' hl
  · exact hkeys hl hl'

end Listing

end ZimaScope
