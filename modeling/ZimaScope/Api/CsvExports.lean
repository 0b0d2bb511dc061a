import ZimaScope.Api.Exports
import ZimaScope.Common.AddressText
import ZimaScope.Lib.Csv

/-! # CSV exports

What a reader of comma-separated values finds in an export: the header, and one
record for each flow with the texts of its values. Only the interface, the domain
and the application can hold a character that has to be quoted.
-/

namespace ZimaScope

/-- The values of a record, as they are before any of them is quoted. -/
def FlowDto.csvValues (flow : FlowDto) : List String :=
  let association := flow.domains.head?
  [hex16 flow.id, flow.direction.value, flow.protocol.value, flow.state.asStr,
    coalesce (flow.endReason.map EndReason.value), flow.source.address.toString,
    coalesce (portText flow.source), flow.destination.address.toString,
    coalesce (portText flow.destination), flow.remote.address.toString,
    coalesce (portText flow.remote), coalesce flow.interface, s!"{flow.packets}",
    s!"{flow.bytes}", s!"{flow.firstSeen}", s!"{flow.lastSeen}",
    coalesce (association.map DomainRefDto.domain),
    coalesce (association.map fun d => d.evidence.value),
    coalesce (association.map fun d => d.confidence.value),
    coalesce (flow.application.map ApplicationRefDto.id)]

/-! ## Quoting -/

theorem csvField_writes (value : String) : Csv.Writes (csvField value).toList value.toList := by
  unfold csvField
  split
  · simp only [String.toList_append, String.toList_ofList, List.append_assoc]
    exact .quoted
  · next hplain =>
    refine .plain fun c hc hspecial => hplain ?_
    rw [List.any_eq_true]
    exact ⟨c, hc, by simpa [Csv.IsSpecial] using hspecial⟩

/-! ## Values that are not quoted -/

/-- A text that stands in a line as it is. -/
def CsvPlain (text : String) : Prop := ∀ c ∈ text.toList, ¬Csv.IsSpecial c

instance (text : String) : Decidable (CsvPlain text) :=
  List.decidableBAll (fun c => ¬Csv.IsSpecial c) text.toList

namespace CsvPlain

variable {s t : String}

theorem append (hs : CsvPlain s) (ht : CsvPlain t) : CsvPlain (s ++ t) := by
  intro c hc
  rw [String.toList_append, List.mem_append] at hc
  rcases hc with hc | hc
  · exact hs c hc
  · exact ht c hc

theorem coalesce {column : Option String} (h : ∀ text ∈ column, CsvPlain text) :
    CsvPlain (ZimaScope.coalesce column) := by
  cases column with
  | none => exact (by decide : CsvPlain "")
  | some text => exact h text rfl

theorem digits {b n : ℕ} (hb : 1 < b) (h16 : b ≤ 16) {c : Char} (h : c ∈ Nat.toDigits b n) :
    ¬Csv.IsSpecial c := by
  obtain ⟨d, hd, rfl⟩ := exists_digit_of_mem_toDigits hb h16 h
  have hdigit : ∀ d < 16, ¬Csv.IsSpecial (Nat.digitChar d) := by decide
  exact hdigit d hd

theorem nat (n : ℕ) : CsvPlain s!"{n}" := by
  intro c hc
  change c ∈ (Nat.repr n).toList at hc
  rw [Nat.toList_repr] at hc
  exact digits (by decide) (by decide) hc

theorem int (n : ℤ) : CsvPlain s!"{n}" := by
  cases n with
  | ofNat n => exact nat n
  | negSucc n => exact append (by decide : CsvPlain "-") (nat (n + 1))

theorem hex16 (id : UInt64) : CsvPlain (ZimaScope.hex16 id) := by
  refine append ?_ ?_
  · intro c hc
    rw [String.toList_ofList] at hc
    rw [List.eq_of_mem_replicate hc]
    decide
  · intro c hc
    rw [lowerHex, String.toList_ofList] at hc
    exact digits (by decide) (by decide) hc

theorem joined {sep : Char} {b : ℕ} (ns : List ℕ) (hb : 1 < b) (h16 : b ≤ 16)
    (hsep : ¬Csv.IsSpecial sep) {c : Char} (h : c ∈ ZimaScope.joined sep b ns) :
    ¬Csv.IsSpecial c := by
  rcases List.mem_intercalate h with rfl | ⟨part, hpart, hc⟩
  · exact hsep
  · obtain ⟨n, -, rfl⟩ := List.mem_map.mp hpart
    exact digits hb h16 hc

theorem ipv4 (address : Ipv4Addr) : CsvPlain address.toString := by
  intro c hc
  rw [toList_ipv4] at hc
  exact joined _ (by decide) (by decide) (by decide) hc

theorem segments (segments : List ℕ) : CsvPlain (joinSegments segments) := by
  intro c hc
  rw [joinSegments, String.toList_intercalate, List.map_map] at hc
  have htexts : segments.map (String.toList ∘ lowerHex) = segments.map (Nat.toDigits 16) :=
    List.map_congr_left fun n _ => String.toList_ofList
  rw [htexts] at hc
  exact joined segments (by decide) (by decide) (by decide : ¬Csv.IsSpecial ':') hc

theorem address (address : IpAddr) : CsvPlain address.toString := by
  cases address with
  | v4 address => exact ipv4 address
  | v6 octets =>
    change CsvPlain (ipv6Text octets)
    unfold ipv6Text
    dsimp only
    split_ifs
    · exact append (by decide) (ipv4 _)
    · exact append (append (segments _) (by decide)) (segments _)
    · exact segments _

theorem port (endpoint : Endpoint) : CsvPlain (ZimaScope.coalesce (portText endpoint)) := by
  refine coalesce fun text htext => ?_
  obtain ⟨port, -, rfl⟩ := Option.map_eq_some_iff.mp htext
  exact nat _

theorem enum {α : Type} {value : α → String} (h : ∀ a, CsvPlain (value a)) (column : Option α) :
    CsvPlain (ZimaScope.coalesce (column.map value)) := by
  refine coalesce fun text htext => ?_
  obtain ⟨a, -, rfl⟩ := Option.map_eq_some_iff.mp htext
  exact h a

theorem writes (h : CsvPlain s) : Csv.Writes s.toList s.toList := .plain h

end CsvPlain

/-! ## The export -/

theorem csvHeader_writes :
    List.Forall₂ Csv.Writes (csvHeader.map String.toList) (csvHeader.map String.toList) := by
  have hplain : ∀ name ∈ csvHeader, CsvPlain name := by decide
  rw [List.forall₂_map_left_iff, List.forall₂_map_right_iff, List.forall₂_same]
  exact fun name hname => (hplain name hname).writes

theorem csvFields_writes (flow : FlowDto) :
    List.Forall₂ Csv.Writes (flow.csvFields.map String.toList) (flow.csvValues.map String.toList) := by
  rw [List.forall₂_map_left_iff, List.forall₂_map_right_iff]
  unfold FlowDto.csvFields FlowDto.csvValues
  refine .cons (CsvPlain.hex16 _).writes <| .cons (CsvPlain.writes ?_) <|
    .cons (CsvPlain.writes ?_) <| .cons (CsvPlain.writes ?_) <| .cons (CsvPlain.enum ?_ _).writes <|
    .cons (CsvPlain.address _).writes <| .cons (CsvPlain.port _).writes <|
    .cons (CsvPlain.address _).writes <| .cons (CsvPlain.port _).writes <|
    .cons (CsvPlain.address _).writes <| .cons (CsvPlain.port _).writes <|
    .cons (csvField_writes _) <| .cons (CsvPlain.nat _).writes <| .cons (CsvPlain.nat _).writes <|
    .cons (CsvPlain.int _).writes <| .cons (CsvPlain.int _).writes <| .cons (csvField_writes _) <|
    .cons (CsvPlain.enum ?_ _).writes <| .cons (CsvPlain.enum ?_ _).writes <|
    .cons (csvField_writes _) .nil
  · cases flow.direction <;> decide
  · cases flow.protocol <;> decide
  · cases flow.state <;> decide
  · intro reason
    cases reason <;> decide
  · intro d
    cases d.evidence <;> decide
  · intro d
    cases d.confidence <;> decide

/-- Reads a text. -/
def readCsv (text : String) : Option (List (List String)) :=
  (Csv.read text.toList).map fun records => records.map fun fields => fields.map String.ofList

theorem toList_exportCsv (flows : List FlowDto) : (exportCsv flows).toList =
    ((csvHeader :: flows.map FlowDto.csvFields).map fun fields => fields.map String.toList).flatMap
      Csv.line := by
  unfold exportCsv
  rw [String.toList_join, List.flatMap_map, List.flatMap_map]
  congr 1
  funext fields
  rw [String.toList_append, String.toList_intercalate]
  rfl

theorem readCsv_exportCsv (flows : List FlowDto) :
    readCsv (exportCsv flows) = some (csvHeader :: flows.map FlowDto.csvValues) := by
  have hlines : List.Forall₂ (fun ws fs => ws ≠ [] ∧ List.Forall₂ Csv.Writes ws fs)
      ((csvHeader :: flows.map FlowDto.csvFields).map fun fields => fields.map String.toList)
      ((csvHeader :: flows.map FlowDto.csvValues).map fun fields => fields.map String.toList) := by
    refine .cons ⟨by decide, csvHeader_writes⟩ ?_
    rw [List.map_map, List.map_map, List.forall₂_map_left_iff, List.forall₂_map_right_iff,
      List.forall₂_same]
    exact fun flow _ => ⟨by simp [FlowDto.csvFields], csvFields_writes flow⟩
  rw [readCsv, toList_exportCsv, Csv.read_lines hlines, Option.map_some, List.map_map]
  congr 1
  refine (List.map_congr_left fun fields _ => ?_).trans (List.map_id _)
  exact (List.map_map ..).trans ((List.map_congr_left fun text _ => String.ofList_toList).trans
    (List.map_id _))

end ZimaScope
