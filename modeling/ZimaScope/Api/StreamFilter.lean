import ZimaScope.Api.FlowQuery
import ZimaScope.Lib.Infix

/-! # Stream filters

The filter of the live stream, evaluated on a record, and the same parameters as a
query of the flow list. The two read most fields alike; what they make of a search,
a domain and an application identity is compared text by text.
-/

namespace ZimaScope

open TrafficDb

/-- Filters of the live stream. -/
structure StreamQuery where
  q : Option String := none
  direction : Option Direction := none
  protocol : Option TransportProtocol := none
  ip : Option IpAddr := none
  srcIp : Option IpAddr := none
  dstIp : Option IpAddr := none
  port : Option UInt16 := none
  domain : Option String := none
  applicationId : Option String := none
  scope : List AddressScope := []
  excludeScope : List AddressScope := []
  state : Option FlowStateDto := none
  hasDomain : Option Bool := none

/-- Precomputed filter for live flow updates: the parameters with their texts normalised. -/
structure StreamFilter where
  q : Option String
  direction : Option Direction
  protocol : Option TransportProtocol
  ip : Option IpAddr
  srcIp : Option IpAddr
  dstIp : Option IpAddr
  port : Option UInt16
  domain : Option String
  applicationId : Option String
  scope : List AddressScope
  excludeScope : List AddressScope
  state : Option FlowStateDto
  hasDomain : Option Bool

def StreamQuery.filter (query : StreamQuery) : StreamFilter where
  q := searchWord query.q
  direction := query.direction
  protocol := query.protocol
  ip := query.ip
  srcIp := query.srcIp
  dstIp := query.dstIp
  port := query.port
  domain := query.domain.map normalizeDomain
  applicationId := trimmedText query.applicationId
  scope := query.scope
  excludeScope := query.excludeScope
  state := query.state
  hasDomain := query.hasDomain

/-- The same filter as parameters of the flow list. -/
def StreamQuery.flowQuery (query : StreamQuery) : FlowQuery where
  q := query.q
  direction := query.direction
  protocol := query.protocol
  ip := query.ip
  srcIp := query.srcIp
  dstIp := query.dstIp
  port := query.port
  domain := query.domain
  applicationId := query.applicationId
  scope := query.scope
  excludeScope := query.excludeScope
  state := query.state
  hasDomain := query.hasDomain

/-- The texts of a record that `q` is looked for in, in their order. -/
def FlowDto.searched (flow : FlowDto) : List String :=
  [hex16 flow.id, flow.direction.value, flow.protocol.value, flow.state.asStr] ++
    (flow.endReason.map EndReason.value).toList ++ [flow.source.address.toString] ++
    (portText flow.source).toList ++ [flow.destination.address.toString] ++
    (portText flow.destination).toList ++ flow.interface.toList ++
    flow.application.elim [] (fun application => [application.id, application.name]) ++
    flow.domains.map DomainRefDto.domain

/-- `flow_search_text`: each text with a blank behind it. -/
def flowSearchText (flow : FlowDto) : String :=
  toAsciiLowercase (String.join (flow.searched.map (· ++ " ")))

def StreamFilter.matches (f : StreamFilter) (flow : FlowDto) : Bool :=
  (f.scope = [] || f.scope.contains flow.remoteProfile.scope) &&
  (f.excludeScope = [] || !f.excludeScope.contains flow.remoteProfile.scope) &&
  f.q.all (fun q => containsText (flowSearchText flow) q) &&
  f.direction.all (fun direction => flow.direction = direction) &&
  f.protocol.all (fun protocol => flow.protocol = protocol) &&
  f.ip.all (fun ip => flow.source.address = ip || flow.destination.address = ip) &&
  f.srcIp.all (fun ip => flow.source.address = ip) &&
  f.dstIp.all (fun ip => flow.destination.address = ip) &&
  f.port.all (fun port => flow.source.port = some port || flow.destination.port = some port) &&
  f.domain.all (fun domain => flow.domains.any fun candidate => candidate.domain = domain) &&
  f.applicationId.all (fun id => flow.application.map ApplicationRefDto.id = some id) &&
  f.state.all (fun state => flow.state = state) &&
  f.hasDomain.all fun hasDomain => decide (flow.domains = []) ≠ hasDomain

/-! ## What decides -/

/-- The fields that both paths read alike. -/
def StreamQuery.AdmitsPlain (query : StreamQuery) (row : FlowRow) : Prop :=
  (query.scope = [] ∨ row.profile.scope ∈ query.scope) ∧
  (query.excludeScope = [] ∨ row.profile.scope ∉ query.excludeScope) ∧
  (∀ direction ∈ query.direction, row.key.direction = direction) ∧
  (∀ protocol ∈ query.protocol, row.key.protocol = protocol) ∧
  (∀ ip ∈ query.ip, row.key.source.address = ip ∨ row.key.destination.address = ip) ∧
  (∀ ip ∈ query.srcIp, row.key.source.address = ip) ∧
  (∀ ip ∈ query.dstIp, row.key.destination.address = ip) ∧
  (∀ port ∈ query.port, row.key.source.port = some port ∨ row.key.destination.port = some port) ∧
  (∀ state ∈ query.state, row.state.dto = state) ∧
  ∀ hasDomain ∈ query.hasDomain, decide (row.domainsJson ≠ []) = hasDomain

/-- Some text has the word in it, whatever the case of its letters. -/
def Found (texts : List String) (word : String) : Prop :=
  ∃ text ∈ texts, containsText (toAsciiLowercase text) word = true

/-- The texts that both searches go through. -/
def FlowRow.sharedTexts (row : FlowRow) : List String :=
  [row.key.direction.value, row.key.protocol.value, row.state.dto.asStr] ++
    (row.state.endReason.map EndReason.value).toList ++ [row.key.source.address.toString] ++
    (portText row.key.source).toList ++ [row.key.destination.address.toString] ++
    (portText row.key.destination).toList ++ row.interface.toList ++ row.appId.toList

/-- The texts that only a search of the stream goes through. -/
def FlowRecord.streamTexts (record : FlowRecord) : List String :=
  hex16 record.id :: (record.application.map fun (_, name, _) => name).toList ++
    record.row.domainsJson.map DomainRefDto.domain

/-- The texts that only a search of the list goes through. -/
def FlowRecord.listTexts (record : FlowRecord) : List String :=
  sqlHex s!"{asI64 record.id.toNat}" :: record.row.service.toList ++
    [domainsText record.row.domainsJson]

/-- A search of the stream finds the record. A word with a blank may go across texts. -/
def FlowRecord.FoundLive (record : FlowRecord) (word : String) : Prop :=
  if ' ' ∈ word.toList then containsText (flowSearchText (record.toDto ∅)) word = true
  else Found (record.row.sharedTexts ++ record.streamTexts) word

/-- A search of the list finds the record. -/
def FlowRecord.FoundListed (record : FlowRecord) (word : String) : Prop :=
  if ' ' ∈ word.toList then containsText (record.row.searchText record.id) word = true
  else Found (record.row.sharedTexts ++ record.listTexts) word

/-- What stands between two neighbouring quotes of an association. -/
def DomainRefDto.pieces (d : DomainRefDto) : List (List Char) :=
  ["domain".toList, ":".toList] ++ (jsonEscape d.domain).toList.splitOn '"' ++
    [",".toList, "evidence".toList, ":".toList, d.evidence.value.toList, ",".toList,
      "confidence".toList, ":".toList, d.confidence.value.toList]

/-- What stands between two neighbouring quotes of `domains_json`. -/
def domainsPieces : List DomainRefDto → List (List Char)
  | [] => []
  | [d] => d.pieces
  | d :: d' :: domains => d.pieces ++ ['\x7d', ',', '\x7b'] :: domainsPieces (d' :: domains)

/-- The list finds the domain. -/
def FlowRow.DomainListed (row : FlowRow) (domain : String) : Prop :=
  if '"' ∈ domain.toList then domainsContain row ("\"" ++ domain ++ "\"") = true
  else domain.toList ∈ domainsPieces row.domainsJson

/-- The two paths answer alike: they turn the record down for a field that both read, or they
agree on the rest. -/
def StreamQuery.Alike (query : StreamQuery) (record : FlowRecord) : Prop :=
  ¬ query.AdmitsPlain record.row ∨
    ((∀ word ∈ searchWord query.q, record.FoundLive word) ∧
      (∀ domain ∈ query.domain, normalizeDomain domain ∈ record.row.domainsJson.map (·.domain)) ∧
      (∀ id ∈ query.applicationId, trim id = "" ∨ record.row.appId = some (trim id)) ↔
    (∀ word ∈ searchWord query.q, record.FoundListed word) ∧
      (∀ domain ∈ query.domain, record.row.DomainListed (normalizeDomain domain)) ∧
      ∀ id ∈ query.applicationId, record.row.appId = some id)

/-! ## Searches -/

section Searches

variable {word : String} {texts texts' : List String} {row : FlowRow} {id : UInt64}

theorem containsText_iff {text : String} :
    containsText text word = true ↔ word.toList <:+: text.toList :=
  decide_eq_true_iff

theorem toList_lowercase {s : String} : (toAsciiLowercase s).toList = s.toList.map Char.toLower :=
  String.toList_map

@[simp] theorem found_nil : Found [] word ↔ False := by
  simp [Found]

theorem found_append : Found (texts ++ texts') word ↔ Found texts word ∨ Found texts' word := by
  unfold Found
  simp only [List.mem_append, or_and_right, exists_or]

theorem found_cons {text : String} :
    Found (text :: texts) word ↔ containsText (toAsciiLowercase text) word = true ∨ Found texts word :=
  List.exists_mem_cons_iff _ _ _

/-- Null has nothing to find. -/
theorem contains_coalesce {column : Option String} (hne : word ≠ "") :
    containsText (toAsciiLowercase (coalesce column)) word = true ↔ Found column.toList word := by
  cases column with
  | none =>
    have hempty : ¬ word.toList <:+: (toAsciiLowercase "").toList := by
      rw [toList_lowercase]
      simpa using hne
    simpa [Found, coalesce, containsText_iff] using hempty
  | some text => simp [Found, coalesce]

theorem toList_ne_nil (hne : word ≠ "") : word.toList ≠ [] := by
  simpa using hne

theorem map_intercalate {α β : Type} {f : α → β} {c : α} {pieces : List (List α)} :
    ([c].intercalate pieces).map f = [f c].intercalate (pieces.map (List.map f)) := by
  induction pieces with
  | nil => rfl
  | cons p pieces ih =>
    cases pieces with
    | nil => simp
    | cons q pieces =>
      simp only [List.map_cons] at ih
      simp [List.intercalate_cons_cons, ih]

/-- A word without blanks is found in one of the texts. -/
theorem contains_flowSearchText {flow : FlowDto} (hw : ' ' ∉ word.toList) (hne : word ≠ "") :
    containsText (flowSearchText flow) word = true ↔ Found flow.searched word := by
  have htext : (flowSearchText flow).toList =
      (flow.searched.map fun text => (toAsciiLowercase text).toList).flatMap (· ++ [' ']) := by
    unfold flowSearchText
    rw [toList_lowercase, String.toList_join, List.map_flatMap, List.flatMap_map, List.flatMap_map]
    refine List.flatMap_congr fun text _ => ?_
    rw [String.toList_append, List.map_append, toList_lowercase]
    rfl
  rw [containsText_iff, htext, Infix.infix_terminated hw (toList_ne_nil hne)]
  simp only [List.mem_map, exists_exists_and_eq_and, Found, containsText_iff]

theorem contains_searchText (hw : ' ' ∉ word.toList) (hne : word ≠ "") :
    containsText (row.searchText id) word = true ↔ Found (row.searched id) word := by
  have htext : (row.searchText id).toList =
      [' '].intercalate ((row.searched id).map fun text => (toAsciiLowercase text).toList) := by
    unfold FlowRow.searchText
    have hblank : " ".toList = [' '] := rfl
    rw [toList_lowercase, String.toList_intercalate, hblank, map_intercalate, List.map_map]
    refine congrArg _ (List.map_congr_left fun text _ => ?_)
    exact toList_lowercase.symm
  rw [containsText_iff, htext, Infix.infix_intercalate hw (toList_ne_nil hne)]
  simp only [List.mem_map, exists_exists_and_eq_and, Found, containsText_iff]

theorem foundLive_iff {record : FlowRecord} {rates : Table EntityKey (ℤ × ℤ)} (hne : word ≠ "")
    (happ : record.application.map Prod.fst = record.row.appId) :
    containsText (flowSearchText (record.toDto rates)) word = true ↔ record.FoundLive word := by
  unfold FlowRecord.FoundLive
  split
  · rfl
  · next hw =>
    rw [contains_flowSearchText hw hne]
    unfold FlowRow.sharedTexts FlowRecord.streamTexts FlowDto.searched FlowRecord.toDto
    rw [← happ]
    cases record.application <;>
      simp only [found_append, found_cons, found_nil, or_false, Option.map_none, Option.map_some,
        Option.elim_none, Option.elim_some, Option.toList_none, Option.toList_some] <;>
      exact iff_of_eq (by ac_rfl)

theorem foundListed_iff {record : FlowRecord} (hne : word ≠ "") :
    containsText (record.row.searchText record.id) word = true ↔ record.FoundListed word := by
  unfold FlowRecord.FoundListed
  split
  · rfl
  · next hw =>
    rw [contains_searchText hw hne]
    unfold FlowRow.sharedTexts FlowRecord.listTexts FlowRow.searched
    simp only [found_append, found_cons, found_nil, or_false, contains_coalesce hne]
    exact iff_of_eq (by ac_rfl)

end Searches

/-! ## Domains -/

section Domains

variable {d : DomainRefDto} {domains : List DomainRefDto} {before after : List Char}

theorem splitOn_evidence {evidence : DomainEvidence} :
    evidence.value.toList.splitOn '"' = [evidence.value.toList] := by
  cases evidence <;> decide

theorem splitOn_confidence {confidence : AssociationConfidence} :
    confidence.value.toList.splitOn '"' = [confidence.value.toList] := by
  cases confidence <;> decide

/-- An association cut at its quotes. -/
theorem toList_json : d.json.toList = '\x7b' :: '"' :: ("domain".toList ++ '"' :: (":".toList ++ '"' ::
    ((jsonEscape d.domain).toList ++ '"' :: (",".toList ++ '"' :: ("evidence".toList ++ '"' ::
      (":".toList ++ '"' :: (d.evidence.value.toList ++ '"' :: (",".toList ++ '"' ::
        ("confidence".toList ++ '"' :: (":".toList ++ '"' ::
          (d.confidence.value.toList ++ '"' :: ['\x7d']))))))))))) := by
  unfold DomainRefDto.json
  simp [String.toList_append]

theorem splitOn_json (hbefore : '"' ∉ before) : (before ++ (d.json.toList ++ after)).splitOn '"' =
    (before ++ ['\x7b']) :: (d.pieces ++ ('\x7d' :: after).splitOn '"') := by
  have hopen : '"' ∉ before ++ ['\x7b'] := by simp [hbefore]
  have hplain : ∀ text ∈ ["domain".toList, ":".toList, ",".toList, "evidence".toList,
      "confidence".toList], text.splitOn '"' = [text] := by decide
  have htext : before ++ (d.json.toList ++ after) = (before ++ ['\x7b']) ++ '"' ::
      ("domain".toList ++ '"' :: (":".toList ++ '"' ::
      ((jsonEscape d.domain).toList ++ '"' :: (",".toList ++ '"' :: ("evidence".toList ++ '"' ::
      (":".toList ++ '"' :: (d.evidence.value.toList ++ '"' :: (",".toList ++ '"' ::
        ("confidence".toList ++ '"' :: (":".toList ++ '"' ::
          (d.confidence.value.toList ++ '"' :: ('\x7d' :: after)))))))))))) := by
    rw [toList_json]
    simp only [List.append_assoc, List.cons_append, List.nil_append]
  rw [htext, List.splitOn_append_cons_self_of_not_mem hopen]
  simp only [List.splitOn_append_cons_self, splitOn_evidence, splitOn_confidence,
    hplain "domain".toList (by simp), hplain ":".toList (by simp), hplain ",".toList (by simp),
    hplain "evidence".toList (by simp), hplain "confidence".toList (by simp)]
  unfold DomainRefDto.pieces
  simp only [List.append_assoc, List.cons_append, List.nil_append]

theorem splitOn_domains (hbefore : '"' ∉ before) (hne : domains ≠ []) :
    (before ++ ([','].intercalate (domains.map fun d => d.json.toList) ++ [']'])).splitOn '"' =
      (before ++ ['\x7b']) :: (domainsPieces domains ++ [['\x7d', ']']]) := by
  induction domains generalizing before with
  | nil => exact absurd rfl hne
  | cons d domains ih =>
    cases domains with
    | nil =>
      rw [List.map_cons, List.map_nil, List.intercalate_singleton, splitOn_json hbefore]
      rfl
    | cons d' domains =>
      rw [List.map_cons, List.map_cons, List.intercalate_cons_cons, List.append_assoc,
        List.append_assoc, splitOn_json hbefore]
      have hrest := ih (by decide : '"' ∉ ['\x7d', ',']) (by simp)
      rw [List.map_cons] at hrest
      simp only [List.cons_append, List.nil_append] at hrest ⊢
      rw [hrest, domainsPieces]
      simp

/-- Between the quotes of `domains_json` are its keys, its values and what separates them. -/
theorem between_domainsText : Infix.between '"' (domainsText domains).toList = domainsPieces domains := by
  have htext : (domainsText domains).toList =
      ['['] ++ ([','].intercalate (domains.map fun d => d.json.toList) ++ [']']) := by
    have hopen : "[".toList = ['['] := rfl
    have hcomma : ",".toList = [','] := rfl
    have hclose : "]".toList = [']'] := rfl
    unfold domainsText
    rw [String.toList_append, String.toList_append, String.toList_intercalate, hopen, hcomma, hclose,
      List.append_assoc, List.map_map]
    rfl
  unfold Infix.between
  rw [htext]
  cases domains with
  | nil => decide
  | cons d domains =>
    rw [splitOn_domains (by decide) (List.cons_ne_nil _ _), List.tail_cons, List.dropLast_concat]

/-- A name without quotes is found where it stands between two of them. -/
theorem domainListed_iff {row : FlowRow} {domain : String} :
    domainsContain row ("\"" ++ domain ++ "\"") = true ↔ row.DomainListed domain := by
  unfold FlowRow.DomainListed
  split
  · rfl
  · next hquote =>
    have hquoted : ("\"" ++ domain ++ "\"").toList = '"' :: (domain.toList ++ ['"']) := by
      simp [String.toList_append]
    unfold domainsContain
    rw [containsText_iff, hquoted, Infix.quoted_infix_iff hquote, between_domainsText]

end Domains

/-! ## The two paths -/

section Paths

variable {query : StreamQuery} {record : FlowRecord} {rates : Table EntityKey (ℤ × ℤ)}
  {t : Tables} {now : SystemTime} {id : UInt64}

theorem searchWord_ne {q : Option String} {word : String} (h : word ∈ searchWord q) : word ≠ "" := by
  have hfilter := (Option.filter_eq_some_iff.mp h).2
  simpa using hfilter

theorem matches_iff (happ : record.application.map Prod.fst = record.row.appId) :
    query.filter.matches (record.toDto rates) = true ↔ query.AdmitsPlain record.row ∧
      (∀ word ∈ searchWord query.q, record.FoundLive word) ∧
      (∀ domain ∈ query.domain, normalizeDomain domain ∈ record.row.domainsJson.map (·.domain)) ∧
      ∀ id ∈ query.applicationId, trim id = "" ∨ record.row.appId = some (trim id) := by
  have hsearch : (∀ word, searchWord query.q = some word →
      containsText (flowSearchText (record.toDto rates)) word = true) ↔
        ∀ word ∈ searchWord query.q, record.FoundLive word :=
    forall₂_congr fun word hword => foundLive_iff (searchWord_ne hword) happ
  have hdomain : (∀ domain, query.domain.map normalizeDomain = some domain →
      (record.row.domainsJson.any fun candidate => decide (candidate.domain = domain)) = true) ↔
        ∀ domain ∈ query.domain,
          normalizeDomain domain ∈ record.row.domainsJson.map (·.domain) := by
    cases query.domain <;> simp
  have hid : (∀ id, trimmedText query.applicationId = some id →
      (record.toDto rates).application.map ApplicationRefDto.id = some id) ↔
        ∀ id ∈ query.applicationId, trim id = "" ∨ record.row.appId = some (trim id) := by
    have hsame : (record.toDto rates).application.map ApplicationRefDto.id = record.row.appId := by
      rw [← happ]
      unfold FlowRecord.toDto
      cases record.application <;> rfl
    rw [hsame]
    unfold trimmedText
    cases query.applicationId with
    | none => simp
    | some id => by_cases hblank : trim id = "" <;> simp [Option.filter, hblank]
  have hhas : (∀ hasDomain, query.hasDomain = some hasDomain →
      decide ((record.toDto rates).domains = []) ≠ hasDomain) ↔ ∀ hasDomain ∈ query.hasDomain,
        decide (record.row.domainsJson ≠ []) = hasDomain := by
    refine forall₂_congr fun hasDomain _ => ?_
    change decide (record.row.domainsJson = []) ≠ hasDomain ↔ _
    cases hasDomain <;> simp
  unfold StreamFilter.matches StreamQuery.filter StreamQuery.AdmitsPlain
  simp only [Bool.and_eq_true, Bool.or_eq_true, Option.all_eq_true, Option.mem_def,
    decide_eq_true_eq, Bool.not_eq_true', List.contains_iff_mem, ← Bool.not_eq_true, hid]
  rw [hsearch, hhas]
  simp only [FlowRecord.toDto, hdomain]
  exact iff_of_eq (by ac_rfl)

/-- The predicates of the list hold of the row. -/
theorem listed_iff : (∃ rows, t.listedFlows query.flowQuery now = .ok rows ∧
    (record.id, record.row) ∈ rows) ↔
      t.flows.find record.id = some record.row ∧ query.AdmitsPlain record.row ∧
      (∀ word ∈ searchWord query.q, record.FoundListed word) ∧
      (∀ domain ∈ query.domain, record.row.DomainListed (normalizeDomain domain)) ∧
      ∀ id ∈ query.applicationId, record.row.appId = some id := by
  have hsearch : (∀ word ∈ searchWord query.q,
      containsText (record.row.searchText record.id) word = true) ↔
        ∀ word ∈ searchWord query.q, record.FoundListed word :=
    forall₂_congr fun word hword => foundListed_iff (searchWord_ne hword)
  have hgiven : ∀ {α : Type} {value : Option α} {clause : α → FlowClause},
      ((given value clause).all fun clause => clause record.id record.row) = true ↔
        ∀ a ∈ value, clause a record.id record.row = true := by
    intro α value clause
    cases value <;> simp [given]
  have hscope : ((if query.scope = [] then []
      else [fun (_ : UInt64) (row : FlowRow) => query.scope.contains row.profile.scope]).all
        fun clause => clause record.id record.row) = true ↔
          query.scope = [] ∨ record.row.profile.scope ∈ query.scope := by
    split <;> simp [*]
  have hexclude : ((if query.excludeScope = [] then []
      else [fun (_ : UInt64) (row : FlowRow) => !query.excludeScope.contains row.profile.scope]).all
        fun clause => clause record.id record.row) = true ↔
          query.excludeScope = [] ∨ record.row.profile.scope ∉ query.excludeScope := by
    split <;> simp [*]
  have hblank : trimmedText none = none := rfl
  rw [← hsearch]
  unfold Tables.listedFlows FlowQuery.clauses FlowQuery.windowClauses FlowQuery.associationClauses
    StreamQuery.flowQuery StreamQuery.AdmitsPlain Tables.flowsWhere
  simp only [Except.map, pure, Except.pure, bind, Except.bind, Except.ok.injEq, exists_eq_left',
    List.mem_filter, List.flatten_cons, List.flatten_nil, List.all_nil, List.all_append, Bool.and_eq_true, hgiven,
    if_true, hblank, hscope, hexclude, domainListed_iff, Bool.or_eq_true, decide_eq_true_eq,
    Table.find_eq_some_iff, Option.not_mem_none, false_implies, implies_true, true_and, and_true]
  exact iff_of_eq (by ac_rfl)

end Paths

/-! ## Searching for an id -/

/-- The tables after one flow. -/
def oneFlow : Tables :=
  (tryIngest (fun _ => 7) oneUpdate ⟨TrafficDb.restart {} 65536, []⟩).2.store.tables

theorem exists_oneFlow : ∃ record, recordOf oneFlow 7 = some record :=
  Option.isSome_iff_exists.mp (by decide +kernel)

end ZimaScope
