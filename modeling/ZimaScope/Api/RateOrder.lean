import ZimaScope.Api.Orders
import ZimaScope.Common.AddressText

/-! # Sorting by rate

The rate orders look an entity up in the stored rates, by a text, and the
records in the rates of the last interval. After an ingest both are the rates of
its interval, except where the text is not that of the entity or the stored
integer not the rate.
-/

namespace ZimaScope

open Storage TrafficDb

/-! ## Texts of entities -/

/-- The text that a rate order looks an entity up by. -/
def EntityKey.sortText : EntityKey → String
  | .flow id => castText id
  | entity => entity.text

/-- The value that a rate order has for an entity. -/
def sortRate (t : Tables) (entity : EntityKey) (channel : ℤ × ℤ → ℤ) : SqlValue :=
  rateOrder t entity.kind entity.sortText channel

/-- The rate that the record of an entity shows, in the channel. -/
def shownRate (rates : Rates) (entity : EntityKey) (channel : ℤ × ℤ → ℤ) : SqlValue :=
  .integer (channel ((rates.of entity).1, (rates.of entity).2))

/-- The text of the id is the one that the order looks for. -/
def EntityKey.Plain (entity : EntityKey) : Prop := ∀ id, entity = .flow id → id.toNat < 2 ^ 63

/-- A flow whose id is negative as an integer shows no rate; any other entity has rates that the
stored integers hold. -/
structure RateExact (rates : Rates) (entity : EntityKey) : Prop where
  plain : entity.Plain → ∀ rate ∈ rates.find entity,
    (0 ≤ rate.1 ∧ rate.1 < 2 ^ 64) ∧ 0 ≤ rate.2 ∧ rate.2 < 2 ^ 64
  negative : ¬ entity.Plain → rates.of entity = (0, 0)

section Texts

theorem entityText_injective {a b : EntityKey} (hkind : a.kind = b.kind) (htext : a.text = b.text) :
    a = b := by
  cases a <;> cases b <;> simp [EntityKey.kind] at hkind
  · have hdigits := congrArg String.toList htext
    change (Nat.repr _).toList = (Nat.repr _).toList at hdigits
    rw [Nat.toList_repr, Nat.toList_repr] at hdigits
    exact congrArg EntityKey.flow (UInt64.toNat_inj.mp (toDigits_ten_injective hdigits))
  · exact congrArg EntityKey.connection htext
  · exact congrArg EntityKey.endpoint (ipAddr_toString_injective htext)
  · exact congrArg EntityKey.domain htext
  · exact congrArg EntityKey.application htext

theorem sortText_of_plain {entity : EntityKey} (h : entity.Plain) : entity.sortText = entity.text := by
  cases entity with
  | flow id =>
    have hid := asI64_of_lt (h id rfl)
    change s!"{asI64 id.toNat}" = s!"{id.toNat}"
    rw [hid]
    rfl
  | connection id => rfl
  | endpoint address => rfl
  | domain name => rfl
  | application id => rfl

/-- No stored key has the text of a negative integer. -/
theorem text_ne_castText {id : UInt64} (h : 2 ^ 63 ≤ id.toNat) {entity : EntityKey}
    (hkind : entity.kind = "flow") : entity.text ≠ castText id := by
  intro htext
  obtain ⟨n, hn⟩ : ∃ n, asI64 id.toNat = Int.negSucc n := by
    have hlt := id.toNat_lt
    have hneg : asI64 id.toNat < 0 := by
      unfold asI64
      rw [Int.bmod_def]
      split <;> omega
    exact Int.eq_negSucc_of_lt_zero hneg
  have hminus : '-' ∈ (castText id).toList := by
    unfold castText
    rw [hn]
    change '-' ∈ ("-" ++ toString (n + 1)).toList
    simp
  cases entity with
  | flow id' =>
    rw [← htext] at hminus
    change '-' ∈ (Nat.repr id'.toNat).toList at hminus
    rw [Nat.toList_repr] at hminus
    have hdigit := Nat.isDigit_of_mem_toDigits (by decide) (by decide) hminus
    exact absurd hdigit (by decide)
  | connection id => simp [EntityKey.kind] at hkind
  | endpoint address => simp [EntityKey.kind] at hkind
  | domain name => simp [EntityKey.kind] at hkind
  | application id => simp [EntityKey.kind] at hkind

end Texts

section Rates

variable {t : Tables} {rates : Rates} {entity : EntityKey} {channel : ℤ × ℤ → ℤ}

/-- An order that looks an entity up by its own text finds its stored rate. -/
theorem rateOrder_text : rateOrder t entity.kind entity.text channel =
    .integer ((t.entityRates.find entity).elim 0 channel) := by
  have hsame : ∀ r : EntityKey × ℤ × ℤ,
      decide (r.1.kind = entity.kind ∧ r.1.text = entity.text) = decide (r.1 = entity) := by
    intro r
    rw [decide_eq_decide]
    constructor
    · rintro ⟨hkind, htext⟩
      exact entityText_injective hkind htext
    · rintro rfl
      exact ⟨rfl, rfl⟩
  unfold rateOrder Table.find
  simp only [hsame]
  cases t.entityRates.rows.find? fun r => decide (r.1 = entity) <;> rfl

theorem sortRate_of_plain (h : entity.Plain) :
    sortRate t entity channel = .integer ((t.entityRates.find entity).elim 0 channel) := by
  unfold sortRate
  rw [sortText_of_plain h, rateOrder_text]

theorem sortRate_of_negative (h : ¬ entity.Plain) : sortRate t entity channel = .integer 0 := by
  unfold EntityKey.Plain at h
  simp only [not_forall, not_lt] at h
  obtain ⟨id, rfl, hid⟩ := h
  have hnone : t.entityRates.rows.find? (fun r => decide (r.1.kind = "flow" ∧ r.1.text = castText id)) =
      none := by
    rw [List.find?_eq_none]
    rintro r - hr
    obtain ⟨hkind, htext⟩ := of_decide_eq_true hr
    exact text_ne_castText hid hkind htext
  change rateOrder t "flow" (castText id) channel = _
  unfold rateOrder
  rw [hnone]
  rfl

theorem rateChannel_cases {field : String} (h : rateChannel field = some channel) :
    (channel = fun rate => rate.1 + rate.2) ∨ channel = Prod.fst ∨ channel = Prod.snd := by
  unfold rateChannel at h
  split at h
  · exact .inl (Option.some.inj h).symm
  · exact .inr (.inl (Option.some.inj h).symm)
  · exact .inr (.inr (Option.some.inj h).symm)
  · cases h

theorem rateChannel_zero {field : String} (h : rateChannel field = some channel) :
    channel (0, 0) = 0 := by
  rcases rateChannel_cases h with rfl | rfl | rfl <;> rfl

theorem rateChannel_in : rateChannel "in_rate" = some Prod.fst := rfl

theorem rateChannel_out : rateChannel "out_rate" = some Prod.snd := rfl

/-- The order and the record agree on an entity in every channel. -/
theorem sortRate_eq_shownRate_iff (h : SameRates t.entityRates rates) :
    (∀ field channel, rateChannel field = some channel →
      sortRate t entity channel = shownRate rates entity channel) ↔ RateExact rates entity := by
  by_cases hplain : entity.Plain
  · simp only [sortRate_of_plain hplain, h entity, shownRate, SqlValue.integer.injEq]
    constructor
    · intro hagree
      refine ⟨fun _ rate hrate => ?_, fun hnot => absurd hplain hnot⟩
      have hin := hagree "in_rate" _ rateChannel_in
      have hout := hagree "out_rate" _ rateChannel_out
      unfold Rates.of at hin hout
      rw [hrate] at hin hout
      exact ⟨asU64_eq_iff.mp hin.symm, asU64_eq_iff.mp hout.symm⟩
    · intro hexact field channel hchannel
      unfold Rates.of
      cases hrate : rates.find entity with
      | none => exact (rateChannel_zero hchannel).symm
      | some rate =>
        obtain ⟨hin, hout⟩ := hexact.plain hplain rate hrate
        change channel rate = channel ((asU64 rate.1 : ℤ), (asU64 rate.2 : ℤ))
        rw [asU64_eq_iff.mpr hin, asU64_eq_iff.mpr hout]
  · simp only [sortRate_of_negative hplain, shownRate, SqlValue.integer.injEq]
    constructor
    · intro hagree
      refine ⟨fun hnot => absurd hnot hplain, fun _ => Prod.ext ?_ ?_⟩
      · exact (Nat.cast_eq_zero.mp (hagree "in_rate" _ rateChannel_in).symm)
      · exact (Nat.cast_eq_zero.mp (hagree "out_rate" _ rateChannel_out).symm)
    · intro hexact field channel hchannel
      rw [hexact.negative hplain]
      exact (rateChannel_zero hchannel).symm

end Rates

/-! ## Lists by rate -/

/-- The entity that an item of a list has its rate under. -/
def Resource.entity : (resource : Resource) → resource.Item → EntityKey
  | .flows, r => .flow r.1
  | .connections, group => .connection (connectionId group.1)
  | .endpoints, group => .endpoint group.1
  | .domains, group => .domain group.1
  | .applications, group => .application group.1

section Lists

variable {t : Tables} {bare : List IdRow → Option IdRow} {sort : Option String} {resource : Resource}
  {order : OrderBy resource.Item} {channel : ℤ × ℤ → ℤ}

/-- The field that a sort parameter names, or that a list is sorted by without one. -/
def Resource.sortField (sort : Option String) : Resource → String
  | .flows => (splitSort sort "-last_seen").1
  | .connections => (splitSort sort "-last_seen").1
  | .endpoints => (splitSort sort "-bytes").1
  | .domains => (splitSort sort "-bytes").1
  | .applications => (splitSort sort "-bytes").1

theorem rateField_cases {field : String} (h : rateChannel field = some channel) :
    field = "rate" ∨ field = "in_rate" ∨ field = "out_rate" := by
  unfold rateChannel at h
  split at h
  · exact .inl rfl
  · exact .inr (.inl rfl)
  · exact .inr (.inr rfl)
  · cases h

variable (t) in
/-- A list whose rate columns are the sort rates of its entities is ordered by them first. -/
theorem head_key_of_columns {α : Type} (columns : String → Option (α → SqlValue))
    (entity : α → EntityKey) {default : String} {ties : α → List SqlValue} {order : OrderBy α}
    (hrate : columns "rate" = some fun a => sortRate t (entity a) fun rate => rate.1 + rate.2)
    (hin : columns "in_rate" = some fun a => sortRate t (entity a) Prod.fst)
    (hout : columns "out_rate" = some fun a => sortRate t (entity a) Prod.snd)
    (horder : orderOf default columns ties sort = .ok order)
    (hchannel : rateChannel (splitSort sort default).1 = some channel) (a : α) :
    (order.key a).head? = some (sortRate t (entity a) channel) := by
  obtain ⟨column, hcolumn, rfl⟩ := orderOf_ok.mp horder
  generalize (splitSort sort default).1 = field at hcolumn hchannel
  have hsame : columns field = some fun a => sortRate t (entity a) channel := by
    rcases rateField_cases hchannel with rfl | rfl | rfl
    · obtain rfl := Option.some.inj hchannel
      exact hrate
    · obtain rfl := Option.some.inj hchannel
      exact hin
    · obtain rfl := Option.some.inj hchannel
      exact hout
  obtain rfl := Option.some.inj (hsame.symm.trans hcolumn)
  rfl

/-- A list by rate is ordered by the sort rates of its entities, before the columns that break
ties. -/
theorem head_key_of_rateChannel (horder : resource.order t bare sort = .ok order)
    (hchannel : rateChannel (resource.sortField sort) = some channel) (item : resource.Item) :
    (order.key item).head? = some (sortRate t (resource.entity item) channel) := by
  cases resource with
  | flows =>
    exact head_key_of_columns t (flowColumn t) (fun r => .flow r.1) rfl rfl rfl horder hchannel item
  | connections =>
    exact head_key_of_columns t (connectionColumn t) (fun group => .connection (connectionId group.1))
      rfl rfl rfl horder hchannel item
  | endpoints =>
    exact head_key_of_columns t (endpointColumn t bare) (fun group => .endpoint group.1)
      rfl rfl rfl horder hchannel item
  | domains =>
    exact head_key_of_columns t (domainColumn t bare) (fun group => .domain group.1)
      rfl rfl rfl horder hchannel item
  | applications =>
    exact head_key_of_columns t (applicationColumn t) (fun group => .application group.1)
      rfl rfl rfl horder hchannel item

/-- The first term of an order decides. -/
theorem le_of_head_key {α : Type} {order : OrderBy α} {value : α → SqlValue}
    (hhead : ∀ a, (order.key a).head? = some (value a)) {a b : α} (h : order.le a b) :
    if order.descending then value b ≤ value a else value a ≤ value b := by
  have hfirst : ∀ {a b : α}, order.key a ≤ order.key b → value a ≤ value b := by
    intro a b hle
    obtain ⟨rest, hrest⟩ := List.head?_eq_some_iff.mp (hhead a)
    obtain ⟨rest', hrest'⟩ := List.head?_eq_some_iff.mp (hhead b)
    rw [hrest, hrest'] at hle
    by_contra hnot
    exact not_lt.mpr hle (List.Lex.rel (not_le.mp hnot))
  unfold OrderBy.le at h
  split_ifs at h ⊢
  · exact hfirst h
  · exact hfirst h

end Lists

/-- One update of one flow, with its rate. -/
def ratedInterval (id : UInt64) : IngestInput :=
  { oneUpdate with rates := ⟨[(.flow id, 0, 100)], by simp⟩ }

theorem exists_rated (id : UInt64) (h : (tryIngest (fun _ => id) (ratedInterval id)
    ⟨TrafficDb.restart {} 65536, []⟩).1.isOk = true) : ∃ event c,
      tryIngest (fun _ => id) (ratedInterval id) ⟨TrafficDb.restart {} 65536, []⟩ = (.ok event, c) :=
  exists_of_isOk h

end ZimaScope
