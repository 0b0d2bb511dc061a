import ZimaScope.Api.Orders
import ZimaScope.Common.AddressText
import ZimaScope.Lib.Paging

/-! # Pages

The pages of a list as a client loads them, each of an order that the engine may
choose anew: which lists give every item once.
-/

namespace ZimaScope

open Paging

/-! ## Requests -/

def defaultPageLimit : ℕ := 50

def maxPageLimit : ℕ := 500

def pageLimit (limit : Option ℕ) : Except ApiError ℕ :=
  let limit := limit.getD defaultPageLimit
  if limit = 0 ∨ maxPageLimit < limit then
    .error (.badRequest s!"limit must be between 1 and {maxPageLimit}")
  else .ok limit

structure ListPage (α : Type) where
  items : List α
  /-- Number of resources matching the filters before pagination. -/
  total : ℕ
  limit : ℕ
  offset : ℕ

/-- `LIMIT .. OFFSET ..` of the rows in the order they are served. -/
def servePage {α : Type} (total limit : ℕ) (served : List α) (offset : ℕ) : ListPage α where
  items := (served.drop offset).take limit
  total
  limit
  offset

/-- Next offset for an offset-paginated page. -/
def nextPageParam {α : Type} (last : ListPage α) : Option ℕ :=
  let next := last.offset + last.items.length
  if 0 < last.items.length ∧ next < last.total then some next else none

/-- The items of the pages that a client loads, from an offset on. -/
def loadPages {α : Type} (request : ℕ → ListPage α) : ℕ → ℕ → List α
  | 0, _ => []
  | fuel + 1, offset =>
    let page := request offset
    page.items ++ ((nextPageParam page).map (loadPages request fuel)).getD []

section Loads

variable {α : Type} {n : ℕ} {items : List α}

/-- A client loads the pages at all multiples of the limit, until it has the total. -/
theorem loadPages_eq_pages {fuel k : ℕ} (hfuel : items.length < (k + fuel) * n) (hsome : fuel ≠ 0) :
    ∃ count, items.length ≤ (k + count) * n ∧ ∀ served : ℕ → List α,
      (∀ offset, (served offset).length = items.length) →
        loadPages (fun offset => servePage items.length n (served offset) offset) fuel (k * n) =
          (List.range count).flatMap fun i => page n (k + i) (served ((k + i) * n)) := by
  induction fuel generalizing k with
  | zero => exact absurd rfl hsome
  | succ fuel ih =>
    have hsucc : (k + 1) * n = k * n + n := Nat.succ_mul k n
    have hshift : ∀ m, k + (m + 1) = k + 1 + m := fun m => by omega
    have hitems : ∀ served : ℕ → List α, (∀ offset, (served offset).length = items.length) →
        (servePage items.length n (served (k * n)) (k * n)).items.length =
          min n (items.length - k * n) := by
      intro served hserved
      change (((served (k * n)).drop (k * n)).take n).length = _
      rw [List.length_take, List.length_drop, hserved]
    by_cases hnext : (k + 1) * n < items.length
    · rw [hshift] at hfuel
      have hmore : fuel ≠ 0 := by
        rintro rfl
        rw [Nat.add_zero] at hfuel
        omega
      obtain ⟨count, hcount, hpages⟩ := ih hfuel hmore
      refine ⟨count + 1, by rwa [hshift], fun served hserved => ?_⟩
      have hpage : min n (items.length - k * n) = n := by omega
      have hoffset : (servePage items.length n (served (k * n)) (k * n)).offset +
          min n (items.length - k * n) = (k + 1) * n := by
        rw [hpage, hsucc]
        rfl
      have hpos : 0 < min n (items.length - k * n) := by
        by_contra hzero
        obtain rfl : n = 0 := by omega
        omega
      unfold loadPages
      simp only [nextPageParam, hitems served hserved]
      rw [hoffset, if_pos ⟨hpos, hnext⟩, Option.map_some, Option.getD_some, hpages served hserved,
        List.range_succ_eq_map, List.flatMap_cons, List.flatMap_map]
      congr 1
      apply List.flatMap_congr
      intro i _
      rw [Nat.succ_eq_add_one, hshift i, Nat.add_zero]
    · refine ⟨1, by omega, fun served hserved => ?_⟩
      unfold loadPages
      simp only [nextPageParam, hitems served hserved]
      rw [if_neg]
      · simp
        rfl
      · rintro ⟨_, hless⟩
        change k * n + _ < items.length at hless
        omega

/-- Loading the pages gives every item once, whatever the orders, if and only if no class of equal
items lies across the boundary of two pages. -/
theorem loaded_once_iff {le : α → α → Prop} [DecidableRel le] [Std.Total le] [IsTrans α le]
    (hnodup : items.Nodup) (hn : 0 < n) :
    (∀ served : ℕ → List α, (∀ offset, Served le items (served offset)) →
      (loadPages (fun offset => servePage items.length n (served offset) offset)
        (items.length + 1) 0).Nodup ∧
      ∀ item, item ∈ loadPages (fun offset => servePage items.length n (served offset) offset)
        (items.length + 1) 0 ↔ item ∈ items) ↔ Unsplit le items n := by
  have hfuel : items.length < (0 + (items.length + 1)) * n := by
    rw [Nat.zero_add]
    exact (Nat.lt_succ_self _).trans_le (Nat.le_mul_of_pos_right _ hn)
  obtain ⟨count, hcount, hpages⟩ := loadPages_eq_pages hfuel (Nat.succ_ne_zero _)
  simp only [Nat.zero_add, Nat.zero_mul] at hcount hpages
  rw [← pages_perm_iff hnodup hcount]
  constructor
  · intro h serve hserve
    obtain ⟨hloaded, hmem⟩ := h (fun offset => serve (offset / n)) fun offset => hserve (offset / n)
    rw [hpages _ fun offset => (hserve (offset / n)).perm.length_eq] at hloaded hmem
    simp only [Nat.mul_div_cancel _ hn] at hloaded hmem
    exact (List.perm_ext_iff_of_nodup hloaded hnodup).mpr hmem
  · intro h served hserved
    have hperm := h (fun k => served (k * n)) fun k => hserved (k * n)
    rw [hpages served fun offset => (hserved offset).perm.length_eq]
    exact ⟨hperm.nodup_iff.mpr hnodup, fun item => hperm.mem_iff⟩

end Loads

/-! ## Items -/

section Items

variable {t : Tables} {query : ConnectionQuery} {now : SystemTime} {bare : List IdRow → Option IdRow}
  {sort : Option String}

theorem nodup_groups {α κ : Type} [DecidableEq κ] {key : α → κ} {rows : List α} :
    (groupBy key rows).Nodup := nodup_groupBy.of_map

theorem eq_of_mem_groupBy {α κ : Type} [DecidableEq κ] {key : α → κ} {rows : List α}
    {a b : κ × List α} (ha : a ∈ groupBy key rows) (hb : b ∈ groupBy key rows) (h : a.1 = b.1) :
    a = b := by
  have hrows := (mem_groupBy.mp ha).2
  rw [h, ← (mem_groupBy.mp hb).2] at hrows
  exact Prod.ext h hrows

theorem nodup_items {resource : Resource} {items : List resource.Item}
    (h : resource.items t query now = .ok items) : items.Nodup := by
  cases resource with
  | flows =>
    obtain ⟨clauses, -, rfl⟩ := Except.map_eq_ok.mp h
    exact t.flows.nodup.of_map.filter _
  | connections =>
    obtain ⟨clauses, -, rfl⟩ := Except.map_eq_ok.mp h
    exact nodup_groups.filter _
  | endpoints =>
    obtain ⟨clauses, -, rfl⟩ := Except.map_eq_ok.mp h
    exact nodup_groups
  | domains =>
    obtain ⟨clauses, -, rfl⟩ := Except.map_eq_ok.mp h
    exact nodup_groups
  | applications =>
    obtain ⟨clauses, -, h⟩ := Except.bind_eq_ok.mp h
    obtain rfl := Except.ok.inj h
    apply List.Nodup.of_map (f := Prod.fst)
    rw [List.map_map]
    exact nodup_groupBy

/-- The total is the number of items. -/
theorem total_eq_length {resource : Resource} {items : List resource.Item}
    (h : resource.items t query now = .ok items) : resource.total t query now = .ok items.length := by
  cases resource with
  | flows =>
    obtain ⟨clauses, hclauses, rfl⟩ := Except.map_eq_ok.mp h
    exact Except.map_eq_ok.mpr ⟨clauses, hclauses, rfl⟩
  | connections => exact Except.map_eq_ok.mpr ⟨items, h, rfl⟩
  | endpoints => exact Except.map_eq_ok.mpr ⟨items, h, rfl⟩
  | domains =>
    obtain ⟨clauses, hclauses, rfl⟩ := Except.map_eq_ok.mp h
    exact Except.map_eq_ok.mpr ⟨clauses, hclauses, (List.length_map _).symm⟩
  | applications => exact Except.map_eq_ok.mpr ⟨items, h, rfl⟩

theorem asI64_injective {a b : UInt64} (h : asI64 a.toNat = asI64 b.toNat) : a = b := by
  have hmod := congrArg (fun n : ℤ => n % (2 ^ 64 : ℕ)) h
  unfold asI64 at hmod
  simp only [Int.bmod_emod] at hmod
  apply UInt64.toNat_inj.mp
  have ha := a.toNat_lt
  have hb := b.toNat_lt
  omega

/-- Every other list has a column that tells its items apart. -/
theorem eq_of_le_le {resource : Resource} {items : List resource.Item}
    {order : OrderBy resource.Item} (hitems : resource.items t query now = .ok items)
    (horder : resource.order t bare sort = .ok order) (hresource : resource ≠ .connections)
    {a b : resource.Item} (ha : a ∈ items) (hb : b ∈ items) (hab : order.le a b)
    (hba : order.le b a) : a = b := by
  cases resource with
  | flows =>
    obtain ⟨clauses, -, rfl⟩ := Except.map_eq_ok.mp hitems
    have hid := List.cons.inj (ties_eq_of_le horder hab hba)
    have hsame := asI64_injective (SqlValue.integer.inj hid.1)
    have hrow := Table.find_eq_some_iff.mpr (List.mem_filter.mp ha).1
    rw [hsame, Table.find_eq_some_iff.mpr (List.mem_filter.mp hb).1] at hrow
    exact Prod.ext hsame (Option.some.inj hrow).symm
  | connections => exact absurd rfl hresource
  | endpoints =>
    obtain ⟨clauses, -, rfl⟩ := Except.map_eq_ok.mp hitems
    have htext := List.cons.inj (ties_eq_of_le horder hab hba)
    exact eq_of_mem_groupBy ha hb (ipAddr_toString_injective (SqlValue.text.inj htext.1))
  | domains =>
    obtain ⟨clauses, -, rfl⟩ := Except.map_eq_ok.mp hitems
    have htext := List.cons.inj (ties_eq_of_le horder hab hba)
    exact eq_of_mem_groupBy ha hb (SqlValue.text.inj htext.1)
  | applications =>
    obtain ⟨clauses, -, hitems⟩ := Except.bind_eq_ok.mp hitems
    obtain rfl := Except.ok.inj hitems
    have htext := List.cons.inj (ties_eq_of_le horder hab hba)
    obtain ⟨group, hgroup, rfl⟩ := List.mem_map.mp ha
    obtain ⟨group', hgroup', rfl⟩ := List.mem_map.mp hb
    rw [eq_of_mem_groupBy hgroup hgroup' (SqlValue.text.inj htext.1)]

end Items

theorem pos_of_pageLimit {limit : Option ℕ} {n : ℕ} (h : pageLimit limit = .ok n) : 0 < n := by
  unfold pageLimit at h
  simp only at h
  split at h
  · cases h
  · next hrange =>
    obtain rfl := Except.ok.inj h
    omega

theorem unsplit_of_loaded {t : Tables} {resource : Resource} {query : ConnectionQuery}
    {now : SystemTime} {n : ℕ} {items : List resource.Item} {order : OrderBy resource.Item}
    (hitems : resource.items t query now = .ok items) (hn : 0 < n)
    (h : ∀ served : ℕ → List resource.Item, (∀ offset, Served order.le items (served offset)) →
      (loadPages (fun offset => servePage items.length n (served offset) offset)
        (items.length + 1) 0).Nodup ∧
      ∀ item, item ∈ loadPages (fun offset => servePage items.length n (served offset) offset)
        (items.length + 1) 0 ↔ item ∈ items) : Unsplit order.le items n :=
  (loaded_once_iff (nodup_items hitems) hn).mp h

/-- The same endpoints over TCP and over UDP. -/
def twinInterval : IngestInput :=
  lanInterval {} [lanUpdate ⟨3, 300⟩ ⟨3, 300⟩ .active,
    { lanUpdate ⟨3, 300⟩ ⟨3, 300⟩ .active with key := { lanFlow with protocol := .udp } }]

def protocolId (key : FlowKey) : UInt64 := if key.protocol = .udp then 8 else 7

def twinDb : TrafficDb := (TrafficDb.restart {} 65536).next protocolId (.ingest twinInterval [])

def twinGroups : List ConnectionGroup :=
  (groupBy (fun r => r.2.connectionKey) (twinDb.tables.flowsWhere [])).filter fun group =>
    ({} : ConnectionQuery).having (group.2.map Prod.snd)

/-- `total_bytes DESC, pair_lo DESC, pair_hi DESC`. -/
def twinOrder : OrderBy ConnectionGroup where
  descending := true
  key group := [totalBytes (group.2.map Prod.snd), .text group.1.pairLo, .text group.1.pairHi]

end ZimaScope
