import Mathlib.Order.Lattice.Nat
import ZimaScope.Collector.Tracker
import ZimaScope.Lib.OrderFree

/-! # Per-CPU values in any order

The values of one entry come in the order of the CPUs, and a CPU that never saw the Flow has a
slot of zeros. What they are merged into depends on neither.
-/

namespace ZimaScope

open OrderFree

/-- A slot that a packet was counted in. -/
def FlowValue.Touched (value : FlowValue) : Prop := 0 < value.packets

instance : DecidablePred FlowValue.Touched := fun value =>
  inferInstanceAs (Decidable (0 < value.packets))

/-- A slot with nothing in it that is added up. -/
structure FlowValue.Untouched (value : FlowValue) : Prop where
  packets : value.packets = 0
  bytes : value.bytes = 0
  lastSeenMonoNs : value.lastSeenMonoNs = 0
  tcpFlags : value.tcpFlags = 0

/-- Every flag that is set. -/
def allFlags (flags : Multiset UInt16) : UInt16 := flags.fold (· ||| ·) 0

/-- What per-CPU values come to, in whatever order: saturated sums, the first time of those that were
touched, the last time of all and every flag. -/
def summary (values : Multiset FlowValue) : MergedValues where
  total := ⟨min (values.map FlowValue.packets).sum u64Max, min (values.map FlowValue.bytes).sum u64Max⟩
  firstSeenNs := (least ((values.filter FlowValue.Touched).map FlowValue.firstSeenMonoNs)).untopD 0
  lastSeenNs := (values.map FlowValue.lastSeenMonoNs).sup
  tcpFlags := allFlags (values.map FlowValue.tcpFlags)

/-! ## The loop -/

/-- Each variable of the loop is a fold of its own. -/
theorem foldl_add (values : List FlowValue) (merged : MergedValues) :
    values.foldl MergedValues.add merged = {
      total := ⟨(values.map FlowValue.packets).foldl satAdd merged.total.packets,
        (values.map FlowValue.bytes).foldl satAdd merged.total.bytes⟩
      firstSeenNs := ((values.filter fun value => decide value.Touched).map
        FlowValue.firstSeenMonoNs).foldl (earlier 0) merged.firstSeenNs
      lastSeenNs := (values.map FlowValue.lastSeenMonoNs).foldl max merged.lastSeenNs
      tcpFlags := (values.map FlowValue.tcpFlags).foldl (· ||| ·) merged.tcpFlags } := by
  induction values generalizing merged with
  | nil => rfl
  | cons value values ih =>
    rw [List.foldl_cons, ih]
    by_cases htouched : value.Touched
    · have hfirst : (merged.add value).firstSeenNs =
          earlier 0 merged.firstSeenNs value.firstSeenMonoNs := by
        unfold MergedValues.add earlier
        exact if_congr (and_iff_right htouched) rfl rfl
      rw [hfirst, List.filter_cons_of_pos (by simpa using htouched)]
      rfl
    · have hfirst : (merged.add value).firstSeenNs = merged.firstSeenNs :=
        if_neg fun h => htouched h.1
      rw [hfirst, List.filter_cons_of_neg (by simpa using htouched)]
      rfl

/-- The loop comes to the summary where no touched slot has a time that is the sentinel. -/
theorem mergeValues_eq_summary {values : List FlowValue}
    (h : ∀ value ∈ values, value.Touched → value.firstSeenMonoNs ≠ 0) :
    mergeValues values = summary values := by
  have hfirst : ∀ first ∈ (values.filter fun value => decide value.Touched).map
      FlowValue.firstSeenMonoNs, first ≠ 0 := by
    intro first hmem
    obtain ⟨value, hvalue, rfl⟩ := List.mem_map.mp hmem
    obtain ⟨hmem, htouched⟩ := List.mem_filter.mp hvalue
    exact h value hmem (of_decide_eq_true htouched)
  have hsum : ∀ counts : List ℕ,
      counts.foldl satAdd 0 = min (counts : Multiset ℕ).sum u64Max := by
    intro counts
    rw [← zero_add (Multiset.sum _)]
    exact foldl_saturating (Nat.zero_le _) counts
  have hlast : ∀ times : List ℕ, times.foldl max 0 = (times : Multiset ℕ).sup := by
    intro times
    rw [← bot_sup_eq (Multiset.sup _)]
    exact foldl_sup ⊥ times
  unfold mergeValues summary allFlags
  rw [foldl_add]
  simp only [hsum, hlast, foldl_earlier hfirst, Multiset.map_coe, Multiset.filter_coe,
    Multiset.coe_fold_l]

/-! ## Slots that were not touched -/

theorem FlowValue.Untouched.not_touched {value : FlowValue} (h : value.Untouched) :
    ¬value.Touched := by
  rw [FlowValue.Touched, h.packets]
  exact lt_irrefl 0

theorem allFlags_add_zeros {flags zeros : Multiset UInt16} (h : ∀ flag ∈ zeros, flag = 0) :
    allFlags (flags + zeros) = allFlags flags := by
  rw [Multiset.eq_replicate_card.mpr h]
  generalize zeros.card = n
  unfold allFlags
  induction n with
  | zero => rw [Multiset.replicate_zero, add_zero]
  | succ n ih =>
    rw [Multiset.replicate_succ, Multiset.add_cons, Multiset.fold_cons_left, ih, UInt16.zero_or]

theorem summary_add_untouched {values padding : Multiset FlowValue}
    (h : ∀ value ∈ padding, value.Untouched) : summary (values + padding) = summary values := by
  have hpackets : (padding.map FlowValue.packets).sum = 0 := by
    refine Multiset.sum_eq_zero fun packets hmem => ?_
    obtain ⟨value, hvalue, rfl⟩ := Multiset.mem_map.mp hmem
    exact (h value hvalue).packets
  have hbytes : (padding.map FlowValue.bytes).sum = 0 := by
    refine Multiset.sum_eq_zero fun bytes hmem => ?_
    obtain ⟨value, hvalue, rfl⟩ := Multiset.mem_map.mp hmem
    exact (h value hvalue).bytes
  have htouched : padding.filter FlowValue.Touched = 0 :=
    Multiset.filter_eq_nil.mpr fun value hvalue => (h value hvalue).not_touched
  have hlast : (padding.map FlowValue.lastSeenMonoNs).sup = 0 := by
    refine Nat.le_zero.mp (Multiset.sup_le.mpr fun last hmem => ?_)
    obtain ⟨value, hvalue, rfl⟩ := Multiset.mem_map.mp hmem
    exact (h value hvalue).lastSeenMonoNs.le
  have hflags : ∀ flags : Multiset UInt16,
      allFlags (flags + padding.map FlowValue.tcpFlags) = allFlags flags := by
    intro flags
    refine allFlags_add_zeros fun flag hmem => ?_
    obtain ⟨value, hvalue, rfl⟩ := Multiset.mem_map.mp hmem
    exact (h value hvalue).tcpFlags
  unfold summary
  simp only [Multiset.map_add, Multiset.filter_add, Multiset.sum_add, Multiset.sup_add, hpackets,
    hbytes, htouched, hlast, hflags, add_zero]
  rw [← Nat.bot_eq_zero, sup_bot_eq]

/-! ## One entry -/

/-- An entry is merged into the same flow whatever the order of its slots and however many untouched
ones stand between them. -/
theorem mergeEntry_order_free (key : AbiFlowKey) {values padding values' : List FlowValue}
    (hseen : ∀ value ∈ values, value.Touched → value.firstSeenMonoNs ≠ 0)
    (hpadding : ∀ value ∈ padding, value.Untouched) (hperm : values'.Perm (values ++ padding)) :
    mergeEntry key values' = (if values' = [] then none
        else (decodeKey key).map fun key => { summary values with key }) ∧
      (padding = [] → mergeEntry key values' = mergeEntry key values) ∧
      ∀ merged, mergeEntry key values = some merged → mergeEntry key values' = some merged := by
  have hmerge : mergeValues values' = summary values := by
    have hseen' : ∀ value ∈ values', value.Touched → value.firstSeenMonoNs ≠ 0 := by
      intro value hmem htouched
      rcases List.mem_append.mp (hperm.mem_iff.mp hmem) with hvalue | hvalue
      · exact hseen value hvalue htouched
      · exact absurd htouched (hpadding value hvalue).not_touched
    calc mergeValues values' = summary values' := mergeValues_eq_summary hseen'
      _ = summary (values ++ padding : List FlowValue) := by rw [Multiset.coe_eq_coe.mpr hperm]
      _ = summary (values + padding) := by rw [Multiset.coe_add]
      _ = summary values := summary_add_untouched hpadding
  have hsame := mergeValues_eq_summary hseen
  unfold mergeEntry
  rw [hmerge, hsame]
  refine ⟨rfl, ?_, ?_⟩
  · rintro rfl
    rw [List.append_nil] at hperm
    have hnil : values' = [] ↔ values = [] := by
      rw [← List.length_eq_zero_iff, hperm.length_eq, List.length_eq_zero_iff]
    exact if_congr hnil rfl rfl
  · intro merged hmerged
    split at hmerged
    · cases hmerged
    · next hne =>
      rw [if_neg, hmerged]
      rintro rfl
      exact hne (List.append_eq_nil_iff.mp hperm.symm.eq_nil).1

/-- A TCP Flow of two addresses. -/
def tcpEntryKey : AbiFlowKey where
  srcAddr := #v[192, 168, 1, 2, 0, 0, 0, 0, 0, 0, 0, 0, 0, 0, 0, 0]
  dstAddr := #v[203, 0, 113, 9, 0, 0, 0, 0, 0, 0, 0, 0, 0, 0, 0, 0]
  srcPortBe := 0x0050
  dstPortBe := 0xbb01
  ifindex := 2
  protocol := 6
  direction := 2
  ipFamily := 4

/-- Two CPUs counted packets of it, and a third none. -/
theorem mergeEntry_swapped : ∃ merged,
    mergeEntry tcpEntryKey [{}, ⟨2, 200, 50, 300, 0x10⟩, ⟨3, 300, 100, 200, 0x02⟩] = some merged ∧
      merged.total = ⟨5, 500⟩ ∧ merged.firstSeenNs = 50 ∧ merged.lastSeenNs = 300 ∧
      merged.tcpFlags = 0x12 := by
  have huntouched : ∀ value ∈ [({} : FlowValue)], value.Untouched := by
    intro value hmem
    obtain rfl := List.mem_singleton.mp hmem
    exact ⟨rfl, rfl, rfl, rfl⟩
  have hmerged := @mergeEntry_order_free tcpEntryKey
    [⟨3, 300, 100, 200, 0x02⟩, ⟨2, 200, 50, 300, 0x10⟩] [{}] _ (by decide) huntouched
    (List.reverse_perm _)
  exact ⟨_, hmerged.2.2 _ rfl, rfl, rfl, rfl, rfl⟩

end ZimaScope
