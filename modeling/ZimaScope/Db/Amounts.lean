import ZimaScope.Db.Buckets

/-! # What the writes of an interval amount to

The writes of the traffic buckets and those of the entity buckets spread the
same deltas over the same buckets, as long as what moved on an interface fits
the columns.
-/

namespace ZimaScope

def EntityKey.isEndpoint : EntityKey → Bool
  | .endpoint _ => true
  | _ => false

namespace TrafficDb

/-- What the deltas on these interfaces add up to. -/
def movedOn (f : ℤ → Prop) [DecidablePred f] (deltas : List FlowDelta) : Counters :=
  (deltas.map fun d => if f d.ifindex then d.counters else 0).sum

/-- What moved on each interface fits the columns. -/
def Fits (deltas : List FlowDelta) : Prop := ∀ ifindex, movedOn (· = ifindex) deltas ≤ maxCounters

section Moved

variable {f : ℤ → Prop} [DecidablePred f] {deltas deltas' : List FlowDelta} {d : FlowDelta}

theorem movedOn_append :
    movedOn f (deltas ++ deltas') = movedOn f deltas + movedOn f deltas' := by
  unfold movedOn
  rw [List.map_append, List.sum_append]

theorem movedOn_singleton : movedOn f [d] = if f d.ifindex then d.counters else 0 := add_zero _

theorem movedOn_perm (h : deltas.Perm deltas') : movedOn f deltas = movedOn f deltas' :=
  (h.map _).sum_eq

theorem movedOn_sublist (h : deltas.Sublist deltas') : movedOn f deltas ≤ movedOn f deltas' := by
  refine (h.map _).sum_le_sum fun x hx => ?_
  obtain ⟨d, -, rfl⟩ := List.mem_map.mp hx
  split
  · exact d.counters_nonneg
  · exact le_rfl

theorem Fits.of_le (h : Fits deltas')
    (hle : ∀ ifindex, movedOn (· = ifindex) deltas ≤ movedOn (· = ifindex) deltas') : Fits deltas :=
  fun ifindex => (hle ifindex).trans (h ifindex)

/-- Each delta is part of what moved on its interface. -/
theorem Fits.le (h : Fits deltas) (hd : d ∈ deltas) : d.counters ≤ maxCounters := by
  refine le_trans ?_ (h d.ifindex)
  have hone := movedOn_sublist (f := (· = d.ifindex)) (List.singleton_sublist.mpr hd)
  rwa [movedOn_singleton, if_pos rfl] at hone

end Moved

/-! ## Totals of the interfaces -/

theorem totalsOf_concat (moves : List (FlowRecord × FlowDelta)) (c : FlowRecord × FlowDelta) :
    totalsOf (moves ++ [c]) =
      (totalsOf moves).add (c.2.ifindex, c.1.row.interface.getD "") c.2 := by
  unfold totalsOf
  rw [List.foldl_append, List.foldl_cons, List.foldl_nil]

theorem sum_totalsOf {f : ℤ → Prop} [DecidablePred f] {moves : List (FlowRecord × FlowDelta)}
    (h : Fits (moves.map Prod.snd)) : (totalsOf moves).sum f = movedOn f (moves.map Prod.snd) := by
  induction moves using List.reverseRecOn generalizing f with
  | nil => rfl
  | append_singleton moves c ih =>
    rw [List.map_append] at h ⊢
    have hfits : Fits (moves.map Prod.snd) :=
      h.of_le fun ifindex => movedOn_sublist (List.sublist_append_left ..)
    have hstep : (totalsOf moves).sum (· = (c.2.ifindex, c.1.row.interface.getD "").1) +
        c.2.counters ≤ maxCounters := by
      have hc := h c.2.ifindex
      rw [movedOn_append] at hc
      rw [ih hfits]
      simpa [movedOn] using hc
    rw [totalsOf_concat, InterfaceTotals.sum_add hstep, ih hfits, movedOn_append]
    exact congrArg _ movedOn_singleton.symm

theorem mem_totalsOf {moves : List (FlowRecord × FlowDelta)} {interface : ℤ × String} :
    interface ∈ totalsOf moves ↔
      ∃ c ∈ moves, interface = (c.2.ifindex, c.1.row.interface.getD "") := by
  induction moves using List.reverseRecOn with
  | nil => simp [totalsOf]
  | append_singleton moves c ih =>
    rw [totalsOf_concat, InterfaceTotals.add, AList.mem_insert, ih]
    simp only [List.mem_append, List.mem_singleton]
    constructor
    · rintro (rfl | ⟨c', hc', rfl⟩)
      · exact ⟨c, Or.inr rfl, rfl⟩
      · exact ⟨c', Or.inl hc', rfl⟩
    · rintro ⟨c', hc' | rfl, rfl⟩
      · exact Or.inr ⟨c', hc', rfl⟩
      · exact Or.inl rfl

/-! ## Bucket starts -/

section Starts

variable (input : IngestInput)

def minuteStart : ℤ := unixMillis (truncateTime input.batch.collectedAt 60)

def hourStart : ℤ := unixMillis (truncateTime input.batch.collectedAt 3600)

def msPerHour : ℤ := 3600000

variable {input}

theorem unixMillis_seconds {secs : ℤ} (h : 0 ≤ secs) :
    unixMillis (secs * 1000000000) = min (secs * 1000) (2 ^ 63 - 1) := by
  have htime : 0 ≤ secs * 1000000000 := by omega
  unfold unixMillis
  rw [if_pos htime]
  congr 1
  omega

theorem mem_bucketStarts {b : BucketResolution × ℤ} (h : b ∈ bucketStarts input) :
    b = (.minute, minuteStart input) ∨ b = (.hour, hourStart input) := by
  unfold bucketStarts at h
  rwa [List.mem_cons, List.mem_singleton] at h

theorem minuteStart_eq : minuteStart input =
    min (max input.batch.collectedAt 0 / 1000000000 / 60 * 60 * 1000) (2 ^ 63 - 1) := by
  unfold minuteStart truncateTime
  exact unixMillis_seconds (by omega)

theorem hourStart_eq : hourStart input =
    min (max input.batch.collectedAt 0 / 1000000000 / 3600 * 3600 * 1000) (2 ^ 63 - 1) := by
  unfold hourStart truncateTime
  exact unixMillis_seconds (by omega)

/-- The start of an hour bucket, but for times past the range of the column. -/
theorem hourStart_dvd : msPerHour ∣ hourStart input ∨ hourStart input = 2 ^ 63 - 1 := by
  rw [hourStart_eq, msPerHour]
  omega

/-- The minutes that start within an hour are those of its bucket. -/
theorem hourStart_eq_iff {start : ℤ} (hs : msPerHour ∣ start) (hend : start + msPerHour < 2 ^ 63) :
    hourStart input = start ↔ start ≤ minuteStart input ∧ minuteStart input < start + msPerHour := by
  rw [hourStart_eq, minuteStart_eq]
  unfold msPerHour at hs hend ⊢
  omega

theorem sum_bucketStarts {M : Type} [AddCommMonoid M] (g : BucketResolution × ℤ → M) :
    ((bucketStarts input).map g).sum =
      g (.minute, minuteStart input) + g (.hour, hourStart input) := by
  unfold bucketStarts
  rw [List.map_cons, List.map_cons, List.map_nil, List.sum_cons, List.sum_cons, List.sum_nil,
    add_zero]
  rfl

end Starts

/-! ## Spreading over the buckets -/

section Spread

variable (input : IngestInput)

/-- What moves add to these buckets, each with its weight. -/
def spread (q : TimeBucketKey → Prop) [DecidablePred q]
    (weight : FlowRecord × FlowDelta → Counters) (moves : List (FlowRecord × FlowDelta)) : Counters :=
  (moves.map fun c => ((bucketStarts input).map fun b =>
    if q ⟨b.1, b.2, c.2.ifindex⟩ then weight c else 0).sum).sum

/-- What a move counts for these entities. -/
def weight (E : EntityKey → Prop) [DecidablePred E] (c : FlowRecord × FlowDelta) : Counters :=
  ((FlowRecord.entities c.1).map fun entity => if E entity then c.2.counters else 0).sum

variable {input} {q q' : TimeBucketKey → Prop} [DecidablePred q] [DecidablePred q']
  {moves : List (FlowRecord × FlowDelta)}

theorem weight_isEndpoint (c : FlowRecord × FlowDelta) :
    weight (·.isEndpoint) c = c.2.counters := by
  unfold weight FlowRecord.entities
  simp only [List.map_cons, List.sum_cons]
  rw [if_pos (show (EntityKey.endpoint _).isEndpoint = true from rfl)]
  have hrest : ∀ x ∈ (c.1.application.toList.map (EntityKey.application ∘ Prod.fst) ++
      c.1.row.domainsJson.map (EntityKey.domain ∘ DomainRefDto.domain)).map
        (fun entity => if entity.isEndpoint = true then c.2.counters else 0), x = 0 := by
    intro x hx
    obtain ⟨entity, hentity, rfl⟩ := List.mem_map.mp hx
    rcases List.mem_append.mp hentity with hmem | hmem
    · obtain ⟨application, -, rfl⟩ := List.mem_map.mp hmem
      rfl
    · obtain ⟨domain, -, rfl⟩ := List.mem_map.mp hmem
      rfl
  rw [List.sum_eq_zero hrest, add_zero]

theorem amount_entityWrites {E : EntityKey → Prop} [DecidablePred E]
    (h : Fits (moves.map Prod.snd)) :
    Table.amount TimeBucket.counters (fun k => E k.entity ∧ q k.bucket) (entityWrites input moves) =
      spread input q (weight E) moves := by
  unfold entityWrites spread
  rw [Table.amount_flatMap]
  refine congrArg List.sum (List.map_congr_left fun c hc => ?_)
  unfold movedWrites
  rw [Table.amount_flatMap]
  refine congrArg List.sum (List.map_congr_left fun b _ => ?_)
  rw [Table.amount_map]
  have hbucket := FlowDelta.counters_bucket (c.1.row.interface.getD "")
    (h.le (List.mem_map_of_mem hc))
  simp only [hbucket]
  unfold weight
  split
  · next hq => simp only [hq, and_true]
  · next hq =>
    simp only [hq, and_false, if_false]
    exact List.sum_eq_zero fun x hx => (List.mem_map.mp hx).elim fun _ h => h.2.symm

theorem amount_trafficWrites (h : Fits (moves.map Prod.snd)) :
    Table.amount TimeBucket.counters q (trafficWrites input (totalsOf moves)) =
      spread input q (fun c => c.2.counters) moves := by
  have hentry : ∀ e ∈ (totalsOf moves).entries, directed e.2 ≤ maxCounters := by
    intro e he
    refine (InterfaceTotals.lookup_le_sum (AList.mem_lookup_iff.mpr he)).trans ?_
    rw [sum_totalsOf h]
    exact h _
  have hsum : ∀ b : BucketResolution × ℤ,
      ((totalsOf moves).entries.map fun e => if q ⟨b.1, b.2, e.1.1⟩ then directed e.2 else 0).sum =
        (moves.map fun c => if q ⟨b.1, b.2, c.2.ifindex⟩ then c.2.counters else 0).sum := by
    intro b
    refine (sum_totalsOf (f := fun ifindex => q ⟨b.1, b.2, ifindex⟩) h).trans ?_
    unfold movedOn
    rw [List.map_map]
    rfl
  have hstep : Table.amount TimeBucket.counters q (trafficWrites input (totalsOf moves)) =
      ((totalsOf moves).entries.map fun e => ((bucketStarts input).map fun b =>
        if q ⟨b.1, b.2, e.1.1⟩ then directed e.2 else 0).sum).sum := by
    unfold trafficWrites
    rw [Table.amount_flatMap]
    refine congrArg List.sum (List.map_congr_left fun e he => ?_)
    rw [Table.amount_map]
    refine congrArg List.sum (List.map_congr_left fun b _ => ?_)
    rw [counters_ofCounters (hentry e he)]
  rw [hstep]
  unfold spread
  simp only [sum_bucketStarts, List.sum_map_add]
  exact congrArg₂ _ (hsum (.minute, _)) (hsum (.hour, _))

/-- What moved on one interface is added to both its buckets. -/
theorem spread_eq_movedOn {b : BucketResolution × ℤ} (hb : b ∈ bucketStarts input) {ifindex : ℤ} :
    spread input (· = ⟨b.1, b.2, ifindex⟩) (fun c => c.2.counters) moves =
      movedOn (· = ifindex) (moves.map Prod.snd) := by
  unfold spread movedOn
  rw [List.map_map]
  refine congrArg List.sum (List.map_congr_left fun c _ => ?_)
  rw [sum_bucketStarts]
  rcases List.mem_cons.mp hb with rfl | hb
  · simp [minuteStart]
  · obtain rfl := List.mem_singleton.mp hb
    simp [hourStart]

/-- The minute buckets of an hour. -/
def InHour (start ifindex : ℤ) (key : TimeBucketKey) : Prop :=
  key.resolution = .minute ∧ start ≤ key.startMs ∧ key.startMs < start + msPerHour ∧
    key.ifindex = ifindex

instance (start ifindex : ℤ) : DecidablePred (InHour start ifindex) :=
  fun _ => inferInstanceAs (Decidable (_ ∧ _))

/-- The bucket of an hour gets what its minutes get. -/
theorem spread_hour {w : FlowRecord × FlowDelta → Counters} {start ifindex : ℤ}
    (hs : msPerHour ∣ start) (hend : start + msPerHour < 2 ^ 63) :
    spread input (· = ⟨.hour, start, ifindex⟩) w moves =
      spread input (InHour start ifindex) w moves := by
  unfold spread
  refine congrArg List.sum (List.map_congr_left fun c _ => ?_)
  rw [sum_bucketStarts, sum_bucketStarts]
  have hminute : hourStart input = start ↔ _ := hourStart_eq_iff hs hend
  simp only [TimeBucketKey.mk.injEq, reduceCtorEq, false_and, if_false, InHour, true_and, zero_add,
    add_zero, hminute, and_assoc]

theorem spread_nonneg : 0 ≤ spread input q (fun c => c.2.counters) moves := by
  refine List.sum_nonneg fun x hx => ?_
  obtain ⟨c, -, rfl⟩ := List.mem_map.mp hx
  refine List.sum_nonneg fun x hx => ?_
  obtain ⟨b, -, rfl⟩ := List.mem_map.mp hx
  split
  · exact c.2.counters_nonneg
  · exact le_rfl

/-! ## Which buckets are written -/

variable {key : TimeBucketKey}

variable (input moves key) in
/-- The bucket gets something of some move. -/
def Touched : Prop := ∃ c ∈ moves, ∃ b ∈ bucketStarts input, key = ⟨b.1, b.2, c.2.ifindex⟩

theorem mem_trafficWrites :
    (∃ w ∈ trafficWrites input (totalsOf moves), w.1 = key) ↔ Touched input moves key := by
  unfold trafficWrites
  constructor
  · rintro ⟨w, hw, rfl⟩
    obtain ⟨e, he, hw⟩ := List.mem_flatMap.mp hw
    obtain ⟨b, hb, rfl⟩ := List.mem_map.mp hw
    obtain ⟨c, hc, heq⟩ := mem_totalsOf.mp (List.mem_keys_of_mem he)
    exact ⟨c, hc, b, hb, by rw [heq]⟩
  · rintro ⟨c, hc, b, hb, rfl⟩
    obtain ⟨totals, he⟩ := List.exists_of_mem_keys
      (mem_totalsOf.mpr ⟨c, hc, rfl⟩ : (c.2.ifindex, c.1.row.interface.getD "") ∈ totalsOf moves)
    exact ⟨_, List.mem_flatMap.mpr ⟨_, he, List.mem_map_of_mem hb⟩, rfl⟩

theorem touched_of_mem_entityWrites {w : EntityBucketKey × TimeBucket}
    (hw : w ∈ entityWrites input moves) : Touched input moves w.1.bucket := by
  obtain ⟨c, hc, hw⟩ := List.mem_flatMap.mp hw
  obtain ⟨b, hb, hw⟩ := List.mem_flatMap.mp hw
  obtain ⟨entity, -, rfl⟩ := List.mem_map.mp hw
  exact ⟨c, hc, b, hb, rfl⟩

theorem mem_entityWrites :
    (∃ address, ∃ w ∈ entityWrites input moves, w.1 = ⟨.endpoint address, key⟩) ↔
      Touched input moves key := by
  constructor
  · rintro ⟨address, w, hw, heq⟩
    have htouched := touched_of_mem_entityWrites hw
    rwa [heq] at htouched
  · rintro ⟨c, hc, b, hb, rfl⟩
    refine ⟨c.1.row.remote.address, _, List.mem_flatMap.mpr ⟨c, hc, List.mem_flatMap.mpr
      ⟨b, hb, List.mem_map_of_mem List.mem_cons_self⟩⟩, rfl⟩

end Spread

end TrafficDb

end ZimaScope
