import ZimaScope.Policy.Meaning

/-! # Compilation preserves meaning

The packet path tries its keys in the order in which the product model ranks
rules, so a compiled and installed rule list lets every packet select the rule
that decides it.
-/

namespace ZimaScope

open Priority

/-! ## Candidates with their places -/

def rankedOwner (direction : Direction) (owner : OwnerValue) : List (ℕ × MatchCandidate) :=
  [(0, ⟨.appCgroup direction owner.cgroupId, isBlock⟩),
    (1, ⟨.appComm direction owner.comm, isBlock⟩),
    (2, anyRule (.appCgroup direction owner.cgroupId)),
    (3, anyRule (.appComm direction owner.comm))]

/-- A remote port of zero names no exact endpoint. -/
def rankedExact (direction : Direction) (remote : Ipv4Addr × UInt16) :
    List (ℕ × MatchCandidate) :=
  if remote.2 = 0 then []
  else [(4, anyRule (.endpointExact direction ⟨ipv4Storage remote.1, toBe remote.2⟩))]

def rankedCidr (direction : Direction) (address : Ipv4Addr) : List (ℕ × MatchCandidate) :=
  (List.range 33).reverse.map fun n =>
    (38 - n, anyRule (.endpointCidr direction ((addrBits address.octets).take n)))

def rankedRemote (direction : Direction) (remote : Ipv4Addr × UInt16) :
    List (ℕ × MatchCandidate) :=
  rankedExact direction remote ++
    (5, anyRule (.endpointExact direction ⟨ipv4Storage remote.1, 0⟩)) ::
      rankedCidr direction remote.1

/-- The keys a packet is matched under, each with the place of the rules it finds. -/
def rankedCandidates (owner : Option OwnerValue) (direction : Direction)
    (remote : Ipv4Addr × UInt16) : List (ℕ × MatchCandidate) :=
  (owner.map (rankedOwner direction)).getD [] ++ rankedRemote direction remote

theorem rankedCandidates_sorted (owner : Option OwnerValue) (direction : Direction)
    (remote : Ipv4Addr × UInt16) :
    (rankedCandidates owner direction remote).Pairwise fun a b => a.1 < b.1 := by
  have howner : (((owner.map (rankedOwner direction)).getD []).map Prod.fst).Sublist
      [0, 1, 2, 3] := by
    cases owner with
    | none => exact List.nil_sublist _
    | some owner => exact List.Sublist.refl _
  have hexact : ((rankedExact direction remote).map Prod.fst).Sublist [4] := by
    unfold rankedExact
    split
    · exact List.nil_sublist _
    · exact List.Sublist.refl _
  have hcidr : (rankedCidr direction remote.1).map Prod.fst =
      (List.range 33).reverse.map (38 - ·) := by
    simp only [rankedCidr, List.map_map]
    rfl
  have hsub : ((rankedCandidates owner direction remote).map Prod.fst).Sublist
      ([0, 1, 2, 3] ++ ([4] ++ 5 :: (List.range 33).reverse.map (38 - ·))) := by
    simp only [rankedCandidates, rankedRemote, List.map_append, List.map_cons, hcidr]
    exact howner.append (hexact.append (List.Sublist.refl _))
  have hpairwise : ([0, 1, 2, 3] ++ ([4] ++ 5 :: (List.range 33).reverse.map (38 - ·))).Pairwise
      (· < ·) := by decide
  exact List.pairwise_map.mp (hpairwise.sublist hsub)

/-! ## One rule -/

section Rule

variable {ev : Evidence} {rule : TrafficRule} {owner : Option OwnerValue} {d : Direction}
  {remote : Ipv4Addr × UInt16}

theorem isBlock_ref : isBlock rule.ref = true ↔ rule.action = .block := by
  unfold isBlock TrafficRule.ref
  cases rule.action <;> simp [ActionSpec.action, RuleAction.toU8]

theorem validate_of_resolvable (h : rule.resolvable ev = true) :
    rule.selector.validate = .ok () := by
  simp only [TrafficRule.resolvable, Bool.and_eq_true, isOk_iff] at h
  have hv := h.1
  unfold validateRule at hv
  cases hs : rule.selector.validate with
  | ok u => rfl
  | error e => simp [hs, bind, Except.bind] at hv

/-- A covering rule is found under its own place. -/
theorem exists_candidate_of_covers (hr : rule.resolvable ev = true)
    (hd : d ∈ rule.direction.directions) (hc : rule.selector.covers ev owner remote = true) :
    ∃ rc ∈ rankedCandidates owner d remote, rc.1 = rule.place ∧
      rc.2.key ∈ (rule.compiled ev).matchKeys ∧ rc.2.accepts rule.ref = true := by
  have hv := validate_of_resolvable hr
  cases hs : rule.selector with
  | endpoint address port =>
    rw [hs] at hv hc
    obtain ⟨⟨a, rfl⟩, hport⟩ := Selector.validate_endpoint hv
    simp only [Selector.covers, Bool.and_eq_true, decide_eq_true_eq, IpAddr.v4.injEq,
      Bool.or_eq_true] at hc
    obtain ⟨rfl, hc⟩ := hc
    cases port with
    | none =>
      refine ⟨(5, anyRule (.endpointExact d ⟨ipv4Storage remote.1, 0⟩)),
        by simp [rankedCandidates, rankedRemote], by simp [TrafficRule.place, hs], ?_, rfl⟩
      exact endpointExact_mem_matchKeys.mpr ⟨hd, none, hs, rfl⟩
    | some p =>
      obtain rfl : p = remote.2 := by simpa using hc
      have hp : remote.2 ≠ 0 := fun hz => hport (by rw [hz])
      refine ⟨(4, anyRule (.endpointExact d ⟨ipv4Storage remote.1, toBe remote.2⟩)),
        by simp [rankedCandidates, rankedRemote, rankedExact, hp],
        by simp [TrafficRule.place, hs], ?_, rfl⟩
      exact endpointExact_mem_matchKeys.mpr ⟨hd, some remote.2, hs, rfl⟩
  | cidr address prefixLen =>
    rw [hs] at hv hc
    obtain ⟨⟨a, rfl⟩, hpos, hle⟩ := Selector.validate_cidr hv
    simp only [Selector.covers, decide_eq_true_eq] at hc
    refine ⟨(38 - prefixLen,
      anyRule (.endpointCidr d ((addrBits remote.1.octets).take prefixLen))), ?_,
      by simp [TrafficRule.place, hs], ?_, rfl⟩
    · refine List.mem_append_right _ (List.mem_append_right _ (List.mem_cons_of_mem _ ?_))
      exact List.mem_map.mpr ⟨prefixLen, by simp; omega, rfl⟩
    · exact endpointCidr_mem_matchKeys.mpr ⟨hd, a, prefixLen, hs, hc⟩
  | application id =>
    rw [hs] at hc
    obtain ⟨o, rfl, ho⟩ : ∃ o, owner = some o ∧ ownedBy ev id o = true := by
      simpa [Selector.covers, Option.any_eq_true] using hc
    have hmem : ∀ rc ∈ rankedOwner d o, rc ∈ rankedCandidates (some o) d remote :=
      fun rc hrc => List.mem_append_left _ hrc
    rcases ownedBy_iff.mp ho with ⟨name, hi, hg⟩ | ⟨comm, hn, hcomm⟩
    · have hk := appCgroup_mem_matchKeys.mpr ⟨hd, id, name, hs, hi, hg⟩
      by_cases hb : rule.action = .block
      · exact ⟨_, hmem (0, ⟨.appCgroup d o.cgroupId, isBlock⟩) (by simp [rankedOwner]),
          by simp [TrafficRule.place, hs, hi, hb], hk, isBlock_ref.mpr hb⟩
      · refine ⟨_, hmem (2, anyRule (.appCgroup d o.cgroupId)) (by simp [rankedOwner]), ?_, hk, rfl⟩
        cases ha : rule.action <;> simp_all [TrafficRule.place]
    · have hk := appComm_mem_matchKeys.mpr ⟨hd, id, comm, hs, hn, hcomm⟩
      have hnot : ∀ name, Identity.ofString id ≠ .container name := by
        intro name hi
        simp [Evidence.processName, hi] at hn
      by_cases hb : rule.action = .block
      · refine ⟨_, hmem (1, ⟨.appComm d o.comm, isBlock⟩) (by simp [rankedOwner]), ?_, hk,
          isBlock_ref.mpr hb⟩
        cases hi : Identity.ofString id <;> simp_all [TrafficRule.place]
      · refine ⟨_, hmem (3, anyRule (.appComm d o.comm)) (by simp [rankedOwner]), ?_, hk, rfl⟩
        cases ha : rule.action <;> cases hi : Identity.ofString id <;>
          simp_all [TrafficRule.place]

section KeyCovers

variable {o : OwnerValue} {n : ℕ}

/-- A rule that blocks is found under a cgroup first, any other one is found third. -/
theorem covers_of_appCgroup (hk : .appCgroup d o.cgroupId ∈ (rule.compiled ev).matchKeys)
    (hn : rule.action = .block ∨ 2 ≤ n) :
    d ∈ rule.direction.directions ∧ rule.selector.covers ev (some o) remote = true ∧
      rule.place ≤ n := by
  obtain ⟨hd, id, name, hs, hi, hg⟩ := appCgroup_mem_matchKeys.mp hk
  refine ⟨hd, ?_, ?_⟩
  · simp only [hs, Selector.covers, Option.any_some]
    exact ownedBy_iff.mpr (Or.inl ⟨name, hi, hg⟩)
  · cases ha : rule.action <;> simp_all [TrafficRule.place]

theorem covers_of_appComm (hk : .appComm d o.comm ∈ (rule.compiled ev).matchKeys)
    (hn : rule.action = .block ∧ 1 ≤ n ∨ 3 ≤ n) :
    d ∈ rule.direction.directions ∧ rule.selector.covers ev (some o) remote = true ∧
      rule.place ≤ n := by
  obtain ⟨hd, id, comm, hs, hp, hc⟩ := appComm_mem_matchKeys.mp hk
  refine ⟨hd, ?_, ?_⟩
  · simp only [hs, Selector.covers, Option.any_some]
    exact ownedBy_iff.mpr (Or.inr ⟨comm, hp, hc⟩)
  · simp only [TrafficRule.place, hs]
    cases ha : rule.action <;> cases hi : Identity.ofString id <;> simp_all <;> omega

theorem covers_of_exact (hp : remote.2 ≠ 0)
    (hk : .endpointExact d ⟨ipv4Storage remote.1, toBe remote.2⟩ ∈ (rule.compiled ev).matchKeys) :
    d ∈ rule.direction.directions ∧ rule.selector.covers ev owner remote = true ∧
      rule.place ≤ 4 := by
  obtain ⟨hd, port, hs, hport⟩ := endpointExact_mem_matchKeys.mp hk
  cases port with
  | none => exact absurd ((toBe_eq_zero _).mp hport.symm) hp
  | some p =>
    obtain rfl := toBe_injective hport
    exact ⟨hd, by simp [hs, Selector.covers], by simp [TrafficRule.place, hs]⟩

/-- No valid rule names the port zero, so the wildcard key finds the wildcard rules only. -/
theorem covers_of_wildcard (hr : rule.resolvable ev = true)
    (hk : .endpointExact d ⟨ipv4Storage remote.1, 0⟩ ∈ (rule.compiled ev).matchKeys) :
    d ∈ rule.direction.directions ∧ rule.selector.covers ev owner remote = true ∧
      rule.place ≤ 5 := by
  have hv := validate_of_resolvable hr
  obtain ⟨hd, port, hs, hport⟩ := endpointExact_mem_matchKeys.mp hk
  refine ⟨hd, ?_, by simp only [TrafficRule.place, hs]; split <;> simp_all⟩
  cases port with
  | none => simp [hs, Selector.covers]
  | some p =>
    rw [hs] at hv
    obtain rfl : p = 0 := by simpa using hport
    exact absurd rfl (Selector.validate_endpoint hv).2

/-- A prefix of the address finds the rules on a network of that length. -/
theorem covers_of_cidr (hr : rule.resolvable ev = true) (hn : n < 33)
    (hk : .endpointCidr d ((addrBits remote.1.octets).take n) ∈ (rule.compiled ev).matchKeys) :
    d ∈ rule.direction.directions ∧ rule.selector.covers ev owner remote = true ∧
      rule.place ≤ 38 - n := by
  have hv := validate_of_resolvable hr
  obtain ⟨hd, a, prefixLen, hs, hbits⟩ := endpointCidr_mem_matchKeys.mp hk
  rw [hs] at hv
  obtain ⟨_, hpos, hle⟩ := Selector.validate_cidr hv
  have hlen := congrArg List.length hbits
  simp only [List.length_take, length_addrBits] at hlen
  obtain rfl : prefixLen = n := by omega
  exact ⟨hd, by simpa [hs, Selector.covers] using hbits, by simp [TrafficRule.place, hs]⟩

end KeyCovers

/-- A rule found under a candidate covers the packet and has its place or a better one. -/
theorem covers_of_candidate {rc : ℕ × MatchCandidate} (hr : rule.resolvable ev = true)
    (hrc : rc ∈ rankedCandidates owner d remote)
    (hk : rc.2.key ∈ (rule.compiled ev).matchKeys) (ha : rc.2.accepts rule.ref = true) :
    d ∈ rule.direction.directions ∧ rule.selector.covers ev owner remote = true ∧
      rule.place ≤ rc.1 := by
  rcases List.mem_append.mp hrc with hrc | hrc
  · cases owner with
    | none => simp at hrc
    | some o =>
      simp only [Option.map_some, Option.getD_some, rankedOwner, List.mem_cons,
        List.not_mem_nil, or_false] at hrc
      rcases hrc with rfl | rfl | rfl | rfl
      · exact covers_of_appCgroup hk (Or.inl (isBlock_ref.mp ha))
      · exact covers_of_appComm hk (Or.inl ⟨isBlock_ref.mp ha, le_rfl⟩)
      · exact covers_of_appCgroup hk (Or.inr le_rfl)
      · exact covers_of_appComm hk (Or.inr le_rfl)
  · rcases List.mem_append.mp hrc with hrc | hrc
    · unfold rankedExact at hrc
      split at hrc
      · simp at hrc
      · next hp =>
        obtain rfl := List.mem_singleton.mp hrc
        exact covers_of_exact hp hk
    · rcases List.mem_cons.mp hrc with rfl | hrc
      · exact covers_of_wildcard hr hk
      · obtain ⟨n, hn, rfl⟩ := List.mem_map.mp hrc
        exact covers_of_cidr hr (by simpa using hn) hk

end Rule

/-! ## The whole program -/

section Program

variable {ev : Evidence} {rules : List TrafficRule} {revision : ℕ} {program : CompiledProgram}

theorem owns_iff_mem_matchKeys {rule : CompiledRule} {k : MatchKey} :
    rule.Owns k ↔ k ∈ rule.matchKeys :=
  List.mem_map.symm

theorem unshared_of_keysApart (hk : KeysApart ev rules)
    (h : compile systemResolver ev rules revision true = .ok program) :
    program.policy.Unshared := by
  rw [rules_of_compile h]
  have hpairwise : ∀ a ∈ activeRules ev rules, ∀ b ∈ activeRules ev rules,
      a = b ∨ ∀ k ∈ (a.compiled ev).matchKeys, k ∉ (b.compiled ev).matchKeys := by
    intro a ha b hb
    refine List.Pairwise.forall_of_forall_of_flip (R := fun a b => a = b ∨
      ∀ k ∈ (a.compiled ev).matchKeys, k ∉ (b.compiled ev).matchKeys)
      (fun _ _ => Or.inl rfl) ?_ ?_ ha hb
    · exact List.Pairwise.imp Or.inr hk
    · exact List.Pairwise.imp (fun h => Or.inr fun k hb ha => h k ha hb) hk
  intro rule hr other ho entry he hown
  obtain ⟨a, ha, rfl⟩ := List.mem_map.mp hr
  obtain ⟨b, hb, rfl⟩ := List.mem_map.mp ho
  rcases hpairwise a ha b hb with rfl | hdisjoint
  · rfl
  · exact absurd (owns_iff_mem_matchKeys.mp hown)
      (hdisjoint _ (List.mem_map_of_mem he))

theorem grants_iff (h : compile systemResolver ev rules revision true = .ok program) {k : MatchKey}
    {ref : RuleRef} : program.policy.Grants k ref ↔
      ∃ rule ∈ activeRules ev rules, k ∈ (rule.compiled ev).matchKeys ∧ rule.ref = ref := by
  rw [rules_of_compile h]
  simp only [CompiledPolicy.Grants, List.mem_map, owns_iff_mem_matchKeys]
  constructor
  · rintro ⟨_, ⟨rule, hr, rfl⟩, hk, rfl⟩
    exact ⟨rule, hr, hk, rfl⟩
  · rintro ⟨rule, hr, hk, rfl⟩
    exact ⟨_, ⟨rule, hr, rfl⟩, hk, rfl⟩

end Program

section Tiers

variable {policy : CompiledPolicy} {owners : OwnerMaps} {direction : Direction}

/-- A candidate list none of whose keys the program owns answers nothing. -/
theorem first_refAt_eq_none {cs : List MatchCandidate} (h : ∀ c ∈ cs, ¬ policy.Owns c.key) :
    first policy.refAt cs = none := by
  apply List.findSome?_eq_none_iff.mpr
  intro c hc
  rw [answer, CompiledPolicy.refAt_eq_none.mpr (h c hc)]
  rfl

theorem toUInt8_true_ne_zero : true.toUInt8 ≠ 0 := by decide

/-- The tier of an application key is switched on. -/
theorem appRules_ne_zero_of_owns {k : MatchKey} (h : policy.Owns k)
    (hk : (∃ d g, k = .appCgroup d g) ∨ ∃ d c, k = .appComm d c) : policy.config.appRules ≠ 0 := by
  obtain ⟨rule, hr, entry, he, rfl⟩ := h
  have happ : policy.hasAppRules = true := by
    refine List.any_eq_true.mpr ⟨rule, hr, List.any_eq_true.mpr ⟨entry, he, ?_⟩⟩
    cases entry <;> simp_all [MatchEntry.key]
  simp only [CompiledPolicy.config, configValue, happ]
  exact toUInt8_true_ne_zero

/-- The tier of an endpoint key is switched on. -/
theorem endpointRules_ne_zero_of_owns {k : MatchKey} (h : policy.Owns k)
    (hk : (∃ d e, k = .endpointExact d e) ∨ ∃ d b, k = .endpointCidr d b) :
    policy.config.endpointRules ≠ 0 := by
  obtain ⟨rule, hr, entry, he, rfl⟩ := h
  have hend : policy.hasEndpointRules = true := by
    refine List.any_eq_true.mpr ⟨rule, hr, List.any_eq_true.mpr ⟨entry, he, ?_⟩⟩
    cases entry <;> simp_all [MatchEntry.key]
  simp only [CompiledPolicy.config, configValue, hend]
  exact toUInt8_true_ne_zero

/-- A tier the configuration switches off has no entry to find. -/
theorem first_tier {flag : UInt8} {cs : List MatchCandidate}
    (h : ∀ c ∈ cs, policy.Owns c.key → flag ≠ 0) :
    first policy.refAt (if flag ≠ 0 then cs else []) = first policy.refAt cs := by
  split
  · rfl
  · next hoff =>
    rw [first_nil, first_refAt_eq_none]
    exact fun c hc hown => hoff (h c hc hown)

theorem first_app_tier (owner : Option OwnerValue) :
    first policy.refAt (if policy.config.appRules ≠ 0 then
      (owner.map (ownerCandidates direction)).getD [] else []) =
    first policy.refAt (((owner.map (rankedOwner direction)).getD []).map Prod.snd) := by
  have hranked : ((owner.map (rankedOwner direction)).getD []).map Prod.snd =
      (owner.map (ownerCandidates direction)).getD [] := by
    cases owner <;> rfl
  rw [hranked]
  apply first_tier
  intro c hc hown
  apply appRules_ne_zero_of_owns hown
  cases owner with
  | none => simp at hc
  | some owner =>
    simp only [Option.map_some, Option.getD_some, ownerCandidates, anyRule, List.mem_cons,
      List.not_mem_nil, or_false] at hc
    rcases hc with rfl | rfl | rfl | rfl <;> simp

theorem first_endpoint_tier (packet : Ipv4Packet) :
    first policy.refAt (if policy.config.endpointRules ≠ 0 then
      (endpointKeys packet.flow direction).map anyRule else []) =
    first policy.refAt ((rankedRemote direction (packet.remote direction)).map Prod.snd) := by
  have hkeys : first policy.refAt ((endpointKeys packet.flow direction).map anyRule) =
      first policy.refAt ((rankedRemote direction (packet.remote direction)).map Prod.snd) := by
    have hcidr : (rankedCidr direction (packet.remote direction).1).map Prod.snd =
        (prefixKeys direction (packet.remote direction).1.octets).map anyRule := by
      simp only [rankedCidr, prefixKeys, List.map_map]
      rfl
    have hfamily : packet.flow.ipFamily = IpFamily.v4.toU8 := rfl
    simp only [endpointKeys, rankedRemote, Ipv4Packet.remote_flow, hfamily, if_true,
      storageOctets_ipv4Storage, List.map_append, List.map_cons, hcidr]
    unfold rankedExact
    split
    · next hp =>
      -- the exact key and the wildcard key are the same key
      simp only [hp, List.map_nil, List.nil_append, first_cons, show toBe 0 = 0 from rfl]
      cases answer policy.refAt (anyRule (.endpointExact direction
        ⟨ipv4Storage (packet.remote direction).1, 0⟩)) <;> rfl
    · rfl
  rw [← hkeys]
  apply first_tier
  intro c hc hown
  obtain ⟨k, hk, rfl⟩ := List.mem_map.mp hc
  apply endpointRules_ne_zero_of_owns hown
  simp only [endpointKeys, List.mem_cons] at hk
  rcases hk with rfl | rfl | hk
  · simp [anyRule]
  · simp [anyRule]
  · split at hk
    · obtain ⟨n, _, rfl⟩ := List.mem_map.mp hk
      simp [anyRule]
    · simp at hk

/-- The candidates of an enabled program are the ranked ones. -/
theorem first_candidates (henabled : policy.enabled = true) (packet : Ipv4Packet) :
    first policy.refAt (candidates policy.config owners packet.flow direction) =
      first policy.refAt ((rankedCandidates (lookupOwner owners packet.flow direction) direction
        (packet.remote direction)).map Prod.snd) := by
  have hon : policy.config.enabled ≠ 0 := by
    simp only [CompiledPolicy.config, configValue, henabled]
    exact toUInt8_true_ne_zero
  rw [candidates, if_neg hon, first_append, first_app_tier, first_endpoint_tier, rankedCandidates,
    List.map_append, first_append]

end Tiers

section Result

variable {ev : Evidence} {rules : List TrafficRule} {revision : ℕ} {program : CompiledProgram}
  {maps : PolicyMaps}

/-- What a packet selects from the compiled rules is the rule that decides it. -/
theorem first_ranked_eq (hk : KeysApart ev rules)
    (h : compile systemResolver ev rules revision true = .ok program) (packet : Ipv4Packet)
    (direction : Direction) (owner : Option OwnerValue) :
    first program.policy.refAt
        ((rankedCandidates owner direction (packet.remote direction)).map Prod.snd) =
      (productChoice ev rules packet direction owner).map TrafficRule.ref := by
  have href : ∀ k ref, program.policy.refAt k = some ref ↔
      ∃ rule ∈ activeRules ev rules, k ∈ (rule.compiled ev).matchKeys ∧ rule.ref = ref :=
    fun k ref => (unshared_of_keysApart hk h).refAt_eq_some_iff.trans (grants_iff h)
  have hactive : ∀ rule ∈ activeRules ev rules, rule.resolvable ev = true :=
    fun rule hr => List.of_mem_filter hr
  apply first_eq_argmin (rankedCandidates_sorted _ _ _)
  · intro rule hrule
    obtain ⟨hr, hc⟩ := List.mem_filter.mp hrule
    simp only [Bool.and_eq_true, decide_eq_true_eq] at hc
    obtain ⟨rc, hrc, hplace, hkey, haccept⟩ :=
      exists_candidate_of_covers (hactive rule hr) hc.1 hc.2
    exact ⟨rc, hrc, hplace, answer_eq_some.mpr ⟨(href _ _).mpr ⟨rule, hr, hkey, rfl⟩, haccept⟩⟩
  · intro rc hrc ref ha
    obtain ⟨href', haccept⟩ := answer_eq_some.mp ha
    obtain ⟨rule, hr, hkey, rfl⟩ := (href _ _).mp href'
    obtain ⟨hd, hc, hle⟩ := covers_of_candidate (hactive rule hr) hrc hkey haccept
    exact ⟨rule, List.mem_filter.mpr ⟨hr, by simp [hd, hc]⟩, rfl, hle⟩

theorem selectRule_installed (hu : program.policy.Unshared)
    (h : applyOps PolicyMaps.empty (diff {} program.policy) = (.ok (), maps)) (owners : OwnerMaps)
    (flow : ParsedFlow) (direction : Direction) :
    selectRule maps owners flow direction =
      first program.policy.refAt (candidates program.policy.config owners flow direction) := by
  obtain ⟨_, rfl⟩ := applyOps_ok_iff.mp h
  rw [selectRule_eq_first, config_effects_diff]
  rw [show diff {} program.policy = diff CheckedPolicy.initial program.policy from rfl,
    (holdsMatches_install _).matchAt_eq hu]

/-- Compilation preserves rule meaning: every packet is treated by the rule
that decides it, and passes when none does. -/
theorem evaluate_compiled (hk : KeysApart ev rules)
    (hc : compile systemResolver ev rules revision true = .ok program)
    (hi : applyOps PolicyMaps.empty (diff {} program.policy) = (.ok (), maps))
    (owners : OwnerMaps) (packet : Ipv4Packet) (direction : Direction) (stats : KernelStats)
    (packetLen now : ℕ) :
    selectRule maps owners packet.flow direction =
        (productChoice ev rules packet direction
          (lookupOwner owners packet.flow direction)).map TrafficRule.ref ∧
      evaluate maps owners packet.flow direction stats packetLen now =
        match productChoice ev rules packet direction
          (lookupOwner owners packet.flow direction) with
        | some rule => enforce maps stats rule.ref direction packetLen now
        | none => (.pass, maps, stats) := by
  have henabled : program.policy.enabled = true := by rw [rules_of_compile hc]
  have hselect : selectRule maps owners packet.flow direction =
      (productChoice ev rules packet direction
        (lookupOwner owners packet.flow direction)).map TrafficRule.ref := by
    rw [selectRule_installed (unshared_of_keysApart hk hc) hi, first_candidates henabled,
      first_ranked_eq hk hc]
  refine ⟨hselect, ?_⟩
  rw [evaluate_eq, hselect]
  cases productChoice ev rules packet direction (lookupOwner owners packet.flow direction) <;> rfl

end Result

section Example

/-- One container of the host is known, with one cgroup. -/
def webEvidence : Evidence where
  inodesForContainer := fun name => if name = "web" then [7] else []
  comm := fun _ => none

/-- A blocked network, one limited service in it, and a limited container. -/
def webRules : List TrafficRule :=
  [⟨1, .block, .outbound, .cidr (.v4 (.new 203 0 113 0)) 24, true⟩,
    ⟨2, .limit 8192 16384, .both, .endpoint (.v4 (.new 203 0 113 1)) (some 443), true⟩,
    ⟨3, .block, .outbound, .endpoint (.v4 (.new 203 0 113 1)) none, false⟩,
    ⟨4, .limit 8192 16384, .outbound, .application "cont:web", true⟩]

def webProgram : CompiledProgram :=
  ⟨⟨1, true, (activeRules webEvidence webRules).map (TrafficRule.compiled webEvidence)⟩, []⟩

/-- The service is limited although its network is blocked. -/
theorem evaluate_compiled_web :
    selectRule (applyOps PolicyMaps.empty (diff {} webProgram.policy)).2
        ⟨fun _ => none, fun _ => none⟩
        (Ipv4Packet.flow ⟨⟨#v[192, 168, 1, 2]⟩, ⟨#v[203, 0, 113, 1]⟩, 40000, 443, .tcp⟩) .outbound =
      some ⟨2, RuleAction.limit.toU8⟩ := by
  have happlied : applyOps PolicyMaps.empty (diff {} webProgram.policy) =
      (.ok (), (applyOps PolicyMaps.empty (diff {} webProgram.policy)).2) :=
    Prod.ext (by decide +kernel) rfl
  have hapart : KeysApart webEvidence webRules := by
    unfold KeysApart
    decide +kernel
  have hcompiled : compile systemResolver webEvidence webRules 1 true = .ok webProgram := by
    decide +kernel
  exact (evaluate_compiled hapart hcompiled happlied _ _ _ {} 100 0).1.trans
    (by decide +kernel)

end Example

end ZimaScope
