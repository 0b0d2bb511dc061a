import ZimaScope.Ebpf.Policy
import ZimaScope.Lib.Priority

/-! # Selection as a priority lookup

The keys a packet is matched under, most specific first. What the packet path
selects is the first of them that the match table answers.
-/

namespace ZimaScope

open Priority

abbrev MatchCandidate := Candidate MatchKey RuleRef

def isBlock (ref : RuleRef) : Bool := ref.action = RuleAction.block.toU8

/-- A candidate that takes any rule. -/
def anyRule (key : MatchKey) : MatchCandidate := ⟨key, fun _ => true⟩

/-- The application tier: a block first, the container winning ties. -/
def ownerCandidates (direction : Direction) (owner : OwnerValue) : List MatchCandidate :=
  [⟨.appCgroup direction owner.cgroupId, isBlock⟩, ⟨.appComm direction owner.comm, isBlock⟩,
    anyRule (.appCgroup direction owner.cgroupId), anyRule (.appComm direction owner.comm)]

/-- The prefixes of an address, longest first. -/
def prefixKeys (direction : Direction) (octets : Vector UInt8 4) : List MatchKey :=
  (List.range 33).reverse.map fun n => .endpointCidr direction ((addrBits octets).take n)

def endpointKeys (flow : ParsedFlow) (direction : Direction) : List MatchKey :=
  let (addr, portBe) := flow.remote direction
  .endpointExact direction ⟨addr, portBe⟩ :: .endpointExact direction ⟨addr, 0⟩ ::
    if flow.ipFamily = IpFamily.v4.toU8 then prefixKeys direction (storageOctets addr) else []

/-- The tiers a configuration switches on, in order. -/
def candidates (config : PolicyConfig) (owners : OwnerMaps) (flow : ParsedFlow)
    (direction : Direction) : List MatchCandidate :=
  if config.enabled = 0 then [] else
    (if config.appRules ≠ 0 then
      ((lookupOwner owners flow direction).map (ownerCandidates direction)).getD [] else []) ++
    (if config.endpointRules ≠ 0 then (endpointKeys flow direction).map anyRule else [])

variable {maps : PolicyMaps} {owners : OwnerMaps} {flow : ParsedFlow} {direction : Direction}

@[simp] theorem answer_anyRule (t : MatchKey → Option RuleRef) (k : MatchKey) :
    answer t (anyRule k) = t k := by
  unfold answer anyRule
  cases t k <;> rfl

theorem first_map_anyRule (t : MatchKey → Option RuleRef) (ks : List MatchKey) :
    first t (ks.map anyRule) = ks.findSome? t := by
  simp [first, List.findSome?_map, Function.comp_def]

theorem first_ownerCandidates (t : MatchKey → Option RuleRef) (owner : OwnerValue) :
    first t (ownerCandidates direction owner) =
      match t (.appCgroup direction owner.cgroupId), t (.appComm direction owner.comm) with
      | some container, some process => some (prefer container process)
      | some container, none => some container
      | none, some process => some process
      | none, none => none := by
  simp only [ownerCandidates, first_cons, first_nil, answer_anyRule]
  cases hc : t (.appCgroup direction owner.cgroupId) <;>
    cases hp : t (.appComm direction owner.comm) <;>
    simp only [answer, hc, hp, Option.filter_none, Option.filter_some, isBlock, prefer,
      decide_eq_true_eq, Option.none_or, Option.some_or, Option.or_none]
  all_goals split <;> try rfl
  all_goals split <;> rfl

theorem appRule_eq_first : appRule maps owners flow direction =
    first maps.matchAt
      (((lookupOwner owners flow direction).map (ownerCandidates direction)).getD []) := by
  unfold appRule
  cases lookupOwner owners flow direction with
  | none => rfl
  | some owner => exact (first_ownerCandidates maps.matchAt owner).symm

theorem get_eq_findSome (d : Direction) (octets : Vector UInt8 4) :
    (maps.endpointCidr.get d).get (addrBits octets) =
      (prefixKeys d octets).findSome? maps.matchAt := by
  rw [LpmTrie.get, length_addrBits, prefixKeys, List.findSome?_map]
  rfl

theorem endpointRule_eq_first : endpointRule maps flow direction =
    first maps.matchAt ((endpointKeys flow direction).map anyRule) := by
  rw [first_map_anyRule]
  unfold endpointRule endpointKeys
  obtain ⟨addr, portBe⟩ := flow.remote direction
  simp only [List.findSome?_cons, get_eq_findSome]
  have hmatch : ∀ port, (maps.endpointExact.get direction).lookup ⟨addr, port⟩ =
      maps.matchAt (.endpointExact direction ⟨addr, port⟩) := fun _ => rfl
  simp only [hmatch]
  cases maps.matchAt (.endpointExact direction ⟨addr, portBe⟩) with
  | some rule => rfl
  | none =>
    cases maps.matchAt (.endpointExact direction ⟨addr, 0⟩) with
    | some rule => rfl
    | none =>
      by_cases hf : flow.ipFamily = IpFamily.v4.toU8
      · simp [hf]
      · simp [hf]

/-- A packet selects the first candidate that the match table answers. -/
theorem selectRule_eq_first : selectRule maps owners flow direction =
    first maps.matchAt (candidates maps.config owners flow direction) := by
  unfold selectRule candidates
  split
  · rfl
  · rw [first_append, appRule_eq_first, endpointRule_eq_first]
    split
    · next h =>
      split at h <;> simp_all
    · next h =>
      split at h <;> split <;> simp_all

theorem direction_of_mem_candidates {config : PolicyConfig} {c : MatchCandidate}
    (h : c ∈ candidates config owners flow direction) : c.key.direction = direction := by
  have howner : ∀ owner, ∀ c ∈ ownerCandidates direction owner, c.key.direction = direction := by
    intro owner c hc
    simp only [ownerCandidates, anyRule, List.mem_cons, List.not_mem_nil, or_false] at hc
    rcases hc with rfl | rfl | rfl | rfl <;> rfl
  have hendpoint : ∀ k ∈ endpointKeys flow direction, k.direction = direction := by
    intro k hk
    simp only [endpointKeys, List.mem_cons] at hk
    rcases hk with rfl | rfl | hk
    · rfl
    · rfl
    · split at hk
      · obtain ⟨n, _, rfl⟩ := List.mem_map.mp hk
        rfl
      · simp at hk
  unfold candidates at h
  split at h
  · simp at h
  · rcases List.mem_append.mp h with h | h
    · split at h
      · cases ho : lookupOwner owners flow direction with
        | none => simp [ho] at h
        | some owner => exact howner owner c (by simpa [ho] using h)
      · simp at h
    · split at h
      · obtain ⟨k, hk, rfl⟩ := List.mem_map.mp h
        exact hendpoint k hk
      · simp at h

/-- What a packet selects is held in a match map of its direction. -/
theorem exists_of_selectRule {ref : RuleRef}
    (h : selectRule maps owners flow direction = some ref) :
    ∃ k, k.direction = direction ∧ maps.matchAt k = some ref := by
  rw [selectRule_eq_first] at h
  obtain ⟨c, hc, ha⟩ := exists_of_first h
  exact ⟨c.key, direction_of_mem_candidates hc, ha⟩

end ZimaScope
