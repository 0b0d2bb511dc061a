import Mathlib.Data.Finmap
import ZimaScope.Common.Abi
import ZimaScope.Lib.WriteLog

/-! # Traffic Rule maps

The bounded kernel maps of the Traffic Rule fast path: the configuration entry,
the rule states and one pair of match maps for each kind of match. `MatchKey`
addresses an entry across the eight match maps, and `PolicyMaps.matchAt` reads
them as one table.
-/

namespace ZimaScope

/-- Why a map system call fails. -/
inductive MapError | full | keyNotFound
  deriving DecidableEq, Repr

/-- A kernel hash map; its capacity is checked by the calls that change it. -/
abbrev BpfMap (κ α : Type) := Finmap fun _ : κ => α

section BpfMap

variable {κ α : Type} [DecidableEq κ]

/-- Insert or replace an entry; a new key needs room. -/
def mapInsert (maxEntries : ℕ) (m : BpfMap κ α) (key : κ) (value : α) :
    Except MapError (BpfMap κ α) :=
  if key ∈ m ∨ m.keys.card < maxEntries then .ok (m.insert key value) else .error .full

/-- Remove an entry, which must be present. -/
def mapRemove (m : BpfMap κ α) (key : κ) : Except MapError (BpfMap κ α) :=
  if key ∈ m then .ok (m.erase key) else .error .keyNotFound

end BpfMap

/-- A longest-prefix-match trie: a node is identified by the bits of its prefix. -/
abbrev LpmTrie (α : Type) := BpfMap (List Bool) α

/-- The prefix an LPM key names: the first `prefixLen` bits of its address. -/
def lpmKey (prefixLen : ℕ) (addr : Vector UInt8 4) : List Bool := (addrBits addr).take prefixLen

/-- The value stored under the longest prefix of the given bits. -/
def LpmTrie.get {α : Type} (trie : LpmTrie α) (bits : List Bool) : Option α :=
  (List.range (bits.length + 1)).reverse.findSome? fun n => trie.lookup (bits.take n)

/-- A policy map for each direction. -/
structure DirectionPair (α : Type) where
  ingress : α
  egress : α

namespace DirectionPair

variable {α : Type}

def get (p : DirectionPair α) : Direction → α
  | .inbound => p.ingress
  | .outbound => p.egress

def set (p : DirectionPair α) (direction : Direction) (a : α) : DirectionPair α :=
  match direction with
  | .inbound => { p with ingress := a }
  | .outbound => { p with egress := a }

theorem get_set (p : DirectionPair α) (d d' : Direction) (a : α) :
    (p.set d a).get d' = if d' = d then a else p.get d' := by
  cases d <;> cases d' <;> rfl

end DirectionPair

/-- Number of rule states: one entry per rule and direction. -/
def ruleStateCapacity : ℕ := defaultTrafficRuleCapacity * 2

/-- Every Traffic Rule map. -/
structure PolicyMaps where
  config : PolicyConfig
  states : BpfMap BucketKey RuleState
  appCgroup : DirectionPair (BpfMap UInt64 RuleRef)
  appComm : DirectionPair (BpfMap (Vector UInt8 16) RuleRef)
  endpointExact : DirectionPair (BpfMap EndpointMatchKey RuleRef)
  endpointCidr : DirectionPair (LpmTrie RuleRef)

/-- The maps as the eBPF object is loaded: all zero and empty. -/
def PolicyMaps.empty : PolicyMaps where
  config := {}
  states := ∅
  appCgroup := ⟨∅, ∅⟩
  appComm := ⟨∅, ∅⟩
  endpointExact := ⟨∅, ∅⟩
  endpointCidr := ⟨∅, ∅⟩

/-- Where the eight match maps keep an entry. -/
inductive MatchKey
  | appCgroup (direction : Direction) (cgroupId : UInt64)
  | appComm (direction : Direction) (comm : Vector UInt8 16)
  | endpointExact (direction : Direction) (key : EndpointMatchKey)
  | endpointCidr (direction : Direction) (bits : List Bool)
  deriving DecidableEq, Repr

namespace MatchKey

def direction : MatchKey → Direction
  | appCgroup d _ | appComm d _ | endpointExact d _ | endpointCidr d _ => d

instance neZeroTiers : NeZero 8 := ⟨by decide⟩

/-- The match map that holds a key, numbered as the capacity check numbers tiers. -/
def tier : MatchKey → Fin 8
  | appCgroup .inbound _ => 0
  | appCgroup .outbound _ => 1
  | appComm .inbound _ => 2
  | appComm .outbound _ => 3
  | endpointExact .inbound _ => 4
  | endpointExact .outbound _ => 5
  | endpointCidr .inbound _ => 6
  | endpointCidr .outbound _ => 7

end MatchKey

namespace PolicyMaps

variable (maps : PolicyMaps)

/-- The eight match maps read as one table. -/
def matchAt : MatchKey → Option RuleRef
  | .appCgroup d cgroupId => (maps.appCgroup.get d).lookup cgroupId
  | .appComm d comm => (maps.appComm.get d).lookup comm
  | .endpointExact d key => (maps.endpointExact.get d).lookup key
  | .endpointCidr d bits => (maps.endpointCidr.get d).lookup bits

def Held (k : MatchKey) : Prop := (maps.matchAt k).isSome

instance (k : MatchKey) : Decidable (maps.Held k) :=
  inferInstanceAs (Decidable ((maps.matchAt k).isSome = true))

/-- The token bucket parameters held for a rule and direction. -/
def paramsAt (key : BucketKey) : Option (ℕ × ℕ) :=
  (maps.states.lookup key).map fun state => (state.rateBytesPerS, state.burstBytes)

@[simp] theorem isSome_paramsAt (key : BucketKey) :
    (maps.paramsAt key).isSome ↔ key ∈ maps.states := by
  rw [paramsAt, Option.isSome_map, Finmap.lookup_isSome]

@[simp] theorem matchAt_empty (k : MatchKey) : empty.matchAt k = none := by
  cases k with
  | appCgroup d _ | appComm d _ | endpointExact d _ | endpointCidr d _ => cases d <;> rfl

@[simp] theorem paramsAt_empty (key : BucketKey) : empty.paramsAt key = none := rfl

/-- Write an entry of the match table, whatever the room. -/
def putMatch : MatchKey → RuleRef → PolicyMaps
  | .appCgroup d x, ref =>
    { maps with appCgroup := maps.appCgroup.set d ((maps.appCgroup.get d).insert x ref) }
  | .appComm d x, ref =>
    { maps with appComm := maps.appComm.set d ((maps.appComm.get d).insert x ref) }
  | .endpointExact d x, ref =>
    { maps with
      endpointExact := maps.endpointExact.set d ((maps.endpointExact.get d).insert x ref) }
  | .endpointCidr d x, ref =>
    { maps with endpointCidr := maps.endpointCidr.set d ((maps.endpointCidr.get d).insert x ref) }

/-- Clear an entry of the match table, present or not. -/
def delMatch : MatchKey → PolicyMaps
  | .appCgroup d x =>
    { maps with appCgroup := maps.appCgroup.set d ((maps.appCgroup.get d).erase x) }
  | .appComm d x => { maps with appComm := maps.appComm.set d ((maps.appComm.get d).erase x) }
  | .endpointExact d x =>
    { maps with endpointExact := maps.endpointExact.set d ((maps.endpointExact.get d).erase x) }
  | .endpointCidr d x =>
    { maps with endpointCidr := maps.endpointCidr.set d ((maps.endpointCidr.get d).erase x) }

/-- The number of entries in the match map that holds a key. -/
def tierCard : MatchKey → ℕ
  | .appCgroup d _ => (maps.appCgroup.get d).keys.card
  | .appComm d _ => (maps.appComm.get d).keys.card
  | .endpointExact d _ => (maps.endpointExact.get d).keys.card
  | .endpointCidr d _ => (maps.endpointCidr.get d).keys.card

theorem matchAt_putMatch (k : MatchKey) (ref : RuleRef) :
    (maps.putMatch k ref).matchAt = Function.update maps.matchAt k (some ref) := by
  funext k'
  rw [Function.update_apply]
  split
  · next h =>
    subst h
    cases k' <;> simp [putMatch, matchAt, DirectionPair.get_set]
  · next h =>
    cases k <;> cases k' <;>
      simp only [putMatch, matchAt, DirectionPair.get_set, MatchKey.appCgroup.injEq,
        MatchKey.appComm.injEq, MatchKey.endpointExact.injEq, MatchKey.endpointCidr.injEq] at h ⊢
    all_goals
      split
      · next hd =>
        subst hd
        exact Finmap.lookup_insert_of_ne _ fun hx => h ⟨rfl, hx⟩
      · rfl

theorem matchAt_delMatch (k : MatchKey) :
    (maps.delMatch k).matchAt = Function.update maps.matchAt k none := by
  funext k'
  rw [Function.update_apply]
  split
  · next h =>
    subst h
    cases k' <;> simp [delMatch, matchAt, DirectionPair.get_set]
  · next h =>
    cases k <;> cases k' <;>
      simp only [delMatch, matchAt, DirectionPair.get_set, MatchKey.appCgroup.injEq,
        MatchKey.appComm.injEq, MatchKey.endpointExact.injEq, MatchKey.endpointCidr.injEq] at h ⊢
    all_goals
      split
      · next hd =>
        subst hd
        exact Finmap.lookup_erase_ne fun hx => h ⟨rfl, hx⟩
      · rfl

theorem encard_image_keys {κ α : Type} {s : Set MatchKey} {m : BpfMap κ α} {f : κ → MatchKey}
    (hf : Function.Injective f) (h : ∀ k, k ∈ s ↔ ∃ x ∈ m, f x = k) :
    s.encard = m.keys.card := by
  have hs : s = f '' (m.keys : Set κ) := by
    ext k
    simp [h, Finmap.mem_keys]
  rw [hs, hf.encard_image, Set.encard_coe_eq_coe_finsetCard]

/-- The match table occupies a tier with the entries of one match map. -/
theorem encard_occupied (k : MatchKey) :
    (WriteLog.occupied MatchKey.tier maps.matchAt k.tier).encard = maps.tierCard k := by
  rcases k with ⟨d, _⟩ | ⟨d, _⟩ | ⟨d, _⟩ | ⟨d, _⟩
  · refine encard_image_keys (f := .appCgroup d) (fun _ _ h => by injection h) fun k => ?_
    rcases k with ⟨d', y⟩ | ⟨d', y⟩ | ⟨d', y⟩ | ⟨d', y⟩ <;> cases d <;> cases d' <;>
      simp [WriteLog.occupied, MatchKey.tier, matchAt, Finmap.lookup_isSome]
  · refine encard_image_keys (f := .appComm d) (fun _ _ h => by injection h) fun k => ?_
    rcases k with ⟨d', y⟩ | ⟨d', y⟩ | ⟨d', y⟩ | ⟨d', y⟩ <;> cases d <;> cases d' <;>
      simp [WriteLog.occupied, MatchKey.tier, matchAt, Finmap.lookup_isSome]
  · refine encard_image_keys (f := .endpointExact d) (fun _ _ h => by injection h) fun k => ?_
    rcases k with ⟨d', y⟩ | ⟨d', y⟩ | ⟨d', y⟩ | ⟨d', y⟩ <;> cases d <;> cases d' <;>
      simp [WriteLog.occupied, MatchKey.tier, matchAt, Finmap.lookup_isSome]
  · refine encard_image_keys (f := .endpointCidr d) (fun _ _ h => by injection h) fun k => ?_
    rcases k with ⟨d', y⟩ | ⟨d', y⟩ | ⟨d', y⟩ | ⟨d', y⟩ <;> cases d <;> cases d' <;>
      simp [WriteLog.occupied, MatchKey.tier, matchAt, Finmap.lookup_isSome]

theorem encard_occupied_states :
    (WriteLog.occupied (fun _ => ()) maps.paramsAt ()).encard = maps.states.keys.card := by
  have hs : WriteLog.occupied (fun _ => ()) maps.paramsAt () =
      (maps.states.keys : Set BucketKey) := by
    ext k
    simp [WriteLog.occupied, Finmap.mem_keys]
  rw [hs, Set.encard_coe_eq_coe_finsetCard]

end PolicyMaps

end ZimaScope
