import Mathlib.Data.List.Dedup
import Mathlib.Data.Option.Basic
import Mathlib.Data.List.Sort
import Mathlib.Data.String.Basic

/-! # Warnings about the Device Boundary

What a selected boundary set is warned of. A bridge is warned of when it has ports
at all, so the warning is exact where every port of a selected bridge is selected.
-/

namespace ZimaScope

/-- Product-facing class of a network interface. -/
inductive InterfaceKind
  | loopback | physical | bridge | dockerBridge | bond | vlan | tunTap | wireguard | veth | virtual | other
  deriving DecidableEq, Repr

namespace InterfaceKind

def isPhysical : InterfaceKind → Bool
  | physical => true
  | _ => false

def isBridge : InterfaceKind → Bool
  | bridge | dockerBridge => true
  | _ => false

/-- The classes whose traffic an uplink carries again. -/
def isStacked : InterfaceKind → Bool
  | bridge | dockerBridge | bond | vlan | tunTap | wireguard | virtual => true
  | _ => false

end InterfaceKind

/-- The facts about an interface that warnings read. -/
structure InterfaceInfo where
  name : String
  kind : InterfaceKind
  defaultRoute : Bool
  master : Option String
  deriving DecidableEq, Repr

inductive WarningKind | bridgePortOverlap | uplinkOverlap | loopback | missingInterface
  deriving DecidableEq, Repr

/-- A duplicate-count or configuration hazard for the selected boundary set. -/
structure BoundaryWarning where
  kind : WarningKind
  message : String
  interfaces : List String
  deriving DecidableEq, Repr

section Warnings

variable (selected : List String) (infos : List InterfaceInfo)

/-- The last of the interfaces with a name, as a map collected from them has it. -/
def byName (name : String) : Option InterfaceInfo := infos.reverse.find? fun info => info.name = name

def sortedNames : List String := (selected.insertionSort (· ≤ ·)).dedup

def presenceWarnings (name : String) : List BoundaryWarning :=
  match byName infos name with
  | none => [{
      kind := .missingInterface
      message := s!"{name} is not present; it will be attached when it appears"
      interfaces := [name] }]
  | some info =>
    if info.kind = .loopback then [{
      kind := .loopback
      message := s!"{name} is loopback; it is normally excluded"
      interfaces := [name] }]
    else []

/-- The interfaces with this master that the map of interfaces has; the selection is not asked. -/
def bridgePorts (name : String) : List String :=
  ((infos.filter fun candidate => candidate.master = some name).filter fun candidate =>
    (byName infos candidate.name).isSome).map InterfaceInfo.name

def bridgeWarning (name : String) : Option BoundaryWarning := do
  let info ← byName infos name
  guard info.kind.isBridge
  let ports := bridgePorts infos name
  guard (ports ≠ [])
  return {
    kind := .bridgePortOverlap
    message :=
      s!"{name} and its bridge ports are both selected; the same traffic may be counted twice"
    interfaces := name :: ports }

/-- The names of the selected interfaces of a class. -/
def selectedNames (keep : InterfaceInfo → Bool) : List String :=
  (((sortedNames selected).filterMap (byName infos)).filter keep).map InterfaceInfo.name

def uplinkWarning : List BoundaryWarning :=
  let physicalDefault := selectedNames selected infos fun info =>
    info.kind.isPhysical && info.defaultRoute
  let virtualSelected := selectedNames selected infos fun info => info.kind.isStacked
  let physicalText := ", ".intercalate physicalDefault
  let virtualText := ", ".intercalate virtualSelected
  if physicalDefault ≠ [] ∧ virtualSelected ≠ [] then [{
      kind := .uplinkOverlap
      message := s!"{physicalText} and {virtualText} are both selected; encapsulated or bridged traffic may be counted twice"
      interfaces := physicalDefault ++ virtualSelected }]
  else []

/-- Judges a selected boundary set against the current interfaces. -/
def boundaryWarnings : List BoundaryWarning :=
  (sortedNames selected).flatMap (presenceWarnings infos) ++
    (sortedNames selected).filterMap (bridgeWarning infos) ++ uplinkWarning selected infos

/-! ## What the warnings are about -/

def IsBridge (name : String) : Prop := ∃ info, byName infos name = some info ∧ info.kind.isBridge

def Enslaved (port bridge : String) : Prop :=
  ∃ info ∈ infos, info.name = port ∧ info.master = some bridge

/-- A bridge is warned of when it and one of its ports are selected, the warning lists the bridge and
its selected ports, and a bridge that is selected alone is not said to be counted twice. -/
structure OverlapExact : Prop where
  warned : ∀ bridge, IsBridge infos bridge →
    ((∃ w ∈ boundaryWarnings selected infos, w.kind = .bridgePortOverlap ∧
        w.interfaces.head? = some bridge) ↔
      bridge ∈ selected ∧ ∃ port ∈ selected, Enslaved infos port bridge)
  lists : ∀ w ∈ boundaryWarnings selected infos, w.kind = .bridgePortOverlap →
    ∃ bridge ports, w.interfaces = bridge :: ports ∧ IsBridge infos bridge ∧ bridge ∈ selected ∧
      ∀ port, port ∈ ports ↔ Enslaved infos port bridge ∧ port ∈ selected
  alone : ∀ bridge, IsBridge infos bridge → ¬ Enslaved infos bridge bridge →
    (∀ name ∈ selected, name = bridge) → ∀ w ∈ boundaryWarnings selected infos,
      w.kind ≠ .bridgePortOverlap ∧ w.kind ≠ .uplinkOverlap

end Warnings

section Lemmas

variable {selected : List String} {infos : List InterfaceInfo} {name port : String} {w : BoundaryWarning}

theorem mem_sortedNames : name ∈ sortedNames selected ↔ name ∈ selected := by
  unfold sortedNames
  rw [List.mem_dedup, List.mem_insertionSort]

theorem isSome_byName {info : InterfaceInfo} (h : info ∈ infos) :
    (byName infos info.name).isSome := by
  unfold byName
  rw [List.find?_isSome]
  exact ⟨info, List.mem_reverse.mpr h, decide_eq_true rfl⟩

/-- The second filter keeps every port. -/
theorem mem_bridgePorts : port ∈ bridgePorts infos name ↔ Enslaved infos port name := by
  unfold bridgePorts Enslaved
  simp only [List.mem_map, List.mem_filter, decide_eq_true_iff]
  constructor
  · rintro ⟨info, ⟨⟨hmem, hmaster⟩, -⟩, hname⟩
    exact ⟨info, hmem, hname, hmaster⟩
  · rintro ⟨info, hmem, hname, hmaster⟩
    exact ⟨info, ⟨⟨hmem, hmaster⟩, isSome_byName hmem⟩, hname⟩

theorem bridgeWarning_eq_some (h : bridgeWarning infos name = some w) :
    IsBridge infos name ∧ bridgePorts infos name ≠ [] ∧ w.kind = .bridgePortOverlap ∧
      w.interfaces = name :: bridgePorts infos name := by
  unfold bridgeWarning at h
  obtain ⟨info, hinfo, h⟩ := Option.bind_eq_some_iff.mp h
  obtain ⟨_, hbridge, h⟩ := Option.bind_eq_some_iff.mp h
  obtain ⟨_, hports, h⟩ := Option.bind_eq_some_iff.mp h
  cases h
  rw [Option.guard_eq_some'] at hbridge hports
  exact ⟨⟨info, hinfo, hbridge⟩, hports, rfl, rfl⟩

theorem exists_bridgeWarning (hbridge : IsBridge infos name) (hport : Enslaved infos port name) :
    ∃ w, bridgeWarning infos name = some w := by
  obtain ⟨info, hinfo, hkind⟩ := hbridge
  have hports : bridgePorts infos name ≠ [] := List.ne_nil_of_mem (mem_bridgePorts.mpr hport)
  unfold bridgeWarning
  rw [hinfo]
  simp [guard, hkind, hports]

theorem kind_of_mem_presenceWarnings (h : w ∈ presenceWarnings infos name) :
    w.kind = .missingInterface ∨ w.kind = .loopback := by
  unfold presenceWarnings at h
  split at h
  · rw [List.mem_singleton.mp h]
    exact Or.inl rfl
  · split at h
    · rw [List.mem_singleton.mp h]
      exact Or.inr rfl
    · exact absurd h List.not_mem_nil

theorem kind_of_mem_uplinkWarning (h : w ∈ uplinkWarning selected infos) : w.kind = .uplinkOverlap := by
  unfold uplinkWarning at h
  simp only at h
  split at h
  · rw [List.mem_singleton.mp h]
  · exact absurd h List.not_mem_nil

/-- The overlap warnings are those of the selected bridges. -/
theorem mem_boundaryWarnings_overlap :
    (w ∈ boundaryWarnings selected infos ∧ w.kind = .bridgePortOverlap) ↔
      ∃ bridge ∈ selected, bridgeWarning infos bridge = some w := by
  unfold boundaryWarnings
  simp only [List.mem_append, List.mem_flatMap, List.mem_filterMap, mem_sortedNames]
  constructor
  · rintro ⟨(⟨name, -, hpresence⟩ | hbridge) | huplink, hkind⟩
    · rcases kind_of_mem_presenceWarnings hpresence with h | h <;> rw [h] at hkind <;> cases hkind
    · exact hbridge
    · rw [kind_of_mem_uplinkWarning huplink] at hkind
      cases hkind
  · rintro ⟨bridge, hselected, hbridge⟩
    obtain ⟨-, -, hkind, -⟩ := bridgeWarning_eq_some hbridge
    exact ⟨Or.inl (Or.inr ⟨bridge, hselected, hbridge⟩), hkind⟩

/-- Bridges alone are no uplinks. -/
theorem not_mem_uplinkWarning (hbridges : ∀ name ∈ selected, IsBridge infos name) :
    w ∉ uplinkWarning selected infos := by
  have hphysical : selectedNames selected infos (fun info =>
      info.kind.isPhysical && info.defaultRoute) = [] := by
    unfold selectedNames
    rw [List.map_eq_nil_iff, List.filter_eq_nil_iff]
    intro info hinfo
    obtain ⟨name, hname, hfound⟩ := List.mem_filterMap.mp hinfo
    obtain ⟨bridge, hbridge, hkind⟩ := hbridges name (mem_sortedNames.mp hname)
    rw [hfound] at hbridge
    cases hbridge
    generalize info.kind = kind at hkind
    cases kind <;> simp [InterfaceKind.isPhysical] <;> cases hkind
  unfold uplinkWarning
  simp only [hphysical, ne_eq, not_true_eq_false, false_and, if_false]
  exact List.not_mem_nil

/-- A warning lists the ports of its bridge, so an exact one says that they are selected. -/
theorem OverlapExact.ports_selected (h : OverlapExact selected infos) (hselected : name ∈ selected)
    (hbridge : IsBridge infos name) (hport : Enslaved infos port name) : port ∈ selected := by
  obtain ⟨w, hw⟩ := exists_bridgeWarning hbridge hport
  obtain ⟨-, -, hkind, hinterfaces⟩ := bridgeWarning_eq_some hw
  obtain ⟨hmem, -⟩ := mem_boundaryWarnings_overlap.mpr ⟨name, hselected, hw⟩
  obtain ⟨bridge, ports, hlisted, -, -, hports⟩ := h.lists w hmem hkind
  rw [hinterfaces] at hlisted
  obtain ⟨rfl, rfl⟩ := List.cons.inj hlisted
  exact ((hports port).mp (mem_bridgePorts.mpr hport)).2

end Lemmas

section Exact

variable (selected : List String) (infos : List InterfaceInfo)

/-- The overlap warnings are exact if and only if every port of a selected bridge is selected. -/
theorem overlapExact_iff : OverlapExact selected infos ↔
    ∀ bridge ∈ selected, IsBridge infos bridge →
      ∀ port, Enslaved infos port bridge → port ∈ selected := by
  constructor
  · intro h bridge hselected hbridge port hport
    exact h.ports_selected hselected hbridge hport
  · intro h
    exact {
      warned := by
        intro bridge hbridge
        constructor
        · rintro ⟨w, hmem, hkind, hhead⟩
          obtain ⟨bridge', hselected, hw⟩ := mem_boundaryWarnings_overlap.mp ⟨hmem, hkind⟩
          obtain ⟨-, hports, -, hinterfaces⟩ := bridgeWarning_eq_some hw
          rw [hinterfaces] at hhead
          obtain rfl := Option.some.inj hhead
          obtain ⟨port, hport⟩ := List.exists_mem_of_ne_nil _ hports
          have henslaved := mem_bridgePorts.mp hport
          exact ⟨hselected, port, h _ hselected hbridge port henslaved, henslaved⟩
        · rintro ⟨hselected, port, -, henslaved⟩
          obtain ⟨w, hw⟩ := exists_bridgeWarning hbridge henslaved
          obtain ⟨hmem, hkind⟩ := mem_boundaryWarnings_overlap.mpr ⟨bridge, hselected, hw⟩
          refine ⟨w, hmem, hkind, ?_⟩
          rw [(bridgeWarning_eq_some hw).2.2.2]
          rfl
      lists := by
        intro w hmem hkind
        obtain ⟨bridge, hselected, hw⟩ := mem_boundaryWarnings_overlap.mp ⟨hmem, hkind⟩
        obtain ⟨hbridge, -, -, hinterfaces⟩ := bridgeWarning_eq_some hw
        refine ⟨bridge, _, hinterfaces, hbridge, hselected, ?_⟩
        intro port
        rw [mem_bridgePorts]
        exact ⟨fun hport => ⟨hport, h bridge hselected hbridge port hport⟩, And.left⟩
      alone := by
        intro bridge hbridge hself hall w hmem
        constructor
        · intro hkind
          obtain ⟨bridge', hselected, hw⟩ := mem_boundaryWarnings_overlap.mp ⟨hmem, hkind⟩
          obtain rfl := hall bridge' hselected
          obtain ⟨-, hports, -, -⟩ := bridgeWarning_eq_some hw
          obtain ⟨port, hport⟩ := List.exists_mem_of_ne_nil _ hports
          have henslaved := mem_bridgePorts.mp hport
          obtain rfl := hall port (h _ hselected hbridge port henslaved)
          exact hself henslaved
        · intro hkind
          have hbridges : ∀ name ∈ selected, IsBridge infos name := by
            intro name hname
            rw [hall name hname]
            exact hbridge
          unfold boundaryWarnings at hmem
          simp only [List.mem_append, List.mem_flatMap, List.mem_filterMap] at hmem
          rcases hmem with (⟨name, -, hpresence⟩ | ⟨name, -, hw⟩) | huplink
          · rcases kind_of_mem_presenceWarnings hpresence with hp | hp <;> rw [hp] at hkind <;>
              cases hkind
          · rw [(bridgeWarning_eq_some hw).2.2.1] at hkind
            cases hkind
          · exact not_mem_uplinkWarning hbridges huplink }

/-- A bridge and its port, of which the bridge is selected alone. -/
theorem lone_bridge_warned : ¬ ∀ (selected : List String) (infos : List InterfaceInfo),
    OverlapExact selected infos := by
  intro h
  let infos : List InterfaceInfo :=
    [⟨"br0", .bridge, false, none⟩, ⟨"veth1", .veth, false, some "br0"⟩]
  have hbridge : IsBridge infos "br0" := ⟨⟨"br0", .bridge, false, none⟩, by decide +kernel, rfl⟩
  have hport : Enslaved infos "veth1" "br0" := ⟨_, List.mem_cons_of_mem _ List.mem_cons_self, rfl, rfl⟩
  have hselected := (h ["br0"] infos).ports_selected List.mem_cons_self hbridge hport
  simp at hselected

end Exact

end ZimaScope
