import ZimaScope.Collector.Attachments

/-! # Who holds the hooks

Every hook in the kernel is held by exactly one link, whatever calls fail and in whatever order
attachments are made and given up. What the collector does not hold any more was abandoned by a
detach that failed.
-/

namespace ZimaScope

/-- Both links of the interface, or none of them and an error. -/
inductive LinkedInterface.Consistent : LinkedInterface → Prop
  | linked {ifindex : UInt32} {name : String} {tcx : Bool} {ingress egress : HookLink}
      (hingress : ingress.target = .tc ifindex .ingress) (hegress : egress.target = .tc ifindex .egress) :
      Consistent ⟨ifindex, name, tcx, some ingress, some egress, none⟩
  | failed (ifindex : UInt32) (name : String) (tcx : Bool) (error : String) :
      Consistent ⟨ifindex, name, tcx, none, none, some error⟩

/-- An interface that is attached has new links. -/
structure LinkedInterface.AttachedFrom (interface : LinkedInterface) (next : ℕ) : Prop where
  consistent : interface.Consistent
  healthy : interface.isHealthy
  fresh : ∀ link ∈ interface.links, next ≤ link.id

variable {answer : ℕ → Option String} {kernel : KernelHooks} {held others : Multiset HookLink}
  {tcx : Bool} {ifindex : UInt32} {name : String}

/-! ## Calls -/

namespace KernelHooks

theorem held_attach (h : kernel.hooks.Held held) (target : HookTarget) :
    match kernel.attach answer target with
    | (.ok link, after) => after.hooks.Held (link ::ₘ held) ∧ link.target = target ∧
        kernel.hooks.next ≤ link.id ∧ kernel.hooks.next ≤ after.hooks.next
    | (.error _, after) => after.hooks = kernel.hooks := by
  unfold attach
  cases answer kernel.calls with
  | some error => rfl
  | none => exact ⟨h.acquire target, rfl, le_rfl, Nat.le_succ _⟩

theorem next_detach (link : HookLink) : (kernel.detach answer link).2.hooks.next = kernel.hooks.next := by
  unfold detach Handles.release
  simp only
  split <;> rfl

theorem held_detachAll {links : List HookLink} (h : kernel.hooks.Held (↑links + held)) :
    (kernel.detachAll answer links).hooks.Held held := by
  induction links generalizing kernel with
  | nil => simpa [detachAll] using h
  | cons link links ih =>
    rw [← Multiset.cons_coe, Multiset.cons_add] at h
    exact ih (h.release _)

theorem next_detachAll (links : List HookLink) :
    (kernel.detachAll answer links).hooks.next = kernel.hooks.next := by
  induction links generalizing kernel with
  | nil => rfl
  | cons link links ih => exact ih.trans (next_detach link)

end KernelHooks

/-! ## Attaching -/

theorem hooks_addClsact : (addClsact answer kernel tcx name).2.hooks = kernel.hooks := by
  unfold addClsact
  split <;> rfl

theorem held_attachHook (h : kernel.hooks.Held held) (direction : TcAttachType) :
    match attachHook answer kernel ifindex name direction with
    | (.ok link, after) => after.hooks.Held (link ::ₘ held) ∧ link.target = .tc ifindex direction ∧
        kernel.hooks.next ≤ link.id ∧ kernel.hooks.next ≤ after.hooks.next
    | (.error _, after) => after.hooks = kernel.hooks := by
  have hattach := @KernelHooks.held_attach answer kernel held h (.tc ifindex direction)
  unfold attachHook
  generalize kernel.attach answer (.tc ifindex direction) = result at hattach ⊢
  obtain ⟨_ | _, _⟩ := result <;> exact hattach

/-- What becomes of the hooks when an interface is attached: both are there, or none of them. -/
theorem held_attachLinks (h : kernel.hooks.Held held) :
    kernel.hooks.next ≤ (attachLinks answer tcx kernel ifindex name).2.hooks.next ∧
      match attachLinks answer tcx kernel ifindex name with
      | (.ok interface, after) => interface.ifindex = ifindex ∧ interface.name = name ∧
          interface.AttachedFrom kernel.hooks.next ∧ after.hooks.Held (↑interface.links + held)
      | (.error _, after) => after.hooks.Held held := by
  have hclsact := @hooks_addClsact answer kernel tcx name
  unfold attachLinks
  generalize addClsact answer kernel tcx name = result at hclsact
  obtain ⟨_ | error, kernel₁⟩ := result
  · have h₁ : kernel₁.hooks.Held held := hclsact ▸ h
    have hingress := @held_attachHook answer kernel₁ held ifindex name h₁ .ingress
    simp only [← show kernel₁.hooks = kernel.hooks from hclsact]
    generalize attachHook answer kernel₁ ifindex name .ingress = result at hingress
    obtain ⟨error | ingress, kernel₂⟩ := result
    · have hsame : kernel₂.hooks = kernel₁.hooks := hingress
      simp only [hsame]
      exact ⟨le_rfl, h₁⟩
    · obtain ⟨h₂, htarget, hid, hnext⟩ := hingress
      have hegress := @held_attachHook answer kernel₂ (ingress ::ₘ held) ifindex name h₂ .egress
      simp only
      generalize attachHook answer kernel₂ ifindex name .egress = result at hegress
      obtain ⟨error | egress, kernel₃⟩ := result
      · have hsame : kernel₃.hooks = kernel₂.hooks := hegress
        simp only [KernelHooks.next_detachAll, hsame]
        refine ⟨hnext, KernelHooks.held_detachAll ?_⟩
        rw [hsame]
        exact h₂
      · obtain ⟨h₃, htarget', hid', hnext'⟩ := hegress
        refine ⟨hnext.trans hnext', rfl, rfl, ⟨.linked htarget htarget', rfl, ?_⟩, ?_⟩
        · intro link hlink
          rcases List.mem_pair.mp hlink with rfl | rfl
          · exact hid
          · exact hnext.trans hid'
        · change kernel₃.hooks.Held (ingress ::ₘ (egress ::ₘ 0) + held)
          rw [Multiset.cons_add, Multiset.cons_add, zero_add, Multiset.cons_swap]
          exact h₃
  · have hsame : kernel₁.hooks = kernel.hooks := hclsact
    simp only [hsame]
    exact ⟨le_rfl, h⟩

theorem held_attachInterfaces {attached : List LinkedInterface} {boundary : List (UInt32 × String)}
    (h : kernel.hooks.Held (↑(attached.flatMap LinkedInterface.links) + others))
    (hattached : ∀ interface ∈ attached, interface.Consistent) :
    match attachInterfaces answer tcx kernel attached boundary with
    | (.ok result, after) => after.hooks.Held (↑(result.flatMap LinkedInterface.links) + others) ∧
        ∀ interface ∈ result, interface.Consistent
    | (.error _, after) => after.hooks.Held others := by
  induction boundary generalizing kernel attached with
  | nil => exact ⟨h, hattached⟩
  | cons wanted boundary ih =>
    have hlinks := (@held_attachLinks answer kernel _ tcx wanted.1 wanted.2 h).2
    unfold attachInterfaces
    generalize attachLinks answer tcx kernel wanted.1 wanted.2 = result at hlinks
    obtain ⟨error | interface, after⟩ := result
    · exact KernelHooks.held_detachAll hlinks
    · obtain ⟨-, -, hfrom, hheld⟩ := hlinks
      refine ih ?_ ?_
      · rw [List.flatMap_append, List.flatMap_singleton, ← Multiset.coe_add, add_right_comm, add_comm]
        exact hheld
      · intro other hother
        rcases List.mem_append.mp hother with hold | hnew
        · exact hattached other hold
        · rw [List.mem_singleton.mp hnew]
          exact hfrom.consistent

theorem held_attachCgroup (h : kernel.hooks.Held held) (target : HookTarget) (program : String) :
    let result := attachCgroup answer kernel target program
    result.2.hooks.Held (↑(okLink result.1).toList + held) := by
  unfold attachCgroup KernelHooks.call
  simp only
  cases answer kernel.calls with
  | some error => simpa [okLink] using h
  | none =>
    have hcalled : ({ kernel with calls := kernel.calls + 1 } : KernelHooks).hooks.Held held := h
    have hattach := @KernelHooks.held_attach answer _ held hcalled target
    simp only
    generalize KernelHooks.attach answer _ target = result at hattach
    obtain ⟨error | link, after⟩ := result
    · have hsame : after.hooks = kernel.hooks := hattach
      simpa [okLink, hsame] using h
    · exact hattach.1

/-! ## The interfaces of a source -/

/-- The links of the stored interfaces. -/
def heldBy (current : Table UInt32 LinkedInterface) : Multiset HookLink :=
  current.total fun _ interface => (↑interface.links : Multiset HookLink)

/-- Every interface is stored under its own index. -/
def Indexed (current : Table UInt32 LinkedInterface) : Prop :=
  ∀ ifindex interface, current.find ifindex = some interface →
    interface.ifindex = ifindex ∧ interface.Consistent

/-- Interfaces under their indices, and the hooks that they and others hold. -/
structure Stored (current : Table UInt32 LinkedInterface × KernelHooks) (others : Multiset HookLink) :
    Prop where
  held : current.2.hooks.Held (heldBy current.1 + others)
  rows : Indexed current.1

/-- Beside what is stored under an index, the rest of the links. -/
theorem exists_heldBy (current : Table UInt32 LinkedInterface) (ifindex : UInt32) :
    ∃ rest, heldBy current = ↑((current.find ifindex).elim [] LinkedInterface.links) + rest ∧
      ∀ interface, heldBy (current.upsert ifindex fun _ => interface) = ↑interface.links + rest := by
  refine ⟨current.total fun k interface => if k = ifindex then 0 else ↑interface.links, ?_, ?_⟩
  · unfold heldBy
    rw [Table.total_eq_add ifindex]
    cases current.find ifindex <;> rfl
  · intro interface
    unfold heldBy
    rw [Table.total_eq_add ifindex, Table.find_upsert_self, Table.total_upsert_ne]
    rfl

theorem coe_flatMap_links (interfaces : List LinkedInterface) :
    (↑(interfaces.flatMap LinkedInterface.links) : Multiset HookLink) =
      (interfaces.map fun interface => (↑interface.links : Multiset HookLink)).sum := by
  induction interfaces with
  | nil => rfl
  | cons interface interfaces ih =>
    rw [List.flatMap_cons, ← Multiset.coe_add, ih]
    rfl

theorem heldBy_eq (current : Table UInt32 LinkedInterface) :
    heldBy current = ↑((current.rows.map Prod.snd).flatMap LinkedInterface.links) := by
  rw [coe_flatMap_links, List.map_map]
  rfl

theorem heldBy_filter (current : Table UInt32 LinkedInterface) (keep : UInt32 → Bool) :
    heldBy current = ↑((current.rows.filter fun row => !keep row.1).flatMap fun row => row.2.links) +
      heldBy (current.filter fun ifindex _ => keep ifindex) := by
  change (current.rows.map fun row => (↑row.2.links : Multiset HookLink)).sum = _ +
    ((current.rows.filter fun row => keep row.1).map fun row => (↑row.2.links : Multiset HookLink)).sum
  induction current.rows with
  | nil => rfl
  | cons row rows ih =>
    rw [List.map_cons, List.sum_cons, ih]
    cases hkeep : keep row.1 with
    | true =>
      simp only [List.filter_cons, hkeep, Bool.not_true, Bool.false_eq_true, if_true, if_false,
        List.map_cons, List.sum_cons]
      exact add_left_comm _ _ _
    | false =>
      simp only [List.filter_cons, hkeep, Bool.not_false, Bool.false_eq_true, if_true, if_false,
        List.flatMap_cons]
      rw [← Multiset.coe_add]
      exact (add_assoc _ _ _).symm

namespace Stored

open BoundarySource

variable {current : Table UInt32 LinkedInterface × KernelHooks} {interface : LinkedInterface}

/-- A consistent interface under its index, after what was there has been detached. -/
theorem upsert {after : KernelHooks} {rest : Multiset HookLink} (hrows : Indexed current.1)
    (hrest : ∀ interface, heldBy (current.1.upsert ifindex fun _ => interface) = ↑interface.links + rest)
    (hheld : after.hooks.Held (↑interface.links + (rest + others))) (hindex : interface.ifindex = ifindex)
    (hconsistent : interface.Consistent) :
    Stored (current.1.upsert ifindex fun _ => interface, after) others where
  held := by
    rw [hrest, add_assoc]
    exact hheld
  rows := by
    intro k found hfound
    rw [Table.find_upsert] at hfound
    split at hfound
    · next hk =>
      rw [← Option.some.inj hfound]
      exact ⟨hindex.trans hk.symm, hconsistent⟩
    · exact hrows k found hfound

theorem store (h : Stored current (↑interface.links + others)) (hconsistent : interface.Consistent) :
    Stored (BoundarySource.store answer current interface) others := by
  obtain ⟨rest, hold, hrest⟩ := exists_heldBy current.1 interface.ifindex
  have hheld := h.held
  rw [hold, add_assoc] at hheld
  have hdetached := @KernelHooks.held_detachAll answer _ _ _ hheld
  rw [add_left_comm] at hdetached
  exact upsert h.rows hrest hdetached rfl hconsistent

theorem foldl_store {attached : List LinkedInterface}
    (h : Stored current (↑(attached.flatMap LinkedInterface.links) + others))
    (hattached : ∀ interface ∈ attached, interface.Consistent) :
    Stored (attached.foldl (BoundarySource.store answer) current) others := by
  induction attached generalizing current with
  | nil => simpa using h
  | cons interface attached ih =>
    rw [List.flatMap_cons, ← Multiset.coe_add, add_assoc] at h
    exact ih (h.store (hattached interface List.mem_cons_self))
      fun other hother => hattached other (List.mem_cons_of_mem _ hother)

theorem retainWanted (h : Stored current others) (boundary : List (UInt32 × String)) :
    Stored (BoundarySource.retainWanted answer boundary current) others where
  held := by
    have hheld := h.held
    rw [heldBy_filter current.1 fun ifindex => boundary.any fun interface => interface.1 = ifindex,
      add_assoc] at hheld
    exact KernelHooks.held_detachAll hheld
  rows := by
    intro ifindex interface hfound
    change (current.1.filter _).find ifindex = some interface at hfound
    rw [Table.find_filter, Option.filter_eq_some_iff] at hfound
    exact h.rows ifindex interface hfound.1

theorem ensure (h : Stored current others) (wanted : UInt32 × String) :
    Stored (BoundarySource.ensure answer tcx current wanted) others := by
  obtain ⟨rest, hold, hrest⟩ := exists_heldBy current.1 wanted.1
  unfold BoundarySource.ensure
  split
  · exact h
  · have hheld := h.held
    rw [hold, add_assoc] at hheld
    have hdetached := @KernelHooks.held_detachAll answer _ _ _ hheld
    have hlinks := (@held_attachLinks answer _ _ tcx wanted.1 wanted.2 hdetached).2
    simp only
    generalize attachLinks answer tcx _ wanted.1 wanted.2 = result at hlinks
    obtain ⟨error | interface, after⟩ := result
    · refine upsert h.rows hrest ?_ rfl (.failed ..)
      simpa [LinkedInterface.links] using hlinks
    · obtain ⟨hindex, -, hfrom, hafter⟩ := hlinks
      exact upsert h.rows hrest hafter hindex hfrom.consistent

theorem foldl_ensure (h : Stored current others) (boundary : List (UInt32 × String)) :
    Stored (boundary.foldl (BoundarySource.ensure answer tcx) current) others := by
  induction boundary generalizing current with
  | nil => exact h
  | cons wanted boundary ih => exact ih (h.ensure wanted)

end Stored

theorem stored_empty (h : kernel.hooks.Held others) : Stored (∅, kernel) others where
  held := by
    change kernel.hooks.Held (0 + others)
    rw [zero_add]
    exact h
  rows := by
    intro ifindex interface hfound
    rw [Table.find_empty] at hfound
    cases hfound

/-- The table that a boundary is reconciled into. -/
theorem stored_reattached {attached : List LinkedInterface} (boundary : List (UInt32 × String))
    (h : kernel.hooks.Held (↑(attached.flatMap LinkedInterface.links) + others))
    (hattached : ∀ interface ∈ attached, interface.Consistent) :
    Stored (boundary.foldl (BoundarySource.ensure answer tcx)
      (BoundarySource.retainWanted answer boundary
        (attached.foldl (BoundarySource.store answer) (∅, kernel)))) others :=
  (((stored_empty h).foldl_store hattached).retainWanted boundary).foldl_ensure boundary

theorem held_reattach {attached : List LinkedInterface} (boundary : List (UInt32 × String))
    (h : kernel.hooks.Held (↑(attached.flatMap LinkedInterface.links) + others))
    (hattached : ∀ interface ∈ attached, interface.Consistent) :
    let result := BoundarySource.reattach answer tcx boundary attached kernel
    result.2.hooks.Held (↑(result.1.flatMap LinkedInterface.links) + others) ∧
      ∀ interface ∈ result.1, interface.Consistent := by
  have hstored := @stored_reattached answer kernel others tcx attached boundary h hattached
  unfold BoundarySource.reattach
  simp only
  generalize boundary.foldl (BoundarySource.ensure answer tcx) _ = current at hstored
  constructor
  · have hperm := ((current.1.rows.map Prod.snd).perm_insertionSort
      fun a b : LinkedInterface => a.ifindex ≤ b.ifindex).flatMap_right LinkedInterface.links
    rw [Multiset.coe_eq_coe.mpr hperm, ← heldBy_eq]
    exact hstored.held
  · intro interface hinterface
    rw [List.mem_insertionSort] at hinterface
    obtain ⟨row, hrow, rfl⟩ := List.mem_map.mp hinterface
    exact (hstored.rows row.1 row.2 (Table.find_eq_some_iff.mpr hrow)).2

/-! ## The source -/

namespace BoundarySource

variable {source : BoundarySource} {host : Host} {selectors : List InterfaceSelector}

/-- The links of a source. -/
def links (source : BoundarySource) : Multiset HookLink :=
  ↑(source.attached.flatMap LinkedInterface.links) + (↑source.udpLink.toList + ↑source.ownerLink.toList)

/-- Every hook has its one holder, and every interface both of its links or none. -/
structure Accounted (source : BoundarySource) (kernel : KernelHooks) : Prop where
  held : kernel.hooks.Held source.links
  consistent : ∀ interface ∈ source.attached, interface.Consistent

theorem accounted_openWith (h : kernel.hooks.Held 0) :
    match openWith answer tcx host selectors kernel with
    | (.ok source, after) => source.Accounted after
    | (.error _, after) => after.hooks.Held 0 := by
  have howner := @held_attachCgroup answer kernel 0 h .sockOwner "socket owner"
  unfold openWith
  generalize attachCgroup answer kernel .sockOwner "socket owner" = result at howner
  obtain ⟨owner, kernel₁⟩ := result
  have hudp := @held_attachCgroup answer kernel₁ _ howner .udpOwner "UDP owner"
  simp only
  generalize attachCgroup answer kernel₁ .udpOwner "UDP owner" = result at hudp
  obtain ⟨udp, kernel₂⟩ := result
  simp only at hudp ⊢
  rw [add_zero] at hudp
  have hdropped {after : KernelHooks}
      (hafter : after.hooks.Held (↑(okLink udp).toList + ↑(okLink owner).toList)) :
      (after.detachAll answer ((okLink udp).toList ++ (okLink owner).toList)).hooks.Held 0 := by
    refine KernelHooks.held_detachAll ?_
    rw [← Multiset.coe_add, add_zero]
    exact hafter
  cases resolveSelectors host selectors with
  | error error => exact hdropped hudp
  | ok boundary =>
    have hnone : kernel₂.hooks.Held (↑(([] : List LinkedInterface).flatMap LinkedInterface.links) +
        (↑(okLink udp).toList + ↑(okLink owner).toList)) := by
      change kernel₂.hooks.Held (0 + _)
      rw [zero_add]
      exact hudp
    have hattached := @held_attachInterfaces answer kernel₂ _ tcx [] boundary.interfaces hnone
      fun interface hinterface => absurd hinterface List.not_mem_nil
    simp only
    generalize attachInterfaces answer tcx kernel₂ [] boundary.interfaces = result at hattached
    obtain ⟨error | attached, after⟩ := result
    · exact hdropped hattached
    · exact ⟨hattached.1, hattached.2⟩

theorem Accounted.reconcile (h : source.Accounted kernel) :
    let result := source.reconcile answer tcx host selectors kernel
    result.2.1.Accounted result.2.2 := by
  unfold BoundarySource.reconcile
  cases resolveSelectors host selectors with
  | error error => exact h
  | ok boundary =>
    have hresult := @held_reattach answer kernel _ tcx source.attached boundary.interfaces h.held
      h.consistent
    exact ⟨hresult.1, hresult.2⟩

theorem map_snd_allLinks (source : BoundarySource) :
    source.allLinks.map Prod.snd = source.ownerLink.toList ++ source.udpLink.toList ++
      source.attached.flatMap LinkedInterface.links := by
  have hnamed : ∀ interface, (namedLinks interface).map Prod.snd = LinkedInterface.links interface := by
    intro interface
    unfold namedLinks LinkedInterface.links
    cases interface.ingress <;> cases interface.egress <;> rfl
  unfold allLinks
  rw [List.map_append, List.map_append, List.map_flatMap]
  simp only [hnamed]
  cases source.ownerLink <;> cases source.udpLink <;> rfl

theorem snd_foldl_detachNamed (links : List (String × HookLink)) (error : Option String) :
    (links.foldl (detachNamed answer) (error, kernel)).2 = kernel.detachAll answer (links.map Prod.snd) := by
  induction links generalizing kernel error with
  | nil => rfl
  | cons link links ih => exact ih _

/-- After the end of a session nothing is held. -/
theorem Accounted.detach (h : source.Accounted kernel) :
    (source.detach answer kernel).2.2.hooks.Held 0 := by
  change (source.allLinks.foldl (detachNamed answer) (none, kernel)).2.hooks.Held 0
  rw [snd_foldl_detachNamed]
  refine KernelHooks.held_detachAll ?_
  rw [map_snd_allLinks, ← Multiset.coe_add, ← Multiset.coe_add, add_zero, add_comm,
    add_comm (↑source.ownerLink.toList : Multiset HookLink)]
  exact h.held

end BoundarySource

/-! ## Runs -/

/-- A session that is running. -/
structure HookSession where
  source : BoundarySource
  kernel : KernelHooks

/-- The boundary is reconciled with the interfaces that there are, or the kernel takes hooks away. -/
inductive HookSession.Step : HookSession → HookSession → Prop
  | reconcile (answer : ℕ → Option String) (tcx : Bool) (host : Host)
      (selectors : List InterfaceSelector) (s : HookSession) :
      Step s ⟨(s.source.reconcile answer tcx host selectors s.kernel).2.1,
        (s.source.reconcile answer tcx host selectors s.kernel).2.2⟩
  | lose (kept : HookLink → Bool) (s : HookSession) :
      Step s { s with kernel := { s.kernel with hooks := s.kernel.hooks.lose kept } }

/-- The sessions that were opened while nothing was held. -/
def hookSessions : System HookSession where
  init s := ∃ answer tcx host selectors kernel, kernel.hooks.Held 0 ∧
    BoundarySource.openWith answer tcx host selectors kernel = (.ok s.source, s.kernel)
  step := HookSession.Step

theorem accounted_of_reachable {s : HookSession} (h : hookSessions.Reachable s) :
    s.source.Accounted s.kernel := by
  induction h with
  | @init s hinit =>
    obtain ⟨answer, tcx, host, selectors, kernel, hkernel, hopen⟩ := hinit
    have hopened := @BoundarySource.accounted_openWith answer kernel tcx host selectors hkernel
    rw [hopen] at hopened
    exact hopened
  | step _ hstep ih =>
    cases hstep with
    | reconcile answer tcx host selectors => exact ih.reconcile
    | lose kept => exact ⟨ih.held.lose kept, ih.consistent⟩

/-- Over a whole session, every hook in the kernel is held by exactly one link unless a detach of it
failed, every interface has both of its links or none of them and an error, and when the session
ends only hooks are left whose detach failed. -/
theorem hooks_accounted {s : HookSession} (h : hookSessions.Reachable s) :
    s.source.Accounted s.kernel ∧ ∀ answer,
      ∀ hook ∈ (s.source.detach answer s.kernel).2.2.hooks.live,
        hook ∈ (s.source.detach answer s.kernel).2.2.hooks.abandoned := by
  have haccounted := accounted_of_reachable h
  exact ⟨haccounted, fun answer => haccounted.detach.live_of_none⟩

/-- A host with one interface. -/
def plainHost : Host where
  names := some ["eth0"]
  dir := fun name => if name = "eth0" then some { ifindex := some "2" } else none
  routes := none

theorem plainHost_resolves :
    resolveSelectors plainHost [.name "eth0"] = .ok ⟨[(2, "eth0")], []⟩ := by
  have hindex : plainHost.ifindexForName "eth0" = some 2 := by decide +kernel
  unfold resolveSelectors
  simp only [List.map_cons, List.map_nil, Host.resolveSelector, Host.resolveName, hindex]
  rfl

/-- What is there after the interface and both owner programs have been attached. -/
def plainSession : HookSession where
  source := {
    ownerLink := some ⟨0, .sockOwner⟩
    ownerError := none
    udpLink := some ⟨1, .udpOwner⟩
    udpError := none
    attached := [⟨2, "eth0", true, some ⟨2, .tc 2 .ingress⟩, some ⟨3, .tc 2 .egress⟩, none⟩] }
  kernel := ⟨⟨[⟨0, .sockOwner⟩, ⟨1, .udpOwner⟩, ⟨2, .tc 2 .ingress⟩, ⟨3, .tc 2 .egress⟩], 4, []⟩, 6⟩

theorem plainSession_opened : hookSessions.Reachable plainSession := by
  refine .init ⟨fun _ => none, true, plainHost, [.name "eth0"], ⟨⟨[], 0, []⟩, 0⟩,
    Handles.held_none rfl, ?_⟩
  unfold BoundarySource.openWith
  rw [plainHost_resolves]
  rfl

/-- A detach that fails leaves its hook behind, and no other. -/
theorem plainSession_accounted :
    plainSession.source.Accounted plainSession.kernel ∧ ∀ answer,
      ∀ hook ∈ (plainSession.source.detach answer plainSession.kernel).2.2.hooks.live,
        hook ∈ (plainSession.source.detach answer plainSession.kernel).2.2.hooks.abandoned :=
  hooks_accounted plainSession_opened

end ZimaScope
