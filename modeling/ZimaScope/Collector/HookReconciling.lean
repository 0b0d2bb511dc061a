import Mathlib.Logic.Relation
import ZimaScope.Collector.HookAccounts

/-! # What a reconcile leaves

The attachments after the boundary has been resolved: one for each of its interfaces, the healthy
ones as they were. A hook that the kernel took away is not attached again as long as its interface
stays in the boundary.
-/

namespace ZimaScope

variable {answer : ℕ → Option String} {kernel after : KernelHooks} {tcx : Bool}

/-! ## Hooks that appear -/

/-- What is live later was live before or is new. -/
structure KernelHooks.Grows (kernel after : KernelHooks) : Prop where
  next : kernel.hooks.next ≤ after.hooks.next
  live : ∀ link ∈ after.hooks.live, link ∈ kernel.hooks.live ∨ kernel.hooks.next ≤ link.id

namespace KernelHooks.Grows

theorem of_eq (h : after.hooks = kernel.hooks) : kernel.Grows after :=
  ⟨h ▸ le_rfl, fun _ hlink => Or.inl (h ▸ hlink)⟩

theorem refl (kernel : KernelHooks) : kernel.Grows kernel := of_eq rfl

theorem trans {later : KernelHooks} (h : kernel.Grows after) (h' : after.Grows later) :
    kernel.Grows later where
  next := h.next.trans h'.next
  live := by
    intro link hlink
    rcases h'.live link hlink with hlive | hnew
    · exact h.live link hlive
    · exact Or.inr (h.next.trans hnew)

theorem attach (kernel : KernelHooks) (target : HookTarget) :
    kernel.Grows (kernel.attach answer target).2 := by
  unfold KernelHooks.attach
  cases answer kernel.calls with
  | some error => exact of_eq rfl
  | none =>
    refine ⟨Nat.le_succ _, fun link hlink => ?_⟩
    rcases List.mem_append.mp hlink with hlive | hnew
    · exact Or.inl hlive
    · rw [List.mem_singleton.mp hnew]
      exact Or.inr le_rfl

theorem detach (kernel : KernelHooks) (link : HookLink) :
    kernel.Grows (kernel.detach answer link).2 where
  next := (next_detach link).ge
  live := by
    intro other hother
    left
    unfold KernelHooks.detach Handles.release at hother
    simp only at hother
    split at hother
    · exact List.mem_of_mem_filter hother
    · exact hother

theorem detachAll (kernel : KernelHooks) (links : List HookLink) :
    kernel.Grows (kernel.detachAll answer links) := by
  induction links generalizing kernel with
  | nil => exact refl kernel
  | cons link links ih => exact (detach kernel link).trans (ih _)

theorem attachHook (kernel : KernelHooks) (ifindex : UInt32) (name : String)
    (direction : TcAttachType) :
    kernel.Grows (attachHook answer kernel ifindex name direction).2 := by
  have hattach := @attach answer kernel (.tc ifindex direction)
  unfold ZimaScope.attachHook
  generalize kernel.attach answer (.tc ifindex direction) = result at hattach ⊢
  obtain ⟨_ | _, _⟩ := result <;> exact hattach

theorem attachLinks (kernel : KernelHooks) (ifindex : UInt32) (name : String) :
    kernel.Grows (attachLinks answer tcx kernel ifindex name).2 := by
  have hclsact : kernel.Grows (addClsact answer kernel tcx name).2 := of_eq hooks_addClsact
  unfold ZimaScope.attachLinks
  generalize addClsact answer kernel tcx name = result at hclsact
  obtain ⟨_ | error, kernel₁⟩ := result
  · have hingress := hclsact.trans (@attachHook answer kernel₁ ifindex name .ingress)
    simp only
    generalize ZimaScope.attachHook answer kernel₁ ifindex name .ingress = result at hingress
    obtain ⟨error | ingress, kernel₂⟩ := result
    · exact hingress
    · have hegress := hingress.trans (@attachHook answer kernel₂ ifindex name .egress)
      simp only
      generalize ZimaScope.attachHook answer kernel₂ ifindex name .egress = result at hegress
      obtain ⟨error | egress, kernel₃⟩ := result
      · exact hegress.trans (detachAll _ _)
      · exact hegress
  · exact hclsact

end KernelHooks.Grows

/-! ## One interface at a time -/

section Steps

open BoundarySource

variable {current : Table UInt32 LinkedInterface × KernelHooks} {attached : List LinkedInterface}
  {boundary : List (UInt32 × String)} {interface : LinkedInterface} {ifindex : UInt32}

theorem find_foldl_store_of_notMem (h : ifindex ∉ attached.map LinkedInterface.ifindex) :
    (attached.foldl (store answer) current).1.find ifindex = current.1.find ifindex := by
  induction attached generalizing current with
  | nil => rfl
  | cons first attached ih =>
    rw [List.map_cons, List.mem_cons, not_or] at h
    exact (ih h.2).trans (Table.find_upsert_of_ne h.1)

/-- Interfaces with different indices are all stored. -/
theorem find_foldl_store (hnodup : (attached.map LinkedInterface.ifindex).Nodup)
    (h : interface ∈ attached) :
    (attached.foldl (store answer) current).1.find interface.ifindex = some interface := by
  induction attached generalizing current with
  | nil => cases h
  | cons first attached ih =>
    obtain ⟨hfirst, hnodup⟩ := List.nodup_cons.mp hnodup
    rcases List.mem_cons.mp h with rfl | h
    · exact (find_foldl_store_of_notMem hfirst).trans Table.find_upsert_self
    · exact ih hnodup h

theorem mem_of_find_foldl_store
    (h : (attached.foldl (store answer) current).1.find ifindex = some interface) :
    interface ∈ attached ∨ current.1.find ifindex = some interface := by
  induction attached generalizing current with
  | nil => exact Or.inr h
  | cons first attached ih =>
    rcases ih h with hmem | hfound
    · exact Or.inl (List.mem_cons_of_mem _ hmem)
    · change (current.1.upsert _ _).find ifindex = some interface at hfound
      rw [Table.find_upsert] at hfound
      split at hfound
      · rw [← Option.some.inj hfound]
        exact Or.inl List.mem_cons_self
      · exact Or.inr hfound

theorem find_retainWanted : (retainWanted answer boundary current).1.find ifindex =
    (current.1.find ifindex).filter fun _ => ifindex ∈ boundary.map Prod.fst := by
  have hwanted : (boundary.any fun interface => interface.1 = ifindex) =
      decide (ifindex ∈ boundary.map Prod.fst) := by
    rw [Bool.eq_iff_iff, List.any_eq_true, decide_eq_true_iff, List.mem_map]
    simp only [decide_eq_true_iff]
  change (current.1.filter _).find ifindex = _
  rw [Table.find_filter]
  exact congrArg (Option.filter · _) (funext fun _ => hwanted)

/-- An interface that is not healthy is replaced by a new one. -/
theorem ensure_cases {others : Multiset HookLink} (h : Stored current others) (wanted : UInt32 × String) :
    let result := ensure answer tcx current wanted
    current.2.Grows result.2 ∧
      ((current.1.find wanted.1).any LinkedInterface.isHealthy = true ∧ result = current ∨
        ¬(current.1.find wanted.1).any LinkedInterface.isHealthy = true ∧
          ∃ interface : LinkedInterface, result.1 = (current.1.upsert wanted.1 fun _ => interface) ∧
            interface.name = wanted.2 ∧ ∀ link ∈ interface.links, current.2.hooks.next ≤ link.id) := by
  unfold ensure
  split
  · next hhealthy => exact ⟨.refl _, Or.inl ⟨hhealthy, rfl⟩⟩
  · next hhealthy =>
    obtain ⟨rest, hold, -⟩ := exists_heldBy current.1 wanted.1
    have hheld := h.held
    rw [hold, add_assoc] at hheld
    have hdetached := @KernelHooks.held_detachAll answer _ _ _ hheld
    have hlinks := (@held_attachLinks answer _ _ tcx wanted.1 wanted.2 hdetached).2
    have hgrows := (@KernelHooks.Grows.detachAll answer current.2
      ((current.1.find wanted.1).elim [] LinkedInterface.links)).trans
        (@KernelHooks.Grows.attachLinks answer tcx _ wanted.1 wanted.2)
    simp only
    generalize attachLinks answer tcx _ wanted.1 wanted.2 = result at hlinks hgrows
    obtain ⟨error | interface, after⟩ := result
    · refine ⟨hgrows, Or.inr ⟨hhealthy, _, rfl, rfl, ?_⟩⟩
      exact fun link hlink => absurd hlink List.not_mem_nil
    · obtain ⟨-, hname, hfrom, -⟩ := hlinks
      have hfresh := hfrom.fresh
      rw [KernelHooks.next_detachAll] at hfresh
      exact ⟨hgrows, Or.inr ⟨hhealthy, interface, rfl, hname, hfresh⟩⟩

/-- What the interfaces of a boundary make of the table. -/
structure Ensured (boundary : List (UInt32 × String))
    (current result : Table UInt32 LinkedInterface × KernelHooks) : Prop where
  grows : current.2.Grows result.2
  kept : ∀ ifindex interface, current.1.find ifindex = some interface → interface.isHealthy →
    result.1.find ifindex = some interface
  fresh : ∀ ifindex interface, result.1.find ifindex = some interface →
    current.1.find ifindex = some interface ∨ (ifindex, interface.name) ∈ boundary ∧
      ∀ link ∈ interface.links, current.2.hooks.next ≤ link.id
  covers : ∀ ifindex, (result.1.find ifindex).isSome ↔
    (current.1.find ifindex).isSome ∨ ifindex ∈ boundary.map Prod.fst

theorem ensured_nil : Ensured [] current current where
  grows := .refl _
  kept := fun _ _ hfound _ => hfound
  fresh := fun _ _ hfound => Or.inl hfound
  covers := by simp

theorem Ensured.concat {others : Multiset HookLink} {middle : Table UInt32 LinkedInterface × KernelHooks}
    (h : Ensured boundary current middle) (hstored : Stored middle others) (wanted : UInt32 × String) :
    Ensured (boundary ++ [wanted]) current (ensure answer tcx middle wanted) := by
  obtain ⟨hgrows, ⟨hhealthy, hresult⟩ | ⟨hhealthy, new, hresult, hname, hfresh⟩⟩ :=
    @ensure_cases answer tcx middle others hstored wanted
  · rw [hresult]
    refine ⟨h.grows, h.kept, ?_, ?_⟩
    · intro ifindex interface hfound
      refine (h.fresh ifindex interface hfound).imp_right fun hnew => ?_
      exact ⟨List.mem_append_left _ hnew.1, hnew.2⟩
    · intro ifindex
      rw [h.covers, List.map_append, List.mem_append, ← or_assoc]
      refine ⟨Or.inl, ?_⟩
      rintro (hold | hwanted)
      · exact hold
      · rw [List.map_singleton, List.mem_singleton] at hwanted
        subst hwanted
        rw [← h.covers]
        cases hfound : middle.1.find wanted.1 with
        | none =>
          rw [hfound] at hhealthy
          cases hhealthy
        | some interface => rfl
  · refine ⟨h.grows.trans hgrows, ?_, ?_, ?_⟩
    · intro ifindex interface hfound hkept
      have hmiddle := h.kept ifindex interface hfound hkept
      rw [hresult, Table.find_upsert_of_ne]
      · exact hmiddle
      · rintro rfl
        rw [hmiddle] at hhealthy
        exact hhealthy hkept
    · intro ifindex interface hfound
      rw [hresult, Table.find_upsert] at hfound
      split at hfound
      · next hwanted =>
        rw [← Option.some.inj hfound, hwanted, hname]
        refine Or.inr ⟨List.mem_append_right _ (List.mem_singleton_self _), fun link hlink => ?_⟩
        exact h.grows.next.trans (hfresh link hlink)
      · refine (h.fresh ifindex interface hfound).imp_right fun hnew => ?_
        exact ⟨List.mem_append_left _ hnew.1, hnew.2⟩
    · intro ifindex
      rw [hresult, Table.find_upsert]
      by_cases hwanted : ifindex = wanted.1
      · simp [hwanted]
      · simp [hwanted, h.covers]

theorem ensured_foldl {others : Multiset HookLink} (h : Stored current others)
    (boundary : List (UInt32 × String)) :
    Ensured boundary current (boundary.foldl (ensure answer tcx) current) := by
  induction boundary using List.reverseRecOn with
  | nil => exact ensured_nil
  | append_singleton boundary wanted ih =>
    rw [List.foldl_concat]
    exact ih.concat (h.foldl_ensure boundary) wanted

end Steps

/-! ## The attachments -/

/-- The attachments after a reconcile: one for each interface of the boundary, by its index; the
healthy ones that were there before stay, and any other is new. -/
structure Reconciled (boundary : List (UInt32 × String)) (before after : List LinkedInterface)
    (next : ℕ) : Prop where
  sorted : (after.map LinkedInterface.ifindex).Pairwise (· < ·)
  indices : ∀ ifindex, ifindex ∈ after.map LinkedInterface.ifindex ↔ ifindex ∈ boundary.map Prod.fst
  kept : ∀ interface ∈ before, interface.isHealthy → interface.ifindex ∈ boundary.map Prod.fst →
    interface ∈ after
  fresh : ∀ interface ∈ after, interface ∈ before ∨ (interface.ifindex, interface.name) ∈ boundary ∧
    ∀ link ∈ interface.links, next ≤ link.id

section Reattach

open BoundarySource

variable {attached : List LinkedInterface} {boundary : List (UInt32 × String)}
  {others : Multiset HookLink} {interface : LinkedInterface}

instance totalByIndex : Std.Total fun a b : LinkedInterface => a.ifindex ≤ b.ifindex :=
  ⟨fun a b => UInt32.le_total a.ifindex b.ifindex⟩

instance transByIndex : IsTrans LinkedInterface fun a b => a.ifindex ≤ b.ifindex :=
  ⟨fun _ _ _ => UInt32.le_trans⟩

/-- The interfaces of a table, by their indices. -/
def byIndex (current : Table UInt32 LinkedInterface) : List LinkedInterface :=
  (current.rows.map Prod.snd).insertionSort fun a b => a.ifindex ≤ b.ifindex

theorem mem_byIndex {current : Table UInt32 LinkedInterface} (h : Indexed current) :
    interface ∈ byIndex current ↔ current.find interface.ifindex = some interface := by
  unfold byIndex
  rw [List.mem_insertionSort, List.mem_map]
  constructor
  · rintro ⟨row, hrow, rfl⟩
    have hfound := Table.find_eq_some_iff.mpr hrow
    rw [(h row.1 row.2 hfound).1]
    exact hfound
  · intro hfound
    exact ⟨_, Table.find_eq_some_iff.mp hfound, rfl⟩

theorem byIndex_sorted {current : Table UInt32 LinkedInterface} (h : Indexed current) :
    ((byIndex current).map LinkedInterface.ifindex).Pairwise (· < ·) := by
  have hkeys : (current.rows.map Prod.snd).map LinkedInterface.ifindex = current.rows.map Prod.fst := by
    rw [List.map_map]
    refine List.map_congr_left fun row hrow => ?_
    exact (h row.1 row.2 (Table.find_eq_some_iff.mpr hrow)).1
  have hnodup : ((byIndex current).map LinkedInterface.ifindex).Nodup := by
    unfold byIndex
    rw [((List.perm_insertionSort _ _).map LinkedInterface.ifindex).nodup_iff, hkeys]
    exact current.nodup
  have hle : ((byIndex current).map LinkedInterface.ifindex).Pairwise (· ≤ ·) := by
    rw [List.pairwise_map]
    exact List.pairwise_insertionSort _ _
  exact (hle.and hnodup).imp fun hab => UInt32.lt_of_le_of_ne hab.1 hab.2

theorem grows_foldl_store (attached : List LinkedInterface)
    (current : Table UInt32 LinkedInterface × KernelHooks) :
    current.2.Grows (attached.foldl (store answer) current).2 := by
  induction attached generalizing current with
  | nil => exact .refl _
  | cons first attached ih =>
    exact (KernelHooks.Grows.detachAll _ _).trans (ih (store answer current first))

theorem reconciled_reattach (h : kernel.hooks.Held (↑(attached.flatMap LinkedInterface.links) + others))
    (hconsistent : ∀ interface ∈ attached, interface.Consistent)
    (hdistinct : (attached.map LinkedInterface.ifindex).Nodup) (boundary : List (UInt32 × String)) :
    let result := reattach answer tcx boundary attached kernel
    kernel.Grows result.2 ∧ Reconciled boundary attached result.1 kernel.hooks.next := by
  have hretained : Stored (retainWanted answer boundary
      (attached.foldl (store answer) (∅, kernel))) others :=
    ((stored_empty h).foldl_store hconsistent).retainWanted boundary
  have hdetached : (attached.foldl (store answer) (∅, kernel)).2.Grows (retainWanted answer boundary
      (attached.foldl (store answer) (∅, kernel))).2 := KernelHooks.Grows.detachAll _ _
  have hgrows := (@grows_foldl_store answer attached (∅, kernel)).trans hdetached
  have hensured := @ensured_foldl answer tcx _ others hretained boundary
  have hindexed := (@stored_reattached answer kernel others tcx attached boundary h hconsistent).rows
  have hkeep {ifindex : UInt32} {interface : LinkedInterface} (hfound : (retainWanted answer boundary
      (attached.foldl (store answer) (∅, kernel))).1.find ifindex = some interface) :
      interface ∈ attached ∧ ifindex ∈ boundary.map Prod.fst := by
    rw [find_retainWanted, Option.filter_eq_some_iff] at hfound
    refine ⟨(mem_of_find_foldl_store hfound.1).resolve_right ?_, of_decide_eq_true hfound.2⟩
    rw [Table.find_empty]
    simp
  unfold reattach
  refine ⟨hgrows.trans hensured.grows, byIndex_sorted hindexed, ?_, ?_, ?_⟩
  · intro ifindex
    have hcovers := hensured.covers ifindex
    constructor
    · intro hmem
      obtain ⟨interface, hinterface, rfl⟩ := List.mem_map.mp hmem
      have hfound := (mem_byIndex hindexed).mp hinterface
      rcases hcovers.mp (by rw [hfound]; rfl) with hold | hwanted
      · obtain ⟨other, hother⟩ := Option.isSome_iff_exists.mp hold
        exact (hkeep hother).2
      · exact hwanted
    · intro hwanted
      obtain ⟨interface, hfound⟩ := Option.isSome_iff_exists.mp (hcovers.mpr (Or.inr hwanted))
      have hindex := (hindexed ifindex interface hfound).1
      refine List.mem_map.mpr ⟨interface, (mem_byIndex hindexed).mpr ?_, hindex⟩
      rw [hindex]
      exact hfound
  · intro interface hinterface hhealthy hwanted
    refine (mem_byIndex hindexed).mpr (hensured.kept _ _ ?_ hhealthy)
    rw [find_retainWanted, find_foldl_store hdistinct hinterface]
    exact Option.filter_some_pos (decide_eq_true hwanted)
  · intro interface hinterface
    rcases hensured.fresh _ _ ((mem_byIndex hindexed).mp hinterface) with hold | ⟨hwanted, hnew⟩
    · exact Or.inl (hkeep hold).1
    · exact Or.inr ⟨hwanted, fun link hlink => hgrows.next.trans (hnew link hlink)⟩

/-! ## Nothing to do -/

theorem foldl_store_rows (hdistinct : (attached.map LinkedInterface.ifindex).Nodup)
    {current : Table UInt32 LinkedInterface × KernelHooks}
    (hnew : ∀ interface ∈ attached, current.1.find interface.ifindex = none) :
    (attached.foldl (store answer) current).1.rows =
        current.1.rows ++ attached.map (fun interface => (interface.ifindex, interface)) ∧
      (attached.foldl (store answer) current).2 = current.2 := by
  induction attached generalizing current with
  | nil => exact ⟨(List.append_nil _).symm, rfl⟩
  | cons first attached ih =>
    obtain ⟨hfirst, hdistinct⟩ := List.nodup_cons.mp hdistinct
    have hnone := hnew first List.mem_cons_self
    have hstored : store answer current first =
        (current.1.upsert first.ifindex fun _ => first, current.2) := by
      unfold store
      rw [hnone]
      rfl
    have hrows : (current.1.upsert first.ifindex fun _ => first).rows =
        current.1.rows ++ [(first.ifindex, first)] := by
      unfold Table.upsert
      rw [dif_pos hnone]
    rw [List.foldl_cons, hstored]
    obtain ⟨hrest, hkernel⟩ := @ih hdistinct (current.1.upsert first.ifindex fun _ => first, current.2) <| by
      intro interface hinterface
      refine (Table.find_upsert_of_ne ?_).trans (hnew interface (List.mem_cons_of_mem _ hinterface))
      rintro hsame
      exact hfirst (hsame ▸ List.mem_map_of_mem hinterface)
    refine ⟨?_, hkernel⟩
    rw [hrest, hrows, List.append_assoc]
    rfl

theorem foldl_ensure_healthy {current : Table UInt32 LinkedInterface × KernelHooks}
    (h : ∀ wanted ∈ boundary, (current.1.find wanted.1).any LinkedInterface.isHealthy = true) :
    boundary.foldl (ensure answer tcx) current = current := by
  induction boundary with
  | nil => rfl
  | cons wanted boundary ih =>
    have hfirst : ensure answer tcx current wanted = current := if_pos (h wanted List.mem_cons_self)
    rw [List.foldl_cons, hfirst]
    exact ih fun other hother => h other (List.mem_cons_of_mem _ hother)

/-- Where every interface of the boundary is attached, and no other, nothing is called. -/
theorem reattach_healthy (hsorted : (attached.map LinkedInterface.ifindex).Pairwise (· < ·))
    (hindices : ∀ ifindex, ifindex ∈ attached.map LinkedInterface.ifindex ↔
      ifindex ∈ boundary.map Prod.fst)
    (hhealthy : ∀ interface ∈ attached, interface.isHealthy) :
    reattach answer tcx boundary attached kernel = (attached, kernel) := by
  have hdistinct : (attached.map LinkedInterface.ifindex).Nodup :=
    hsorted.imp UInt32.ne_of_lt
  obtain ⟨hrows, hkernel⟩ := @foldl_store_rows answer attached hdistinct (∅, kernel)
    fun interface _ => Table.find_empty
  have hfind {interface : LinkedInterface} (hinterface : interface ∈ attached) :=
    @find_foldl_store answer (∅, kernel) attached interface hdistinct hinterface
  generalize hstored : attached.foldl (store answer) (∅, kernel) = stored at hrows hkernel hfind
  change stored.1.rows = attached.map _ at hrows
  have hwanted : ∀ row ∈ stored.1.rows,
      (boundary.any fun interface => interface.1 = row.1) = true := by
    intro row hrow
    rw [hrows] at hrow
    obtain ⟨interface, hinterface, rfl⟩ := List.mem_map.mp hrow
    obtain ⟨wanted, hmem, hindex⟩ :=
      List.mem_map.mp ((hindices _).mp (List.mem_map_of_mem hinterface))
    exact List.any_eq_true.mpr ⟨wanted, hmem, decide_eq_true hindex⟩
  have hretained : retainWanted answer boundary stored = stored := by
    have hnone : (stored.1.rows.filter fun row => !boundary.any fun interface => interface.1 = row.1) = [] := by
      rw [List.filter_eq_nil_iff]
      intro row hrow
      simp [hwanted row hrow]
    refine Prod.ext ?_ ?_
    · exact Table.ext (List.filter_eq_self.mpr hwanted)
    · change stored.2.detachAll answer _ = stored.2
      rw [hnone]
      rfl
  have hensured : boundary.foldl (ensure answer tcx) stored = stored := by
    refine foldl_ensure_healthy fun wanted hmem => ?_
    obtain ⟨interface, hinterface, hindex⟩ :=
      List.mem_map.mp ((hindices wanted.1).mpr (List.mem_map_of_mem hmem))
    rw [← hindex, hfind hinterface]
    exact hhealthy interface hinterface
  have hsame : (attached.map fun interface => (interface.ifindex, interface)).map Prod.snd = attached := by
    rw [List.map_map]
    exact List.map_id _
  unfold reattach
  simp only [hstored, hretained, hensured, hkernel, hrows, hsame]
  rw [List.Pairwise.insertionSort_eq]
  exact (List.pairwise_map.mp hsorted).imp fun hlt => UInt32.le_of_lt hlt

end Reattach

/-! ## Sessions -/

section Sessions

open BoundarySource

variable {s s' : HookSession} {host : Host} {selectors : List InterfaceSelector}
  {boundary : ResolvedBoundary}

theorem Reconciled.distinct {wanted : List (UInt32 × String)} {before attached : List LinkedInterface}
    {next : ℕ} (h : Reconciled wanted before attached next) :
    (attached.map LinkedInterface.ifindex).Nodup :=
  h.sorted.imp UInt32.ne_of_lt

theorem reconcile_of_ok (hboundary : resolveSelectors host selectors = .ok boundary) :
    s.source.reconcile answer tcx host selectors s.kernel =
      (.ok (), { s.source with
        attached := (reattach answer tcx boundary.interfaces s.source.attached s.kernel).1 },
        (reattach answer tcx boundary.interfaces s.source.attached s.kernel).2) := by
  unfold BoundarySource.reconcile
  rw [hboundary]

/-- A step in which an interface does not leave the boundary. -/
inductive HookSession.StepKeeping (ifindex : UInt32) : HookSession → HookSession → Prop
  | reconcile (answer : ℕ → Option String) (tcx : Bool) (host : Host)
      (selectors : List InterfaceSelector) (s : HookSession)
      (hwanted : ∀ boundary, resolveSelectors host selectors = .ok boundary →
        ifindex ∈ boundary.interfaces.map Prod.fst) :
      StepKeeping ifindex s ⟨(s.source.reconcile answer tcx host selectors s.kernel).2.1,
        (s.source.reconcile answer tcx host selectors s.kernel).2.2⟩
  | lose (kept : HookLink → Bool) (s : HookSession) :
      StepKeeping ifindex s { s with kernel := { s.kernel with hooks := s.kernel.hooks.lose kept } }

/-- An interface whose hook is gone while its link is still there. -/
structure HookSession.Lost (s : HookSession) (interface : LinkedInterface) (link : HookLink) : Prop where
  accounted : s.source.Accounted s.kernel
  distinct : (s.source.attached.map LinkedInterface.ifindex).Nodup
  attached : interface ∈ s.source.attached
  gone : link ∉ s.kernel.hooks.live
  below : link.id < s.kernel.hooks.next

theorem HookSession.Lost.step {interface : LinkedInterface} {link : HookLink}
    (h : s.Lost interface link) (hhealthy : interface.isHealthy)
    (hstep : HookSession.StepKeeping interface.ifindex s s') : s'.Lost interface link := by
  cases hstep with
  | lose kept =>
    exact ⟨⟨h.accounted.held.lose kept, h.accounted.consistent⟩, h.distinct, h.attached,
      fun hlive => h.gone (List.mem_of_mem_filter hlive), h.below⟩
  | reconcile answer tcx host selectors _ hwanted =>
    have haccounted := @Accounted.reconcile answer s.kernel tcx s.source host selectors h.accounted
    cases hresolved : resolveSelectors host selectors with
    | error error =>
      have hsame : s.source.reconcile answer tcx host selectors s.kernel =
          (.error error, s.source, s.kernel) := by
        unfold BoundarySource.reconcile
        rw [hresolved]
      rw [hsame]
      exact h
    | ok boundary =>
      obtain ⟨hgrows, hreconciled⟩ := @reconciled_reattach answer s.kernel tcx s.source.attached _
        h.accounted.held h.accounted.consistent h.distinct boundary.interfaces
      have hresult := @reconcile_of_ok answer tcx s host selectors boundary hresolved
      refine ⟨haccounted, ?_, ?_, ?_, ?_⟩ <;> rw [hresult]
      · exact hreconciled.distinct
      · exact hreconciled.kept interface h.attached hhealthy (hwanted boundary hresolved)
      · intro hlive
        rcases hgrows.live link hlive with hold | hnew
        · exact h.gone hold
        · exact absurd h.below (Nat.not_lt.mpr hnew)
      · exact h.below.trans_le hgrows.next

open Relation in
/-- A hook that the kernel took away is not attached again, and its interface not touched, as long as
the interface stays in the boundary. -/
theorem lost_hook_stays_lost (h : hookSessions.Reachable s)
    (hdistinct : (s.source.attached.map LinkedInterface.ifindex).Nodup) {interface : LinkedInterface}
    (hattached : interface ∈ s.source.attached) (hhealthy : interface.isHealthy) {link : HookLink}
    (hlink : link ∈ interface.links) (hgone : link ∉ s.kernel.hooks.live)
    (hrun : ReflTransGen (HookSession.StepKeeping interface.ifindex) s s') :
    interface ∈ s'.source.attached ∧ link ∉ s'.kernel.hooks.live := by
  have haccounted := accounted_of_reachable h
  have hheld : link ∈ s.source.links := by
    refine Multiset.mem_add.mpr (Or.inl ?_)
    exact List.mem_flatMap.mpr ⟨interface, hattached, hlink⟩
  have hlost : s'.Lost interface link := by
    induction hrun with
    | refl => exact ⟨haccounted, hdistinct, hattached, hgone, haccounted.held.heldBelow link hheld⟩
    | tail _ hstep ih => exact ih.step hhealthy hstep
  exact ⟨hlost.attached, hlost.gone⟩

/-- The kernel takes the ingress hook of the interface away. -/
def lostSession : HookSession :=
  { plainSession with kernel := { plainSession.kernel with
      hooks := plainSession.kernel.hooks.lose fun link => link.id ≠ 2 } }

theorem lostSession_reachable : hookSessions.Reachable lostSession :=
  .step plainSession_opened (.lose ..)

/-- A reconcile does not bring the hook back. -/
theorem lostSession_unhooked :
    (⟨2, .tc 2 .ingress⟩ : HookLink) ∉ (lostSession.source.reconcile (fun _ => none) true plainHost
      [.name "eth0"] lostSession.kernel).2.2.hooks.live := by
  have hwanted : ∀ boundary, resolveSelectors plainHost [.name "eth0"] = .ok boundary →
      (2 : UInt32) ∈ boundary.interfaces.map Prod.fst := by
    intro boundary hboundary
    rw [plainHost_resolves] at hboundary
    cases hboundary
    exact List.mem_cons_self
  exact (lost_hook_stays_lost lostSession_reachable (by decide) List.mem_cons_self rfl
    List.mem_cons_self (by decide)
    (.single (.reconcile (fun _ => none) true plainHost [.name "eth0"] lostSession hwanted))).2

end Sessions

end ZimaScope
