import ZimaScope.Common.Cgroup
import ZimaScope.Db.Statements
import ZimaScope.Lib.Memo
import ZimaScope.Query.Resolver

/-! # Application identities

Kernel owner observations are resolved with what user space reads of the process and
of the cgroup tree. The facts of a process are kept under its `tgid` and `comm`, and
dropped when there are too many; the cgroup of the observation is not in that key.
-/

namespace ZimaScope

/-- The process table and the cgroup tree. -/
structure ProcessHost where
  /-- The text of the link `/proc/<tgid>/exe`. -/
  exe : UInt32 → Option String
  /-- `/proc/<tgid>/cgroup`. -/
  cgroup : UInt32 → Option String
  tree : List CgroupDir

structure ProcessFacts where
  exe : Option String
  containerId : Option String
  deriving DecidableEq, Repr

/-- `trim_end_matches(" (deleted)")`, on the reversed text. -/
def trimDeleted : List Char → List Char
  | ')' :: 'd' :: 'e' :: 't' :: 'e' :: 'l' :: 'e' :: 'd' :: '(' :: ' ' :: rest => trimDeleted rest
  | text => text

def normalizeExe (path : String) : Option String :=
  let path := String.ofList (trimDeleted path.toList.reverse).reverse
  if path = "" then none else some path

def readProcessFacts (host : ProcessHost) (tgid : UInt32) : ProcessFacts where
  exe := (host.exe tgid).bind normalizeExe
  containerId := (host.cgroup tgid).bind containerId

abbrev FactsKey := UInt32 × Vector UInt8 16

def ApplicationRef.factsKey (application : ApplicationRef) : FactsKey :=
  (application.tgid, commBytes application.comm)

structure ApplicationResolver where
  cache : Table FactsKey ProcessFacts := ∅
  cgroups : CgroupIndex := {}

def resolutionCacheCapacity : ℕ := 4096

namespace ApplicationResolver

variable (host : ProcessHost) (now : Instant) (resolver : ApplicationResolver)

def containerForCgroup (cgroupId : UInt64) : Option String × ApplicationResolver :=
  if cgroupId = 0 then (none, resolver)
  else
    let (container, cgroups) := resolver.cgroups.containerForInode host.tree now cgroupId
    (container, { resolver with cgroups })

def facts (application : ApplicationRef) : ProcessFacts × ApplicationResolver :=
  match resolver.cache.find application.factsKey with
  | some facts => (facts, resolver)
  | none =>
    let resolver :=
      if resolutionCacheCapacity ≤ resolver.cache.rows.length then { resolver with cache := ∅ }
      else resolver
    let facts := readProcessFacts host application.tgid
    -- Short-lived processes exit before the poll; the cgroup still identifies their container.
    let (facts, resolver) :=
      match facts.containerId with
      | some _ => (facts, resolver)
      | none =>
        let (containerId, resolver) := resolver.containerForCgroup host now application.cgroupId
        ({ facts with containerId }, resolver)
    (facts, { resolver with cache := resolver.cache.upsert application.factsKey fun _ => facts })

end ApplicationResolver

/-- The identity that facts give an observation, or nothing without any evidence. -/
def ApplicationRef.identity (application : ApplicationRef) (facts : ProcessFacts) :
    Option ResolvedApplication :=
  let comm := application.comm
  let identified : Option (String × String × String) :=
    match facts.containerId, facts.exe with
    | some containerId, _ =>
      some ("cont:" ++ containerId, "container",
        if comm = "" then String.ofList (containerId.toList.take 12) else comm)
    | none, some exe =>
      let name := String.ofList (afterLast '/' exe.toList)
      some ("proc:" ++ exe, "process", if name = "" then exe else name)
    | none, none => if comm = "" then none else some ("proc:comm:" ++ comm, "process", comm)
  identified.map fun (id, kind, name) =>
    { id, kind, name, exe := facts.exe, comm, uid := application.uid, containerId := facts.containerId }

def ApplicationResolver.resolve (host : ProcessHost) (now : Instant) (resolver : ApplicationResolver)
    (application : Option ApplicationRef) : Option ResolvedApplication × ApplicationResolver :=
  match application with
  | none => (none, resolver)
  | some application =>
    let (facts, resolver) := resolver.facts host now application
    (application.identity facts, resolver)

/-! ## Without a cache -/

/-- The container of a process by its own cgroup document. -/
def ProcessHost.ownContainer (host : ProcessHost) (tgid : UInt32) : Option String :=
  (readProcessFacts host tgid).containerId

/-- The container that the tree has for a cgroup. -/
def ProcessHost.treeContainer (host : ProcessHost) (cgroupId : UInt64) : Option String :=
  if cgroupId = 0 then none else ((walkTree host.tree).find cgroupId).join

def ProcessHost.facts (host : ProcessHost) (application : ApplicationRef) : ProcessFacts where
  exe := (readProcessFacts host application.tgid).exe
  containerId := (host.ownContainer application.tgid).or (host.treeContainer application.cgroupId)

/-- What a resolver without a cache answers. -/
def ProcessHost.resolve (host : ProcessHost) (application : ApplicationRef) :
    Option ResolvedApplication :=
  application.identity (host.facts application)

/-! ## The memo -/

section Memo

variable {host : ProcessHost} {now : Instant} {resolver : ApplicationResolver}
  {application : ApplicationRef}

theorem containerForCgroup_eq (h : resolver.cgroups.Fresh host.tree) (cgroupId : UInt64) :
    (resolver.containerForCgroup host now cgroupId).1 = host.treeContainer cgroupId ∧
      (resolver.containerForCgroup host now cgroupId).2.cgroups.Fresh host.tree ∧
      (resolver.containerForCgroup host now cgroupId).2.cache = resolver.cache := by
  unfold ApplicationResolver.containerForCgroup ProcessHost.treeContainer
  split
  · exact ⟨rfl, h, rfl⟩
  · obtain ⟨hanswer, hfresh⟩ := @CgroupIndex.Fresh.containerForInode host.tree now _ h cgroupId
    exact ⟨hanswer, hfresh, rfl⟩

theorem host_facts_of_own {containerId : String}
    (h : (readProcessFacts host application.tgid).containerId = some containerId) :
    host.facts application = readProcessFacts host application.tgid := by
  unfold ProcessHost.facts ProcessHost.ownContainer
  rw [h, Option.some_or, ← h]

theorem host_facts_of_none (h : (readProcessFacts host application.tgid).containerId = none) :
    host.facts application = {
      readProcessFacts host application.tgid with
      containerId := host.treeContainer application.cgroupId } := by
  unfold ProcessHost.facts ProcessHost.ownContainer
  rw [h, Option.none_or]

/-- With a fresh index the resolver is a memo of the facts. -/
theorem facts_eq (h : resolver.cgroups.Fresh host.tree) :
    ((resolver.facts host now application).1, (resolver.facts host now application).2.cache) =
        Memo.answer resolutionCacheCapacity ApplicationRef.factsKey host.facts resolver.cache
          application ∧
      (resolver.facts host now application).2.cgroups.Fresh host.tree := by
  unfold ApplicationResolver.facts Memo.answer
  cases resolver.cache.find application.factsKey with
  | some facts => exact ⟨rfl, h⟩
  | none =>
    dsimp only
    generalize hcleared : (if resolutionCacheCapacity ≤ resolver.cache.rows.length then
      { resolver with cache := ∅ } else resolver) = cleared
    have hcache : cleared.cache =
        if resolutionCacheCapacity ≤ resolver.cache.rows.length then ∅ else resolver.cache := by
      rw [← hcleared]
      split <;> rfl
    have hfresh : cleared.cgroups.Fresh host.tree := by
      rw [← hcleared]
      split <;> exact h
    cases hown : (readProcessFacts host application.tgid).containerId with
    | some containerId =>
      rw [← hcache, host_facts_of_own hown]
      exact ⟨rfl, hfresh⟩
    | none =>
      obtain ⟨hanswer, hfresh', hcache'⟩ :=
        @containerForCgroup_eq host now cleared hfresh application.cgroupId
      rw [← hcache, host_facts_of_none hown, ← hanswer, ← hcache']
      exact ⟨rfl, hfresh'⟩

/-! ## Identities -/

/-- An identity shows the container of its facts. -/
theorem identity_containerId (application : ApplicationRef) (facts : ProcessFacts) :
    (application.identity facts).bind ResolvedApplication.containerId = facts.containerId := by
  obtain ⟨exe, containerId⟩ := facts
  unfold ApplicationRef.identity
  cases containerId with
  | some containerId => rfl
  | none =>
    cases exe with
    | some exe => rfl
    | none =>
      dsimp only
      split <;> rfl

/-- Of one process the identities are the same exactly if the containers are. -/
theorem identity_eq_iff {a b : ProcessFacts} (h : a.exe = b.exe) :
    application.identity a = application.identity b ↔ a.containerId = b.containerId := by
  constructor
  · intro heq
    rw [← identity_containerId application a, ← identity_containerId application b, heq]
  · intro heq
    obtain ⟨exe, containerId⟩ := a
    obtain ⟨exe', containerId'⟩ := b
    dsimp only at h heq
    rw [h, heq]

theorem facts_containerId_eq_iff {filler : ApplicationRef} (h : filler.tgid = application.tgid) :
    (host.facts filler).containerId = (host.facts application).containerId ↔
      host.ownContainer application.tgid ≠ none ∨
        host.treeContainer filler.cgroupId = host.treeContainer application.cgroupId := by
  unfold ProcessHost.facts
  dsimp only
  rw [h]
  cases host.ownContainer application.tgid with
  | some containerId => exact iff_of_true rfl (Or.inl (Option.some_ne_none containerId))
  | none =>
    rw [Option.none_or, Option.none_or]
    exact ⟨Or.inr, fun h => h.resolve_left fun hne => hne rfl⟩

end Memo

/-! ## Runs -/

section Runs

/-- An observation and the time it is resolved at. -/
abbrev TimedObservation := Instant × ApplicationRef

/-- The resolver after observations. -/
def resolvedAll (host : ProcessHost) (observations : List TimedObservation) : ApplicationResolver :=
  observations.foldl (fun resolver observation =>
    (resolver.resolve host observation.1 (some observation.2)).2) {}

/-- The observations that the facts in the cache are of. -/
def fillers (observations : List TimedObservation) : Table FactsKey ApplicationRef :=
  Memo.remembered resolutionCacheCapacity ApplicationRef.factsKey (observations.map Prod.snd)

variable {host : ProcessHost} {observations : List TimedObservation}

theorem resolvedAll_eq (host : ProcessHost) (observations : List TimedObservation) :
    (resolvedAll host observations).cache =
        Memo.after resolutionCacheCapacity ApplicationRef.factsKey host.facts
          (observations.map Prod.snd) ∧
      (resolvedAll host observations).cgroups.Fresh host.tree := by
  induction observations using List.reverseRecOn with
  | nil => exact ⟨rfl, CgroupIndex.fresh_empty⟩
  | append_singleton observations observation ih =>
    obtain ⟨hcache, hfresh⟩ := ih
    obtain ⟨hfacts, hfresh'⟩ := @facts_eq host observation.1 _ observation.2 hfresh
    unfold resolvedAll Memo.after
    rw [List.map_append, List.foldl_append, List.foldl_append]
    refine ⟨?_, hfresh'⟩
    change (((resolvedAll host observations).facts host observation.1 observation.2).2).cache = _
    refine (congrArg Prod.snd hfacts).trans ?_
    rw [hcache]
    rfl

/-- The answer to an observation is its own exactly if that of the filler has the same container. -/
theorem resolve_eq_iff (host : ProcessHost) (before : List TimedObservation) (now : Instant)
    (application : ApplicationRef) :
    ((resolvedAll host before).resolve host now (some application)).1 = host.resolve application ↔
      ∀ filler, (fillers before).find application.factsKey = some filler →
        host.ownContainer application.tgid ≠ none ∨
          host.treeContainer filler.cgroupId = host.treeContainer application.cgroupId := by
  obtain ⟨hcache, hfresh⟩ := resolvedAll_eq host before
  have hfacts := congrArg Prod.fst (@facts_eq host now _ application hfresh).1
  dsimp only at hfacts
  rw [hcache, Memo.answer_after] at hfacts
  change application.identity ((resolvedAll host before).facts host now application).1 =
    application.identity (host.facts application) ↔ _
  rw [hfacts]
  cases hfiller : (fillers before).find application.factsKey with
  | none =>
    unfold fillers at hfiller
    rw [hfiller]
    exact iff_of_true rfl fun _ h => by cases h
  | some filler =>
    unfold fillers at hfiller
    have htgid : filler.tgid = application.tgid := congrArg Prod.fst (Memo.key_of_find hfiller)
    have hexe : (host.facts filler).exe = (host.facts application).exe := by
      unfold ProcessHost.facts
      rw [htgid]
    rw [hfiller, Option.getD_some, identity_eq_iff hexe, facts_containerId_eq_iff htgid]
    simp only [Option.some.injEq, forall_eq']

end Runs

/-- The cache changes no answer of a sequence exactly if each observation whose facts are in the cache
is of a process with a container of its own, or of a cgroup of the same container as the observation
that the facts were read for. -/
theorem resolve_transparent_iff (host : ProcessHost) (observations : List TimedObservation) :
    (∀ before now application behind, observations = before ++ (now, application) :: behind →
      ((resolvedAll host before).resolve host now (some application)).1 = host.resolve application) ↔
    ∀ before now application behind, observations = before ++ (now, application) :: behind →
      ∀ filler, (fillers before).find application.factsKey = some filler →
        host.ownContainer application.tgid ≠ none ∨
          host.treeContainer filler.cgroupId = host.treeContainer application.cgroupId := by
  constructor
  · intro h before now application behind heq
    exact (resolve_eq_iff host before now application).mp (h before now application behind heq)
  · intro h before now application behind heq
    exact (resolve_eq_iff host before now application).mpr (h before now application behind heq)

/-- A host on which the process has exited, with two containers. -/
def exitedHost : ProcessHost where
  exe _ := none
  cgroup _ := none
  tree := [.mk 10 (some "/sys/fs/cgroup/docker-aaaa.scope") [],
    .mk 20 (some "/sys/fs/cgroup/docker-bbbb.scope") []]

def reusedId (cgroupId : UInt64) : ApplicationRef := ⟨1000, 0, cgroupId, "curl"⟩

/-- The second process of an id is given the container of the first. -/
theorem reusedId_keeps_container :
    exitedHost.resolve (reusedId 20) =
        some ⟨"cont:bbbb", "container", "curl", none, "curl", 0, some "bbbb"⟩ ∧
      ((resolvedAll exitedHost [(0, reusedId 10)]).resolve exitedHost 1 (some (reusedId 20))).1 =
        some ⟨"cont:aaaa", "container", "curl", none, "curl", 0, some "aaaa"⟩ ∧
      ¬ ∀ before now application behind,
        [(0, reusedId 10), (1, reusedId 20)] = before ++ (now, application) :: behind →
          ((resolvedAll exitedHost before).resolve exitedHost now (some application)).1 =
            exitedHost.resolve application := by
  have huncached : exitedHost.resolve (reusedId 20) =
      some ⟨"cont:bbbb", "container", "curl", none, "curl", 0, some "bbbb"⟩ := by decide +kernel
  have hcached :
      ((resolvedAll exitedHost [(0, reusedId 10)]).resolve exitedHost 1 (some (reusedId 20))).1 =
        some ⟨"cont:aaaa", "container", "curl", none, "curl", 0, some "aaaa"⟩ := by decide +kernel
  refine ⟨huncached, hcached, fun h => ?_⟩
  have heq := h [(0, reusedId 10)] 1 (reusedId 20) [] rfl
  rw [huncached, hcached] at heq
  exact absurd heq (by decide +kernel)

end ZimaScope
