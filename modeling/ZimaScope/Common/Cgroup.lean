import ZimaScope.Common.Model
import ZimaScope.Common.Text
import ZimaScope.Lib.Delimited
import ZimaScope.Lib.Table

/-! # Cgroups

Container ids are parsed from cgroup paths, and one walk of the cgroup tree tells
which container owns a directory. The index of a walk is kept, and made again at
most once in a while when an inode is missing.
-/

namespace ZimaScope

/-! ## Container ids -/

/-- The rest of a text behind the last occurrence of a letter. -/
def afterLast (c : Char) (text : List Char) : List Char := (text.reverse.takeWhile (· ≠ c)).reverse

/-- `str::lines`. -/
def textLines (contents : List Char) : List (List Char) :=
  let pieces := contents.splitOn '\n'
  let ended := pieces.dropLast.map fun line => if line.getLast? = some '\r' then line.dropLast else line
  let rest := pieces.getLastD []
  if rest = [] then ended else ended ++ [rest]

/-- What is between a prefix and a suffix of a text that has both, one after the other. -/
def stripBoth (before behind text : List Char) : Option (List Char) :=
  if before <+: text then
    let rest := text.drop before.length
    if behind <:+ rest then some (rest.take (rest.length - behind.length)) else none
  else none

/-- Container runtime ids are hex. -/
def isContainerHex (value : List Char) : Bool :=
  32 ≤ value.length && value.all fun c =>
    ('0' ≤ c && c ≤ '9') || ('a' ≤ c && c ≤ 'f') || ('A' ≤ c && c ≤ 'F')

def scopePrefixes : List String := ["docker-", "cri-containerd-", "crio-", "libpod-"]

/-- The container id in the path of one line. -/
def lineContainerId (line : List Char) : Option (List Char) :=
  let path := afterLast ':' line
  let component := afterLast '/' path
  let scope := scopePrefixes.findSome? fun before =>
    (stripBoth before.toList ".scope".toList component).filter (· ≠ [])
  -- The cgroupfs driver: `.../docker/<id>`.
  scope.or <|
    match (path.splitOn '/').reverse with
    | id :: parent :: _ =>
      if isContainerHex id ∧ parent = "docker".toList then some id else none
    | _ => none

/-- Extracts a container id from a `/proc/<pid>/cgroup` document or a cgroup directory path. -/
def containerId (contents : String) : Option String :=
  ((textLines contents.toList).findSome? lineContainerId).map String.ofList

example : containerId "0::/machine.slice/libpod-abcdef0123456789.scope" =
    some "abcdef0123456789" := by decide +kernel

/-! ## The tree -/

/-- A directory of the tree; its path may not be text. -/
inductive CgroupDir
  | mk (inode : UInt64) (path : Option String) (children : List CgroupDir)

abbrev InodeIndex := Table UInt64 (Option String)

def walkDepth : ℕ := 12

/-- Records every directory inode; without a container of its own a directory has that of the nearest
ancestor. -/
def walk : ℕ → List CgroupDir → Option String → InodeIndex → InodeIndex
  | 0, _, _, index => index
  | depth + 1, entries, inherited, index =>
    entries.foldl (fun index ⟨inode, path, children⟩ =>
      let container := (path.bind containerId).or inherited
      walk depth children container (index.upsert inode fun _ => container)) index

def walkTree (root : List CgroupDir) : InodeIndex := walk walkDepth root none ∅

/-! ## The index -/

structure CgroupIndex where
  byInode : InodeIndex := ∅
  refreshedAt : Option Instant := none

/-- Minimum age of an index before a miss walks the tree again. -/
def indexRefresh : Duration := fromSecs 5

namespace CgroupIndex

variable (tree : List CgroupDir) (now : Instant) (index : CgroupIndex)

def refreshIfStale : CgroupIndex :=
  if index.refreshedAt.all fun at' => indexRefresh ≤ now.saturatingDurationSince at' then
    { byInode := walkTree tree, refreshedAt := some now }
  else index

/-- The container that owns a cgroup inode; a miss refreshes a stale index. -/
def containerForInode (inode : UInt64) : Option String × CgroupIndex :=
  let index := if (index.byInode.find inode).isSome then index else index.refreshIfStale tree now
  ((index.byInode.find inode).join, index)

/-- An index of the tree as it is, or none yet. -/
structure Fresh : Prop where
  walked : index.refreshedAt.isSome → index.byInode = walkTree tree
  unwalked : index.refreshedAt = none → index.byInode = ∅

variable {tree now index}

theorem fresh_empty : Fresh tree {} where
  walked h := by cases h
  unwalked _ := rfl

theorem Fresh.refreshIfStale (h : index.Fresh tree) :
    (index.refreshIfStale tree now).byInode = walkTree tree ∧
      (index.refreshIfStale tree now).Fresh tree := by
  unfold CgroupIndex.refreshIfStale
  split
  · exact ⟨rfl, fun _ => rfl, fun hnone => by cases hnone⟩
  · next hstale =>
    refine ⟨h.walked ?_, h⟩
    by_contra hnone
    rw [Option.not_isSome_iff_eq_none] at hnone
    rw [hnone] at hstale
    exact hstale rfl

/-- What a fresh index answers is what the tree says, and it stays fresh. -/
theorem Fresh.containerForInode (h : index.Fresh tree) (inode : UInt64) :
    (index.containerForInode tree now inode).1 = ((walkTree tree).find inode).join ∧
      (index.containerForInode tree now inode).2.Fresh tree := by
  unfold CgroupIndex.containerForInode
  dsimp only
  split
  · next hhit =>
    have hwalked : index.byInode = walkTree tree := by
      refine h.walked ?_
      by_contra hnone
      rw [h.unwalked (Option.not_isSome_iff_eq_none.mp hnone)] at hhit
      cases hhit
    rw [hwalked]
    exact ⟨rfl, h⟩
  · obtain ⟨hwalked, hfresh⟩ := @Fresh.refreshIfStale tree now index h
    rw [hwalked]
    exact ⟨rfl, hfresh⟩

end CgroupIndex

end ZimaScope
