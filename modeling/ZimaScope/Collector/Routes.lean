import ZimaScope.Collector.Interfaces
import ZimaScope.Common.Cgroup
import ZimaScope.Common.Numerals
import ZimaScope.Lib.Columns
import ZimaScope.Lib.Least

/-! # Default routes

The routing table that the kernel prints, read back from its text, and the default route that is
selected from it. Neither the spacing nor the width of the columns matters.
-/

namespace ZimaScope

/-- `str::split_whitespace` -/
def splitWhitespace (line : List Char) : List (List Char) := Columns.words isWhiteSpace line

/-- One `default` row of the table. -/
structure DefaultRoute where
  name : String
  metric : ℕ
  deriving DecidableEq, Repr

/-- The row of a line, if it is a default route that is up. -/
def defaultRow (line : List Char) : Option DefaultRoute :=
  match splitWhitespace line with
  | name :: destination :: _gateway :: flags :: _refCount :: _use :: metric :: _ =>
    if destination ≠ "00000000".toList then none
    else if (fromStrRadix 16 (2 ^ 32) flags).getD 0 &&& 1 = 0 then none
    else some ⟨String.ofList name, (parseUnsigned (2 ^ 32) metric).getD (2 ^ 32 - 1)⟩
  | _ => none

/-- Parses the IPv4 default routes. -/
def parseDefaultRoutes (contents : String) : List DefaultRoute :=
  ((textLines contents.toList).drop 1).filterMap defaultRow

/-- Picks the default-route interface: the best physical candidate first, then the best of the
others, never loopback. -/
def selectDefaultRoute (routes : List DefaultRoute) (kindOf : String → InterfaceKind) :
    Option DefaultRoute :=
  let candidates := (routes.filter fun route => kindOf route.name ≠ .loopback).insertionSort
    fun a b => a.metric ≤ b.metric
  (candidates.find? fun route => (kindOf route.name).isPhysical).or candidates.head?

/-! ## The table -/

/-- `%d` -/
def signedText : ℤ → List Char
  | .ofNat n => decText n
  | .negSucc n => '-' :: decText (n + 1)

/-- A route as the kernel has it. A metric that does not fit in 31 bits is printed with a sign. -/
structure RouteRow where
  name : String
  destination : UInt32
  gateway : List Char
  flags : UInt32
  refCount : List Char
  use : List Char
  metric : Int32
  rest : List (List Char)

namespace RouteRow

def columns (row : RouteRow) : List (List Char) :=
  [row.name.toList, hexText 8 row.destination.toNat, row.gateway, hexText 4 row.flags.toNat,
    row.refCount, row.use, signedText row.metric.toInt] ++ row.rest

/-- A default route that is up. -/
def IsDefault (row : RouteRow) : Prop := row.destination = 0 ∧ row.flags &&& 1 ≠ 0

instance (row : RouteRow) : Decidable row.IsDefault := inferInstanceAs (Decidable (_ ∧ _))

/-- A metric with a sign counts as the largest one. -/
def route (row : RouteRow) : DefaultRoute where
  name := row.name
  metric := if 0 ≤ row.metric.toInt then row.metric.toInt.toNat else 2 ^ 32 - 1

end RouteRow

/-- A text that shows these rows below its header. -/
structure RouteTable (rows : List RouteRow) (contents : String) : Prop where
  lines : ∃ header lines, contents.toList = Columns.unlines '\n' (header :: lines) ∧
    (∀ line ∈ header :: lines, Columns.IsLine '\n' '\r' line) ∧
    List.Forall₂ (fun row line => Columns.Spaced isWhiteSpace row.columns line) rows lines

section Rows

variable {row : RouteRow} {rows : List RouteRow} {line : List Char} {contents : String}

theorem textLines_eq (text : List Char) : textLines text = Columns.lines '\n' '\r' text := by
  unfold textLines Columns.lines
  simp only
  rw [List.getLastD_eq_getLast?]
  cases (text.splitOn '\n').getLast? with
  | none => exact (List.append_nil _).symm
  | some rest =>
    rw [Option.getD_some]
    by_cases hrest : rest = []
    · rw [if_pos hrest, Option.filter_some_neg (by simpa using hrest)]
      exact (List.append_nil _).symm
    · rw [if_neg hrest, Option.filter_some_pos (by simpa using hrest)]
      rfl

theorem parse_signedText {z : ℤ} (hz : z < 2 ^ 31) :
    (parseUnsigned (2 ^ 32) (signedText z)).getD (2 ^ 32 - 1) = if 0 ≤ z then z.toNat else 2 ^ 32 - 1 := by
  cases z with
  | ofNat n =>
    have hn : n < 2 ^ 32 := by
      rw [Int.ofNat_eq_natCast] at hz
      omega
    rw [if_pos (show 0 ≤ Int.ofNat n from Int.natCast_nonneg n)]
    exact congrArg (Option.getD · _) (parseUnsigned_decText hn)
  | negSucc n =>
    have hsign : parseUnsigned (2 ^ 32) ('-' :: decText (n + 1)) = none := by
      unfold parseUnsigned
      simp
    rw [if_neg (Int.negSucc_not_nonneg n).mp]
    exact congrArg (Option.getD · _) hsign

theorem defaultRow_of_spaced (h : Columns.Spaced isWhiteSpace row.columns line) :
    defaultRow line = if row.IsDefault then some row.route else none := by
  have hzero : "00000000".toList = hexText 8 0 := by decide
  have hdestination : hexText 8 row.destination.toNat ≠ "00000000".toList ↔ row.destination ≠ 0 := by
    rw [hzero, hexText_injective.ne_iff, ← UInt32.toNat_inj.ne]
    rfl
  have hflags : (fromStrRadix 16 (2 ^ 32) (hexText 4 row.flags.toNat)).getD 0 &&& 1 = 0 ↔
      row.flags &&& 1 = 0 := by
    rw [fromStrRadix_hexText row.flags.toNat_lt, ← UInt32.toNat_inj, UInt32.toNat_and]
    rfl
  have hwords : splitWhitespace line = row.columns := h.words_eq
  unfold defaultRow
  rw [hwords]
  simp only [RouteRow.columns, List.cons_append, List.nil_append, hdestination, hflags, String.ofList_toList,
    parse_signedText row.metric.toInt_lt]
  by_cases hd : row.destination = 0
  · by_cases hf : row.flags &&& 1 = 0
    · simp [RouteRow.IsDefault, hd, hf]
    · simp [RouteRow.IsDefault, RouteRow.route, hd, hf]
  · simp [RouteRow.IsDefault, hd]

/-- The table is read back. -/
theorem parseDefaultRoutes_of_table (h : RouteTable rows contents) :
    parseDefaultRoutes contents = (rows.filter fun row => row.IsDefault).map RouteRow.route := by
  obtain ⟨header, lines, hcontents, hlines, hrows⟩ := h.lines
  have htext : textLines contents.toList = header :: lines := by
    rw [textLines_eq, hcontents]
    exact Columns.lines_unlines hlines
  unfold parseDefaultRoutes
  rw [htext, List.drop_succ_cons, List.drop_zero]
  clear h hcontents hlines htext
  induction hrows with
  | nil => rfl
  | @cons row line rows lines hrow _ ih =>
    rw [List.filterMap_cons, defaultRow_of_spaced hrow, List.filter_cons]
    by_cases hdefault : row.IsDefault
    · simpa [hdefault] using ih
    · simpa [hdefault] using ih

/-- The selected route is the least one by its metric, and the first of these, among those of
physical interfaces, and else among those of all but loopback. -/
theorem selectDefaultRoute_eq (routes : List DefaultRoute) (kindOf : String → InterfaceKind) :
    selectDefaultRoute routes kindOf =
      ((routes.filter fun route => (kindOf route.name).isPhysical).argmin DefaultRoute.metric).or
        ((routes.filter fun route => kindOf route.name ≠ .loopback).argmin DefaultRoute.metric) := by
  have hphysical : (routes.filter fun route => kindOf route.name ≠ .loopback).filter
      (fun route => (kindOf route.name).isPhysical) =
        routes.filter fun route => (kindOf route.name).isPhysical := by
    rw [List.filter_filter]
    refine List.filter_congr fun route _ => ?_
    cases kindOf route.name <;> rfl
  have hhead (l : List DefaultRoute) : l.head? = l.find? fun _ => true := by cases l <;> rfl
  unfold selectDefaultRoute
  simp only
  rw [hhead, List.find?_insertionSort, List.find?_insertionSort, hphysical, List.filter_true]

end Rows

/-- The default route of a table, however it is spaced: the first of those with the least metric,
among the routes of physical interfaces, and where there are none, among those of all but loopback. -/
theorem default_route_of_table {rows : List RouteRow} {contents : String}
    (h : RouteTable rows contents) (kindOf : String → InterfaceKind) :
    selectDefaultRoute (parseDefaultRoutes contents) kindOf =
      let routes := (rows.filter fun row => row.IsDefault).map RouteRow.route
      ((routes.filter fun route => (kindOf route.name).isPhysical).argmin DefaultRoute.metric).or
        ((routes.filter fun route => kindOf route.name ≠ .loopback).argmin DefaultRoute.metric) := by
  rw [parseDefaultRoutes_of_table h]
  exact selectDefaultRoute_eq _ kindOf

/-- A word without blanks. -/
def isSolid (word : List Char) : Bool := !word.isEmpty && word.all fun c => !isWhiteSpace c

theorem isWord_of_isSolid {word : List Char} (h : isSolid word = true) :
    Columns.IsWord isWhiteSpace word := by
  unfold isSolid at h
  rw [Bool.and_eq_true, List.all_eq_true] at h
  constructor
  · rintro rfl
    exact absurd h.1 (by decide)
  · intro c hc
    simpa using h.2 c hc

/-- A tunnel with a small metric and an uplink. -/
def twoRoutes : List RouteRow :=
  [⟨"wg0", 0, "00000000".toList, 3, ['0'], ['0'], 50, []⟩,
    ⟨"eth0", 0, "0102A8C0".toList, 3, ['0'], ['0'], 100, ["00000000".toList]⟩]

def twoRoutesText : String :=
  "Iface\tDestination\nwg0\t00000000\t00000000\t0003\t0\t0\t50\n" ++
    "eth0\t00000000\t0102A8C0\t0003\t0\t0\t100\t00000000\n"

theorem twoRoutes_table : RouteTable twoRoutes twoRoutesText := by
  have hword : (twoRoutes.all fun row => row.columns.all isSolid) = true := by decide +kernel
  have hspaced : ∀ row ∈ twoRoutes,
      Columns.Spaced isWhiteSpace row.columns (['\t'].intercalate row.columns) := by
    intro row hrow
    refine Columns.spaced_intercalate (by decide) fun part hpart => ?_
    exact isWord_of_isSolid (List.all_eq_true.mp (List.all_eq_true.mp hword row hrow) part hpart)
  refine ⟨"Iface\tDestination".toList, twoRoutes.map fun row => ['\t'].intercalate row.columns,
    by decide +kernel, ?_, ?_⟩
  · have hline : ∀ line ∈ "Iface\tDestination".toList ::
        twoRoutes.map fun row => ['\t'].intercalate row.columns,
        '\n' ∉ line ∧ line.getLast? ≠ some '\r' := by decide +kernel
    exact fun line hmem => ⟨(hline line hmem).1, (hline line hmem).2⟩
  · exact .cons (hspaced _ List.mem_cons_self)
      (.cons (hspaced _ (List.mem_cons_of_mem _ List.mem_cons_self)) .nil)

/-- The uplink is taken, though its metric is larger. -/
theorem twoRoutes_selected :
    selectDefaultRoute (parseDefaultRoutes twoRoutesText)
      (fun name => if name = "eth0" then .physical else .wireguard) = some ⟨"eth0", 100⟩ := by
  rw [default_route_of_table twoRoutes_table]
  decide +kernel

end ZimaScope
