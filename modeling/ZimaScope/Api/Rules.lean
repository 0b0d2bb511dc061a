import ZimaScope.Api.Settings
import ZimaScope.Lib.Storage
import ZimaScope.Policy.Compile

/-! # Stored Traffic Rules

The table of Traffic Rules, the drafts requests are turned into, and what each
statement reads and writes. A row written from a valid draft reads back as the
rule of that draft.
-/

namespace ZimaScope

namespace RuleDirection

def asStr : RuleDirection → String
  | .inbound => "inbound"
  | .outbound => "outbound"
  | .both => "both"

/-- Parses a storage or wire name. -/
def fromName (name : String) : Option RuleDirection :=
  if name = "inbound" then some .inbound
  else if name = "outbound" then some .outbound
  else if name = "both" then some .both
  else none

@[simp] theorem fromName_asStr (d : RuleDirection) : fromName d.asStr = some d := by
  cases d <;> rfl

end RuleDirection

/-- Storage and wire name for a kernel rule action. -/
def actionName : RuleAction → String
  | .limit => "limit"
  | .block => "block"

def actionFromName (name : String) : Option RuleAction :=
  if name = "limit" then some .limit else if name = "block" then some .block else none

@[simp] theorem actionFromName_actionName (a : RuleAction) :
    actionFromName (actionName a) = some a := by
  cases a <;> rfl

/-- Everything a client decides about a rule. -/
structure TrafficRuleDraft where
  action : ActionSpec
  direction : RuleDirection
  selector : Selector
  enabled : Bool
  deriving DecidableEq, Repr

/-- A rule with the times it was created and changed at, in milliseconds. -/
structure TrafficRuleRecord where
  rule : TrafficRule
  createdAt : ℤ
  updatedAt : ℤ
  deriving DecidableEq, Repr

/-- One row of `traffic_rules`. The selector column holds JSON, which reads back as
the selector it was written from. -/
structure RawTrafficRule where
  id : ℕ
  action : String
  direction : String
  selectorJson : Selector
  rateBytesPerS : Option ℤ
  burstBytes : Option ℤ
  enabled : ℤ
  createdAtMs : ℤ
  updatedAtMs : ℤ
  deriving DecidableEq, Repr

/-- `n as i64` for a 64-bit `n`. -/
def asI64 (n : ℕ) : ℤ := (n : ℤ).bmod (2 ^ 64)

theorem asI64_of_lt {n : ℕ} (h : n < 2 ^ 63) : asI64 n = n := by
  unfold asI64
  apply Int.bmod_eq_of_le <;> omega

/-- The time of a stored timestamp, in milliseconds after the epoch. -/
def unixMillisTime (millis : ℤ) : ℤ := max millis 0

def RawTrafficRule.intoRecord (row : RawTrafficRule) : Except ApiError TrafficRuleRecord :=
  match actionFromName row.action with
  | none => .error (.internal s!"traffic rule {row.id} has unknown action {repr row.action}")
  | some action =>
    match RuleDirection.fromName row.direction with
    | none =>
      .error (.internal s!"traffic rule {row.id} has unknown direction {repr row.direction}")
    | some direction =>
      let rate := (row.rateBytesPerS.getD 0).toNat
      let burst := (row.burstBytes.getD 0).toNat
      .ok {
        rule := {
          id := .ofNat row.id
          action := match action with
            | .limit => .limit rate burst
            | .block => .block
          direction
          selector := row.selectorJson
          enabled := row.enabled ≠ 0 }
        createdAt := unixMillisTime row.createdAtMs
        updatedAt := unixMillisTime row.updatedAtMs }

/-- The columns a draft is written to. -/
def TrafficRuleDraft.writeTo (draft : TrafficRuleDraft) (now : ℤ) (row : RawTrafficRule) :
    RawTrafficRule :=
  { row with
    action := actionName draft.action.action
    direction := draft.direction.asStr
    selectorJson := draft.selector
    rateBytesPerS := some (asI64 draft.action.rates.1)
    burstBytes := some (asI64 draft.action.rates.2)
    enabled := if draft.enabled then 1 else 0
    updatedAtMs := now }

/-- The columns of a new row. -/
def TrafficRuleDraft.newRow (draft : TrafficRuleDraft) (id : ℕ) (now : ℤ) : RawTrafficRule :=
  draft.writeTo now {
    id
    action := ""
    direction := ""
    selectorJson := draft.selector
    rateBytesPerS := none
    burstBytes := none
    enabled := 0
    createdAtMs := now
    updatedAtMs := now }

theorem ascending_nil : ([] : List RawTrafficRule).Pairwise fun a b => a.id < b.id := .nil

/-- The `traffic_rules` table, in the order of its primary key. -/
structure RuleTable where
  rows : List RawTrafficRule := []
  ascending : rows.Pairwise fun a b => a.id < b.id := by exact ascending_nil

namespace RuleTable

instance : DecidableEq RuleTable := fun a b =>
  decidable_of_iff (a.rows = b.rows) ⟨fun h => by cases a; cases b; simp_all, fun h => by rw [h]⟩

def find (t : RuleTable) (id : ℕ) : Option RawTrafficRule := t.rows.find? fun row => row.id = id

/-- The key SQLite gives a new row: one more than the largest. -/
def nextId (t : RuleTable) : ℕ := (t.rows.getLast?.elim 0 RawTrafficRule.id) + 1

theorem lt_nextId (t : RuleTable) {row : RawTrafficRule} (h : row ∈ t.rows) :
    row.id < t.nextId := by
  obtain ⟨rows, ha⟩ := t
  induction rows using List.reverseRecOn with
  | nil => simp at h
  | append_singleton rows last =>
    simp only [nextId, List.getLast?_concat, Option.elim_some]
    rcases List.mem_append.mp h with h | h
    · exact Nat.lt_succ_of_lt ((List.pairwise_append.mp ha).2.2 row h last List.mem_cons_self)
    · rw [List.mem_singleton.mp h]
      exact Nat.lt_succ_self _

def insert (t : RuleTable) (draft : TrafficRuleDraft) (now : ℤ) : RuleTable where
  rows := t.rows ++ [draft.newRow t.nextId now]
  ascending := by
    refine List.pairwise_append.mpr ⟨t.ascending, List.pairwise_singleton _ _, ?_⟩
    intro a ha b hb
    rw [List.mem_singleton.mp hb]
    exact t.lt_nextId ha

/-- `UPDATE .. WHERE id`, with a change that keeps the primary key. -/
def update (t : RuleTable) (id : ℕ) (draft : TrafficRuleDraft) (now : ℤ) : RuleTable where
  rows := t.rows.map fun row => if row.id = id then draft.writeTo now row else row
  ascending := by
    have hid : ∀ row : RawTrafficRule,
        (if row.id = id then draft.writeTo now row else row).id = row.id := by
      intro row
      split <;> rfl
    simpa [List.pairwise_map, hid] using t.ascending

def delete (t : RuleTable) (id : ℕ) : RuleTable where
  rows := t.rows.filter fun row => row.id ≠ id
  ascending := t.ascending.sublist List.filter_sublist

section Lookups

variable {t : RuleTable} {id : ℕ} {draft : TrafficRuleDraft} {now : ℤ}

theorem find_insert : (t.insert draft now).find t.nextId = some (draft.newRow t.nextId now) := by
  have hnone : t.rows.find? (fun r => r.id = t.nextId) = none :=
    List.find?_eq_none.mpr fun r hr => by simpa using (t.lt_nextId hr).ne
  have hid : (draft.newRow t.nextId now).id = t.nextId := rfl
  simp [RuleTable.find, RuleTable.insert, List.find?_append, hnone, hid]

theorem find_update {row : RawTrafficRule} (h : t.find id = some row) :
    (t.update id draft now).find id = some (draft.writeTo now row) := by
  obtain ⟨rows, ha⟩ := t
  change rows.find? (fun r => r.id = id) = some row at h
  change (rows.map fun r => if r.id = id then draft.writeTo now r else r).find?
    (fun r => r.id = id) = _
  have hid : ∀ r : RawTrafficRule,
      decide ((if r.id = id then draft.writeTo now r else r).id = id) = decide (r.id = id) := by
    intro r
    split <;> rfl
  have hrow := List.find?_some h
  rw [List.find?_map, show ((fun r : RawTrafficRule => decide (r.id = id)) ∘
    fun r => if r.id = id then draft.writeTo now r else r) = fun r => decide (r.id = id) from
      funext hid, h]
  simp only [decide_eq_true_eq] at hrow
  simp [hrow]

theorem update_of_find_none (h : t.find id = none) :
    t.update id draft now = t := by
  obtain ⟨rows, ha⟩ := t
  have hne : ∀ row ∈ rows, row.id ≠ id := by simpa [RuleTable.find] using h
  have hmap : (rows.map fun row => if row.id = id then draft.writeTo now row else row) = rows := by
    rw [List.map_congr_left fun row hr => if_neg (hne row hr), List.map_id']
  simp only [RuleTable.update, hmap]

theorem delete_of_find_none (h : t.find id = none) : t.delete id = t := by
  obtain ⟨rows, ha⟩ := t
  have hne : ∀ row ∈ rows, row.id ≠ id := by simpa [RuleTable.find] using h
  have hfilter : (rows.filter fun row => row.id ≠ id) = rows :=
    List.filter_eq_self.mpr fun row hr => by simpa using hne row hr
  simp only [RuleTable.delete, hfilter]

end Lookups

end RuleTable

/-- What rule and settings requests read and write of the storage, with the in-memory
token that advances on every rule mutation. -/
structure RuleDb where
  trafficRules : RuleTable := {}
  settings : Option (Settings × ℕ) := none
  rulesRevision : ℕ := 0
  deriving DecidableEq

namespace RuleDb

abbrev Action := Storage ApiError RuleDb

def listTrafficRules : Action (List TrafficRuleRecord) := do
  let rows ← .query .ofStorage fun db => db.trafficRules.rows
  .ofExcept (rows.mapM RawTrafficRule.intoRecord)

def trafficRule (id : ℕ) : Action TrafficRuleRecord := do
  let row ← .query .ofStorage fun db => db.trafficRules.find id
  match row with
  | some row => .ofExcept row.intoRecord
  | none => .ofExcept (.error (.notFound s!"traffic rule {id}"))

/-- The in-memory counter moves on; no statement runs. -/
def nextRevision : Action Unit := fun c =>
  (.ok (), { c with store.rulesRevision := c.store.rulesRevision + 1 })

def insertTrafficRule (draft : TrafficRuleDraft) (now : ℤ) : Action TrafficRuleRecord := do
  let id ← .statement .ofStorage fun db =>
    (db.trafficRules.nextId, { db with trafficRules := db.trafficRules.insert draft now })
  nextRevision
  trafficRule id

def updateTrafficRule (id : ℕ) (draft : TrafficRuleDraft) (now : ℤ) : Action TrafficRuleRecord := do
  let changed ← .statement .ofStorage fun db =>
    ((db.trafficRules.find id).isSome,
      { db with trafficRules := db.trafficRules.update id draft now })
  if !changed then .ofExcept (.error (.notFound s!"traffic rule {id}"))
  else do
    nextRevision
    trafficRule id

def deleteTrafficRule (id : ℕ) : Action Unit := do
  let changed ← .statement .ofStorage fun db =>
    ((db.trafficRules.find id).isSome, { db with trafficRules := db.trafficRules.delete id })
  if !changed then .ofExcept (.error (.notFound s!"traffic rule {id}"))
  else nextRevision

/-- The retention deletes of a settings save: they touch no table kept here, and may fail. -/
def enforcePolicy : Action Unit := .execute .ofStorage id

def saveSettings (settings : Settings) (version : ℕ) : Action Unit := do
  .execute .ofStorage fun db => { db with settings := some (settings, version) }
  enforcePolicy

/-- The settings a restart reads back. -/
def loadSettings (db : RuleDb) : Settings × ℕ := db.settings.getD ({}, 0)

end RuleDb

end ZimaScope
