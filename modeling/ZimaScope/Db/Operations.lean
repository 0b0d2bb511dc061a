import ZimaScope.Db.Interval

/-! # Operations

What a daemon does to its database, one operation at a time, and what each
leaves when it succeeds.
-/

namespace ZimaScope

open TrafficDb Storage

inductive Operation
  | ingest (input : IngestInput)
  | enforcePolicy (settings : Settings) (nowInstant : Instant) (now : SystemTime)
  | saveSettings (settings : Settings) (nowInstant : Instant) (now : SystemTime)
  | clearHistory
  | restart (flowCapacity : ℕ)

namespace Operation

variable (flowId : FlowKey → UInt64)

/-- The operation leads from one state to another, and none of its statements fails. -/
inductive Succeeds : Operation → TrafficDb → TrafficDb → Prop
  | ingest {input : IngestInput} {event : StreamEvent} {c c' : Conn TrafficDb}
      (h : tryIngest flowId input c = (.ok event, c')) : Succeeds (.ingest input) c.store c'.store
  | enforcePolicy {settings : Settings} {nowInstant : Instant} {now : SystemTime}
      {c c' : Conn TrafficDb} (h : TrafficDb.enforcePolicy settings nowInstant now c = (.ok (), c')) :
      Succeeds (.enforcePolicy settings nowInstant now) c.store c'.store
  | saveSettings {settings : Settings} {nowInstant : Instant} {now : SystemTime}
      {c c' : Conn TrafficDb} (h : TrafficDb.saveSettings settings nowInstant now c = (.ok (), c')) :
      Succeeds (.saveSettings settings nowInstant now) c.store c'.store
  | clearHistory {c : Conn TrafficDb} (h : (clearDeletes.forM execute c).1 = .ok ()) :
      Succeeds .clearHistory c.store (TrafficDb.clearHistory c).2.store
  | restart {db : TrafficDb} {flowCapacity : ℕ} :
      Succeeds (.restart flowCapacity) db (TrafficDb.restart db.tables flowCapacity)

/-- What a successful operation leaves. -/
def Effect (db db' : TrafficDb) : Operation → Prop
  | .ingest input => ∃ stored touched event, Interval input flowId db stored touched event db'
  | .enforcePolicy settings nowInstant now => db' = db.enforced settings nowInstant now
  | .saveSettings settings nowInstant now => db' = db.enforced settings nowInstant now
  | .clearHistory => db'.tables = Tables.after clearDeletes db.tables
  | .restart _ => db'.tables = db.tables

variable {flowId} {op : Operation} {db db' : TrafficDb}

theorem Succeeds.effect (h : op.Succeeds flowId db db') : op.Effect flowId db db' := by
  cases h with
  | @ingest input event c c' h =>
    obtain ⟨stored, touched, hinterval⟩ := ends_tryIngest.of_eq h rfl
    exact ⟨stored, touched, event, hinterval⟩
  | enforcePolicy h => exact ends_enforcePolicy.of_eq h rfl
  | @saveSettings settings nowInstant now c c' h =>
    have hends : Ends (TrafficDb.saveSettings settings nowInstant now)
        (fun _ s => s = c.store.enforced settings nowInstant now) c.store :=
      .bind (ends_execute ends_enforcePolicy)
    exact hends.of_eq h rfl
  | @clearHistory c h =>
    generalize hrun : clearDeletes.forM execute c = run at h
    obtain ⟨result, c₁⟩ := run
    obtain rfl : result = .ok () := h
    have hcleared : (TrafficDb.clearHistory c).2.store = { c₁.store with storedRates := ∅ } := by
      unfold TrafficDb.clearHistory
      rw [hrun]
    rw [hcleared, ends_forM_execute.of_eq hrun rfl]
    rfl
  | restart => rfl

end Operation

end ZimaScope
