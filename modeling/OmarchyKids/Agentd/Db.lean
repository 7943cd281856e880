import Mathlib
import OmarchyKids.Common.Rfc3339

/-!
# OmarchyKids.Agentd.Db

The SQLite usage log. A table is the list of its rows in the order of their ids.
Timestamps stand in it as RFC 3339 texts, and queries compare those texts; a row
here holds the instant whose text it is, and `notBefore` is the comparison.

Every statement may fail: `Sql` gives the error text of each one, or `none` when
it succeeds.
-/

namespace OmarchyKids

/-! ### Tables -/

structure UsageSession where
  appId : String
  pid : UInt32
  startedAt : DateTime
  endedAt : Option DateTime := none
  durationSeconds : Option Int := none
  deriving DecidableEq, Repr

structure PinOverride where
  occurredAt : DateTime
  appId : String
  minutes : UInt32
  deriving DecidableEq, Repr

structure SecurityEvent where
  occurredAt : DateTime
  eventType : String
  severity : String
  detail : Option String
  deriving DecidableEq, Repr

structure Db where
  usageSessions : List UsageSession := []
  pinOverrides : List PinOverride := []
  securityEvents : List SecurityEvent := []
  deriving DecidableEq, Repr

/-- The steps of the log's operations that can fail. -/
inductive Stmt
  | insertSession
  | selectOpenSession
  /-- Not a statement: the stored start time is parsed back. -/
  | parseStartedAt
  | insertClosedSession
  | closeSessions
  | sumSeconds (app : Option String) (since : DateTime)
  | sumSecondsByApp
  | insertPinOverride
  | countPinOverrides
  | insertSecurityEvent
  | selectSecurityEvents
  | countOverrideFailures
  deriving DecidableEq, Repr

/-- Which steps fail, and with which error text. -/
abbrev Sql := Stmt → Option String

/-- No step fails. -/
def Sql.ok : Sql := fun _ => none

@[simp] theorem Sql.ok_apply (s : Stmt) : Sql.ok s = none := rfl

/-- Runs one step: its error, or the value. -/
def Sql.exec {α : Type} (sql : Sql) (stmt : Stmt) (value : α) : Except String α :=
  match sql stmt with
  | some e => .error e
  | none => .ok value

theorem Sql.exec_of_none {α : Type} {sql : Sql} {stmt : Stmt} (value : α)
    (h : sql stmt = none) : sql.exec stmt value = .ok value := by
  simp [Sql.exec, h]

@[simp] theorem Sql.exec_ok {α : Type} (stmt : Stmt) (value : α) :
    Sql.ok.exec stmt value = .ok value := rfl

/-- `t >= since` in SQL: a comparison of two texts. -/
def notBefore (since t : DateTime) : Bool := decide (toRfc3339 since ≤ toRfc3339 t)

/-- In years 0 to 9999 the comparison is that of the instants. -/
theorem notBefore_iff {since t : DateTime} (hsince : FourDigitYear since) (ht : FourDigitYear t) :
    notBefore since t = true ↔ since ≤ t := by
  rw [notBefore, decide_eq_true_iff, toRfc3339_le_iff hsince ht]

namespace Db

/-! ### Sessions -/

def startSession (sql : Sql) (db : Db) (app : String) (pid : UInt32) (startedAt : DateTime) :
    Except String Db :=
  sql.exec .insertSession { db with usageSessions := db.usageSessions ++ [{ appId := app, pid, startedAt }] }

/-- `app_id = ?1 AND pid = ?2 AND ended_at IS NULL`. -/
def isOpen (app : String) (pid : UInt32) (r : UsageSession) : Bool :=
  r.appId == app && r.pid == pid && r.endedAt.isNone

/-- The row an `UPDATE … SET ended_at, duration_seconds` leaves. -/
def closeRow (app : String) (pid : UInt32) (endedAt : DateTime) (duration : Int)
    (r : UsageSession) : UsageSession :=
  if isOpen app pid r then { r with endedAt := some endedAt, durationSeconds := some duration }
  else r

/-- `DateTime::parse_from_rfc3339` on a stored start: it reads years of four digits
only. -/
def parseStartedAt (sql : Sql) (startedAt : DateTime) : Except String DateTime :=
  if FourDigitYear startedAt then sql.exec .parseStartedAt startedAt
  else .error "parsing stored started_at: input contains invalid characters"

/-- Closes the open session of `(app, pid)`. The duration is that of the row
with the highest id; the update touches every open row of the pair. Without an
open row, a zero-length one is recorded. -/
def endSession (sql : Sql) (db : Db) (app : String) (pid : UInt32) (endedAt : DateTime) :
    Except String Db := do
  let openStartedAt ← sql.exec .selectOpenSession
    ((db.usageSessions.filter (isOpen app pid)).getLast?.map UsageSession.startedAt)
  match openStartedAt with
  | none =>
      sql.exec .insertClosedSession
        { db with usageSessions := db.usageSessions ++
            [{ appId := app, pid, startedAt := endedAt, endedAt := some endedAt,
               durationSeconds := some 0 }] }
  | some startedAt =>
      let started ← parseStartedAt sql startedAt
      let duration := max (numSeconds (endedAt - started)) 0
      sql.exec .closeSessions
        { db with usageSessions := db.usageSessions.map (closeRow app pid endedAt duration) }

/-- Where the open rows can be read and the newest start can be parsed. -/
theorem endSession_of_select {sql : Sql} {db : Db} {app : String} {pid : UInt32}
    {endedAt : DateTime} (hselect : sql .selectOpenSession = none) :
    db.endSession sql app pid endedAt =
      match (db.usageSessions.filter (isOpen app pid)).getLast?.map UsageSession.startedAt with
      | none =>
          sql.exec .insertClosedSession
            { db with usageSessions := db.usageSessions ++
                [{ appId := app, pid, startedAt := endedAt, endedAt := some endedAt,
                   durationSeconds := some 0 }] }
      | some startedAt =>
          match parseStartedAt sql startedAt with
          | .error e => .error e
          | .ok started =>
              let duration := max (numSeconds (endedAt - started)) 0
              sql.exec .closeSessions
                { db with usageSessions := db.usageSessions.map (closeRow app pid endedAt duration) } := by
  rw [endSession, Sql.exec_of_none _ hselect]
  change (match (db.usageSessions.filter (isOpen app pid)).getLast?.map UsageSession.startedAt with
    | none => _
    | some startedAt => _) = _
  cases (db.usageSessions.filter (isOpen app pid)).getLast?.map UsageSession.startedAt with
  | none => rfl
  | some startedAt =>
      dsimp only
      cases parseStartedAt sql startedAt <;> rfl

theorem endSession_of_select_error {sql : Sql} {db : Db} {app : String} {pid : UInt32}
    {endedAt : DateTime} {e : String} (hselect : sql .selectOpenSession = some e) :
    db.endSession sql app pid endedAt = .error e := by
  rw [endSession, Sql.exec, hselect]
  rfl

theorem parseStartedAt_of_year {sql : Sql} {startedAt : DateTime} (h : FourDigitYear startedAt) :
    parseStartedAt sql startedAt = sql.exec .parseStartedAt startedAt := if_pos h

theorem parseStartedAt_ok {sql : Sql} {startedAt started : DateTime}
    (h : parseStartedAt sql startedAt = .ok started) : started = startedAt := by
  unfold parseStartedAt Sql.exec at h
  split at h
  · cases hstmt : sql .parseStartedAt <;> rw [hstmt] at h <;> cases h
    rfl
  · cases h

/-! ### Usage -/

/-- `started_at >= ?1 AND ended_at IS NOT NULL`. -/
def completedSince (since : DateTime) (r : UsageSession) : Bool :=
  notBefore since r.startedAt && r.endedAt.isSome

/-- `COALESCE(SUM(duration_seconds), 0)`. -/
def sumDurations (rows : List UsageSession) : Int :=
  (rows.map fun r => r.durationSeconds.getD 0).sum

/-- Seconds of the completed sessions begun since `since`, optionally of one app. -/
def usedSecondsSince (sql : Sql) (db : Db) (app : Option String) (since : DateTime) :
    Except String Int :=
  sql.exec (.sumSeconds app since) <| sumDurations <| db.usageSessions.filter fun r =>
    completedSince since r && app.all (r.appId == ·)

structure AppUsageRow where
  app : String
  seconds : Int
  deriving DecidableEq, Repr

/-- The groups of `GROUP BY app_id`, before they are ordered. -/
def usageGroups (db : Db) (since : DateTime) : List AppUsageRow :=
  let rows := db.usageSessions.filter (completedSince since)
  (rows.map UsageSession.appId).dedup.map fun app =>
    ⟨app, sumDurations (rows.filter fun r => r.appId == app)⟩

/-- Seconds by app, most used first. The order of equal totals is SQLite's own. -/
def usageByAppSince (sql : Sql) (db : Db) (since : DateTime) : Except String (List AppUsageRow) :=
  sql.exec .sumSecondsByApp
    ((usageGroups db since).insertionSort fun a b => b.seconds ≤ a.seconds)

/-! ### Overrides and security events -/

/-- A `COUNT(*)` read as a `u32`. -/
def asCount (n : Nat) : Except String UInt32 :=
  if n < 2 ^ 32 then .ok (UInt32.ofNat n) else .error "integer out of range"

def insertPinOverride (sql : Sql) (db : Db) (app : String) (minutes : UInt32)
    (occurredAt : DateTime) : Except String Db :=
  sql.exec .insertPinOverride
    { db with pinOverrides := db.pinOverrides ++ [⟨occurredAt, app, minutes⟩] }

def pinOverrideCountSince (sql : Sql) (db : Db) (since : DateTime) : Except String UInt32 := do
  let n ← sql.exec .countPinOverrides
    (db.pinOverrides.filter fun r => notBefore since r.occurredAt).length
  asCount n

def insertSecurityEvent (sql : Sql) (db : Db) (eventType severity : String)
    (detail : Option String) (occurredAt : DateTime) : Except String Db :=
  sql.exec .insertSecurityEvent
    { db with securityEvents := db.securityEvents ++ [⟨occurredAt, eventType, severity, detail⟩] }

/-- Events since `since`, newest first. -/
def recentSecurityEvents (sql : Sql) (db : Db) (since : DateTime) :
    Except String (List SecurityEvent) :=
  sql.exec .selectSecurityEvents
    ((db.securityEvents.filter fun r => notBefore since r.occurredAt).insertionSort
      fun a b => notBefore b.occurredAt a.occurredAt)

/-- Failed-override attempts for one app since `since`. -/
def recentOverrideFailureCount (sql : Sql) (db : Db) (app : String) (since : DateTime) :
    Except String UInt32 := do
  let n ← sql.exec .countOverrideFailures
    (db.securityEvents.filter fun r =>
      r.eventType == "override_failed" && r.detail == some app &&
        notBefore since r.occurredAt).length
  asCount n

end Db

end OmarchyKids
