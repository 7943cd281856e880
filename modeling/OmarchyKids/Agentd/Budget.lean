import OmarchyKids.Agentd.State

/-!
# OmarchyKids.Agentd.Budget

Time budgets and blocked windows: functions of the policy, the usage log and the
running sessions.

Today's usage is a sum of two halves, the completed sessions of the log and the
running ones of the map. Both halves pick sessions by their *start*.
-/

namespace OmarchyKids.Budget

/-- The extra minute past a daily or per-app limit. Windows get none. -/
def graceMinutes : UInt32 := 1

/-- Local midnight of the day `nowLocal` falls in; `nowLocal` itself where the
clock shows midnight never or twice. -/
def localMidnightUtc (zone : Zone) (nowLocal : DateTime) : DateTime :=
  ((zone.fromLocal ⟨(zone.toLocal nowLocal).date, 0⟩).single?).getD nowLocal

/-! ### Usage -/

/-- Seconds a running session has lasted so far. -/
def liveSeconds (now : DateTime) (s : ActiveSession) : Int :=
  max (numSeconds (now - s.startedAt)) 0

/-- Whole minutes of a number of seconds, cast `as u32`. -/
def minutesOf (seconds : Int) : UInt32 := UInt32.ofInt (seconds.tdiv 60)

def computeDailyUsedMinutes (sql : Sql) (db : Db) (active : ActiveMap) (sinceMidnight : DateTime)
    (now : DateTime) : Except String UInt32 := do
  let completed ← db.usedSecondsSince sql none sinceMidnight
  let live := ((active.values.filter fun s => decide (sinceMidnight ≤ s.startedAt)).map
    (liveSeconds now)).sum
  return minutesOf (completed + live)

def computeAppUsedMinutes (sql : Sql) (db : Db) (active : ActiveMap) (app : String)
    (sinceMidnight : DateTime) (now : DateTime) : Except String UInt32 := do
  let completed ← db.usedSecondsSince sql (some app) sinceMidnight
  let live := ((active.values.filter fun s =>
    s.app == app && decide (sinceMidnight ≤ s.startedAt)).map (liveSeconds now)).sum
  return minutesOf (completed + live)

/-! ### Windows -/

/-- The part of a window that falls on its own weekday. -/
def coversFromStart (parseTime : String → Option NaiveTime) (w : Window) (time : NaiveTime) : Bool :=
  match parseTime w.start, parseTime w.end with
  | some start, some stop =>
      if start ≤ stop then decide (start ≤ time) && decide (time < stop) else decide (start ≤ time)
  | _, _ => false

/-- The part of yesterday's window that reaches into today. -/
def coversUntilEndWrap (parseTime : String → Option NaiveTime) (w : Window) (time : NaiveTime) :
    Bool :=
  match parseTime w.start, parseTime w.end with
  | some start, some stop => decide (stop < start) && decide (time < stop)
  | _, _ => false

def inBlockedWindow (p : Platform) (config : Config) (nowLocal : DateTime) : Bool :=
  let now := p.zone.toLocal nowLocal
  (config.windowsToday now.weekday).any (fun w => coversFromStart p.parseTime w now.time) ||
    (config.windowsToday now.weekday.pred).any fun w => coversUntilEndWrap p.parseTime w now.time

/-- Minutes until the next window that starts today, if one does. -/
def minutesUntilNextWindowStart (p : Platform) (config : Config) (nowLocal : DateTime) :
    Option Nat :=
  let now := p.zone.toLocal nowLocal
  (((config.windowsToday now.weekday).filterMap fun w => p.parseTime w.start).filter
    (now.time < ·)).map (fun start => (start - now.time) / 60000000000) |>.min?

end OmarchyKids.Budget
