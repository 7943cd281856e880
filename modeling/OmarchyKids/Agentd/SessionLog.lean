import Mathlib
import OmarchyKids.Agentd.Restarts
import OmarchyKids.Lib.LastMatch

/-!
# OmarchyKids.Agentd.SessionLog

What one start or stop does to the usage log and to the active map.

`end_session` reads the newest open row of the pair and updates all of them, so
it ends one session exactly when there is only one to end
(`endSession_endsNewest_iff`). A stop erases the map's entry before it writes to
the log, a start writes to the log first: of the two only a failed stop leaves a
trace (`failed_session_request_keeps_sessions_iff`).
-/

namespace OmarchyKids

open Daemon LastMatch

/-! ### Ending one session -/

namespace UsageSession

/-- Whole seconds from the start of a session to its end. -/
def secondsUntil (endedAt : DateTime) (r : UsageSession) : Int :=
  max (numSeconds (endedAt - r.startedAt)) 0

/-- The row of a session that has ended. -/
def close (endedAt : DateTime) (r : UsageSession) : UsageSession :=
  { r with endedAt := some endedAt, durationSeconds := some (r.secondsUntil endedAt) }

/-- The row of a stop whose start is not in the log. -/
def zeroLength (app : String) (pid : UInt32) (endedAt : DateTime) : UsageSession where
  appId := app
  pid := pid
  startedAt := endedAt
  endedAt := some endedAt
  durationSeconds := some 0

/-- Seconds a row stands for, once it is closed. -/
def completedSeconds (r : UsageSession) : Int :=
  if r.endedAt.isSome then r.durationSeconds.getD 0 else 0

end UsageSession

namespace Db

def completedSeconds (db : Db) : Int := (db.usageSessions.map UsageSession.completedSeconds).sum

/-- The most recently opened row of the pair that is still open. -/
def newestOpenRow (db : Db) (app : String) (pid : UInt32) : Option UsageSession :=
  (db.usageSessions.filter (isOpen app pid)).getLast?

/-- What ending a session is for: the newest open row is closed with its own
duration and every other row stays, or a row of no length is added where none is
open; the completed seconds grow by the length of the session. -/
structure EndsNewest (app : String) (pid : UInt32) (endedAt : DateTime) (db db' : Db) : Prop where
  rows : db'.usageSessions =
    if (db.newestOpenRow app pid).isSome then
      modifyLast (isOpen app pid) (UsageSession.close endedAt) db.usageSessions
    else db.usageSessions ++ [UsageSession.zeroLength app pid endedAt]
  overrides : db'.pinOverrides = db.pinOverrides
  events : db'.securityEvents = db.securityEvents
  total : db'.completedSeconds = db.completedSeconds +
    ((db.newestOpenRow app pid).elim 0 fun r => r.secondsUntil endedAt)

/-- What it does where every step works: it closes all open rows of the pair with
the duration of the newest. -/
theorem endSession_ok {sql : Sql} {db db' : Db} {app : String} {pid : UInt32} {endedAt : DateTime}
    (h : db.endSession sql app pid endedAt = .ok db') :
    db' = { db with usageSessions :=
      match db.newestOpenRow app pid with
      | none => db.usageSessions ++ [UsageSession.zeroLength app pid endedAt]
      | some r => db.usageSessions.map (closeRow app pid endedAt (r.secondsUntil endedAt)) } := by
  rw [newestOpenRow]
  cases hselect : sql .selectOpenSession with
  | some e =>
      rw [endSession_of_select_error hselect] at h
      cases h
  | none =>
      rw [endSession_of_select hselect] at h
      cases hnewest : (db.usageSessions.filter (isOpen app pid)).getLast? with
      | none =>
          rw [hnewest] at h
          simp only [Option.map_none, Sql.exec] at h
          cases hinsert : sql .insertClosedSession <;> rw [hinsert] at h <;> cases h
          rfl
      | some r =>
          rw [hnewest] at h
          simp only [Option.map_some, Sql.exec] at h
          cases hparse : parseStartedAt sql r.startedAt with
          | error e =>
              rw [hparse] at h
              cases h
          | ok started =>
              obtain rfl := parseStartedAt_ok hparse
              rw [hparse] at h
              cases hclose : sql .closeSessions <;> simp only [hclose] at h <;> cases h
              rfl

theorem isOpen_of_newestOpenRow {db : Db} {app : String} {pid : UInt32} {r : UsageSession}
    (h : db.newestOpenRow app pid = some r) : isOpen app pid r = true :=
  (List.mem_filter.mp (List.mem_of_getLast? h)).2

theorem endedAt_of_isOpen {app : String} {pid : UInt32} {r : UsageSession}
    (h : isOpen app pid r = true) : r.endedAt = none := by
  simp only [isOpen, Bool.and_eq_true, Option.isNone_iff_eq_none] at h
  exact h.2

/-- Closing the newest open row adds the length of its session. -/
theorem sum_close_newest {db : Db} {app : String} {pid : UInt32} (endedAt : DateTime) :
    ((modifyLast (isOpen app pid) (UsageSession.close endedAt) db.usageSessions).map
        UsageSession.completedSeconds).sum =
      db.completedSeconds + ((db.newestOpenRow app pid).elim 0 fun r => r.secondsUntil endedAt) := by
  rw [sum_modifyLast, completedSeconds]
  congr 1
  change (db.newestOpenRow app pid).elim 0 _ = _
  cases hnewest : db.newestOpenRow app pid with
  | none => rfl
  | some r =>
      have hopen := endedAt_of_isOpen (isOpen_of_newestOpenRow hnewest)
      simp [UsageSession.completedSeconds, UsageSession.close, hopen]

/-- Closing every open row of the pair is closing the newest, where there is at
most one. -/
theorem map_closeRow_eq_iff {db : Db} {app : String} {pid : UInt32} {endedAt : DateTime}
    {r : UsageSession} (hnewest : db.newestOpenRow app pid = some r) :
    db.usageSessions.map (closeRow app pid endedAt (r.secondsUntil endedAt)) =
        modifyLast (isOpen app pid) (UsageSession.close endedAt) db.usageSessions ↔
      (db.usageSessions.filter (isOpen app pid)).length ≤ 1 := by
  have hsame : modifyLast (isOpen app pid) (UsageSession.close endedAt) db.usageSessions =
      modifyLast (isOpen app pid) (fun x =>
        { x with endedAt := some endedAt, durationSeconds := some (r.secondsUntil endedAt) })
        db.usageSessions := by
    refine modifyLast_congr fun x hx => ?_
    obtain rfl : r = x := Option.some.inj (hnewest.symm.trans hx)
    rfl
  have hchanges : ∀ x, isOpen app pid x = true →
      ({ x with endedAt := some endedAt, durationSeconds := some (r.secondsUntil endedAt) } :
        UsageSession) ≠ x := by
    intro x hx heq
    have hopen := endedAt_of_isOpen hx
    rw [← heq] at hopen
    cases hopen
  rw [hsame]
  exact map_eq_modifyLast_iff hchanges _

/-- `end_session` ends one session exactly when no second row of the pair is open. -/
theorem endSession_endsNewest_iff {sql : Sql} {db db' : Db} {app : String} {pid : UInt32}
    {endedAt : DateTime} (h : db.endSession sql app pid endedAt = .ok db') :
    EndsNewest app pid endedAt db db' ↔
      (db.usageSessions.filter (isOpen app pid)).length ≤ 1 := by
  obtain rfl := endSession_ok h
  cases hnewest : db.newestOpenRow app pid with
  | none =>
      have hnil : db.usageSessions.filter (isOpen app pid) = [] := List.getLast?_eq_none_iff.mp hnewest
      refine iff_of_true ⟨?_, rfl, rfl, ?_⟩ (by simp [hnil])
      · simp [hnewest]
      · simp [hnewest, completedSeconds, UsageSession.completedSeconds, UsageSession.zeroLength]
  | some r =>
      rw [← map_closeRow_eq_iff hnewest]
      constructor
      · intro hends
        simpa [hnewest] using hends.rows
      · intro hrows
        refine ⟨?_, rfl, rfl, ?_⟩
        · simpa [hnewest] using hrows
        · show (List.map _ (List.map _ _)).sum = _
          rw [hrows, sum_close_newest]

end Db

/-- Puzzles begun twice under one pid, an hour apart: the first stop never came. -/
def begunTwice : Db :=
  (Runs.run (step samplePlatform) sampleState
    [(minutesLater 0, .request (.wrapperStart "org.kde.gcompris" 4711)),
      (minutesLater 60, .request (.wrapperStart "org.kde.gcompris" 4711))]).db

/-- Puzzles begun once. -/
def begunOnce : Db :=
  (step samplePlatform sampleState
    (minutesLater 0, .request (.wrapperStart "org.kde.gcompris" 4711))).db

def afterStop (db : Db) (n : Int) : Db :=
  (db.endSession Sql.ok "org.kde.gcompris" 4711 (minutesLater n).nowUtc).toOption.getD db

theorem endSession_endsNewest_puzzles :
    Db.EndsNewest "org.kde.gcompris" 4711 (minutesLater 20).nowUtc begunOnce
        (afterStop begunOnce 20) ↔
      (begunOnce.usageSessions.filter (Db.isOpen "org.kde.gcompris" 4711)).length ≤ 1 :=
  @Db.endSession_endsNewest_iff Sql.ok _ _ _ _ _ rfl

/-- A minute after the second start the stop closes both rows, and counts the
minute twice. -/
theorem second_open_row_is_closed_too :
    ¬ ∀ (sql : Sql) (db db' : Db) (app : String) (pid : UInt32) (endedAt : DateTime),
      db.endSession sql app pid endedAt = .ok db' → Db.EndsNewest app pid endedAt db db' := by
  intro h
  have hends := h Sql.ok begunTwice (afterStop begunTwice 61) "org.kde.gcompris" 4711
    (minutesLater 61).nowUtc (by rfl)
  exact absurd hends.total (by decide +kernel)

/-! ### Failed starts and stops -/

/-- Whether a request stops a session the map knows of. -/
def Request.stopsActive (s : State) : Request → Prop
  | .wrapperStop _ pid _ => pid ∈ s.active
  | _ => False

/-- Used time is a function of the sessions and of the map. -/
theorem usedMinutes_congr {sql : Sql} {s s' : State}
    (hrows : s'.db.usageSessions = s.db.usageSessions) (hactive : s'.active = s.active)
    (since now : DateTime) (app : Option String) :
    Budget.usedMinutes sql s'.db s'.active since now app =
      Budget.usedMinutes sql s.db s.active since now app := by
  have hseconds : usedSeconds app since now (.up s') = usedSeconds app since now (.up s) := by
    rw [usedSeconds, usedSeconds]
    show (List.map _ s'.db.usageSessions).sum + Sums.total _ s'.active = _
    rw [hrows, hactive]
    rfl
  rw [usedMinutes_eq_exec, usedMinutes_eq_exec, hseconds]

/-- Nothing of the sessions has changed, and with it no used time. -/
structure KeepsSessions (s s' : State) : Prop where
  rows : s'.db.usageSessions = s.db.usageSessions
  active : s'.active = s.active
  used : ∀ (sql : Sql) (since now : DateTime) (app : Option String),
    Budget.usedMinutes sql s'.db s'.active since now app =
      Budget.usedMinutes sql s.db s.active since now app

theorem keepsSessions_iff {s s' : State} :
    KeepsSessions s s' ↔ s'.db.usageSessions = s.db.usageSessions ∧ s'.active = s.active :=
  ⟨fun h => ⟨h.rows, h.active⟩,
    fun ⟨hrows, hactive⟩ => ⟨hrows, hactive, fun _ => usedMinutes_congr hrows hactive⟩⟩

theorem erase_eq_self_iff {m : ActiveMap} {pid : UInt32} : m.erase pid = m ↔ pid ∉ m := by
  constructor
  · intro h hmem
    rw [← h, AList.mem_erase] at hmem
    exact hmem.1 rfl
  · intro h
    exact AList.ext (List.kerase_of_notMem_keys h)

/-- A start that is answered with an error could not insert its row. -/
theorem handleWrapperStart_error {env : Env} {s : State} {app : String} {pid : UInt32}
    (h : (Handlers.handleWrapperStart env s app pid).2.ok = false) :
    env.sql .insertSession ≠ none := by
  intro hinsert
  unfold Handlers.handleWrapperStart at h
  dsimp only at h
  simp [Db.startSession, Sql.exec, hinsert] at h

/-- A stop that is answered with an error has left the log alone. -/
theorem handleWrapperStop_error {env : Env} {s : State} {app : String} {pid : UInt32}
    (h : (Handlers.handleWrapperStop env s app pid).2.ok = false) :
    (Handlers.handleWrapperStop env s app pid).1.db = s.db := by
  rw [(handleWrapperStop_sessions env s app pid).2]
  unfold Handlers.handleWrapperStop at h
  dsimp only at h
  cases hend : s.db.endSession env.sql app pid env.nowUtc with
  | error e => rfl
  | ok db => simp [hend] at h

/-- Whichever step of the handling fails: an error answer leaves the sessions as
they were, unless it answers the stop of a session in the map. -/
theorem failed_session_request_keeps_sessions_iff (p : Platform) (env : Env) (s : State)
    {req : Request} (hsession : req.isSession = true)
    (herror : (Handlers.dispatch p env s req).2.ok = false) :
    KeepsSessions s (Handlers.dispatch p env s req).1 ↔ ¬ req.stopsActive s := by
  rw [keepsSessions_iff]
  cases req with
  | wrapperStart app pid =>
      have hinsert := handleWrapperStart_error herror
      have hkept := handleWrapperStart_sessions env s app pid
      rw [if_neg hinsert] at hkept
      exact iff_of_true hkept id
  | wrapperStop app pid status =>
      have hactive := (handleWrapperStop_sessions env s app pid).1
      have hdb := handleWrapperStop_error herror
      show (Handlers.handleWrapperStop env s app pid).1.db.usageSessions = _ ∧
        (Handlers.handleWrapperStop env s app pid).1.active = _ ↔ pid ∉ s.active
      rw [hactive, hdb, erase_eq_self_iff]
      exact and_iff_right rfl
  | _ => cases hsession

/-- An hour after the start, with a log that cannot be updated. -/
def lockedLog : Env :=
  { minutesLater 60 with sql := fun stmt =>
      if stmt = .closeSessions then some "database is locked" else none }

/-- A second stop of the puzzles, after which nothing is in the map. -/
theorem failed_session_request_keeps_sessions_again :
    KeepsSessions { playing with active := ∅ }
        (Handlers.dispatch tablePlatform lockedLog { playing with active := ∅ }
          (.wrapperStop "org.kde.gcompris" 4711 none)).1 ↔
      ¬ (Request.wrapperStop "org.kde.gcompris" 4711 none).stopsActive
        { playing with active := ∅ } :=
  failed_session_request_keeps_sessions_iff tablePlatform lockedLog { playing with active := ∅ } rfl
    (by decide +kernel)

/-- The stop cannot be logged, and the hour of puzzles is no longer counted. -/
theorem failed_stop_forgets_session :
    ¬ ∀ (p : Platform) (env : Env) (s : State) (req : Request), req.isSession = true →
      (Handlers.dispatch p env s req).2.ok = false →
      KeepsSessions s (Handlers.dispatch p env s req).1 := by
  intro h
  have hkeeps := h tablePlatform lockedLog playing (.wrapperStop "org.kde.gcompris" 4711 none) rfl
    (by decide +kernel)
  have hused := hkeeps.used Sql.ok sampleEnv.nowUtc lockedLog.nowUtc none
  exact absurd (congrArg Except.toOption hused) (by decide +kernel)

end OmarchyKids
