import Mathlib
import OmarchyKids.Agentd.Accounting
import OmarchyKids.Agentd.Lifecycle
import OmarchyKids.Agentd.Persistence
import OmarchyKids.Lib.Sums

/-!
# OmarchyKids.Agentd.Restarts

Used time across restarts of the daemon.

Time that runs is counted from the active map, time that has run from closed
rows, and an open row on its own counts nothing. So used time falls whenever an
entry leaves the map and its row stays open: every session in progress is
`dropped` like that when the daemon stops, and one is when its stop cannot be
logged or its pid starts another session. A later stop, after a restart, finds
the open row and brings the whole session back.

Nothing else lowers used time, and a dropped session lowers it by the seconds it
has run (`step_used`). So over a whole run used time falls by at most what
was dropped (`used_time_falls_by_dropped_sessions`).
-/

namespace OmarchyKids

open Daemon

/-! ### Used time of a box -/

namespace Box

def db : Box → Db
  | up s => s.db
  | down d => d.db

def active : Box → ActiveMap
  | up s => s.active
  | down _ => ∅

end Box

/-- Seconds a row adds to the used time of all apps (`none`) or of one. -/
def UsageSession.seconds (app : Option String) (since : DateTime) (r : UsageSession) : Int :=
  if (Db.completedSince since r && app.all (r.appId == ·)) = true then r.durationSeconds.getD 0
  else 0

/-- Seconds an entry of the active map adds. -/
def ActiveSession.seconds (app : Option String) (since now : DateTime) (x : ActiveSession) : Int :=
  if (app.all (x.app == ·) && decide (since ≤ x.startedAt)) = true then Budget.liveSeconds now x
  else 0

/-- Seconds used since `since`, as the daemon's budget adds them up at `now`. -/
def usedSeconds (app : Option String) (since now : DateTime) (b : Box) : Int :=
  (b.db.usageSessions.map (UsageSession.seconds app since)).sum +
    Sums.total (fun _ => ActiveSession.seconds app since now) b.active

theorem usedMinutes_eq_usedSeconds {sql : Sql} {s : State} {since now : DateTime}
    {app : Option String} (hsql : ∀ stmt, sql stmt = none) :
    Budget.usedMinutes sql s.db s.active since now app =
      .ok (Budget.minutesOf (usedSeconds app since now (.up s))) := by
  rw [Budget.usedMinutes_of_sql_ok hsql, Db.sumDurations, Sums.sum_filter, Budget.liveTotal,
    Sums.sum_filter, ActiveMap.values, List.map_map]
  rfl

/-- The budget's sum is one statement; nothing else of it can fail. -/
theorem usedMinutes_eq_exec (sql : Sql) (s : State) (since now : DateTime) (app : Option String) :
    Budget.usedMinutes sql s.db s.active since now app =
      sql.exec (.sumSeconds app since)
        (Budget.minutesOf (usedSeconds app since now (.up s))) := by
  have hcounted : Budget.usedMinutes Sql.ok s.db s.active since now app =
      .ok (Budget.minutesOf (usedSeconds app since now (.up s))) :=
    usedMinutes_eq_usedSeconds fun _ => rfl
  cases hsum : sql (.sumSeconds app since) with
  | some e => cases app <;>
      simp only [Budget.usedMinutes, Budget.computeDailyUsedMinutes, Budget.computeAppUsedMinutes,
        Db.usedSecondsSince, Sql.exec, hsum] <;> rfl
  | none =>
      rw [Sql.exec_of_none _ hsum, ← hcounted]
      cases app <;>
        simp only [Budget.usedMinutes, Budget.computeDailyUsedMinutes, Budget.computeAppUsedMinutes,
          Db.usedSecondsSince, Sql.exec_of_none _ hsum, Sql.exec_ok]

namespace ActiveSession

variable {app : Option String} {since now later : DateTime} {x : ActiveSession}

theorem seconds_nonneg : 0 ≤ x.seconds app since now := by
  rw [seconds]
  split
  · exact le_max_right _ _
  · exact le_refl _

theorem seconds_mono (h : now ≤ later) : x.seconds app since now ≤ x.seconds app since later := by
  rw [seconds, seconds]
  split
  · exact max_le_max_right 0 (numSeconds_mono (Int.sub_le_sub_right h _))
  · exact le_refl _

theorem seconds_at_start (started : String) (warned : Bool) :
    (⟨started, now, warned⟩ : ActiveSession).seconds app since now = 0 := by
  simp [seconds, Budget.liveSeconds]

end ActiveSession

/-! ### What an event drops -/

/-- Whether every step of closing an open row works. -/
def Sql.closes (sql : Sql) : Bool :=
  (sql .selectOpenSession).isNone && (sql .parseStartedAt).isNone && (sql .closeSessions).isNone

/-- The sessions an event takes out of the active map without closing their row:
all, when the daemon stops; the one of a pid that starts another session; and the
one of a pid whose stop names another app or cannot be logged. -/
def dropped : Box → LifeEvent → List ActiveSession
  | .up s, .stop _ => s.active.values
  | .up s, .op env (.request (.wrapperStart _ pid)) =>
      if env.sql .insertSession = none then (s.active.lookup pid).toList else []
  | .up s, .op env (.request (.wrapperStop app pid _)) =>
      (s.active.lookup pid).toList.filter fun x => !(x.app == app && env.sql.closes)
  | _, _ => []

/-- Used seconds that are dropped. -/
def lostSeconds (app : Option String) (since : DateTime) (b : Box) (e : LifeEvent) : Int :=
  ((dropped b e).map (ActiveSession.seconds app since e.now)).sum

theorem lostSeconds_nonneg {app : Option String} {since : DateTime} (b : Box) (e : LifeEvent) :
    0 ≤ lostSeconds app since b e := by
  refine List.sum_nonneg fun n hn => ?_
  obtain ⟨x, -, rfl⟩ := List.mem_map.mp hn
  exact ActiveSession.seconds_nonneg

/-! ### What an event does to rows and map -/

/-- The log and the map hold the same sessions, pre-warning flags aside. -/
def Box.Same (b b' : Box) : Prop :=
  b'.db.usageSessions = b.db.usageSessions ∧
    ∀ pid app start, (∃ warned, b'.active.lookup pid = some ⟨app, start, warned⟩) ↔
      ∃ warned, b.active.lookup pid = some ⟨app, start, warned⟩

/-- An event starts a session, stops one, ends the daemon, or leaves log and map
as they are. -/
theorem lifeStep_cases (p : Platform) (b : Box) (e : LifeEvent) :
    b.Same (lifeStep p b e) ∨
    (∃ app pid,
      (lifeStep p b e).db.usageSessions =
        b.db.usageSessions ++ [{ appId := app, pid, startedAt := e.now }] ∧
      (lifeStep p b e).active = b.active.insert pid ⟨app, e.now, false⟩ ∧
      dropped b e = (b.active.lookup pid).toList) ∨
    (∃ app pid sql,
      (lifeStep p b e).db = (b.db.endSession sql app pid e.now).toOption.getD b.db ∧
      (lifeStep p b e).active = b.active.erase pid ∧
      dropped b e = (b.active.lookup pid).toList.filter fun x => !(x.app == app && sql.closes)) ∨
    ((lifeStep p b e).db = b.db ∧ (lifeStep p b e).active = ∅ ∧ dropped b e = b.active.values) := by
  match b, e with
  | .up s, .op env (.request (.wrapperStart app pid)) =>
      have hstart := handleWrapperStart_sessions env s app pid
      by_cases hinsert : env.sql .insertSession = none
      · rw [if_pos hinsert] at hstart
        exact .inr (.inl ⟨app, pid, hstart.1, hstart.2, if_pos hinsert⟩)
      · rw [if_neg hinsert] at hstart
        exact .inl (SameSessions.of_eq hstart.1 hstart.2)
  | .up s, .op env (.request (.wrapperStop app pid _)) =>
      obtain ⟨hactive, hdb⟩ := handleWrapperStop_sessions env s app pid
      exact .inr (.inr (.inl ⟨app, pid, env.sql, hdb, hactive, rfl⟩))
  | .up s, .op env .tick => exact .inl (tick_same p env s)
  | .up s, .op env (.request .ping) | .up s, .op env (.request .status)
  | .up s, .op env (.request (.setTier ..)) | .up s, .op env (.request (.unlock ..))
  | .up s, .op env (.request (.override ..)) | .up s, .op env (.request (.overrideFailed _))
  | .up s, .op env (.request (.report _)) | .up s, .op env (.request (.wrapperAuthorize _))
  | .up s, .op env (.request (.wrapperPoll ..)) | .up s, .op env (.request (.pushContent _)) =>
      exact .inl (dispatch_same p env s (by rfl))
  | .up s, .stop _ => exact .inr (.inr (.inr ⟨rfl, rfl, rfl⟩))
  | .up s, .boot .. => exact .inl (SameSessions.refl s)
  | .down d, .boot env defaultTier opens =>
      cases hstart : d.start p env defaultTier opens with
      | none =>
          refine .inr (.inr (.inr ⟨?_, ?_, rfl⟩)) <;> rw [lifeStep, hstart]
          · rfl
          · rfl
      | some s =>
          obtain ⟨hdb, hactive⟩ := Disk.start_db hstart
          refine .inr (.inr (.inr ⟨?_, ?_, rfl⟩)) <;> rw [lifeStep, hstart]
          · exact hdb
          · exact hactive
  | .down d, .op .. | .down d, .stop _ => exact .inr (.inr (.inr ⟨rfl, rfl, rfl⟩))

/-! ### Rows as the daemon writes them -/

/-- When the newest open row of an app and pid begins. -/
def newestOpen (rows : List UsageSession) (app : String) (pid : UInt32) : Option DateTime :=
  (rows.filter (Db.isOpen app pid)).getLast?.map UsageSession.startedAt

/-- Rows stand in the order in which their sessions began, none of them in the
future, and a duration is no longer than the time since the start. -/
structure Logged (rows : List UsageSession) (clock : DateTime) : Prop where
  past : ∀ r ∈ rows, r.startedAt ≤ clock
  fourDigit : ∀ r ∈ rows, FourDigitYear r.startedAt
  sorted : rows.Pairwise fun r r' => r.startedAt ≤ r'.startedAt
  nonneg : ∀ r ∈ rows, 0 ≤ r.durationSeconds.getD 0
  bounded : ∀ r ∈ rows, r.durationSeconds.getD 0 ≤ numSeconds (clock - r.startedAt)

/-- The newest open row of a session in progress is its own. -/
def Tracked (rows : List UsageSession) (active : ActiveMap) : Prop :=
  ∀ pid x, active.lookup pid = some x → newestOpen rows x.app pid = some x.startedAt

theorem mem_of_newestOpen {rows : List UsageSession} {app : String} {pid : UInt32} {t : DateTime}
    (h : newestOpen rows app pid = some t) :
    ∃ r ∈ rows, Db.isOpen app pid r = true ∧ r.startedAt = t := by
  obtain ⟨r, hlast, rfl⟩ := Option.map_eq_some_iff.mp h
  obtain ⟨hmem, hopen⟩ := List.mem_filter.mp (List.mem_of_getLast? hlast)
  exact ⟨r, hmem, hopen, rfl⟩

/-- The newest open row begins last. -/
theorem le_newestOpen {rows : List UsageSession} {app : String} {pid : UInt32} {t : DateTime}
    (hsorted : rows.Pairwise fun r r' => r.startedAt ≤ r'.startedAt)
    (h : newestOpen rows app pid = some t) :
    ∀ r ∈ rows, Db.isOpen app pid r = true → r.startedAt ≤ t := by
  intro r hr hopen
  obtain ⟨newest, hlast, rfl⟩ := Option.map_eq_some_iff.mp h
  obtain ⟨older, hsplit⟩ := List.getLast?_eq_some_iff.mp hlast
  have hfilter := hsorted.filter (Db.isOpen app pid)
  have hmem : r ∈ older ++ [newest] := hsplit ▸ List.mem_filter.mpr ⟨hr, hopen⟩
  rw [hsplit, List.pairwise_append] at hfilter
  rcases List.mem_append.mp hmem with hold | hnew
  · exact hfilter.2.2 r hold newest (List.mem_singleton_self _)
  · rw [List.mem_singleton.mp hnew]

theorem newestOpen_concat_self {rows : List UsageSession} {app : String} {pid : UInt32}
    {r : UsageSession} (h : Db.isOpen app pid r = true) :
    newestOpen (rows ++ [r]) app pid = some r.startedAt := by
  rw [newestOpen, List.filter_append, List.filter_cons_of_pos h, List.filter_nil,
    List.getLast?_concat]
  rfl

/-- A row of another pid makes no difference. -/
theorem newestOpen_concat_of_ne {rows : List UsageSession} {app : String} {pid : UInt32}
    {r : UsageSession} (h : r.pid ≠ pid) :
    newestOpen (rows ++ [r]) app pid = newestOpen rows app pid := by
  have hother : Db.isOpen app pid r = false := by simp [Db.isOpen, h]
  rw [newestOpen, List.filter_append, List.filter_cons_of_neg (by simp [hother]), List.filter_nil,
    List.append_nil]
  rfl

theorem closeRow_startedAt (app : String) (pid : UInt32) (now : DateTime) (n : Int)
    (r : UsageSession) : (Db.closeRow app pid now n r).startedAt = r.startedAt := by
  rw [Db.closeRow]
  split <;> rfl

/-- Closing rows of another pid makes no difference. -/
theorem newestOpen_close_of_ne {rows : List UsageSession} {app app' : String} {pid pid' : UInt32}
    {now : DateTime} {n : Int} (h : pid' ≠ pid) :
    newestOpen (rows.map (Db.closeRow app pid now n)) app' pid' = newestOpen rows app' pid' := by
  have hopen : Db.isOpen app' pid' ∘ Db.closeRow app pid now n = Db.isOpen app' pid' := by
    funext r
    rw [Function.comp, Db.closeRow]
    split
    · rename_i hclosed
      have hpid : r.pid = pid := by
        simp only [Db.isOpen, Bool.and_eq_true, beq_iff_eq] at hclosed
        exact hclosed.1.2
      simp [Db.isOpen, hpid, h.symm]
    · rfl
  have hkeep : (rows.filter (Db.isOpen app' pid')).map (Db.closeRow app pid now n) =
      rows.filter (Db.isOpen app' pid') := by
    refine (List.map_congr_left fun r hr => ?_).trans (List.map_id _)
    have hr' := (List.mem_filter.mp hr).2
    simp only [Db.isOpen, Bool.and_eq_true, beq_iff_eq] at hr'
    rw [Db.closeRow, if_neg (by simp [Db.isOpen, hr'.1.2, h])]
    rfl
  rw [newestOpen, List.filter_map, hopen, hkeep]
  rfl

namespace Logged

variable {rows : List UsageSession} {clock now : DateTime}

theorem later (h : Logged rows clock) (hle : clock ≤ now) : Logged rows now where
  past r hr := (h.past r hr).trans hle
  fourDigit := h.fourDigit
  sorted := h.sorted
  nonneg := h.nonneg
  bounded r hr := (h.bounded r hr).trans (numSeconds_mono (Int.sub_le_sub_right hle _))

/-- A row that begins now and has no length. -/
theorem concat (h : Logged rows now) (hyear : FourDigitYear now) {r : UsageSession}
    (hstart : r.startedAt = now) (hduration : r.durationSeconds.getD 0 = 0) :
    Logged (rows ++ [r]) now := by
  have hall : ∀ {P : UsageSession → Prop}, (∀ x ∈ rows, P x) → P r → ∀ x ∈ rows ++ [r], P x := by
    intro P hrows hr x hx
    rcases List.mem_append.mp hx with hx | hx
    · exact hrows x hx
    · rw [List.mem_singleton.mp hx]
      exact hr
  refine ⟨hall h.past hstart.le, hall h.fourDigit (hstart ▸ hyear), ?_, hall h.nonneg hduration.ge,
    hall h.bounded ?_⟩
  · refine List.pairwise_append.mpr ⟨h.sorted, List.pairwise_singleton _ _, fun x hx y hy => ?_⟩
    rw [List.mem_singleton.mp hy, hstart]
    exact h.past x hx
  · rw [hduration, hstart, sub_self]
    exact le_refl _

theorem close (h : Logged rows now) {app : String} {pid : UInt32} {started : DateTime}
    (hnewest : newestOpen rows app pid = some started) :
    Logged (rows.map (Db.closeRow app pid now (max (numSeconds (now - started)) 0))) now := by
  have hstarted : started ≤ now := by
    obtain ⟨r, hr, -, rfl⟩ := mem_of_newestOpen hnewest
    exact h.past r hr
  have hlength : max (numSeconds (now - started)) 0 = numSeconds (now - started) :=
    max_eq_left (numSeconds_nonneg (Int.sub_nonneg.mpr hstarted))
  refine ⟨fun r hr => ?_, fun r hr => ?_, ?_, fun r hr => ?_, fun r hr => ?_⟩
  · obtain ⟨x, hx, rfl⟩ := List.mem_map.mp hr
    rw [closeRow_startedAt]
    exact h.past x hx
  · obtain ⟨x, hx, rfl⟩ := List.mem_map.mp hr
    rw [closeRow_startedAt]
    exact h.fourDigit x hx
  · refine List.pairwise_map.mpr (h.sorted.imp fun {x y} hxy => ?_)
    rw [closeRow_startedAt, closeRow_startedAt]
    exact hxy
  · obtain ⟨x, hx, rfl⟩ := List.mem_map.mp hr
    rw [Db.closeRow]
    split
    · exact le_max_right _ _
    · exact h.nonneg x hx
  · obtain ⟨x, hx, rfl⟩ := List.mem_map.mp hr
    rw [closeRow_startedAt, Db.closeRow, hlength]
    split
    · -- every row that is closed began no later than the newest
      rename_i hopen
      exact numSeconds_mono (Int.sub_le_sub_left (le_newestOpen h.sorted hnewest x hx hopen) now)
    · exact h.bounded x hx

end Logged

/-- The rows after a stop: as they were if a step failed; or all open rows of the
pair closed; or, without one, a row of no length. -/
theorem endSession_cases (sql : Sql) (db : Db) (app : String) (pid : UInt32) (now : DateTime) :
    let rows := ((db.endSession sql app pid now).toOption.getD db).usageSessions
    rows = db.usageSessions ∨
      rows = db.usageSessions ++
        [{ appId := app, pid, startedAt := now, endedAt := some now, durationSeconds := some 0 }] ∨
      ∃ started, newestOpen db.usageSessions app pid = some started ∧
        rows = db.usageSessions.map
          (Db.closeRow app pid now (max (numSeconds (now - started)) 0)) := by
  intro rows
  have hopen : (db.usageSessions.filter (Db.isOpen app pid)).getLast?.map UsageSession.startedAt =
      newestOpen db.usageSessions app pid := rfl
  cases hselect : sql .selectOpenSession with
  | some e =>
      simp only [rows, Db.endSession_of_select_error hselect]
      exact .inl rfl
  | none =>
      simp only [rows, Db.endSession_of_select hselect, hopen, Sql.exec]
      cases newestOpen db.usageSessions app pid with
      | none =>
          cases sql .insertClosedSession with
          | some e => exact .inl rfl
          | none => exact .inr (.inl rfl)
      | some started =>
          dsimp only
          cases hparse : Db.parseStartedAt sql started with
          | error e => exact .inl rfl
          | ok parsed =>
              obtain rfl := Db.parseStartedAt_ok hparse
              cases sql .closeSessions with
              | some e => exact .inl rfl
              | none => exact .inr (.inr ⟨parsed, rfl, rfl⟩)

theorem endSession_closes {sql : Sql} {db : Db} {app : String} {pid : UInt32} {now : DateTime}
    {started : DateTime} (hsql : sql.closes = true) (hyear : FourDigitYear started)
    (hnewest : newestOpen db.usageSessions app pid = some started) :
    ((db.endSession sql app pid now).toOption.getD db).usageSessions =
      db.usageSessions.map (Db.closeRow app pid now (max (numSeconds (now - started)) 0)) := by
  have hopen : (db.usageSessions.filter (Db.isOpen app pid)).getLast?.map UsageSession.startedAt =
      some started := hnewest
  simp only [Sql.closes, Bool.and_eq_true, Option.isNone_iff_eq_none] at hsql
  rw [Db.endSession_of_select hsql.1.1, hopen]
  simp only [Db.parseStartedAt_of_year hyear, Sql.exec_of_none _ hsql.1.2,
    Sql.exec_of_none _ hsql.2]
  rfl

/-! ### Timelines -/

/-- A box, and the instant of its last event. -/
structure Timeline where
  box : Box
  clock : DateTime

namespace Timeline

def step (p : Platform) (t : Timeline) (e : LifeEvent) : Timeline := ⟨lifeStep p t.box e, e.now⟩

/-- The clock does not run backwards, nor beyond the year 9999. -/
def Timely (t : Timeline) (e : LifeEvent) : Prop := t.clock ≤ e.now ∧ FourDigitYear e.now

/-- The log is as the daemon writes it, and knows every session in progress. -/
structure Recorded (t : Timeline) : Prop where
  logged : Logged t.box.db.usageSessions t.clock
  tracked : Tracked t.box.db.usageSessions t.box.active

theorem step_recorded {p : Platform} {t : Timeline} {e : LifeEvent} (h : t.Recorded)
    (he : t.Timely e) : (t.step p e).Recorded := by
  obtain ⟨hclock, hyear⟩ := he
  have hlogged := h.logged.later hclock
  rcases lifeStep_cases p t.box e with ⟨hrows, hactive⟩ | ⟨app, pid, hrows, hactive, -⟩ |
    ⟨app, pid, sql, hdb, hactive, -⟩ | ⟨hdb, hactive, -⟩
  · refine ⟨?_, fun pid x hx => ?_⟩
    · rw [step, hrows]
      exact hlogged
    · obtain ⟨warned, hbefore⟩ := (hactive pid x.app x.startedAt).mp ⟨x.warned, hx⟩
      rw [step, hrows]
      exact h.tracked pid ⟨x.app, x.startedAt, warned⟩ hbefore
  · refine ⟨?_, fun pid' x hx => ?_⟩
    · rw [step, hrows]
      exact hlogged.concat hyear rfl rfl
    · rw [step, hactive] at hx
      rw [step, hrows]
      by_cases heq : pid' = pid
      · subst heq
        rw [AList.lookup_insert] at hx
        obtain rfl := Option.some.inj hx
        exact newestOpen_concat_self (by simp [Db.isOpen])
      · rw [AList.lookup_insert_ne heq] at hx
        rw [newestOpen_concat_of_ne (Ne.symm heq)]
        exact h.tracked pid' x hx
  · have hcases := endSession_cases sql t.box.db app pid e.now
    rw [← hdb] at hcases
    refine ⟨?_, fun pid' x hx => ?_⟩
    · rcases hcases with hsame | hzero | ⟨started, hnewest, hclosed⟩
      · rw [step, hsame]
        exact hlogged
      · rw [step, hzero]
        exact hlogged.concat hyear rfl rfl
      · rw [step, hclosed]
        exact hlogged.close hnewest
    · rw [step, hactive] at hx
      have hne : pid' ≠ pid := by
        rintro rfl
        rw [AList.lookup_erase] at hx
        cases hx
      rw [AList.lookup_erase_ne hne] at hx
      rw [step, ← h.tracked pid' x hx]
      rcases hcases with hsame | hzero | ⟨started, -, hclosed⟩
      · rw [hsame]
      · rw [hzero, newestOpen_concat_of_ne hne.symm]
      · rw [hclosed, newestOpen_close_of_ne hne]
  · refine ⟨?_, fun pid x hx => ?_⟩
    · rw [step, hdb]
      exact hlogged
    · rw [step, hactive] at hx
      cases hx

end Timeline

/-! ### What an event takes from used time -/

section Used

variable {app : Option String} {since now later : DateTime}

theorem closed_row_counts (h : FourDigitYear since) {r : UsageSession} (hr : FourDigitYear r.startedAt)
    (hended : r.endedAt.isSome = true) :
    r.seconds app since =
      if (app.all (r.appId == ·) && decide (since ≤ r.startedAt)) = true then
        r.durationSeconds.getD 0
      else 0 := by
  have htext : notBefore since r.startedAt = decide (since ≤ r.startedAt) := by
    rw [Bool.eq_iff_iff, notBefore_iff h hr, decide_eq_true_iff]
  rw [UsageSession.seconds, Db.completedSince, htext, hended, Bool.and_true, Bool.and_comm]

theorem open_row_seconds {r : UsageSession} (h : r.endedAt.isSome = false) :
    r.seconds app since = 0 := by
  simp [UsageSession.seconds, Db.completedSince, h]

/-- Closing rows takes no seconds from them. -/
theorem seconds_le_closeRow {a : String} {pid : UInt32} {n : Int} (hn : 0 ≤ n) (r : UsageSession) :
    r.seconds app since ≤ (Db.closeRow a pid now n r).seconds app since := by
  rw [Db.closeRow]
  split
  · rename_i hopen
    have hrunning : r.endedAt.isSome = false := by
      simp only [Db.isOpen, Bool.and_eq_true] at hopen
      simpa using hopen.2
    rw [open_row_seconds hrunning, UsageSession.seconds]
    split
    · exact hn
    · exact le_refl _
  · exact le_refl _

theorem closed_le_endSession (sql : Sql) (db : Db) (a : String) (pid : UInt32) :
    (db.usageSessions.map (UsageSession.seconds app since)).sum ≤
      (((db.endSession sql a pid now).toOption.getD db).usageSessions.map
        (UsageSession.seconds app since)).sum := by
  rcases endSession_cases sql db a pid now with hsame | hzero | ⟨started, -, hclosed⟩
  · rw [hsame]
  · rw [hzero, List.map_append, List.sum_append]
    simp [UsageSession.seconds]
  · rw [hclosed, List.map_map]
    refine List.sum_le_sum fun r _ => ?_
    rw [Function.comp]
    exact seconds_le_closeRow (le_max_right _ _) r

/-- What a session had when it ran, its row has when it is closed. -/
theorem closed_add_le_endSession (hsince : FourDigitYear since) {sql : Sql} (hsql : sql.closes = true)
    {db : Db} (hyears : ∀ r ∈ db.usageSessions, FourDigitYear r.startedAt) {pid : UInt32}
    {x : ActiveSession} (hnewest : newestOpen db.usageSessions x.app pid = some x.startedAt) :
    (db.usageSessions.map (UsageSession.seconds app since)).sum + x.seconds app since now ≤
      (((db.endSession sql x.app pid now).toOption.getD db).usageSessions.map
        (UsageSession.seconds app since)).sum := by
  obtain ⟨r, hr, hopen, hstart⟩ := mem_of_newestOpen hnewest
  have hr' : r.appId = x.app ∧ r.endedAt.isSome = false := by
    simp only [Db.isOpen, Bool.and_eq_true, beq_iff_eq] at hopen
    exact ⟨hopen.1.1, by simpa using hopen.2⟩
  rw [endSession_closes hsql (hstart ▸ hyears r hr) hnewest, List.map_map]
  refine Sums.sum_add_le hr (fun y _ => ?_) ?_
  · rw [Function.comp]
    exact seconds_le_closeRow (le_max_right _ _) y
  · have hyear : FourDigitYear r.startedAt := hyears r hr
    rw [open_row_seconds hr'.2, zero_add, Function.comp, Db.closeRow, if_pos hopen]
    rw [closed_row_counts hsince (by exact hyear) (by rfl), ActiveSession.seconds,
      Budget.liveSeconds]
    simp only [hr'.1, hstart, Option.getD_some]
    exact le_refl _

/-- Used time grows with the clock. -/
theorem usedSeconds_mono (h : now ≤ later) (b : Box) :
    usedSeconds app since now b ≤ usedSeconds app since later b :=
  Int.add_le_add_left (List.sum_le_sum fun _ _ => ActiveSession.seconds_mono h) _

theorem total_congr_same {b b' : Box} (h : b.Same b') :
    Sums.total (fun _ => ActiveSession.seconds app since now) b'.active =
      Sums.total (fun _ => ActiveSession.seconds app since now) b.active := by
  refine Sums.total_congr_lookup _ fun pid => ?_
  have hfrom : ∀ {m m' : ActiveMap}, (∀ a start, (∃ w, m.lookup pid = some ⟨a, start, w⟩) →
      ∃ w, m'.lookup pid = some ⟨a, start, w⟩) → ∀ x, m.lookup pid = some x →
      (m'.lookup pid).map (ActiveSession.seconds app since now) =
        some (x.seconds app since now) := by
    intro m m' himp x hx
    obtain ⟨w, hw⟩ := himp x.app x.startedAt ⟨x.warned, hx⟩
    rw [hw]
    rfl
  cases hlookup : b'.active.lookup pid with
  | some x => exact (hfrom (fun a start => (h.2 pid a start).mp) x hlookup).symm
  | none =>
      cases hlookup' : b.active.lookup pid with
      | none => rfl
      | some x =>
          have hboth := hfrom (fun a start => (h.2 pid a start).mpr) x hlookup'
          rw [hlookup] at hboth
          cases hboth

theorem sum_toList (o : Option ActiveSession) :
    (o.toList.map (ActiveSession.seconds app since now)).sum =
      o.elim 0 (ActiveSession.seconds app since now) := by
  cases o with
  | none => rfl
  | some x => simp

/-- A session that is stopped is either closed with all its seconds or dropped
with them. -/
theorem stop_used {t : Timeline} (h : t.Recorded) (hsince : FourDigitYear since) (sql : Sql)
    (a : String) (pid : UInt32) :
    (t.box.db.usageSessions.map (UsageSession.seconds app since)).sum +
        (t.box.active.lookup pid).elim 0 (ActiveSession.seconds app since now) ≤
      (((t.box.db.endSession sql a pid now).toOption.getD t.box.db).usageSessions.map
          (UsageSession.seconds app since)).sum +
        (((t.box.active.lookup pid).toList.filter fun x => !(x.app == a && sql.closes)).map
          (ActiveSession.seconds app since now)).sum := by
  have hrows := @closed_le_endSession app since now sql t.box.db a pid
  cases hlookup : t.box.active.lookup pid with
  | none => simpa using hrows
  | some x =>
      by_cases hclosed : (x.app == a && sql.closes) = true
      · simp only [Bool.and_eq_true, beq_iff_eq] at hclosed
        obtain ⟨rfl, hsql⟩ := hclosed
        have hadd := @closed_add_le_endSession app since now hsince sql hsql _ h.logged.fourDigit pid x
          (h.tracked pid x hlookup)
        simpa [hsql] using hadd
      · rw [Bool.not_eq_true] at hclosed
        rw [Option.toList_some, List.filter_cons_of_pos (by rw [hclosed]; rfl), List.filter_nil,
          List.map_singleton, List.sum_singleton, Option.elim_some]
        exact Int.add_le_add_right hrows _

end Used

namespace Timeline

variable {p : Platform} {t : Timeline} {app : Option String} {since : DateTime}

def used (app : Option String) (since : DateTime) (t : Timeline) : Int :=
  usedSeconds app since t.clock t.box

/-- An event lowers used time by no more than what it drops. -/
theorem step_used {e : LifeEvent} (h : t.Recorded) (he : t.Timely e) (hsince : FourDigitYear since) :
    t.used app since ≤ (t.step p e).used app since + lostSeconds app since t.box e := by
  refine (usedSeconds_mono he.1 t.box).trans ?_
  have hlost := @lostSeconds_nonneg app since t.box e
  simp only [used, step, usedSeconds]
  rcases lifeStep_cases p t.box e with hsame | ⟨a, pid, hrows, hactive, hdropped⟩ |
    ⟨a, pid, sql, hdb, hactive, hdropped⟩ | ⟨hdb, hactive, hdropped⟩
  · rw [hsame.1, total_congr_same hsame]
    omega
  · -- the new session has lasted no time yet
    rw [lostSeconds, hdropped, hrows, hactive, Sums.total_insert, ActiveSession.seconds_at_start,
      sum_toList, Sums.total_erase _ t.box.active pid, List.map_append, List.sum_append,
      List.map_singleton, List.sum_singleton, open_row_seconds rfl]
    omega
  · have hstop := @stop_used app since e.now t h hsince sql a pid
    rw [lostSeconds, hdropped, hdb, hactive, Sums.total_erase _ t.box.active pid]
    omega
  · have hall : lostSeconds app since t.box e =
        Sums.total (fun _ => ActiveSession.seconds app since e.now) t.box.active := by
      rw [lostSeconds, hdropped, ActiveMap.values, List.map_map]
      rfl
    rw [hall, hdb, hactive, Sums.total_empty]
    omega

theorem run_used {es : List LifeEvent} (h : t.Recorded) (hes : Runs.Along (step p) Timely t es)
    (hsince : FourDigitYear since) :
    t.used app since ≤ (Runs.run (step p) t es).used app since +
      Runs.cost (step p) (fun t e => lostSeconds app since t.box e) t es :=
  Runs.potential_along (I := Recorded) h (fun _ _ he h => step_recorded h he)
    (fun _ _ he h => step_used h he hsince) hes

theorem run_recorded {es : List LifeEvent} (h : t.Recorded)
    (hes : Runs.Along (step p) Timely t es) : (Runs.run (step p) t es).Recorded :=
  Runs.run_invariant_along h (fun _ _ he h => step_recorded h he) hes

end Timeline

/-! ### Two instants of one day -/

/-- The minutes `check_allowed` holds against the limits: of all apps, or of one. -/
def enforcedMinutes (p : Platform) (env : Env) (s : State) (app : Option String) : UInt32 :=
  (Budget.usedMinutes env.sql s.db s.active (Budget.localMidnightUtc p.zone env.nowLocal) env.nowUtc
    app).toOption.getD 0

theorem checkAllowed_eq (p : Platform) (env : Env) (s : State) (app : String) :
    Handlers.checkAllowed p env s app =
      if !s.config.isAppAllowed app then ⟨false, some "app is not (or no longer) unlocked"⟩
      else if Budget.inBlockedWindow p s.config env.nowLocal then
        ⟨false, some "currently inside a blocked time window"⟩
      else if (s.config.dailyTotalMinutesToday (p.zone.toLocal env.nowLocal).weekday).any
          fun limit => limit + Budget.graceMinutes < enforcedMinutes p env s none then
        ⟨false, some "daily time budget exhausted"⟩
      else if (s.config.perAppMinutesToday app (p.zone.toLocal env.nowLocal).weekday).any
          fun limit => limit + Budget.graceMinutes < enforcedMinutes p env s (some app) then
        ⟨false, some "per-app time budget exhausted"⟩
      else ⟨true, none⟩ := rfl

/-- Seconds used on the current day. -/
def usedToday (p : Platform) (env : Env) (s : State) (app : Option String) : Int :=
  usedSeconds app (Budget.localMidnightUtc p.zone env.nowLocal) env.nowUtc (.up s)

/-- Events that follow one another in time, before the year 10000. -/
def Chronological (es : List LifeEvent) : Prop :=
  (es.Pairwise fun e e' => e.now ≤ e'.now) ∧ ∀ e ∈ es, FourDigitYear e.now

instance (es : List LifeEvent) : Decidable (Chronological es) :=
  inferInstanceAs (Decidable (_ ∧ _))

/-- The moment a wrapper asks whether it may go on. -/
def LifeEvent.poll (env : Env) (app : String) (pid : UInt32) : LifeEvent :=
  .op env (.request (.wrapperPoll app pid))

@[simp] theorem LifeEvent.poll_now (env : Env) (app : String) (pid : UInt32) :
    (LifeEvent.poll env app pid).now = env.nowUtc := rfl

theorem lifeStep_poll (p : Platform) (s : State) (env : Env) (app : String) (pid : UInt32) :
    lifeStep p (.up s) (.poll env app pid) = .up s := rfl

namespace Timeline

theorem along_of_chronological {p : Platform} {t : Timeline} {es : List LifeEvent}
    (hclock : ∀ e ∈ es, t.clock ≤ e.now) (hes : Chronological es) :
    Runs.Along (step p) Timely t es := by
  induction es generalizing t with
  | nil => exact Runs.along_nil t
  | cons e es ih =>
      obtain ⟨hpairs, hyears⟩ := hes
      obtain ⟨hfirst, hrest⟩ := List.pairwise_cons.mp hpairs
      refine ⟨⟨hclock e List.mem_cons_self, hyears e List.mem_cons_self⟩, ih ?_ ⟨hrest, ?_⟩⟩
      · exact hfirst
      · exact fun e' he' => hyears e' (List.mem_cons_of_mem _ he')

theorem run_box (p : Platform) (t : Timeline) (es : List LifeEvent) :
    (Runs.run (step p) t es).box = Runs.run (lifeStep p) t.box es := by
  have hpart := @Runs.run_part _ _ (step p) _ _ (lifeStep p) Timeline.box id (fun _ _ => rfl) t es
  rwa [List.map_id] at hpart

theorem cost_box (p : Platform) (app : Option String) (since : DateTime) (t : Timeline)
    (es : List LifeEvent) :
    Runs.cost (step p) (fun t e => lostSeconds app since t.box e) t es =
      Runs.cost (lifeStep p) (lostSeconds app since) t.box es := by
  induction es generalizing t with
  | nil => rfl
  | cons e es ih => rw [Runs.cost_cons, Runs.cost_cons, ih, step]

theorem Recorded.used_nonneg {t : Timeline} (h : t.Recorded) (app : Option String)
    (since now : DateTime) : 0 ≤ usedSeconds app since now t.box := by
  refine Int.add_nonneg (List.sum_nonneg fun n hn => ?_) (List.sum_nonneg fun n hn => ?_)
  · obtain ⟨r, hr, rfl⟩ := List.mem_map.mp hn
    rw [UsageSession.seconds]
    split
    · exact h.logged.nonneg r hr
    · exact le_refl _
  · obtain ⟨x, -, rfl⟩ := List.mem_map.mp hn
    exact ActiveSession.seconds_nonneg

/-- Nothing has been used since an instant that is still to come. -/
theorem Recorded.used_nonpos {t : Timeline} (h : t.Recorded) (app : Option String)
    {since : DateTime} (hsince : FourDigitYear since) (hle : t.clock ≤ since) :
    t.used app since ≤ 0 := by
  have hrows : (t.box.db.usageSessions.map (UsageSession.seconds app since)).sum ≤ 0 := by
    refine Sums.sum_nonpos fun n hn => ?_
    obtain ⟨r, hr, rfl⟩ := List.mem_map.mp hn
    rw [UsageSession.seconds]
    split
    · rename_i hcounts
      simp only [Db.completedSince, Bool.and_eq_true] at hcounts
      have hbegun := (notBefore_iff hsince (h.logged.fourDigit r hr)).mp hcounts.1.1
      have hzero : numSeconds (t.clock - r.startedAt) ≤ numSeconds 0 :=
        numSeconds_mono (sub_nonpos.mpr (hle.trans hbegun))
      exact (h.logged.bounded r hr).trans hzero
    · exact le_refl _
  have hactive : Sums.total (fun _ => ActiveSession.seconds app since t.clock) t.box.active ≤ 0 := by
    refine Sums.sum_nonpos fun n hn => ?_
    obtain ⟨⟨pid, x⟩, -, rfl⟩ := List.mem_map.mp hn
    dsimp only
    rw [ActiveSession.seconds]
    split
    · rename_i hcounts
      simp only [Bool.and_eq_true, decide_eq_true_iff] at hcounts
      exact max_le (numSeconds_mono (sub_nonpos.mpr (hle.trans hcounts.2))) (le_refl 0)
    · exact le_refl _
  exact Int.add_nonpos hrows hactive

/-- Used time from one instant to a poll at another. -/
theorem Recorded.used_until_poll {p : Platform} {now : DateTime} {s₁ s₂ : State}
    (h : (⟨.up s₁, now⟩ : Timeline).Recorded) {between : List LifeEvent} {env : Env} {a : String}
    {pid : UInt32} (hes : Runs.Along (step p) Timely ⟨.up s₁, now⟩ (between ++ [.poll env a pid]))
    (h₂ : Runs.run (lifeStep p) (.up s₁) between = .up s₂) (app : Option String) {since : DateTime}
    (hsince : FourDigitYear since) :
    usedSeconds app since now (.up s₁) ≤ usedSeconds app since env.nowUtc (.up s₂) +
      Runs.cost (lifeStep p) (lostSeconds app since) (.up s₁) between := by
  have hused := @run_used p _ app since _ h hes hsince
  have hend : Runs.run (step p) ⟨.up s₁, now⟩ (between ++ [.poll env a pid]) =
      ⟨.up s₂, env.nowUtc⟩ := by
    rw [Runs.run_concat, step, run_box, h₂, lifeStep_poll, LifeEvent.poll_now]
  have hpoll : lostSeconds app since (.up s₂) (.poll env a pid) = 0 := rfl
  rw [hend, cost_box, Runs.cost_append, h₂, Runs.cost_cons, hpoll, Runs.cost_nil, add_zero,
    add_zero] at hused
  exact hused

end Timeline

/-- Two instants of one day count from the same midnight, or the day has no
midnight of its own. -/
theorem localMidnightUtc_of_same_day {zone : Zone} {a b : DateTime}
    (h : (zone.toLocal a).date = (zone.toLocal b).date) :
    Budget.localMidnightUtc zone a = Budget.localMidnightUtc zone b ∨
      Budget.localMidnightUtc zone a = a := by
  rw [Budget.localMidnightUtc, Budget.localMidnightUtc, h]
  cases (zone.fromLocal ⟨(zone.toLocal b).date, 0⟩).single? with
  | some midnight => exact .inl rfl
  | none => exact .inr rfl

/-- Between two instants of one day used time falls by at most what restarts (and
stops that are not logged, and pids that are used again) have dropped in between.
Where nothing counted was dropped, the minutes do not fall. -/
theorem used_time_falls_by_dropped_sessions (p : Platform) {d : Disk}
    (hfresh : d.db.usageSessions = []) {before between : List LifeEvent} {env₁ env₂ : Env}
    {app₁ app₂ : String} {pid₁ pid₂ : UInt32} {s₁ s₂ : State}
    (h₁ : Runs.run (lifeStep p) (.down d) before = .up s₁)
    (h₂ : Runs.run (lifeStep p) (.up s₁) between = .up s₂)
    (htime : Chronological (before ++ .poll env₁ app₁ pid₁ :: between ++ [.poll env₂ app₂ pid₂]))
    (hsql₁ : ∀ stmt, env₁.sql stmt = none) (hsql₂ : ∀ stmt, env₂.sql stmt = none)
    (hread : env₁.nowUtc ≤ env₁.nowLocal)
    (hday : (p.zone.toLocal env₁.nowLocal).date = (p.zone.toLocal env₂.nowLocal).date)
    (hyear : FourDigitYear (Budget.localMidnightUtc p.zone env₁.nowLocal)) (app : Option String) :
    let lost := Runs.cost (lifeStep p)
      (lostSeconds app (Budget.localMidnightUtc p.zone env₁.nowLocal)) (.up s₁) between
    usedToday p env₁ s₁ app ≤ usedToday p env₂ s₂ app + lost ∧
      (lost = 0 → usedToday p env₂ s₂ app < 60 * 2 ^ 32 →
        enforcedMinutes p env₁ s₁ app ≤ enforcedMinutes p env₂ s₂ app) := by
  intro lost
  -- the run up to the first poll, from a clock that shows no later than its first event
  obtain ⟨first, rest, hfirst⟩ : ∃ first rest,
      before ++ .poll env₁ app₁ pid₁ :: between ++ [.poll env₂ app₂ pid₂] = first :: rest :=
    List.exists_cons_of_ne_nil (by simp)
  have hstart : (⟨.down d, first.now⟩ : Timeline).Recorded := by
    have hrows : (Box.down d).db.usageSessions = [] := hfresh
    refine ⟨?_, fun pid x hx => ?_⟩
    · rw [hrows]
      constructor <;> simp
    · cases hx
  have halong : Runs.Along (Timeline.step p) Timeline.Timely ⟨.down d, first.now⟩
      (before ++ .poll env₁ app₁ pid₁ :: between ++ [.poll env₂ app₂ pid₂]) := by
    refine Timeline.along_of_chronological (fun e he => ?_) htime
    have hpairs := htime.1
    rw [hfirst] at hpairs he
    rcases List.mem_cons.mp he with rfl | hrest
    · exact le_refl _
    · exact (List.pairwise_cons.mp hpairs).1 e hrest
  rw [List.append_assoc, List.cons_append, Runs.along_append, Runs.along_cons] at halong
  obtain ⟨hbefore, hpoll, hbetween⟩ := halong
  have hrecorded := Timeline.step_recorded (p := p) (Timeline.run_recorded hstart hbefore) hpoll
  rw [Timeline.step, Timeline.run_box, h₁, lifeStep_poll, LifeEvent.poll_now] at hrecorded hbetween
  have hseconds : usedToday p env₁ s₁ app ≤ usedToday p env₂ s₂ app + lost := by
    rcases localMidnightUtc_of_same_day hday with hsame | hself
    · have hfalls := hrecorded.used_until_poll hbetween h₂ app hyear
      rw [usedToday, usedToday, ← hsame]
      exact hfalls
    · -- such a day has used no time so far, at any instant
      have hnothing := hrecorded.used_nonpos app hyear (hread.trans hself.ge)
      have hlost : 0 ≤ lost := Runs.cost_nonneg lostSeconds_nonneg _ _
      have hend := Timeline.run_recorded (p := p) hrecorded ((Runs.along_append _ _ _).mp hbetween).1
      have hsome := hend.used_nonneg app (Budget.localMidnightUtc p.zone env₂.nowLocal) env₂.nowUtc
      rw [Timeline.run_box, h₂] at hsome
      exact hnothing.trans (Int.add_nonneg hsome hlost)
  refine ⟨hseconds, fun hlost hsmall => ?_⟩
  -- minutes
  have hnonneg : 0 ≤ usedToday p env₁ s₁ app := hrecorded.used_nonneg app _ _
  have hle : usedToday p env₁ s₁ app ≤ usedToday p env₂ s₂ app := by omega
  have hmin₁ := Budget.minutesOf_toNat hnonneg
  have hmin₂ := Budget.minutesOf_toNat (hnonneg.trans hle)
  rw [enforcedMinutes, enforcedMinutes, usedMinutes_eq_usedSeconds hsql₁,
    usedMinutes_eq_usedSeconds hsql₂, UInt32.le_iff_toNat_le]
  change (Budget.minutesOf (usedToday p env₁ s₁ app)).toNat ≤
    (Budget.minutesOf (usedToday p env₂ s₂ app)).toNat
  omega

/-! ### A restart while puzzles run -/

/-- A first start, puzzles unlocked, and begun. -/
def beginPuzzles : List LifeEvent :=
  [.boot sampleEnv "mini" true, .op puzzleEnv unlockPuzzles,
    .op puzzleEnv (.request (.wrapperStart "org.kde.gcompris" 4711))]

def playing : State :=
  Runs.run (step tablePlatform) startedState
    [(puzzleEnv, unlockPuzzles), (puzzleEnv, .request (.wrapperStart "org.kde.gcompris" 4711))]

/-- The puzzles end after twenty minutes. -/
def endPuzzles : Event := .request (.wrapperStop "org.kde.gcompris" 4711 (some 0))

/-- What a restart makes of a daemon with the puzzles unlocked. -/
def restarted (s : State) : State :=
  { s with
    config := unlockedConfig
    launcherApps := some unlockedConfig.effectiveLauncherTiles
    active := ∅ }

theorem beginPuzzles_run :
    Runs.run (lifeStep tablePlatform) (.down {}) beginPuzzles = .up playing := rfl

theorem run_restart {s : State} (hfile : s.configFile.bind tableToml.fromStr = some unlockedConfig)
    (n : Int) :
    Runs.run (lifeStep tablePlatform) (.up s)
      [.stop (minutesLater n).nowUtc, .boot (minutesLater n) "mini" true] = .up (restarted s) := by
  obtain ⟨raw, hraw, hparse⟩ := Option.bind_eq_some_iff.mp hfile
  have hstart : s.disk.start tablePlatform (minutesLater n) "mini" true = some (restarted s) := by
    refine start_eq_some.mpr ⟨unlockedConfig, some raw, s.db, ?_, rfl, rfl, ?_⟩
    · rw [show s.disk.configFile = some raw from hraw]
      exact Config.loadOrInit_some.mpr ⟨hparse, rfl⟩
    · rw [restarted, hraw]
  rw [Runs.run_cons, Runs.run_cons, Runs.run_nil, lifeStep, lifeStep, hstart]

/-- The puzzles end, and the daemon is restarted: nothing is lost. -/
theorem used_time_falls_by_dropped_sessions_puzzles :
    let after := restarted (step tablePlatform playing (minutesLater 20, endPuzzles))
    let between : List LifeEvent := [.op (minutesLater 20) endPuzzles,
      .stop (minutesLater 21).nowUtc, .boot (minutesLater 21) "mini" true]
    let lost := Runs.cost (lifeStep tablePlatform) (lostSeconds none
      (Budget.localMidnightUtc utc (minutesLater 10).nowLocal)) (.up playing) between
    usedToday tablePlatform (minutesLater 10) playing none ≤
        usedToday tablePlatform (minutesLater 22) after none + lost ∧
      (lost = 0 → usedToday tablePlatform (minutesLater 22) after none < 60 * 2 ^ 32 →
        enforcedMinutes tablePlatform (minutesLater 10) playing none ≤
          enforcedMinutes tablePlatform (minutesLater 22) after none) := by
  intro after between
  have hrun : Runs.run (lifeStep tablePlatform) (.up playing) between = .up after := by
    rw [Runs.run_cons, lifeStep]
    exact run_restart (by decide +kernel) 21
  have htime : Chronological (beginPuzzles ++
      .poll (minutesLater 10) "org.kde.gcompris" 4711 :: between ++
        [.poll (minutesLater 22) "org.kde.gcompris" 4711]) := by decide +kernel
  exact used_time_falls_by_dropped_sessions tablePlatform (d := {}) rfl beginPuzzles_run hrun htime
    (fun _ => rfl) (fun _ => rfl) (by decide) (by decide) (by decide) none

/-- A restart after twenty minutes of puzzles makes them uncounted. -/
theorem restart_gives_back_used_time :
    ¬ ∀ (p : Platform) (d : Disk) (before between : List LifeEvent) (env₁ env₂ : Env)
      (app₁ app₂ : String) (pid₁ pid₂ : UInt32) (s₁ s₂ : State) (app : Option String),
      d.db.usageSessions = [] →
      Runs.run (lifeStep p) (.down d) before = .up s₁ →
      Runs.run (lifeStep p) (.up s₁) between = .up s₂ →
      Chronological (before ++ .poll env₁ app₁ pid₁ :: between ++ [.poll env₂ app₂ pid₂]) →
      (∀ stmt, env₁.sql stmt = none) → (∀ stmt, env₂.sql stmt = none) →
      env₁.nowUtc ≤ env₁.nowLocal →
      (p.zone.toLocal env₁.nowLocal).date = (p.zone.toLocal env₂.nowLocal).date →
      enforcedMinutes p env₁ s₁ app ≤ enforcedMinutes p env₂ s₂ app := by
  intro h
  have hle := h tablePlatform {} beginPuzzles
    [.stop (minutesLater 20).nowUtc, .boot (minutesLater 20) "mini" true] (minutesLater 20)
    (minutesLater 20) "org.kde.gcompris" "org.kde.gcompris" 4711 4711 playing (restarted playing) none
    rfl beginPuzzles_run (run_restart (by decide +kernel) 20) (by decide +kernel) (fun _ => rfl)
    (fun _ => rfl) (by decide) (by decide)
  exact absurd hle (by decide +kernel)

end OmarchyKids
