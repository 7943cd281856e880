import Mathlib
import OmarchyKids.Agentd.Limits
import OmarchyKids.Agentd.Queries
import OmarchyKids.Agentd.Replies
import OmarchyKids.Agentd.SessionLog

/-!
# OmarchyKids.Agentd.Reports

The numbers of a report against the log they are made from.

A report rounds three times: the minutes of each app, the minutes of the period,
and the minutes of the doubled period it subtracts them from. Each of the roundings
is down and loses less than a minute, so the total exceeds the sum over the apps
by less than one minute for every app, and the previous period is off by at most
one (`report_consistent`).
-/

namespace OmarchyKids

open Handlers Daemon

/-! ### Durations -/

namespace Db

/-- No session lasts less than nothing. -/
def DurationsNonneg (db : Db) : Prop := ∀ r ∈ db.usageSessions, 0 ≤ r.durationSeconds.getD 0

/-- Closing a session keeps durations non-negative, whatever the clock shows. -/
theorem endSession_durationsNonneg {sql : Sql} {db db' : Db} {app : String} {pid : UInt32}
    {endedAt : DateTime} (hdb : db.DurationsNonneg)
    (h : db.endSession sql app pid endedAt = .ok db') : db'.DurationsNonneg := by
  rw [endSession_ok h]
  intro r hr
  dsimp only at hr
  cases hnewest : db.newestOpenRow app pid with
  | none =>
      rw [hnewest] at hr
      rcases List.mem_append.mp hr with hr | hr
      · exact hdb r hr
      · rw [List.mem_singleton.mp hr]
        exact le_refl 0
  | some newest =>
      rw [hnewest] at hr
      obtain ⟨x, hx, rfl⟩ := List.mem_map.mp hr
      rw [closeRow]
      split
      · exact le_max_right _ _
      · exact hdb x hx

theorem sumDurations_nonneg {rows : List UsageSession} (h : ∀ r ∈ rows, 0 ≤ r.durationSeconds.getD 0) :
    0 ≤ sumDurations rows :=
  List.sum_nonneg (List.forall_mem_map.mpr h)

end Db

/-- Closed sessions come out of the daemon with a duration of at least nothing. -/
theorem step_durationsNonneg (p : Platform) (s : State) (e : Env × Event)
    (h : s.db.DurationsNonneg) : (step p s e).db.DurationsNonneg := by
  obtain ⟨env, event⟩ := e
  have hkept : ∀ {db : Db}, db.usageSessions = s.db.usageSessions → db.DurationsNonneg := by
    intro db hrows r hr
    exact h r (hrows ▸ hr)
  cases event with
  | tick => exact hkept (tick_same p env s).1
  | request req =>
      cases hsession : req.isSession with
      | false => exact hkept (dispatch_sessions p env s hsession).1
      | true =>
          cases req with
          | wrapperStart app pid =>
              have hstart := handleWrapperStart_sessions env s app pid
              split at hstart
              · intro r hr
                have hr : r ∈ (handleWrapperStart env s app pid).1.db.usageSessions := hr
                rw [hstart.1] at hr
                rcases List.mem_append.mp hr with hr | hr
                · exact h r hr
                · rw [List.mem_singleton.mp hr]
                  exact le_refl 0
              · exact hkept hstart.1
          | wrapperStop app pid code =>
              have hstop := (handleWrapperStop_sessions env s app pid).2
              change (handleWrapperStop env s app pid).1.db.DurationsNonneg
              rw [hstop]
              cases hend : s.db.endSession env.sql app pid env.nowUtc with
              | error e => exact h
              | ok db => exact Db.endSession_durationsNonneg h hend
          | _ => cases hsession

theorem run_durationsNonneg (p : Platform) {s : State} (h : s.db.DurationsNonneg)
    (events : List (Env × Event)) : (Runs.run (step p) s events).db.DurationsNonneg :=
  Runs.run_invariant (I := fun s : State => s.db.DurationsNonneg) h (step_durationsNonneg p) events

/-! ### Seconds of a period -/

namespace Db

variable {db : Db} {since prevSince : DateTime}

/-- Completed sessions begun at or after `start` and before `stop`. -/
def completedBetween (start stop : DateTime) (rows : List UsageSession) : List UsageSession :=
  (completedFrom start rows).filter fun r => decide (r.startedAt < stop)

theorem sumDurations_filter_le {rows : List UsageSession}
    (h : ∀ r ∈ rows, 0 ≤ r.durationSeconds.getD 0) (q : UsageSession → Bool) :
    sumDurations (rows.filter q) ≤ sumDurations rows :=
  (List.filter_sublist.map _).sum_le_sum (List.forall_mem_map.mpr h)

/-- The seconds of a period lie between nothing and those of the whole log. -/
theorem sumDurations_completedFrom (h : db.DurationsNonneg) (since : DateTime) :
    0 ≤ sumDurations (completedFrom since db.usageSessions) ∧
      sumDurations (completedFrom since db.usageSessions) ≤ db.completedSeconds := by
  have hnonneg : ∀ q : UsageSession → Bool, ∀ r ∈ db.usageSessions.filter q,
      0 ≤ r.durationSeconds.getD 0 := fun q r hr => h r (List.mem_of_mem_filter hr)
  have hall : db.completedSeconds =
      sumDurations (db.usageSessions.filter fun r => r.endedAt.isSome) :=
    (Sums.sum_filter _ _ _).symm
  have hsplit : completedFrom since db.usageSessions =
      (db.usageSessions.filter fun r => r.endedAt.isSome).filter
        fun r => decide (since ≤ r.startedAt) := by
    rw [completedFrom, List.filter_filter]
  constructor
  · exact sumDurations_nonneg (hnonneg _)
  · rw [hall, hsplit]
    exact sumDurations_filter_le (hnonneg _) _

/-- A later bound cuts a period in two. -/
theorem sumDurations_completedBetween (hle : prevSince ≤ since) (rows : List UsageSession) :
    sumDurations (completedFrom prevSince rows) =
      sumDurations (completedBetween prevSince since rows) +
        sumDurations (completedFrom since rows) := by
  have hlater : completedFrom since rows =
      (completedFrom prevSince rows).filter fun r => !decide (r.startedAt < since) := by
    rw [completedFrom, completedFrom, List.filter_filter]
    refine List.filter_congr fun r _ => ?_
    by_cases hr : since ≤ r.startedAt
    · simp [hr, not_lt.mpr hr, le_trans hle hr]
    · simp [hr, not_le.mp hr]
  have hperm := (List.filter_append_perm (fun r => decide (r.startedAt < since))
    (completedFrom prevSince rows)).map fun r : UsageSession => r.durationSeconds.getD 0
  rw [hlater, sumDurations, ← hperm.sum_eq, List.map_append, List.sum_append]
  rfl

/-- In the range of a report, minutes are whole minutes. -/
theorem minutesOf_eq {seconds : Int} (hnonneg : 0 ≤ seconds) (hrange : seconds < 60 * 2 ^ 32) :
    ((Budget.minutesOf seconds).toNat : Int) = seconds / 60 := by
  rw [Budget.minutesOf_toNat hnonneg]
  omega

end Db

/-! ### Consistency -/

/-- The numbers of a report fit the log and one another. -/
structure ReportConsistent (db : Db) (since prevSince : DateTime) (payload : ReportPayload) :
    Prop where
  nodup : (payload.perApp.map AppUsage.app).Nodup
  listed : ∀ app, app ∈ payload.perApp.map AppUsage.app ↔
    ∃ r ∈ db.usageSessions, r.appId = app ∧ r.endedAt.isSome = true ∧ since ≤ r.startedAt
  apps_le : (payload.perApp.map fun u => (u.minutes.toNat : Int)).sum ≤
    payload.totalMinutesThisPeriod.toNat
  le_apps : (payload.totalMinutesThisPeriod.toNat : Int) ≤
    (payload.perApp.map fun u => (u.minutes.toNat : Int)).sum + (payload.perApp.length - 1 : ℕ)
  previous : |(payload.totalMinutesPreviousPeriod.toNat : Int) -
    Db.sumDurations (Db.completedBetween prevSince since db.usageSessions) / 60| ≤ 1

/-- The apps' minutes, in some order: one group for each app. -/
theorem perApp_perm {env : Env} {db : Db} {rangeDays : Int} {since : DateTime}
    (hs : env.nowUtc - daysDelta rangeDays = since) (hsince : FourDigitYear since)
    (hyears : ∀ r ∈ db.usageSessions, FourDigitYear r.startedAt) :
    (reportOf env db rangeDays).perApp.Perm
      (((Db.completedFrom since db.usageSessions).map UsageSession.appId).dedup.map fun app =>
        ⟨app, Budget.minutesOf (Db.sumDurations
          ((Db.completedFrom since db.usageSessions).filter fun r => r.appId == app))⟩) := by
  have hgroups : Db.usageGroups db since =
      ((Db.completedFrom since db.usageSessions).map UsageSession.appId).dedup.map fun app =>
        ⟨app, Db.sumDurations
          ((Db.completedFrom since db.usageSessions).filter fun r => r.appId == app)⟩ := by
    rw [Db.usageGroups, Db.filter_completedSince hsince hyears]
  rw [reportOf, hs]
  refine ((List.perm_insertionSort _ _).map _).trans ?_
  rw [hgroups, List.map_map]
  exact .refl _

/-- The minutes of the apps against those of the period. -/
theorem minutes_of_groups {rows : List UsageSession}
    (hrows : ∀ r ∈ rows, 0 ≤ r.durationSeconds.getD 0)
    (hrange : Db.sumDurations rows < 60 * 2 ^ 32) :
    let apps := (rows.map UsageSession.appId).dedup.map fun app =>
      ((Budget.minutesOf (Db.sumDurations (rows.filter fun r => r.appId == app))).toNat : Int)
    apps.sum ≤ Db.sumDurations rows / 60 ∧
      Db.sumDurations rows / 60 ≤ apps.sum + (apps.length - 1 : ℕ) := by
  intro apps
  let seconds := (rows.map UsageSession.appId).dedup.map fun app =>
    Db.sumDurations (rows.filter fun r => r.appId == app)
  have hsum : seconds.sum = Db.sumDurations rows :=
    Sums.sum_groups UsageSession.appId (fun r => r.durationSeconds.getD 0) (List.nodup_dedup _)
      fun r hr => List.mem_dedup.mpr (List.mem_map_of_mem hr)
  have happs : apps = seconds.map (· / 60) := by
    rw [List.map_map]
    refine List.map_congr_left fun app _ => ?_
    have hgroup := Db.sumDurations_filter_le hrows fun r => r.appId == app
    refine Db.minutesOf_eq (Db.sumDurations_nonneg fun r hr => ?_) (hgroup.trans_lt hrange)
    exact hrows r (List.mem_of_mem_filter hr)
  have hbounds := Sums.sum_ediv_bounds (show (0 : Int) < 60 by decide) seconds
  rwa [hsum, ← happs, show seconds.length = apps.length by simp [apps, seconds]] at hbounds

theorem reportOf_consistent {env : Env} {db : Db} {rangeDays : Int} (hdays : 0 ≤ rangeDays)
    (hdb : db.DurationsNonneg) (htotal : db.completedSeconds < 60 * 2 ^ 32)
    (hyears : ∀ r ∈ db.usageSessions, FourDigitYear r.startedAt)
    (hsince : FourDigitYear (env.nowUtc - daysDelta rangeDays))
    (hprev : FourDigitYear (env.nowUtc - daysDelta (rangeDays * 2))) :
    ReportConsistent db (env.nowUtc - daysDelta rangeDays)
      (env.nowUtc - daysDelta (rangeDays * 2)) (reportOf env db rangeDays) := by
  have hle : env.nowUtc - daysDelta (rangeDays * 2) ≤ env.nowUtc - daysDelta rangeDays := by
    unfold daysDelta
    change @LE.le Int _ _ _
    omega
  generalize hs : env.nowUtc - daysDelta rangeDays = since at hsince hle ⊢
  generalize hps : env.nowUtc - daysDelta (rangeDays * 2) = prevSince at hprev hle ⊢
  have hthis := Db.sumDurations_completedFrom hdb since
  have hboth := Db.sumDurations_completedFrom hdb prevSince
  have hperm := perApp_perm hs hsince hyears
  have hnames : ((reportOf env db rangeDays).perApp.map AppUsage.app).Perm
      ((Db.completedFrom since db.usageSessions).map UsageSession.appId).dedup := by
    refine (hperm.map AppUsage.app).trans ?_
    rw [List.map_map]
    exact .of_eq (List.map_id _)
  have htotalThis : ((minutesSince db since).toNat : Int) =
      Db.sumDurations (Db.completedFrom since db.usageSessions) / 60 := by
    rw [minutesSince, Db.filter_completedSince hsince hyears]
    exact Db.minutesOf_eq hthis.1 (hthis.2.trans_lt htotal)
  have htotalBoth : ((minutesSince db prevSince).toNat : Int) =
      Db.sumDurations (Db.completedFrom prevSince db.usageSessions) / 60 := by
    rw [minutesSince, Db.filter_completedSince hprev hyears]
    exact Db.minutesOf_eq hboth.1 (hboth.2.trans_lt htotal)
  obtain ⟨happs, hlost⟩ := @minutes_of_groups (Db.completedFrom since db.usageSessions)
    (fun r hr => hdb r (List.mem_of_mem_filter hr)) (hthis.2.trans_lt htotal)
  have hthisPeriod : (reportOf env db rangeDays).totalMinutesThisPeriod = minutesSince db since := by
    rw [reportOf, hs]
  have hpreviousPeriod : (reportOf env db rangeDays).totalMinutesPreviousPeriod =
      saturatingSub (minutesSince db prevSince) (minutesSince db since) := by
    rw [reportOf, hs, hps]
  have hminutes := hperm.map fun u : AppUsage => (u.minutes.toNat : Int)
  rw [List.map_map] at hminutes
  refine ⟨hnames.nodup_iff.mpr (List.nodup_dedup _), fun app => ?_, ?_, ?_, ?_⟩
  · rw [hnames.mem_iff, List.mem_dedup, List.mem_map]
    simp only [Db.completedFrom, List.mem_filter, Bool.and_eq_true, decide_eq_true_iff]
    constructor
    · rintro ⟨r, ⟨hr, hlate, hended⟩, happ⟩
      exact ⟨r, hr, happ, hended, hlate⟩
    · rintro ⟨r, hr, happ, hended, hlate⟩
      exact ⟨r, ⟨hr, hlate, hended⟩, happ⟩
  · rw [hminutes.sum_eq, hthisPeriod, htotalThis]
    exact happs
  · rw [hminutes.sum_eq, hperm.length_eq, hthisPeriod, htotalThis]
    rw [List.length_map] at hlost ⊢
    exact hlost
  · have hsplit := Db.sumDurations_completedBetween hle db.usageSessions
    have hprevious : 0 ≤ Db.sumDurations (Db.completedBetween prevSince since db.usageSessions) := by
      refine Db.sumDurations_nonneg fun r hr => hdb r ?_
      exact List.mem_of_mem_filter (List.mem_of_mem_filter hr)
    rw [hpreviousPeriod, saturatingSub_toNat, abs_le]
    omega

/-- Every report of a log whose total stays in range is consistent, with clock
readings and starts in years 0 to 9999. -/
theorem report_consistent (p : Platform) {s₀ : State} (h₀ : s₀.db.DurationsNonneg)
    (events : List (Env × Event)) (env : Env) (week : Bool) {payload : ReportPayload}
    (hreport : reportPayload env (Runs.run (step p) s₀ events).db week = .ok payload)
    (htotal : (Runs.run (step p) s₀ events).db.completedSeconds < 60 * 2 ^ 32)
    (hyears : ∀ r ∈ (Runs.run (step p) s₀ events).db.usageSessions, FourDigitYear r.startedAt)
    (hsince : FourDigitYear (env.nowUtc - daysDelta (if week then 7 else 1)))
    (hprev : FourDigitYear (env.nowUtc - daysDelta ((if week then 7 else 1) * 2))) :
    ReportConsistent (Runs.run (step p) s₀ events).db
      (env.nowUtc - daysDelta (if week then 7 else 1))
      (env.nowUtc - daysDelta ((if week then 7 else 1) * 2)) payload := by
  have hdays : (0 : Int) ≤ if week then 7 else 1 := by
    cases week <;> decide
  have hdb := run_durationsNonneg p h₀ events
  generalize (Runs.run (step p) s₀ events).db = db at *
  rw [reportPayload_eq env db rfl] at hreport
  obtain rfl : reportOf env db (if week then 7 else 1) = payload := by
    cases happs : env.sql .sumSecondsByApp with
    | some e =>
        rw [happs] at hreport
        cases hreport
    | none =>
        cases hthis : env.sql (.sumSeconds none (env.nowUtc - daysDelta (if week then 7 else 1))) with
        | some e =>
            rw [happs, hthis] at hreport
            cases hreport
        | none =>
            cases hboth : env.sql
                (.sumSeconds none (env.nowUtc - daysDelta ((if week then 7 else 1) * 2))) with
            | some e =>
                rw [happs, hthis, hboth] at hreport
                cases hreport
            | none =>
                rw [happs, hthis, hboth] at hreport
                exact Except.ok.inj hreport
  exact reportOf_consistent hdays hdb htotal hyears hsince hprev

/-! ### Two short sessions -/

/-- Puzzles and paint, 59 seconds each. -/
def shortSessions : State :=
  { sampleState with db := { usageSessions :=
      [⟨"org.kde.gcompris", 4711, 1788220000000000000, some 1788220059000000000, some 59⟩,
        ⟨"tuxpaint", 4712, 1788220100000000000, some 1788220159000000000, some 59⟩] } }

/-- A total of one minute, of which neither app has any. -/
theorem report_consistent_shortSessions :
    ReportConsistent (Runs.run (step samplePlatform) shortSessions []).db
      (sampleEnv.nowUtc - daysDelta 1) (sampleEnv.nowUtc - daysDelta (1 * 2))
      (reportOf sampleEnv shortSessions.db 1) := by
  have hrows : ∀ r ∈ shortSessions.db.usageSessions,
      0 ≤ r.durationSeconds.getD 0 ∧ FourDigitYear r.startedAt := by
    decide +kernel
  have hread : reportPayload sampleEnv shortSessions.db false =
      .ok (reportOf sampleEnv shortSessions.db 1) :=
    (reportPayload_eq sampleEnv shortSessions.db rfl).trans rfl
  exact report_consistent samplePlatform (fun r hr => (hrows r hr).1) [] sampleEnv false hread
    (by decide +kernel) (fun r hr => (hrows r hr).2) (by decide) (by decide)

/-- The third of January 10000. -/
def thirdOfJanuary : Env where
  nowUtc := 253402473600000000000
  nowLocal := 253402473600000000000

/-- The report of the last day lists the hour of the year 9999: the text of its start
begins with a digit, and that of the day before with a plus sign. -/
theorem report_of_year_10000_lists_9999 :
    ¬ ∀ (p : Platform) (s₀ : State) (events : List (Env × Event)) (env : Env) (week : Bool)
      (payload : ReportPayload), s₀.db.DurationsNonneg →
      reportPayload env (Runs.run (step p) s₀ events).db week = .ok payload →
      (Runs.run (step p) s₀ events).db.completedSeconds < 60 * 2 ^ 32 →
      ReportConsistent (Runs.run (step p) s₀ events).db
        (env.nowUtc - daysDelta (if week then 7 else 1))
        (env.nowUtc - daysDelta ((if week then 7 else 1) * 2)) payload := by
  intro h
  let db := (Runs.run (step samplePlatform) sampleState year9999).db
  have hread : reportPayload thirdOfJanuary db false = .ok (reportOf thirdOfJanuary db 1) :=
    (reportPayload_eq thirdOfJanuary db rfl).trans rfl
  have hdurations : ∀ r ∈ sampleState.db.usageSessions, 0 ≤ r.durationSeconds.getD 0 := by decide
  have hconsistent := h samplePlatform sampleState year9999 thirdOfJanuary false _ hdurations hread
    (by decide +kernel)
  have hlisted : "org.kde.gcompris" ∈ (reportOf thirdOfJanuary db 1).perApp.map AppUsage.app := by
    decide +kernel
  obtain ⟨r, hr, -, -, hsince⟩ := (hconsistent.listed "org.kde.gcompris").mp hlisted
  have hearlier : ∀ r ∈ db.usageSessions,
      r.startedAt < thirdOfJanuary.nowUtc - daysDelta 1 := by decide +kernel
  exact absurd hsince (not_le.mpr (hearlier r hr))

end OmarchyKids
