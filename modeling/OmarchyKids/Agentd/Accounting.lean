import Mathlib
import OmarchyKids.Agentd.Sessions

/-!
# OmarchyKids.Agentd.Accounting

Used minutes as sums over sessions.

`usedMinutes_eq` is the law of the two halves: the log's sum over completed
sessions and the map's sum over running ones together are the sum over all
sessions begun since a given instant, each counted from its start to its stop or
to now. Only *when a session began* decides whether it counts; for a session that
does, all it has lasted lies in the period (`Span.overlap_eq_elapsed`), and a
session begun earlier contributes nothing, however long it still runs.

Minutes are cast to `u32`, so they come out modulo 2³².
-/

namespace OmarchyKids

open Spans Daemon

/-- Whether a session counts: begun since `since`, and of the app if one is given. -/
def Session.counts (app : Option String) (since : DateTime) (x : Session) : Bool :=
  decide (since ≤ x.span.start) && app.all (x.app == ·)

/-- Seconds of the sessions that count, as seen at `now`. -/
def usageSeconds (sessions : List Session) (app : Option String) (since now : DateTime) : Int :=
  ((sessions.filter (Session.counts app since)).map (Session.seconds now)).sum

namespace Budget

/-- Both functions of the budget: all apps (`none`), or one. -/
def usedMinutes (sql : Sql) (db : Db) (active : ActiveMap) (since now : DateTime) :
    Option String → Except String UInt32
  | none => computeDailyUsedMinutes sql db active since now
  | some app => computeAppUsedMinutes sql db active app since now

theorem minutesOf_toNat {seconds : Int} (h : 0 ≤ seconds) :
    ((minutesOf seconds).toNat : Int) = seconds / 60 % 2 ^ 32 := by
  rw [minutesOf, Int.tdiv_eq_ediv_of_nonneg h, UInt32.ofInt, UInt32.toNat_ofNat']
  omega

/-- Seconds of the running sessions, as the budget adds them up. -/
def liveTotal (active : ActiveMap) (since now : DateTime) (app : Option String) : Int :=
  ((active.values.filter fun s => app.all (s.app == ·) && decide (since ≤ s.startedAt)).map
    (liveSeconds now)).sum

theorem usedMinutes_of_sql_ok {sql : Sql} {db : Db} {active : ActiveMap} {since now : DateTime}
    {app : Option String} (hsql : ∀ stmt, sql stmt = none) :
    usedMinutes sql db active since now app =
      .ok (minutesOf (Db.sumDurations (db.usageSessions.filter fun r =>
        Db.completedSince since r && app.all (r.appId == ·)) + liveTotal active since now app)) := by
  cases app with
  | none =>
      simp only [usedMinutes, computeDailyUsedMinutes, Db.usedSecondsSince, liveTotal,
        Sql.exec_of_none _ (hsql _), Option.all_none, Bool.true_and]
      rfl
  | some app =>
      simp only [usedMinutes, computeAppUsedMinutes, Db.usedSecondsSince, liveTotal,
        Sql.exec_of_none _ (hsql _), Option.all_some]
      rfl

end Budget

/-! ### The two halves -/

/-- A completed session's row holds the seconds it lasted. -/
theorem row_duration {x : Session} {clock now : DateTime} (hx : x.span.SettledBy clock)
    (hnow : clock ≤ now) (hstopped : x.running = false) :
    x.row.durationSeconds.getD 0 = x.seconds now := by
  cases hstop : x.span.stop with
  | none => simp [Session.running, Span.running, hstop] at hstopped
  | some stop =>
      obtain ⟨hle, hstop'⟩ := hx.2 stop hstop
      have hnonneg : 0 ≤ numSeconds (stop - x.span.start) := numSeconds_nonneg (Int.sub_nonneg.mpr hle)
      simp only [Session.row, hstop, Option.map_some, Option.getD_some, Session.seconds,
        Span.elapsed, Span.endBy_of_stopped hstop (hstop'.trans hnow)]
      exact max_eq_left hnonneg

theorem completed_half {u : Usage} {now since : DateTime} {app : Option String} (hu : u.WellFormed)
    (hnow : u.clock ≤ now) (hsince : FourDigitYear since) :
    Db.sumDurations ((u.sessions.map Session.row).filter fun r =>
        Db.completedSince since r && app.all (r.appId == ·)) =
      (((u.sessions.filter (Session.counts app since)).filter fun x => !x.running).map
        (Session.seconds now)).sum := by
  have hselect : ∀ x ∈ u.sessions,
      (Db.completedSince since x.row && app.all (x.row.appId == ·)) =
        (!x.running && Session.counts app since x) := by
    intro x hx
    have htext : notBefore since x.span.start = decide (since ≤ x.span.start) := by
      rw [Bool.eq_iff_iff, notBefore_iff hsince (hu.fourDigit x hx), decide_eq_true_iff]
    have hended : x.span.stop.isSome = !x.running := by
      rw [Session.running, Span.running, Option.not_isNone]
    simp only [Db.completedSince, Session.row, htext, hended, Session.counts]
    rw [Bool.and_comm _ (!x.running), Bool.and_assoc]
  rw [Db.sumDurations, List.filter_map, List.map_map, List.filter_filter]
  simp only [Function.comp_def]
  rw [List.filter_congr hselect]
  refine congrArg List.sum (List.map_congr_left fun x hx => ?_)
  obtain ⟨hmem, hsel⟩ := List.mem_filter.mp hx
  have hstopped : x.running = false := by simpa using (Bool.and_eq_true_iff.mp hsel).1
  exact row_duration (hu.settled x hmem) hnow hstopped

/-- What an entry of the map says about its session. -/
def entryKey (e : Sigma fun _ : UInt32 => ActiveSession) : UInt32 × String × DateTime :=
  (e.1, e.2.app, e.2.startedAt)

def Session.key (x : Session) : UInt32 × String × DateTime := (x.pid, x.app, x.span.start)

/-- The map lists the running sessions, in some order. -/
theorem Ledger.entries_perm {u : Usage} {s : State} (h : Ledger u.sessions s) (hu : u.WellFormed) :
    (s.active.entries.map entryKey).Perm ((u.sessions.filter Session.running).map Session.key) := by
  have hentries : (s.active.entries.map entryKey).Nodup := by
    refine List.Nodup.of_map Prod.fst ?_
    rw [List.map_map]
    exact s.active.nodupKeys
  have hsessions : ((u.sessions.filter Session.running).map Session.key).Nodup := by
    refine List.Nodup.of_map Prod.fst ?_
    rw [List.map_map, List.nodup_iff_pairwise_ne, List.pairwise_map, List.pairwise_filter]
    exact hu.unique.imp fun {x y} hxy hx hy => hxy hx hy
  refine (List.perm_ext_iff_of_nodup hentries hsessions).mpr ?_
  rintro ⟨pid, app, start⟩
  have hactive := h.active pid app start
  constructor
  · intro hmem
    obtain ⟨⟨pid', a, b, warned⟩, hentry, hkey⟩ := List.mem_map.mp hmem
    obtain ⟨rfl, rfl, rfl⟩ : pid' = pid ∧ a = app ∧ b = start := by simpa [entryKey] using hkey
    have hlookup := hactive.mp ⟨warned, AList.mem_lookup_iff.mpr hentry⟩
    exact List.mem_map.mpr ⟨_, List.mem_filter.mpr ⟨hlookup, rfl⟩, rfl⟩
  · intro hmem
    obtain ⟨⟨app', pid', begun, stop⟩, hx, hkey⟩ := List.mem_map.mp hmem
    obtain ⟨hx, hrun⟩ := List.mem_filter.mp hx
    obtain ⟨rfl, rfl, rfl⟩ : pid' = pid ∧ app' = app ∧ begun = start := by
      simpa [Session.key] using hkey
    obtain rfl : stop = none := Session.running_iff.mp hrun
    obtain ⟨warned, hlookup⟩ := hactive.mpr hx
    exact List.mem_map.mpr ⟨_, AList.mem_lookup_iff.mp hlookup, rfl⟩

theorem live_half {u : Usage} {s : State} {now since : DateTime} {app : Option String}
    (h : Ledger u.sessions s) (hu : u.WellFormed) (hnow : u.clock ≤ now) :
    Budget.liveTotal s.active since now app =
      (((u.sessions.filter (Session.counts app since)).filter Session.running).map
        (Session.seconds now)).sum := by
  -- selection and seconds depend on the key alone
  let picks (k : UInt32 × String × DateTime) : Bool :=
    app.all (k.2.1 == ·) && decide (since ≤ k.2.2)
  let lasted (k : UInt32 × String × DateTime) : Int := max (numSeconds (now - k.2.2)) 0
  have hkeys : Budget.liveTotal s.active since now app =
      (((s.active.entries.map entryKey).filter picks).map lasted).sum := by
    rw [Budget.liveTotal, ActiveMap.values, List.filter_map, List.filter_map, List.map_map,
      List.map_map]
    rfl
  have hperm := ((h.entries_perm hu).filter picks).map lasted
  rw [hkeys, hperm.sum_eq, List.filter_map, List.map_map, List.filter_filter, List.filter_filter]
  have hselect : ∀ x ∈ u.sessions, ((picks ∘ Session.key) x && x.running) =
      (x.running && Session.counts app since x) := by
    intro x _
    rw [Bool.and_comm, Session.counts, Bool.and_comm (decide _)]
    rfl
  rw [List.filter_congr hselect]
  refine congrArg List.sum (List.map_congr_left fun x hx => ?_)
  obtain ⟨hmem, hsel⟩ := List.mem_filter.mp hx
  have hrun := Session.running_iff.mp (Bool.and_eq_true_iff.mp hsel).1
  have hstart : x.span.start ≤ now := (hu.settled x hmem).1.trans hnow
  have hnonneg : 0 ≤ numSeconds (now - x.span.start) := numSeconds_nonneg (Int.sub_nonneg.mpr hstart)
  simp only [Function.comp, lasted, Session.key, Session.seconds, Span.elapsed,
    Span.endBy_of_running hrun]
  exact max_eq_left hnonneg

/-! ### Used minutes -/

theorem usageSeconds_nonneg {u : Usage} {now since : DateTime} {app : Option String}
    (hu : u.WellFormed) (hnow : u.clock ≤ now) : 0 ≤ usageSeconds u.sessions app since now := by
  refine List.sum_nonneg fun n hn => ?_
  obtain ⟨x, hx, rfl⟩ := List.mem_map.mp hn
  have hsettled := (hu.settled x (List.mem_of_mem_filter hx)).mono hnow
  exact numSeconds_nonneg (Span.elapsed_nonneg hsettled)

/-- Both functions of the budget compute the whole minutes of the sessions begun
since `since`, modulo 2³². -/
theorem usedMinutes_eq {u : Usage} {s : State} {sql : Sql} {now since : DateTime}
    (app : Option String) (h : Ledger u.sessions s) (hu : u.WellFormed)
    (hsql : ∀ stmt, sql stmt = none) (hnow : u.clock ≤ now) (hsince : FourDigitYear since) :
    ∃ used, Budget.usedMinutes sql s.db s.active since now app = .ok used ∧
      (used.toNat : Int) = usageSeconds u.sessions app since now / 60 % 2 ^ 32 := by
  refine ⟨_, Budget.usedMinutes_of_sql_ok hsql, ?_⟩
  have hsum : Db.sumDurations (s.db.usageSessions.filter fun r =>
        Db.completedSince since r && app.all (r.appId == ·)) +
      Budget.liveTotal s.active since now app = usageSeconds u.sessions app since now := by
    rw [h.rows, completed_half hu hnow hsince, live_half h hu hnow]
    exact (sum_halves Session.running _ _).symm
  rw [hsum]
  exact Budget.minutesOf_toNat (usageSeconds_nonneg hu hnow)

/-! ### Whole runs -/

/-- A daemon that has just started: nothing runs yet, and its log holds sessions
of the past. -/
structure Usage.Fresh (u : Usage) (s : State) : Prop where
  rows : s.db.usageSessions = u.sessions.map Session.row
  active : s.active = ∅
  stopped : ∀ x ∈ u.sessions, x.running = false
  settled : ∀ x ∈ u.sessions, x.span.SettledBy u.clock
  fourDigit : ∀ x ∈ u.sessions, FourDigitYear x.span.start

theorem Usage.Fresh.wellFormed {u : Usage} {s : State} (h : u.Fresh s) : u.WellFormed where
  settled := h.settled
  fourDigit := h.fourDigit
  unique := List.pairwise_of_forall_mem_list fun x hx _ _ hrun => by
    simp [h.stopped x hx] at hrun

theorem Usage.Fresh.ledger {u : Usage} {s : State} (h : u.Fresh s) : Ledger u.sessions s where
  rows := h.rows
  active pid app start := by
    rw [h.active]
    constructor
    · rintro ⟨warned, hentry⟩
      cases hentry
    · intro hmem
      exact absurd (h.stopped _ hmem) (by simp [Session.running, Span.running])

/-- In every proper run of a fresh daemon, at every point: the map holds exactly
the running sessions, the log one row for each session and exactly one open row
for each running one, and used minutes are the sums over the sessions begun
since `m`, of all apps or of one. -/
theorem run_accounts_for_sessions (p : Platform) {u₀ : Usage} {s₀ : State}
    {es : List (Env × Event)} (h₀ : u₀.Fresh s₀)
    (hes : Runs.Along Usage.step Usage.Proper u₀ es) :
    let u := Runs.run Usage.step u₀ es
    let s := Runs.run (step p) s₀ es
    (∀ pid app start, (∃ warned, s.active.lookup pid = some ⟨app, start, warned⟩) ↔
        ⟨app, pid, ⟨start, none⟩⟩ ∈ u.sessions) ∧
      s.db.usageSessions = u.sessions.map Session.row ∧
      (∀ x ∈ u.sessions, x.running = true →
        s.db.usageSessions.filter (Db.isOpen x.app x.pid) = [x.row]) ∧
      ∀ m now, u.clock ≤ now → FourDigitYear m →
        (∃ used, Budget.computeDailyUsedMinutes Sql.ok s.db s.active m now = .ok used ∧
          (used.toNat : Int) = usageSeconds u.sessions none m now / 60 % 2 ^ 32) ∧
        ∀ app, ∃ used, Budget.computeAppUsedMinutes Sql.ok s.db s.active app m now = .ok used ∧
          (used.toNat : Int) = usageSeconds u.sessions (some app) m now / 60 % 2 ^ 32 := by
  intro u s
  obtain ⟨hledger, hwell⟩ : Ledger u.sessions s ∧ u.WellFormed :=
    run_ledger h₀.ledger h₀.wellFormed hes
  refine ⟨hledger.active, hledger.rows, fun x hx hrun => hledger.open_row hwell hx hrun,
    fun m now hnow hm => ⟨?_, fun app => ?_⟩⟩
  · exact usedMinutes_eq none hledger hwell (fun _ => rfl) hnow hm
  · exact usedMinutes_eq (some app) hledger hwell (fun _ => rfl) hnow hm

/-! ### A busy morning -/

/-- An hour of puzzles the day before. -/
def pastSession : Session := ⟨"org.kde.gcompris", 4711, ⟨1788134400000000000, some 1788138000000000000⟩⟩

def pastUsage : Usage := ⟨[pastSession], 1788138000000000000⟩

def pastState : State := { sampleState with db := { usageSessions := [pastSession.row] } }

theorem pastUsage_fresh : pastUsage.Fresh pastState where
  rows := rfl
  active := rfl
  stopped := by decide
  settled := by simp [pastUsage, pastSession, Span.SettledBy]
  fourDigit := by decide

/-- Puzzles and letters side by side; the puzzles stop and their pid is used again,
by a second run of the letters, which outlasts the first. -/
def busyMorning : List (Env × Event) :=
  [(minutesLater 0, .request (.wrapperStart "org.kde.gcompris" 4711)),
    (minutesLater 3, .request (.wrapperStart "org.kde.klettres" 4712)),
    (minutesLater 10, .request (.wrapperStop "org.kde.gcompris" 4711 (some 0))),
    (minutesLater 12, .request (.wrapperStart "org.kde.klettres" 4711)),
    (minutesLater 13, .tick),
    (minutesLater 20, .request (.wrapperStop "org.kde.klettres" 4712 none))]

theorem busyMorning_proper : Runs.Along Usage.step Usage.Proper pastUsage busyMorning := by
  refine ⟨⟨by decide, by decide, fun _ => rfl, by decide⟩,
    ⟨by decide, by decide, fun _ => rfl, by decide⟩,
    ⟨by decide, by decide, fun _ => rfl, by decide⟩,
    ⟨by decide, by decide, fun _ => rfl, by decide⟩,
    ⟨by decide, by decide, fun _ => rfl, trivial⟩,
    ⟨by decide, by decide, fun _ => rfl, by decide⟩, trivial⟩

theorem run_accounts_for_sessions_busy :
    let u := Runs.run Usage.step pastUsage busyMorning
    let s := Runs.run (step samplePlatform) pastState busyMorning
    (∀ pid app start, (∃ warned, s.active.lookup pid = some ⟨app, start, warned⟩) ↔
        ⟨app, pid, ⟨start, none⟩⟩ ∈ u.sessions) ∧
      s.db.usageSessions = u.sessions.map Session.row ∧
      (∀ x ∈ u.sessions, x.running = true →
        s.db.usageSessions.filter (Db.isOpen x.app x.pid) = [x.row]) ∧
      ∀ m now, u.clock ≤ now → FourDigitYear m →
        (∃ used, Budget.computeDailyUsedMinutes Sql.ok s.db s.active m now = .ok used ∧
          (used.toNat : Int) = usageSeconds u.sessions none m now / 60 % 2 ^ 32) ∧
        ∀ app, ∃ used, Budget.computeAppUsedMinutes Sql.ok s.db s.active app m now = .ok used ∧
          (used.toNat : Int) = usageSeconds u.sessions (some app) m now / 60 % 2 ^ 32 :=
  run_accounts_for_sessions samplePlatform pastUsage_fresh busyMorning_proper

/-- After half an hour: ten minutes of puzzles and seventeen and eighteen of letters. -/
example :
    let s := Runs.run (step samplePlatform) pastState busyMorning
    (Budget.computeDailyUsedMinutes Sql.ok s.db s.active sampleEnv.nowUtc
      (minutesLater 30).nowUtc).toOption = some 45 := by
  decide +kernel

/-! ### Two runs where the minutes are off -/

/-- One puzzle session, begun 2026-09-01 at 00:00:05 UTC. -/
def puzzleSession : List (Env × Event) :=
  [(sampleEnv, .request (.wrapperStart "org.kde.gcompris" 4711))]

def freshUsage : Usage := ⟨[], 0⟩

/-- An hour of the last evening of the year 9999. -/
def year9999 : List (Env × Event) :=
  [({ sampleEnv with nowUtc := 253402293600000000000 },
      .request (.wrapperStart "org.kde.gcompris" 4711)),
    ({ sampleEnv with nowUtc := 253402297200000000000 },
      .request (.wrapperStop "org.kde.gcompris" 4711 (some 0)))]

/-- After 2³² minutes a session counts as unused. And counted from the midnight the
year 10000 begins with, the hour before it is time used, because its text comes
after one that begins with a plus sign. -/
theorem used_minutes_not_exact :
    (let s := Runs.run (step samplePlatform) sampleState puzzleSession
      let u := Runs.run Usage.step freshUsage puzzleSession
      let now := sampleEnv.nowUtc + minutesDelta 4294967296
      (Budget.computeDailyUsedMinutes Sql.ok s.db s.active sampleEnv.nowUtc now).toOption = some 0 ∧
        usageSeconds u.sessions none sampleEnv.nowUtc now / 60 = 4294967296) ∧
      (let s := Runs.run (step samplePlatform) sampleState year9999
        let u := Runs.run Usage.step freshUsage year9999
        let m := 253402300800000000000
        let now := m + minutesDelta 1
        (Budget.computeDailyUsedMinutes Sql.ok s.db s.active m now).toOption = some 60 ∧
          usageSeconds u.sessions none m now = 0) := by
  decide +kernel

/-! ### Sessions across midnight -/

/-- Seconds of the sessions' overlap with the time from `since` to `now`. -/
def overlapSeconds (sessions : List Session) (since now : DateTime) : Int :=
  (sessions.map fun x => numSeconds (x.span.overlap since now)).sum

/-- Today's usage is the overlap with today of the sessions begun today. A
session begun before midnight contributes nothing. -/
theorem usage_is_overlap_of_sessions_begun_since {u : Usage} {s : State} (h : Ledger u.sessions s)
    (hu : u.WellFormed) {now midnight : DateTime} (hnow : u.clock ≤ now)
    (hmidnight : FourDigitYear midnight) :
    (∃ used, Budget.computeDailyUsedMinutes Sql.ok s.db s.active midnight now = .ok used ∧
      (used.toNat : Int) =
        overlapSeconds (u.sessions.filter fun x => decide (midnight ≤ x.span.start))
          midnight now / 60 % 2 ^ 32) ∧
    ∀ app, ∃ used, Budget.computeAppUsedMinutes Sql.ok s.db s.active app midnight now = .ok used ∧
      (used.toNat : Int) =
        overlapSeconds (u.sessions.filter fun x => decide (midnight ≤ x.span.start) && x.app == app)
          midnight now / 60 % 2 ^ 32 := by
  have hoverlap : ∀ app, usageSeconds u.sessions app midnight now =
      overlapSeconds (u.sessions.filter (Session.counts app midnight)) midnight now := by
    intro app
    refine congrArg List.sum (List.map_congr_left fun x hx => ?_)
    obtain ⟨hmem, hcounts⟩ := List.mem_filter.mp hx
    have hbegun : midnight ≤ x.span.start := of_decide_eq_true (Bool.and_eq_true_iff.mp hcounts).1
    rw [Session.seconds, Span.overlap_eq_elapsed hbegun ((hu.settled x hmem).mono hnow)]
  refine ⟨?_, fun app => ?_⟩
  · obtain ⟨used, hused, htotal⟩ := usedMinutes_eq none h hu (fun _ => rfl) hnow hmidnight
    have hall : Session.counts none midnight = fun x => decide (midnight ≤ x.span.start) :=
      funext fun x => Bool.and_true _
    rw [hoverlap, hall] at htotal
    exact ⟨used, hused, htotal⟩
  · obtain ⟨used, hused, htotal⟩ := usedMinutes_eq (some app) h hu (fun _ => rfl) hnow hmidnight
    rw [hoverlap] at htotal
    exact ⟨used, hused, htotal⟩

/-- Ten minutes past midnight. -/
def afterMidnight : DateTime := 1788221400000000000

/-- Puzzles begun half an hour before midnight and still running then; after it,
three minutes of drawing, and letters that go on. -/
def acrossMidnight : List (Env × Event) :=
  [({ sampleEnv with nowUtc := 1788219000000000000 },
      .request (.wrapperStart "org.kde.gcompris" 4711)),
    (minutesLater 1, .request (.wrapperStart "org.tuxpaint.Tuxpaint" 4712)),
    (minutesLater 4, .request (.wrapperStop "org.tuxpaint.Tuxpaint" 4712 (some 0))),
    (minutesLater 6, .request (.wrapperStart "org.kde.klettres" 4712))]

theorem acrossMidnight_proper : Runs.Along Usage.step Usage.Proper pastUsage acrossMidnight := by
  refine ⟨⟨by decide, by decide, fun _ => rfl, by decide⟩,
    ⟨by decide, by decide, fun _ => rfl, by decide⟩,
    ⟨by decide, by decide, fun _ => rfl, by decide⟩,
    ⟨by decide, by decide, fun _ => rfl, by decide⟩, trivial⟩

theorem usage_is_overlap_across :
    let u := Runs.run Usage.step pastUsage acrossMidnight
    let s := Runs.run (step samplePlatform) pastState acrossMidnight
    let midnight := Budget.localMidnightUtc utc afterMidnight
    (∃ used, Budget.computeDailyUsedMinutes Sql.ok s.db s.active midnight afterMidnight = .ok used ∧
      (used.toNat : Int) =
        overlapSeconds (u.sessions.filter fun x => decide (midnight ≤ x.span.start))
          midnight afterMidnight / 60 % 2 ^ 32) ∧
    ∀ app, ∃ used,
      Budget.computeAppUsedMinutes Sql.ok s.db s.active app midnight afterMidnight = .ok used ∧
      (used.toNat : Int) =
        overlapSeconds (u.sessions.filter fun x => decide (midnight ≤ x.span.start) && x.app == app)
          midnight afterMidnight / 60 % 2 ^ 32 := by
  obtain ⟨hledger, hwell⟩ := run_ledger (p := samplePlatform) pastUsage_fresh.ledger
    pastUsage_fresh.wellFormed acrossMidnight_proper
  exact usage_is_overlap_of_sessions_begun_since hledger hwell (by decide) (by decide)

/-- A session begun half an hour before midnight, still running. -/
def lateSession : List (Env × Event) :=
  [({ sampleEnv with nowUtc := 1788219000000000000 },
    .request (.wrapperStart "org.kde.gcompris" 4711))]

/-- The ten minutes the late session has run today are not counted. -/
theorem late_session_uses_no_budget :
    let u := Runs.run Usage.step freshUsage lateSession
    let s := Runs.run (step samplePlatform) sampleState lateSession
    let midnight := Budget.localMidnightUtc utc afterMidnight
    (Budget.computeDailyUsedMinutes Sql.ok s.db s.active midnight afterMidnight).toOption = some 0 ∧
      overlapSeconds u.sessions midnight afterMidnight / 60 = 10 := by
  decide +kernel

end OmarchyKids
