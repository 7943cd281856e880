import Mathlib
import OmarchyKids.Agentd.Daemon
import OmarchyKids.Lib.Spans

/-!
# OmarchyKids.Agentd.Sessions

The usage log against the sessions it records.

A session is one run of an app, from its `WrapperStart` to its `WrapperStop`.
The daemon keeps it in two places: as a row of the log, which is open until the
session stops, and — while it runs — as an entry of the active map. `Ledger` says
that the two places together hold exactly the given sessions, and `step_ledger`
that every step of the daemon keeps them so, whatever it does besides and however
pids are reused. Usage is then a sum over sessions (`usedMinutes_eq`): the log
contributes the stopped ones, the map the running ones.
-/

namespace OmarchyKids

open Spans Daemon

/-! ### Sessions -/

/-- One run of an app. -/
structure Session where
  app : String
  pid : UInt32
  span : Span DateTime
  deriving DecidableEq

namespace Session

def running (x : Session) : Bool := x.span.running

/-- The row of the log that records the session. -/
def row (x : Session) : UsageSession where
  appId := x.app
  pid := x.pid
  startedAt := x.span.start
  endedAt := x.span.stop
  durationSeconds := x.span.stop.map fun stop => max (numSeconds (stop - x.span.start)) 0

/-- Whole seconds the session has lasted at `now`. -/
def seconds (now : DateTime) (x : Session) : Int := numSeconds (x.span.elapsed now)

/-- Stops the running session of `(app, pid)`. -/
def stopAt (app : String) (pid : UInt32) (now : DateTime) (x : Session) : Session :=
  if x.running && x.app == app && x.pid == pid then
    { x with span := { x.span with stop := some now } }
  else x

end Session

/-- The sessions so far, and the instant of the last event. -/
structure Usage where
  sessions : List Session
  clock : DateTime

namespace Usage

/-- What an event means for the sessions. -/
def step (u : Usage) (e : Env × Event) : Usage where
  sessions :=
    match e.2 with
    | .request (.wrapperStart app pid) => u.sessions ++ [⟨app, pid, ⟨e.1.nowUtc, none⟩⟩]
    | .request (.wrapperStop app pid _) => u.sessions.map (Session.stopAt app pid e.1.nowUtc)
    | _ => u.sessions
  clock := e.1.nowUtc

/-- The clock does not run backwards, the log works, a start uses a pid that is
not in use, and a stop repeats the app and pid of a running session. -/
def Proper (u : Usage) (e : Env × Event) : Prop :=
  u.clock ≤ e.1.nowUtc ∧ FourDigitYear e.1.nowUtc ∧ (∀ stmt, e.1.sql stmt = none) ∧
    match e.2 with
    | .request (.wrapperStart _ pid) => ∀ x ∈ u.sessions, x.running = true → x.pid ≠ pid
    | .request (.wrapperStop app pid _) =>
        ∃ x ∈ u.sessions, x.running = true ∧ x.app = app ∧ x.pid = pid
    | _ => True

/-- Nothing lies in the future, and no pid runs twice. -/
structure WellFormed (u : Usage) : Prop where
  settled : ∀ x ∈ u.sessions, x.span.SettledBy u.clock
  fourDigit : ∀ x ∈ u.sessions, FourDigitYear x.span.start
  unique : u.sessions.Pairwise fun x y => x.running = true → y.running = true → x.pid ≠ y.pid

end Usage

/-- The active map and the log together hold exactly the given sessions. -/
structure Ledger (sessions : List Session) (s : State) : Prop where
  rows : s.db.usageSessions = sessions.map Session.row
  active : ∀ pid app start, (∃ warned, s.active.lookup pid = some ⟨app, start, warned⟩) ↔
    ⟨app, pid, ⟨start, none⟩⟩ ∈ sessions

/-! ### Steps -/

namespace Session

theorem running_iff {x : Session} : x.running = true ↔ x.span.stop = none := by
  simp [running, Span.running]

@[simp] theorem stopAt_app (app : String) (pid : UInt32) (now : DateTime) (x : Session) :
    (x.stopAt app pid now).app = x.app := by
  unfold stopAt
  split <;> rfl

@[simp] theorem stopAt_pid (app : String) (pid : UInt32) (now : DateTime) (x : Session) :
    (x.stopAt app pid now).pid = x.pid := by
  unfold stopAt
  split <;> rfl

@[simp] theorem stopAt_start (app : String) (pid : UInt32) (now : DateTime) (x : Session) :
    (x.stopAt app pid now).span.start = x.span.start := by
  unfold stopAt
  split <;> rfl

/-- What still runs after a stop ran before it, and is another session. -/
theorem stopAt_running {app : String} {pid : UInt32} {now : DateTime} {x : Session}
    (h : (x.stopAt app pid now).running = true) :
    x.stopAt app pid now = x ∧ x.running = true ∧ ¬ (x.app = app ∧ x.pid = pid) := by
  by_cases hmatch : (x.running && x.app == app && x.pid == pid) = true
  · rw [stopAt, if_pos hmatch] at h
    cases h
  · have hself : x.stopAt app pid now = x := if_neg hmatch
    rw [hself] at h ⊢
    refine ⟨rfl, h, ?_⟩
    simpa [h] using hmatch

theorem stopAt_settled {app : String} {pid : UInt32} {clock now : DateTime} {x : Session}
    (h : x.span.SettledBy clock) (hle : clock ≤ now) :
    (x.stopAt app pid now).span.SettledBy now := by
  unfold stopAt
  split
  · refine ⟨h.1.trans hle, fun stop hstop => ?_⟩
    obtain rfl : now = stop := by simpa using hstop
    exact ⟨h.1.trans hle, le_refl _⟩
  · exact h.mono hle

end Session

namespace Usage

/-- A proper event keeps the sessions well-formed. -/
theorem step_wellFormed {u : Usage} {e : Env × Event} (hu : u.WellFormed) (he : u.Proper e) :
    (u.step e).WellFormed := by
  obtain ⟨env, event⟩ := e
  obtain ⟨hclock, hyear, -, hevent⟩ := he
  have hkeep : ∀ x ∈ u.sessions, x.span.SettledBy env.nowUtc := fun x hx =>
    (hu.settled x hx).mono hclock
  match event with
  | .request (.wrapperStart app pid) =>
      refine ⟨fun x hx => ?_, fun x hx => ?_, ?_⟩
      · rcases List.mem_append.mp hx with hx | hx
        · exact hkeep x hx
        · obtain rfl := List.mem_singleton.mp hx
          exact ⟨le_refl _, by simp⟩
      · rcases List.mem_append.mp hx with hx | hx
        · exact hu.fourDigit x hx
        · obtain rfl := List.mem_singleton.mp hx
          exact hyear
      · refine List.pairwise_append.mpr ⟨hu.unique, List.pairwise_singleton _ _, fun x hx y hy => ?_⟩
        obtain rfl := List.mem_singleton.mp hy
        exact fun hrun _ => hevent x hx hrun
  | .request (.wrapperStop app pid _) =>
      refine ⟨fun x hx => ?_, fun x hx => ?_, ?_⟩
      · obtain ⟨y, hy, rfl⟩ := List.mem_map.mp hx
        exact Session.stopAt_settled (hu.settled y hy) hclock
      · obtain ⟨y, hy, rfl⟩ := List.mem_map.mp hx
        rw [Session.stopAt_start]
        exact hu.fourDigit y hy
      · refine List.pairwise_map.mpr (hu.unique.imp fun {x y} hxy hx hy => ?_)
        rw [Session.stopAt_pid, Session.stopAt_pid]
        exact hxy (Session.stopAt_running hx).2.1 (Session.stopAt_running hy).2.1
  | .tick | .request .ping | .request .status | .request (.setTier ..) | .request (.unlock ..)
  | .request (.override ..) | .request (.overrideFailed _) | .request (.report _)
  | .request (.wrapperAuthorize _) | .request (.wrapperPoll ..) | .request (.pushContent _) =>
      exact ⟨hkeep, hu.fourDigit, hu.unique⟩

/-- Two running sessions with one pid are the same session. -/
theorem WellFormed.eq_of_pid {u : Usage} (hu : u.WellFormed) {x y : Session}
    (hx : x ∈ u.sessions) (hy : y ∈ u.sessions) (hxrun : x.running = true)
    (hyrun : y.running = true) (hpid : x.pid = y.pid) : x = y := by
  by_contra hne
  have : Std.Symm fun x y : Session => x.running = true → y.running = true → x.pid ≠ y.pid :=
    ⟨fun _ _ h hy hx => (h hx hy).symm⟩
  exact hu.unique.forall hx hy hne hxrun hyrun hpid

/-- A running session is the only running one with its app and pid, also as an
element of the list. -/
theorem WellFormed.filter_eq_singleton {u : Usage} (hu : u.WellFormed) {x : Session}
    (hx : x ∈ u.sessions) (hxrun : x.running = true) :
    (u.sessions.filter fun y => y.running && y.app == x.app && y.pid == x.pid) = [x] := by
  have hmem : x ∈ u.sessions.filter fun y => y.running && y.app == x.app && y.pid == x.pid := by
    simp [hx, hxrun]
  have hpair := hu.unique.filter fun y => y.running && y.app == x.app && y.pid == x.pid
  have hall : ∀ y ∈ u.sessions.filter fun y => y.running && y.app == x.app && y.pid == x.pid,
      y.running = true ∧ y.pid = x.pid := by
    intro y hy
    have hy' := (List.mem_filter.mp hy).2
    simp only [Bool.and_eq_true, beq_iff_eq] at hy'
    exact ⟨hy'.1.1, hy'.2⟩
  generalize u.sessions.filter (fun y => y.running && y.app == x.app && y.pid == x.pid) = found at *
  match found with
  | [] => cases hmem
  | [y] => rw [List.mem_singleton.mp hmem]
  | y :: z :: rest =>
      -- two such sessions would share their pid
      obtain ⟨hyrun, hypid⟩ := hall y (by simp)
      obtain ⟨hzrun, hzpid⟩ := hall z (by simp)
      exact absurd (hypid.trans hzpid.symm) ((List.pairwise_cons.mp hpair).1 z (by simp) hyrun hzrun)

end Usage

/-! ### The daemon keeps the ledger -/

/-- What the two places hold about sessions, the pre-warning flag aside. -/
def SameSessions (s s' : State) : Prop :=
  s'.db.usageSessions = s.db.usageSessions ∧
    ∀ pid app start, (∃ warned, s'.active.lookup pid = some ⟨app, start, warned⟩) ↔
      ∃ warned, s.active.lookup pid = some ⟨app, start, warned⟩

theorem SameSessions.refl (s : State) : SameSessions s s := ⟨rfl, fun _ _ _ => Iff.rfl⟩

theorem SameSessions.trans {s s' s'' : State} (h : SameSessions s s') (h' : SameSessions s' s'') :
    SameSessions s s'' :=
  ⟨h'.1.trans h.1, fun pid app start => (h'.2 pid app start).trans (h.2 pid app start)⟩

theorem SameSessions.of_eq {s s' : State} (hrows : s'.db.usageSessions = s.db.usageSessions)
    (hactive : s'.active = s.active) : SameSessions s s' := by
  refine ⟨hrows, fun pid app start => ?_⟩
  rw [hactive]

theorem Ledger.of_same {sessions : List Session} {s s' : State} (h : Ledger sessions s)
    (hsame : SameSessions s s') : Ledger sessions s' :=
  ⟨hsame.1.trans h.rows, fun pid app start => (hsame.2 pid app start).trans (h.active pid app start)⟩

theorem saveAndRender_same (p : Platform) (env : Env) (s : State) :
    (Handlers.saveAndRender p env s).1.db = s.db ∧
      (Handlers.saveAndRender p env s).1.active = s.active := by
  unfold Handlers.saveAndRender
  simp only [State.save_eq, State.render_eq]
  cases env.saveError p with
  | some e => exact ⟨rfl, rfl⟩
  | none => cases env.renderError p <;> exact ⟨rfl, rfl⟩

theorem handleSetTier_sessions (p : Platform) (env : Env) (s : State) (tier : String)
    (apps : Option (List AppTile)) :
    (Handlers.handleSetTier p env s tier apps).1.db = s.db ∧
      (Handlers.handleSetTier p env s tier apps).1.active = s.active := by
  unfold Handlers.handleSetTier
  split
  · exact ⟨rfl, rfl⟩
  · split
    · exact ⟨rfl, rfl⟩
    · have hsame := saveAndRender_same p env { s with config := s.config.switchTier tier apps }
      rcases hres : Handlers.saveAndRender p env _ with ⟨s', _ | e⟩ <;> rw [hres] at hsame <;>
        exact hsame

theorem handleUnlock_sessions (p : Platform) (env : Env) (s : State) (app : String)
    (minutes : Option UInt32) (viaOverride : Bool) :
    (Handlers.handleUnlock p env s app minutes viaOverride).1.db.usageSessions =
        s.db.usageSessions ∧
      (Handlers.handleUnlock p env s app minutes viaOverride).1.active = s.active := by
  unfold Handlers.handleUnlock
  split
  · obtain ⟨hdb, hactive⟩ := saveAndRender_same p env
      { s with
        config := s.config.pushUnlock
          (Handlers.newUnlock env app (minutes.getD defaultUnlockMinutes) viaOverride) }
    dsimp only
    rcases hres : Handlers.saveAndRender p env _ with ⟨s', _ | e⟩
    · rw [hres] at hdb hactive
      have hrows : s'.db.usageSessions = s.db.usageSessions := congrArg Db.usageSessions hdb
      dsimp only
      split
      · unfold Db.insertPinOverride Sql.exec
        cases env.sql .insertPinOverride <;> exact ⟨hrows, hactive⟩
      · exact ⟨hrows, hactive⟩
    · rw [hres] at hdb hactive
      exact ⟨congrArg Db.usageSessions hdb, hactive⟩
  · exact ⟨rfl, rfl⟩

theorem handleOverrideFailed_sessions (env : Env) (s : State) (app : String) :
    (Handlers.handleOverrideFailed env s app).1.db.usageSessions = s.db.usageSessions ∧
      (Handlers.handleOverrideFailed env s app).1.active = s.active := by
  unfold Handlers.handleOverrideFailed Db.insertSecurityEvent Sql.exec
  cases env.sql .insertSecurityEvent <;> exact ⟨rfl, rfl⟩

/-- Whether a request starts or stops a session. -/
def Request.isSession : Request → Bool
  | .wrapperStart .. => true
  | .wrapperStop .. => true
  | _ => false

/-- Only a start or a stop touches the sessions. -/
theorem dispatch_sessions (p : Platform) (env : Env) (s : State) {req : Request}
    (h : req.isSession = false) :
    (Handlers.dispatch p env s req).1.db.usageSessions = s.db.usageSessions ∧
      (Handlers.dispatch p env s req).1.active = s.active := by
  cases req with
  | setTier tier apps =>
      obtain ⟨hdb, hactive⟩ := handleSetTier_sessions p env s tier apps
      exact ⟨congrArg Db.usageSessions hdb, hactive⟩
  | unlock app minutes => exact handleUnlock_sessions p env s app minutes false
  | override app minutes => exact handleUnlock_sessions p env s app minutes true
  | overrideFailed app => exact handleOverrideFailed_sessions env s app
  | wrapperStart app pid => cases h
  | wrapperStop app pid _ => cases h
  | _ => exact ⟨rfl, rfl⟩

theorem dispatch_same (p : Platform) (env : Env) (s : State) {req : Request}
    (h : req.isSession = false) : SameSessions s (Handlers.dispatch p env s req).1 :=
  .of_eq (dispatch_sessions p env s h).1 (dispatch_sessions p env s h).2

theorem prewarn_same (p : Platform) (env : Env) (acc : State × List Ticker.PreWarning)
    (candidate : UInt32 × String) : SameSessions acc.1 (Ticker.prewarn p env acc candidate).1 := by
  obtain ⟨s, sent⟩ := acc
  obtain ⟨pid, app⟩ := candidate
  unfold Ticker.prewarn
  dsimp only
  split
  · exact .refl s
  · split
    · refine ⟨rfl, fun pid' app' start => ?_⟩
      dsimp only
      cases hlookup : s.active.lookup pid with
      | none => exact Iff.rfl
      | some session =>
          -- only the flag of the entry changes
          by_cases heq : pid' = pid
          · subst heq
            simp only [AList.lookup_insert, hlookup, Option.some.injEq]
            constructor
            · rintro ⟨warned, hentry⟩
              obtain ⟨happ, hstart, -⟩ := ActiveSession.mk.inj hentry
              exact ⟨session.warned, by rw [← happ, ← hstart]⟩
            · rintro ⟨warned, rfl⟩
              exact ⟨true, rfl⟩
          · rw [AList.lookup_insert_ne heq]
    · exact .refl s

theorem tick_same (p : Platform) (env : Env) (s : State) :
    SameSessions s (Ticker.tick p env s).1 := by
  have hprune : SameSessions s (Ticker.pruneUnlocks p env s) := by
    unfold Ticker.pruneUnlocks
    simp only [State.save_eq, State.render_eq]
    split
    · split <;> split <;> exact .of_eq rfl rfl
    · exact .of_eq rfl rfl
  have hfold : ∀ (candidates : List (UInt32 × String)) (acc : State × List Ticker.PreWarning),
      SameSessions acc.1 (candidates.foldl (Ticker.prewarn p env) acc).1 := by
    intro candidates
    induction candidates with
    | nil => exact fun acc => .refl acc.1
    | cons candidate candidates ih =>
        exact fun acc => (prewarn_same p env acc candidate).trans (ih _)
  exact hprune.trans (hfold _ _)

/-- A start leaves a row and an entry, unless the row cannot be inserted. -/
theorem handleWrapperStart_sessions (env : Env) (s : State) (app : String) (pid : UInt32) :
    if env.sql .insertSession = none then
      (Handlers.handleWrapperStart env s app pid).1.db.usageSessions =
          s.db.usageSessions ++ [{ appId := app, pid, startedAt := env.nowUtc }] ∧
        (Handlers.handleWrapperStart env s app pid).1.active =
          s.active.insert pid { app, startedAt := env.nowUtc }
    else
      (Handlers.handleWrapperStart env s app pid).1.db.usageSessions = s.db.usageSessions ∧
        (Handlers.handleWrapperStart env s app pid).1.active = s.active := by
  unfold Handlers.handleWrapperStart Db.insertSecurityEvent Db.startSession Sql.exec
  cases hinsert : env.sql .insertSession with
  | none => cases env.sql .insertSecurityEvent <;> simp only [if_true] <;> split <;> exact ⟨rfl, rfl⟩
  | some e =>
      cases env.sql .insertSecurityEvent <;> simp only [reduceCtorEq, if_false] <;> split <;>
        exact ⟨rfl, rfl⟩

/-- A stop drops the entry, whatever becomes of the rows. -/
theorem handleWrapperStop_sessions (env : Env) (s : State) (app : String) (pid : UInt32) :
    (Handlers.handleWrapperStop env s app pid).1.active = s.active.erase pid ∧
      (Handlers.handleWrapperStop env s app pid).1.db =
        (s.db.endSession env.sql app pid env.nowUtc).toOption.getD s.db := by
  unfold Handlers.handleWrapperStop
  dsimp only
  cases s.db.endSession env.sql app pid env.nowUtc with
  | error e => exact ⟨rfl, rfl⟩
  | ok db => exact ⟨rfl, rfl⟩

theorem handleWrapperStart_ok {env : Env} {s : State} {app : String} {pid : UInt32}
    (hsql : ∀ stmt, env.sql stmt = none) :
    (Handlers.handleWrapperStart env s app pid).1.db.usageSessions =
        s.db.usageSessions ++ [{ appId := app, pid, startedAt := env.nowUtc }] ∧
      (Handlers.handleWrapperStart env s app pid).1.active =
        s.active.insert pid { app, startedAt := env.nowUtc } := by
  have hstart := handleWrapperStart_sessions env s app pid
  rwa [if_pos (hsql .insertSession)] at hstart

theorem handleWrapperStop_ok {env : Env} {s : State} {app : String} {pid : UInt32}
    {started : DateTime} (hsql : ∀ stmt, env.sql stmt = none) (hyear : FourDigitYear started)
    (hopen : ((s.db.usageSessions.filter (Db.isOpen app pid)).getLast?.map
      UsageSession.startedAt) = some started) :
    (Handlers.handleWrapperStop env s app pid).1.db.usageSessions =
        s.db.usageSessions.map (Db.closeRow app pid env.nowUtc
          (max (numSeconds (env.nowUtc - started)) 0)) ∧
      (Handlers.handleWrapperStop env s app pid).1.active = s.active.erase pid := by
  obtain ⟨hactive, hdb⟩ := handleWrapperStop_sessions env s app pid
  refine ⟨?_, hactive⟩
  rw [hdb]
  rw [Db.endSession_of_select (hsql _), hopen]
  simp only [Db.parseStartedAt_of_year hyear, Sql.exec_of_none _ (hsql _)]
  rfl

theorem row_isOpen (app : String) (pid : UInt32) (x : Session) :
    Db.isOpen app pid x.row = (x.running && x.app == app && x.pid == pid) := by
  rw [Db.isOpen, Session.running, Span.running, Bool.and_comm, Bool.and_assoc]
  rfl

/-- In a ledger, a running session has exactly one open row. -/
theorem Ledger.open_row {u : Usage} {s : State} (h : Ledger u.sessions s) (hu : u.WellFormed)
    {x : Session} (hx : x ∈ u.sessions) (hrun : x.running = true) :
    s.db.usageSessions.filter (Db.isOpen x.app x.pid) = [x.row] := by
  have hopen : Db.isOpen x.app x.pid ∘ Session.row =
      fun y => y.running && y.app == x.app && y.pid == x.pid :=
    funext fun y => row_isOpen x.app x.pid y
  rw [h.rows, List.filter_map, hopen, hu.filter_eq_singleton hx hrun, List.map_singleton]

/-- Closing the rows is stopping the session. -/
theorem closeRow_row {x y : Session} {now : DateTime} (hstart : y.running = true → x.app = y.app →
    x.pid = y.pid → y.span.start = x.span.start) :
    Db.closeRow x.app x.pid now (max (numSeconds (now - x.span.start)) 0) y.row =
      (y.stopAt x.app x.pid now).row := by
  unfold Db.closeRow Session.stopAt
  rw [row_isOpen]
  split
  · rename_i hmatch
    simp only [Bool.and_eq_true, beq_iff_eq] at hmatch
    simp [Session.row, hstart hmatch.1.1 hmatch.1.2.symm hmatch.2.symm]
  · rfl

theorem ledger_start {u : Usage} {s : State} {env : Env} {app : String} {pid : UInt32}
    (h : Ledger u.sessions s) (hsql : ∀ stmt, env.sql stmt = none)
    (hfresh : ∀ x ∈ u.sessions, x.running = true → x.pid ≠ pid) :
    Ledger (u.sessions ++ [⟨app, pid, ⟨env.nowUtc, none⟩⟩])
      (Handlers.handleWrapperStart env s app pid).1 := by
  obtain ⟨hrows, hactive⟩ := @handleWrapperStart_ok env s app pid hsql
  refine ⟨?_, fun pid' app' start => ?_⟩
  · rw [hrows, h.rows, List.map_append]
    rfl
  · rw [hactive, List.mem_append, List.mem_singleton]
    by_cases heq : pid' = pid
    · subst heq
      rw [AList.lookup_insert]
      constructor
      · rintro ⟨warned, hentry⟩
        obtain ⟨rfl, rfl, -⟩ := ActiveSession.mk.inj (Option.some.inj hentry)
        exact .inr rfl
      · rintro (hmem | hnew)
        · exact absurd rfl (hfresh _ hmem rfl)
        · obtain ⟨rfl, -, hspan⟩ := Session.mk.inj hnew
          obtain ⟨rfl, -⟩ := Span.mk.inj hspan
          exact ⟨false, rfl⟩
    · rw [AList.lookup_insert_ne heq, h.active]
      refine ⟨.inl, ?_⟩
      rintro (hmem | hnew)
      · exact hmem
      · exact absurd (Session.mk.inj hnew).2.1 heq

theorem ledger_stop {u : Usage} {s : State} {env : Env} {x : Session} (h : Ledger u.sessions s)
    (hu : u.WellFormed) (hsql : ∀ stmt, env.sql stmt = none) (hx : x ∈ u.sessions)
    (hrun : x.running = true) :
    Ledger (u.sessions.map (Session.stopAt x.app x.pid env.nowUtc))
      (Handlers.handleWrapperStop env s x.app x.pid).1 := by
  have hopen : (s.db.usageSessions.filter (Db.isOpen x.app x.pid)).getLast?.map
      UsageSession.startedAt = some x.span.start := by
    rw [h.open_row hu hx hrun]
    rfl
  obtain ⟨hrows, hactive⟩ := handleWrapperStop_ok hsql (hu.fourDigit x hx) hopen
  refine ⟨?_, fun pid app start => ?_⟩
  · rw [hrows, h.rows, List.map_map, List.map_map]
    refine List.map_congr_left fun y hy => closeRow_row fun hyrun _ hpid => ?_
    rw [hu.eq_of_pid hy hx hyrun hrun hpid.symm]
  · rw [hactive]
    by_cases heq : pid = x.pid
    · -- the stopped session was the only one with its pid
      subst heq
      rw [AList.lookup_erase]
      constructor
      · rintro ⟨warned, hentry⟩
        cases hentry
      · intro hmem
        obtain ⟨y, hy, hstop⟩ := List.mem_map.mp hmem
        have hstill : (y.stopAt x.app x.pid env.nowUtc).running = true := by
          rw [hstop]
          rfl
        obtain ⟨hself, hyrun, hother⟩ := Session.stopAt_running hstill
        have hpid : y.pid = x.pid := by rw [← hself, hstop]
        obtain rfl := hu.eq_of_pid hy hx hyrun hrun hpid
        exact absurd ⟨rfl, rfl⟩ hother
    · rw [AList.lookup_erase_ne heq, h.active, List.mem_map]
      constructor
      · intro hmem
        refine ⟨_, hmem, ?_⟩
        simp [Session.stopAt, heq]
      · rintro ⟨y, hy, hstop⟩
        have hstill : (y.stopAt x.app x.pid env.nowUtc).running = true := by
          rw [hstop]
          rfl
        obtain ⟨hself, -, -⟩ := Session.stopAt_running hstill
        rw [← hstop, hself]
        exact hy

/-- Every step of the daemon keeps the log and the map in step with the
sessions. -/
theorem step_ledger {p : Platform} {u : Usage} {s : State} {e : Env × Event}
    (h : Ledger u.sessions s) (hu : u.WellFormed) (he : u.Proper e) :
    Ledger (u.step e).sessions (step p s e) := by
  obtain ⟨env, event⟩ := e
  obtain ⟨-, -, hsql, hevent⟩ := he
  match event with
  | .tick => exact h.of_same (tick_same p env s)
  | .request (.wrapperStart app pid) => exact ledger_start h hsql hevent
  | .request (.wrapperStop app pid _) =>
      obtain ⟨x, hx, hrun, rfl, rfl⟩ := hevent
      exact ledger_stop h hu hsql hx hrun
  | .request .ping | .request .status | .request (.setTier ..) | .request (.unlock ..)
  | .request (.override ..) | .request (.overrideFailed _) | .request (.report _)
  | .request (.wrapperAuthorize _) | .request (.wrapperPoll ..) | .request (.pushContent _) =>
      exact h.of_same (dispatch_same p env s (by rfl))

/-- In every proper run the log and the map hold exactly the sessions of the
run. -/
theorem run_ledger {p : Platform} {u : Usage} {s : State} {es : List (Env × Event)}
    (h : Ledger u.sessions s) (hu : u.WellFormed) (hes : Runs.Along Usage.step Usage.Proper u es) :
    Ledger (Runs.run Usage.step u es).sessions (Runs.run (step p) s es) ∧
      (Runs.run Usage.step u es).WellFormed :=
  Runs.run_simulation_along (R := fun u s => Ledger u.sessions s ∧ u.WellFormed) ⟨h, hu⟩
    (fun _ _ _ he ⟨hledger, hwell⟩ =>
      ⟨step_ledger hledger hwell he, Usage.step_wellFormed hwell he⟩) hes

end OmarchyKids
