import Mathlib
import OmarchyKids.Agentd.Replies
import OmarchyKids.Agentd.SessionLog

/-!
# OmarchyKids.Agentd.AuditTrail

What the parent can read back: the rows of `pin_overrides` and of
`security_events`.

Both tables only grow, and a step adds at most one row to either (`step_logs`).
An override is in force as soon as its config is installed in memory, but its row
is inserted only after the config has been saved and the tiles rendered, so it is
logged exactly when both files could be written (`overrides_are_logged_iff`). A
failed override is judged by the rows that are there when it is logged
(`override_failure_severe_iff`).
-/

namespace OmarchyKids

open Daemon Handlers

/-! ### The rows of a step -/

/-- Whether both files of the policy can be written. -/
def Env.publishes (p : Platform) (env : Env) : Bool :=
  (env.saveError p).isNone && (env.renderError p).isNone

/-- The row that stands for an override. -/
def overrideRow : Env × Event → Option PinOverride
  | (env, .request (.override app minutes)) =>
      some ⟨env.nowUtc, app, minutes.getD defaultUnlockMinutes⟩
  | _ => none

/-- The row a step adds to `pin_overrides`. -/
def overridesLogged (p : Platform) (e : Env × Event) : List PinOverride :=
  if e.1.publishes p ∧ e.1.sql .insertPinOverride = none then (overrideRow e).toList else []

/-- The beginning of the window in which failures are counted. -/
def windowStart (now : DateTime) : DateTime := now - minutesDelta overrideFailureWindowMinutes

/-- How `handle_override_failed` judges one more failure. -/
def failureSeverity (env : Env) (db : Db) (app : String) : String :=
  let recent := (db.recentOverrideFailureCount env.sql app (windowStart env.nowUtc)).toOption.getD 0
  if severeOverrideFailureThreshold ≤ recent + 1 then "severe" else "routine"

/-- The row a step adds to `security_events`. -/
def eventsLogged (s : State) (e : Env × Event) : List SecurityEvent :=
  if e.1.sql .insertSecurityEvent = none then
    match e.2 with
    | .request (.overrideFailed app) =>
        [⟨e.1.nowUtc, "override_failed", failureSeverity e.1 s.db app, some app⟩]
    | .request (.wrapperStart app _) =>
        if s.config.isAppAllowed app then []
        else [⟨e.1.nowUtc, "wrapper_started_disallowed_app", "routine", some app⟩]
    | _ => []
  else []

/-- Neither table has changed. -/
def SameTrail (db db' : Db) : Prop :=
  db'.pinOverrides = db.pinOverrides ∧ db'.securityEvents = db.securityEvents

theorem handleUnlock_trail (p : Platform) (env : Env) (s : State) (app : String)
    (minutes : Option UInt32) (viaOverride : Bool) :
    (handleUnlock p env s app minutes viaOverride).1.db.pinOverrides =
        s.db.pinOverrides ++
          (if viaOverride = true ∧ env.publishes p ∧ env.sql .insertPinOverride = none then
            [⟨env.nowUtc, app, minutes.getD defaultUnlockMinutes⟩] else []) ∧
      (handleUnlock p env s app minutes viaOverride).1.db.securityEvents = s.db.securityEvents := by
  unfold handleUnlock
  cases hpermitted : unlockIsPermitted app viaOverride env.allowlist.load with
  | false =>
      cases viaOverride with
      | false => simp
      | true => cases hpermitted
  | true =>
      generalize hconfig : s.config.pushUnlock
        (newUnlock env app (minutes.getD defaultUnlockMinutes) viaOverride) = config
      have hdb : (saveAndRender p env { s with config }).1.db = s.db := (saveAndRender_same p env _).1
      have hpublishes : (saveAndRender p env { s with config }).2.isNone = env.publishes p :=
        (saveAndRender_policy p env s config).2
      simp only [if_true, hconfig]
      rcases hres : saveAndRender p env { s with config } with ⟨s₂, _ | e⟩
      · rw [hres] at hdb hpublishes
        dsimp only at hdb ⊢
        rw [← hpublishes]
        cases viaOverride with
        | false => simp [hdb]
        | true =>
            unfold Db.insertPinOverride Sql.exec
            cases env.sql .insertPinOverride <;> simp [hdb]
      · rw [hres] at hdb hpublishes
        dsimp only at hdb ⊢
        simp [hdb, ← hpublishes]

theorem handleOverrideFailed_trail (env : Env) (s : State) (app : String) :
    (handleOverrideFailed env s app).1.db.pinOverrides = s.db.pinOverrides ∧
      (handleOverrideFailed env s app).1.db.securityEvents =
        s.db.securityEvents ++ eventsLogged s (env, .request (.overrideFailed app)) := by
  unfold handleOverrideFailed Db.insertSecurityEvent Sql.exec eventsLogged
  cases env.sql .insertSecurityEvent with
  | none => exact ⟨rfl, rfl⟩
  | some e => simp

theorem handleWrapperStart_trail (env : Env) (s : State) (app : String) (pid : UInt32) :
    (handleWrapperStart env s app pid).1.db.pinOverrides = s.db.pinOverrides ∧
      (handleWrapperStart env s app pid).1.db.securityEvents =
        s.db.securityEvents ++ eventsLogged s (env, .request (.wrapperStart app pid)) := by
  unfold handleWrapperStart Db.insertSecurityEvent Db.startSession Sql.exec eventsLogged
  by_cases hallowed : s.config.isAppAllowed app = true
  · simp only [hallowed, if_true]
    cases env.sql .insertSession <;> simp
  · cases env.sql .insertSecurityEvent <;> cases env.sql .insertSession <;> simp [hallowed]

theorem handleWrapperStop_trail (env : Env) (s : State) (app : String) (pid : UInt32) :
    SameTrail s.db (handleWrapperStop env s app pid).1.db := by
  rw [(handleWrapperStop_sessions env s app pid).2]
  cases hend : s.db.endSession env.sql app pid env.nowUtc with
  | error e => exact ⟨rfl, rfl⟩
  | ok db =>
      obtain rfl := Db.endSession_ok hend
      exact ⟨rfl, rfl⟩

theorem tick_db (p : Platform) (env : Env) (s : State) : (Ticker.tick p env s).1.db = s.db := by
  have hprune : (Ticker.pruneUnlocks p env s).db = s.db := by
    unfold Ticker.pruneUnlocks
    simp only [State.save_eq, State.render_eq]
    split
    · split <;> split <;> rfl
    · rfl
  have hprewarn : ∀ (acc : State × List Ticker.PreWarning) (candidate : UInt32 × String),
      (Ticker.prewarn p env acc candidate).1.db = acc.1.db := by
    intro acc candidate
    unfold Ticker.prewarn
    dsimp only
    split
    · rfl
    · split <;> rfl
  have hfold : ∀ (candidates : List (UInt32 × String)) (acc : State × List Ticker.PreWarning),
      (candidates.foldl (Ticker.prewarn p env) acc).1.db = acc.1.db := by
    intro candidates
    induction candidates with
    | nil => exact fun _ => rfl
    | cons candidate candidates ih =>
        intro acc
        rw [List.foldl_cons, ih, hprewarn]
  rw [Ticker.tick, hfold, hprune]

/-- All a step does to the two tables. -/
theorem step_logs (p : Platform) (s : State) (e : Env × Event) :
    (step p s e).db.pinOverrides = s.db.pinOverrides ++ overridesLogged p e ∧
      (step p s e).db.securityEvents = s.db.securityEvents ++ eventsLogged s e := by
  obtain ⟨env, event⟩ := e
  cases event with
  | tick =>
      rw [step, tick_db]
      simp [overridesLogged, overrideRow, eventsLogged]
  | request req =>
      cases req with
      | setTier tier apps =>
          rw [step, dispatch, (handleSetTier_sessions p env s tier apps).1]
          simp [overridesLogged, overrideRow, eventsLogged]
      | unlock app minutes =>
          obtain ⟨hover, hevents⟩ := handleUnlock_trail p env s app minutes false
          rw [step, dispatch, hover, hevents]
          simp [overridesLogged, overrideRow, eventsLogged]
      | override app minutes =>
          obtain ⟨hover, hevents⟩ := handleUnlock_trail p env s app minutes true
          rw [step, dispatch, hover, hevents]
          simp [overridesLogged, overrideRow, eventsLogged]
      | overrideFailed app =>
          obtain ⟨hover, hevents⟩ := handleOverrideFailed_trail env s app
          rw [step, dispatch, hover, hevents]
          simp [overridesLogged, overrideRow]
      | wrapperStart app pid =>
          obtain ⟨hover, hevents⟩ := handleWrapperStart_trail env s app pid
          rw [step, dispatch, hover, hevents]
          simp [overridesLogged, overrideRow]
      | wrapperStop app pid status =>
          obtain ⟨hover, hevents⟩ := handleWrapperStop_trail env s app pid
          rw [step, dispatch, hover, hevents]
          simp [overridesLogged, overrideRow, eventsLogged]
      | _ => simp [step, dispatch, overridesLogged, overrideRow, eventsLogged]

/-! ### Overrides -/

/-- The override a step puts in force: its app is among the unlocks afterwards, by
override. -/
def overridesInForce (p : Platform) (s : State) (e : Env × Event) : List PinOverride :=
  (overrideRow e).toList.filter fun r =>
    (step p s e).config.apps.unlocked.any fun u => u.desktopId == r.appId && u.viaOverride

/-- An override is in force whatever becomes of the two files. -/
theorem overridesInForce_eq (p : Platform) (s : State) (e : Env × Event) :
    overridesInForce p s e = (overrideRow e).toList := by
  obtain ⟨env, event⟩ := e
  rw [overridesInForce, List.filter_eq_self]
  intro r hr
  rw [Option.mem_toList] at hr
  cases event with
  | tick => cases hr
  | request req =>
      cases req with
      | override app minutes =>
          obtain rfl := Option.some.inj hr
          have hpolicy := congrArg Policy.config
            (dispatch_policy p env s (.override app minutes))
          change (step p s (env, .request (.override app minutes))).config = _ at hpolicy
          rw [hpolicy]
          simp [Request.edit, Request.permitted, Policy.publish, Config.pushUnlock, newUnlock]
      | _ => cases hr

/-- Every override the run has put in force has a row of its own. -/
def OverridesLogged (p : Platform) (s : State) (es : List (Env × Event)) : Prop :=
  ∃ rows, (Runs.run (step p) s es).db.pinOverrides = s.db.pinOverrides ++ rows ∧
    (Runs.written (step p) (overridesInForce p) s es).Sublist rows

/-- A report counts at least the overrides the run has put in force in its range. -/
def ReportCounts (p : Platform) (s : State) (es : List (Env × Event)) (env : Env) (week : Bool) :
    Prop :=
  ∀ payload, reportPayload env (Runs.run (step p) s es).db week = .ok payload →
    ((Runs.written (step p) (overridesInForce p) s es).filter fun r =>
      decide (env.nowUtc - daysDelta (if week then 7 else 1) ≤ r.occurredAt)).length ≤
        payload.pinOverrideCount.toNat

theorem flatMap_sublist {α β : Type} {f g : α → List β} {xs : List α}
    (h : ∀ x ∈ xs, (g x).Sublist (f x)) : (xs.flatMap g).Sublist (xs.flatMap f) := by
  induction xs with
  | nil => simp
  | cons x xs ih =>
      rw [List.flatMap_cons, List.flatMap_cons]
      exact (h x List.mem_cons_self).append (ih fun y hy => h y (List.mem_cons_of_mem _ hy))

/-- A part of every piece that contains the whole is the whole of every piece. -/
theorem flatMap_sublist_iff {α β : Type} {f g : α → List β} {xs : List α}
    (h : ∀ x ∈ xs, (g x).Sublist (f x)) :
    (xs.flatMap f).Sublist (xs.flatMap g) ↔ ∀ x ∈ xs, f x = g x := by
  induction xs with
  | nil => simp
  | cons x xs ih =>
      have hx := h x List.mem_cons_self
      have hxs := flatMap_sublist fun y hy => h y (List.mem_cons_of_mem x hy)
      rw [List.flatMap_cons, List.flatMap_cons, List.forall_mem_cons,
        ← ih fun y hy => h y (List.mem_cons_of_mem _ hy)]
      constructor
      · intro hsub
        have hlength := hsub.length_le
        rw [List.length_append, List.length_append] at hlength
        have hpart := hxs.length_le
        have heq : f x = g x := (hx.eq_of_length_le (by omega)).symm
        rw [heq, List.append_sublist_append_left] at hsub
        exact ⟨heq, hsub⟩
      · rintro ⟨heq, hsub⟩
        rw [heq]
        exact hsub.append_left _

theorem overridesLogged_of_sql {p : Platform} {e : Env × Event}
    (hsql : ∀ stmt, e.1.sql stmt = none) :
    overridesLogged p e = if e.1.publishes p then (overrideRow e).toList else [] := by
  simp [overridesLogged, hsql]

/-- With a working log every override that is in force has its row exactly when
both files could be written at each of them. -/
theorem overridesLogged_iff (p : Platform) (s : State) {es : List (Env × Event)}
    (hsql : ∀ e ∈ es, ∀ stmt, e.1.sql stmt = none) :
    OverridesLogged p s es ↔ ∀ e ∈ es, (overrideRow e).isSome = true → e.1.publishes p = true := by
  have hforce : Runs.written (step p) (overridesInForce p) s es =
      es.flatMap fun e => (overrideRow e).toList :=
    Runs.written_eq_flatMap (overridesInForce_eq p) s es
  have hlog : (Runs.run (step p) s es).db.pinOverrides =
      s.db.pinOverrides ++ es.flatMap (overridesLogged p) := by
    have hwritten : Runs.written (step p) (fun _ => overridesLogged p) s es =
        es.flatMap (overridesLogged p) :=
      Runs.written_eq_flatMap (fun _ e => Eq.refl (overridesLogged p e)) s es
    rw [← hwritten]
    exact Runs.run_written (fun s => s.db.pinOverrides) (fun s e => (step_logs p s e).1) s es
  have hrows : OverridesLogged p s es ↔
      (es.flatMap fun e => (overrideRow e).toList).Sublist (es.flatMap (overridesLogged p)) := by
    rw [OverridesLogged, hforce, hlog]
    simp
  rw [hrows, flatMap_sublist_iff]
  · refine forall₂_congr fun e he => ?_
    rw [overridesLogged_of_sql (hsql e he)]
    cases overrideRow e <;> cases e.1.publishes p <;> simp
  · intro e he
    rw [overridesLogged_of_sql (hsql e he)]
    split
    · exact List.Sublist.refl _
    · exact List.nil_sublist _

theorem asCount_getD {n : Nat} (h : n < 2 ^ 32) :
    ((Db.asCount n).toOption.getD 0).toNat = n := by
  rw [Db.asCount, if_pos h]
  show (UInt32.ofNat n).toNat = n
  exact UInt32.toNat_ofNat_of_lt' h

theorem pinOverrideCountSince_toNat {sql : Sql} {db : Db} (since : DateTime)
    (hsql : sql .countPinOverrides = none) (hcount : db.pinOverrides.length < 2 ^ 32) :
    ((db.pinOverrideCountSince sql since).toOption.getD 0).toNat =
      (db.pinOverrides.filter fun r => notBefore since r.occurredAt).length := by
  rw [Db.pinOverrideCountSince, Sql.exec_of_none _ hsql]
  exact asCount_getD (lt_of_le_of_lt (List.length_filter_le _ _) hcount)

/-- Every override in force was asked for by an event of the run. -/
theorem mem_written_overridesInForce {p : Platform} {s : State} {es : List (Env × Event)}
    {r : PinOverride} (h : r ∈ Runs.written (step p) (overridesInForce p) s es) :
    ∃ e ∈ es, r.occurredAt = e.1.nowUtc := by
  obtain ⟨s', e, he, hr⟩ := Runs.mem_written h
  refine ⟨e, he, ?_⟩
  rw [overridesInForce_eq, Option.mem_toList] at hr
  unfold overrideRow at hr
  split at hr
  · obtain rfl := Option.some.inj hr
    rfl
  · cases hr

/-- A report that covers overrides with rows counts them. -/
theorem reportCounts_of_logged {p : Platform} {s : State} {es : List (Env × Event)}
    (hlogged : OverridesLogged p s es) {env : Env} {week : Bool}
    (hsql : ∀ stmt, env.sql stmt = none)
    (hyears : ∀ e ∈ es, FourDigitYear e.1.nowUtc)
    (hsince : FourDigitYear (env.nowUtc - daysDelta (if week then 7 else 1)))
    (hcount : (Runs.run (step p) s es).db.pinOverrides.length < 2 ^ 32) :
    ReportCounts p s es env week := by
  obtain ⟨rows, hrows, hsub⟩ := hlogged
  intro payload hpayload
  rw [reportPayload_eq env _ rfl, hsql, hsql, hsql] at hpayload
  obtain rfl := Except.ok.inj hpayload
  show _ ≤ ((Db.pinOverrideCountSince env.sql _ _).toOption.getD 0).toNat
  rw [pinOverrideCountSince_toNat _ (hsql _) hcount, hrows, List.filter_append, List.length_append]
  generalize hrange : env.nowUtc - daysDelta (if week then 7 else 1) = since at hsince ⊢
  -- the instants compare as their texts do
  have hcovered : (Runs.written (step p) (overridesInForce p) s es).filter
        (fun r => decide (since ≤ r.occurredAt)) =
      (Runs.written (step p) (overridesInForce p) s es).filter
        fun r => notBefore since r.occurredAt := by
    refine List.filter_congr fun r hr => ?_
    obtain ⟨e, he, hoccurred⟩ := mem_written_overridesInForce hr
    rw [Bool.eq_iff_iff, notBefore_iff hsince (hoccurred ▸ hyears e he), decide_eq_true_iff]
  have hcounted := (hsub.filter fun r => notBefore since r.occurredAt).length_le
  rw [hcovered]
  omega

/-- In a run with a working log, every override that takes effect has its row
exactly when both files could be written at each override; and then no report
counts fewer than were in force. -/
theorem overrides_are_logged_iff (p : Platform) (s : State) {es : List (Env × Event)}
    (hsql : ∀ e ∈ es, ∀ stmt, e.1.sql stmt = none) :
    (OverridesLogged p s es ↔
        ∀ e ∈ es, (overrideRow e).isSome = true → e.1.publishes p = true) ∧
      ((∀ e ∈ es, (overrideRow e).isSome = true → e.1.publishes p = true) →
        ∀ (env : Env) (week : Bool), (∀ stmt, env.sql stmt = none) →
          (∀ e ∈ es, FourDigitYear e.1.nowUtc) →
          FourDigitYear (env.nowUtc - daysDelta (if week then 7 else 1)) →
          (Runs.run (step p) s es).db.pinOverrides.length < 2 ^ 32 →
          ReportCounts p s es env week) := by
  refine ⟨overridesLogged_iff p s hsql, fun hpublishes env week hsql' hyears hsince hcount => ?_⟩
  have hlogged := (overridesLogged_iff p s hsql).mpr hpublishes
  exact reportCounts_of_logged hlogged hsql' hyears hsince hcount

/-- An override of the puzzles by the parent. -/
def overridePuzzles : Event := .request (.override "org.kde.gcompris" (some 30))

theorem overrides_are_logged_puzzles :
    (OverridesLogged tablePlatform startedState [(puzzleEnv, overridePuzzles)] ↔
        ∀ e ∈ [(puzzleEnv, overridePuzzles)],
          (overrideRow e).isSome = true → e.1.publishes tablePlatform = true) ∧
      ((∀ e ∈ [(puzzleEnv, overridePuzzles)],
          (overrideRow e).isSome = true → e.1.publishes tablePlatform = true) →
        ∀ (env : Env) (week : Bool), (∀ stmt, env.sql stmt = none) →
          (∀ e ∈ [(puzzleEnv, overridePuzzles)], FourDigitYear e.1.nowUtc) →
          FourDigitYear (env.nowUtc - daysDelta (if week then 7 else 1)) →
          (Runs.run (step tablePlatform) startedState
            [(puzzleEnv, overridePuzzles)]).db.pinOverrides.length < 2 ^ 32 →
          ReportCounts tablePlatform startedState [(puzzleEnv, overridePuzzles)] env week) :=
  overrides_are_logged_iff tablePlatform startedState (by simp [puzzleEnv])

/-- The config is saved, the tiles are not: the override is in force, and no row
tells the parent. -/
theorem unrendered_override_is_not_logged :
    ¬ ∀ (p : Platform) (s : State) (es : List (Env × Event)),
      (∀ e ∈ es, ∀ stmt, e.1.sql stmt = none) → OverridesLogged p s es := by
  intro h
  let env : Env := { puzzleEnv with renderTiles := { write := some "No space left on device" } }
  obtain ⟨rows, hrows, hsub⟩ := h tablePlatform startedState [(env, overridePuzzles)]
    (by simp [env, puzzleEnv])
  have hempty : (Runs.run (step tablePlatform) startedState
      [(env, overridePuzzles)]).db.pinOverrides = [] := by decide +kernel
  have hforce : Runs.written (step tablePlatform) (overridesInForce tablePlatform) startedState
      [(env, overridePuzzles)] = [⟨env.nowUtc, "org.kde.gcompris", 30⟩] := by decide +kernel
  rw [hempty] at hrows
  rw [hforce, (List.append_eq_nil_iff.mp hrows.symm).2] at hsub
  cases hsub

/-! ### Failed overrides -/

/-- The failures for an app within an interval of time. -/
def failuresIn (app : String) (since upTo : DateTime) (rows : List SecurityEvent) :
    List SecurityEvent :=
  rows.filter fun r => r.eventType == "override_failed" && r.detail == some app &&
    (decide (since ≤ r.occurredAt) && decide (r.occurredAt ≤ upTo))

/-- The clock of a run does not go back, neither behind the rows that are already
there. -/
structure ClockForward (s : State) (es : List (Env × Event)) : Prop where
  rows : ∀ x ∈ s.db.securityEvents, ∀ e ∈ es, x.occurredAt ≤ e.1.nowUtc
  events : es.Pairwise fun e e' => e.1.nowUtc ≤ e'.1.nowUtc

/-- All instants compared are in years 0 to 9999. -/
structure FourDigitYears (s : State) (es : List (Env × Event)) : Prop where
  rows : ∀ x ∈ s.db.securityEvents, FourDigitYear x.occurredAt
  events : ∀ e ∈ es, FourDigitYear e.1.nowUtc ∧ FourDigitYear (windowStart e.1.nowUtc)

/-- The verdict on one more failure: severe from the third on, as long as the
count fits. -/
theorem failureSeverity_iff {env : Env} {db : Db} {app : String}
    (hsql : env.sql .countOverrideFailures = none) {n : Nat}
    (hn : (db.securityEvents.filter fun r => r.eventType == "override_failed" &&
      r.detail == some app && notBefore (windowStart env.nowUtc) r.occurredAt).length = n) :
    failureSeverity env db app = "severe" ↔ 2 ≤ n ∧ n + 1 < 2 ^ 32 := by
  have hrecent : db.recentOverrideFailureCount env.sql app (windowStart env.nowUtc) =
      Db.asCount n := by
    rw [Db.recentOverrideFailureCount, Sql.exec_of_none _ hsql, ← hn]
    rfl
  have hseverity : failureSeverity env db app = "severe" ↔
      severeOverrideFailureThreshold ≤ (Db.asCount n).toOption.getD 0 + 1 := by
    rw [failureSeverity, hrecent]
    split
    · next hsevere => exact iff_of_true rfl hsevere
    · next hroutine => exact iff_of_false (by decide) hroutine
  rw [hseverity, UInt32.le_iff_toNat_le, UInt32.toNat_add]
  by_cases hfits : n < 2 ^ 32
  · rw [asCount_getD hfits]
    show 3 ≤ (n + 1) % 2 ^ 32 ↔ _
    omega
  · have herror : (Db.asCount n).toOption.getD 0 = 0 := by
      rw [Db.asCount, if_neg hfits]
      rfl
    rw [herror]
    show 3 ≤ (0 + 1) % 2 ^ 32 ↔ _
    omega

theorem mem_eventsLogged {s : State} {e : Env × Event} {r : SecurityEvent}
    (h : r ∈ eventsLogged s e) : r.occurredAt = e.1.nowUtc := by
  unfold eventsLogged at h
  split at h
  · split at h
    · rw [List.mem_singleton.mp h]
    · split at h
      · cases h
      · rw [List.mem_singleton.mp h]
    · cases h
  · cases h

/-- A logged failure, and what it was judged by. -/
theorem eventsLogged_failure {s : State} {e : Env × Event} {r : SecurityEvent} {app : String}
    {before after : List SecurityEvent} (h : eventsLogged s e = before ++ r :: after)
    (htype : r.eventType = "override_failed") (hdetail : r.detail = some app) :
    before = [] ∧ r.severity = failureSeverity e.1 s.db app := by
  have hone : ∀ x : SecurityEvent, [x] = before ++ r :: after → before = [] ∧ x = r := by
    intro x hx
    cases before with
    | nil => exact ⟨rfl, (List.cons.inj hx).1⟩
    | cons y before =>
        have hlength := congrArg List.length hx
        simp only [List.length_cons, List.length_append, List.length_nil] at hlength
        omega
  have hnone : ¬ [] = before ++ r :: after := by simp
  unfold eventsLogged at h
  split at h
  · split at h
    · next app' _ =>
        obtain ⟨rfl, rfl⟩ := hone _ h
        obtain rfl := Option.some.inj hdetail
        exact ⟨rfl, rfl⟩
    · split at h
      · exact absurd h hnone
      · obtain ⟨-, rfl⟩ := hone _ h
        exact absurd htype (show "wrapper_started_disallowed_app" ≠ "override_failed" by decide)
    · exact absurd h hnone
  · exact absurd h hnone

/-- What a failure is judged by, in a run whose clock does not go back: the
failures of the last five minutes. -/
theorem window_of_clock {rows : List SecurityEvent} {now : DateTime} (app : String)
    (hyears : FourDigitYear (windowStart now) ∧ ∀ x ∈ rows, FourDigitYear x.occurredAt)
    (hpast : ∀ x ∈ rows, x.occurredAt ≤ now) :
    (rows.filter fun r => r.eventType == "override_failed" && r.detail == some app &&
        notBefore (windowStart now) r.occurredAt) = failuresIn app (windowStart now) now rows := by
  refine List.filter_congr fun x hx => ?_
  have hbegun : notBefore (windowStart now) x.occurredAt =
      decide (windowStart now ≤ x.occurredAt) := by
    rw [Bool.eq_iff_iff, notBefore_iff hyears.1 (hyears.2 x hx), decide_eq_true_iff]
  rw [hbegun, decide_eq_true (hpast x hx), Bool.and_true]

/-- The row of a failed override is severe exactly when at least two failures for
the app were logged in the five minutes before it (and not so many that one more
does not fit the count). -/
theorem override_failure_severe_iff (p : Platform) (s : State) {es : List (Env × Event)}
    (hsql : ∀ e ∈ es, ∀ stmt, e.1.sql stmt = none) (hclock : ClockForward s es)
    (hyears : FourDigitYears s es) {before after : List SecurityEvent} {r : SecurityEvent}
    {app : String}
    (hrows : (Runs.run (step p) s es).db.securityEvents =
      s.db.securityEvents ++ before ++ r :: after)
    (htype : r.eventType = "override_failed") (hdetail : r.detail = some app) :
    r.severity = "severe" ↔
      2 ≤ (failuresIn app (windowStart r.occurredAt) r.occurredAt
          (s.db.securityEvents ++ before)).length ∧
        (failuresIn app (windowStart r.occurredAt) r.occurredAt
          (s.db.securityEvents ++ before)).length + 1 < 2 ^ 32 := by
  have hlog (es : List (Env × Event)) : (Runs.run (step p) s es).db.securityEvents =
      s.db.securityEvents ++ Runs.written (step p) eventsLogged s es :=
    Runs.run_written (fun s => s.db.securityEvents) (fun s e => (step_logs p s e).2) s es
  rw [hlog, List.append_assoc, List.append_cancel_left_eq] at hrows
  obtain ⟨es₁, e, es₂, out₁, out₂, rfl, hout, rfl, -⟩ := Runs.written_split hrows
  obtain ⟨rfl, hseverity⟩ := eventsLogged_failure hout htype hdetail
  have hnow : r.occurredAt = e.1.nowUtc := mem_eventsLogged (by rw [hout]; simp)
  have he : e ∈ es₁ ++ e :: es₂ := by simp
  -- the rows that are there when the failure is logged, and when they were logged
  have hpast : ∀ x ∈ s.db.securityEvents ++ Runs.written (step p) eventsLogged s es₁,
      FourDigitYear x.occurredAt ∧ x.occurredAt ≤ e.1.nowUtc := by
    intro x hx
    rcases List.mem_append.mp hx with hold | hnew
    · exact ⟨hyears.rows x hold, hclock.rows x hold e he⟩
    · obtain ⟨s', e', he', hx'⟩ := Runs.mem_written hnew
      rw [mem_eventsLogged hx']
      refine ⟨(hyears.events e' (List.mem_append_left _ he')).1, ?_⟩
      exact (List.pairwise_append.mp hclock.events).2.2 e' he' e List.mem_cons_self
  rw [hseverity, failureSeverity_iff (hsql e he _) rfl, hlog es₁,
    window_of_clock app ⟨(hyears.events e he).2, fun x hx => (hpast x hx).1⟩
      fun x hx => (hpast x hx).2, hnow, List.append_nil]

/-- A wrong password for the puzzles, `n` seconds into the year 10000. -/
def failedOverride (n : Int) : Env × Event :=
  ({ nowUtc := 253402300800000000000 + n * 1000000000
     nowLocal := 253402300800000000000 + n * 1000000000 },
    .request (.overrideFailed "org.kde.gcompris"))

/-- Three wrong passwords, an hour before that year. -/
def failuresOn9999 : List (Env × Event) :=
  [failedOverride (-3600), failedOverride (-3590), failedOverride (-3580)]

theorem override_failure_severe_puzzles :
    let before : List SecurityEvent :=
      [⟨(failedOverride (-3600)).1.nowUtc, "override_failed", "routine", some "org.kde.gcompris"⟩,
        ⟨(failedOverride (-3590)).1.nowUtc, "override_failed", "routine", some "org.kde.gcompris"⟩]
    let r : SecurityEvent :=
      ⟨(failedOverride (-3580)).1.nowUtc, "override_failed", "severe", some "org.kde.gcompris"⟩
    r.severity = "severe" ↔
      2 ≤ (failuresIn "org.kde.gcompris" (windowStart r.occurredAt) r.occurredAt
          (sampleState.db.securityEvents ++ before)).length ∧
        (failuresIn "org.kde.gcompris" (windowStart r.occurredAt) r.occurredAt
          (sampleState.db.securityEvents ++ before)).length + 1 < 2 ^ 32 := by
  intro before r
  have hclock : ClockForward sampleState failuresOn9999 := ⟨by simp [sampleState], by decide⟩
  have hyears : FourDigitYears sampleState failuresOn9999 :=
    ⟨by simp [sampleState], by decide +kernel⟩
  exact @override_failure_severe_iff samplePlatform sampleState failuresOn9999
    (by simp [failuresOn9999, failedOverride]) hclock hyears before [] r "org.kde.gcompris"
    (by decide +kernel) rfl rfl

/-- The third wrong password of the year 10000 is routine: `+10000` comes before
`9999`. -/
theorem third_failure_is_routine_in_year_10000 :
    ¬ ∀ (p : Platform) (s : State) (es : List (Env × Event)),
      (∀ e ∈ es, ∀ stmt, e.1.sql stmt = none) → ClockForward s es →
      ∀ (before after : List SecurityEvent) (r : SecurityEvent) (app : String),
        (Runs.run (step p) s es).db.securityEvents =
          s.db.securityEvents ++ before ++ r :: after →
        r.eventType = "override_failed" → r.detail = some app →
        (r.severity = "severe" ↔
          2 ≤ (failuresIn app (windowStart r.occurredAt) r.occurredAt
            (s.db.securityEvents ++ before)).length) := by
  intro h
  have hiff := h samplePlatform sampleState [failedOverride 1, failedOverride 2, failedOverride 3]
    (by simp [failedOverride]) ⟨by simp [sampleState], by decide⟩
    [⟨(failedOverride 1).1.nowUtc, "override_failed", "routine", some "org.kde.gcompris"⟩,
      ⟨(failedOverride 2).1.nowUtc, "override_failed", "routine", some "org.kde.gcompris"⟩] []
    ⟨(failedOverride 3).1.nowUtc, "override_failed", "routine", some "org.kde.gcompris"⟩
    "org.kde.gcompris" (by decide +kernel) rfl rfl
  exact absurd (hiff.mpr (by decide +kernel)) (by decide)

end OmarchyKids
