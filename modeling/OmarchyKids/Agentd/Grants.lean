import OmarchyKids.Agentd.Persistence
import OmarchyKids.Lib.Leases

/-!
# OmarchyKids.Agentd.Grants

The unlocks and the base list in terms of the history of a run.

Unlocks are leases keyed by app: a permitted `Unlock` or `Override` grants one, a
tick sweeps the expired ones away, and nothing else touches them
(`step_unlocked`). The base list is a value that permitted tier switches
overwrite (`step_base`). Whether storage works makes no difference to either.

Nothing but a tick looks at an expiry. `Status` is documented to list the unlocks
that have not expired, and it lists those that no tick has found expired: an app is
accepted on an unexpired unlock exactly as far as the ticks have kept up
(`accepted_apps_are_unexpired_iff`).
-/

namespace OmarchyKids

open Handlers Daemon

/-! ### What an event means for unlocks and base list -/

/-- The unlock an event grants: that of an `Override`, or of an `Unlock` of an
app on the curated list. -/
def grantOf (e : Env × Event) : Option UnlockedApp :=
  match e.2 with
  | .request (.unlock app minutes) =>
      if unlockIsPermitted app false e.1.allowlist.load then
        some (newUnlock e.1 app (minutes.getD defaultUnlockMinutes) false)
      else none
  | .request (.override app minutes) =>
      some (newUnlock e.1 app (minutes.getD defaultUnlockMinutes) true)
  | _ => none

/-- The tile list an accepted tier switch carries. -/
def tilesOf (e : Env × Event) : Option (List AppTile) :=
  match e.2 with
  | .request (.setTier tier apps) =>
      if (Request.setTier tier apps).permitted e.1 then apps else none
  | _ => none

def leaseOp (e : Env × Event) : Leases.Op UnlockedApp :=
  match e.2 with
  | .tick => .sweep fun u => decide (e.1.nowUtc < u.expiresAt)
  | .request _ => (grantOf e).elim .pass .grant

theorem step_config (p : Platform) (s : State) (env : Env) (req : Request) :
    (step p s (env, .request req)).config =
      if req.permitted env then (req.edit env s.config).getD s.config else s.config := by
  have hpol := congrArg Policy.config (dispatch_policy p env s req)
  rw [show (step p s (env, .request req)).config = (dispatch p env s req).1.policy.config from rfl,
    hpol]
  cases req.edit env s.config with
  | none => simp
  | some c => cases req.permitted env <;> rfl

theorem step_tick_config (p : Platform) (s : State) (env : Env) :
    (step p s (env, .tick)).config = s.config.pruned env.nowUtc := by
  have hpol := congrArg Policy.config (tick_policy p env s)
  rw [show (step p s (env, .tick)).config = (Ticker.tick p env s).1.policy.config from rfl, hpol]
  cases hexp : s.config.hasExpired env.nowUtc with
  | true => rfl
  | false => exact (Config.pruned_of_not_hasExpired hexp).symm

/-- Unlocks are leases. -/
theorem step_unlocked (p : Platform) (s : State) (e : Env × Event) :
    (step p s e).config.apps.unlocked =
      Leases.apply UnlockedApp.desktopId s.config.apps.unlocked (leaseOp e) := by
  obtain ⟨env, event⟩ := e
  have hpush : ∀ u : UnlockedApp, (s.config.pushUnlock u).apps.unlocked =
      Leases.apply UnlockedApp.desktopId s.config.apps.unlocked (.grant u) := by
    intro u
    simp only [Config.pushUnlock, Leases.apply]
    congr 2
    funext v
    rw [Bool.eq_iff_iff, bne_iff_ne, decide_eq_true_iff]
  cases event with
  | tick => rw [step_tick_config]; rfl
  | request req =>
      rw [step_config]
      cases req with
      | unlock app minutes =>
          by_cases hperm : unlockIsPermitted app false env.allowlist.load = true
          · simp only [leaseOp, grantOf, Request.permitted, hperm, if_true]
            exact hpush _
          · simp [leaseOp, grantOf, Request.permitted, hperm, Leases.apply]
      | override app minutes => exact hpush _
      | setTier tier apps =>
          split <;> rfl
      | _ => simp [Request.edit, leaseOp, grantOf, Leases.apply]

theorem step_base (p : Platform) (s : State) (e : Env × Event) :
    (step p s e).config.apps.base = (tilesOf e).getD s.config.apps.base := by
  obtain ⟨env, event⟩ := e
  cases event with
  | tick => rw [step_tick_config]; rfl
  | request req =>
      rw [step_config]
      cases req with
      | setTier tier apps =>
          simp only [tilesOf]
          split <;> rfl
      | unlock app minutes => split <;> rfl
      | override app minutes => split <;> rfl
      | _ => simp [Request.edit, tilesOf]

/-! ### Whole runs -/

theorem run_unlocked (p : Platform) (s : State) (events : List (Env × Event)) :
    (Runs.run (step p) s events).config.apps.unlocked =
      Runs.run (Leases.apply UnlockedApp.desktopId) s.config.apps.unlocked (events.map leaseOp) :=
  Runs.run_part (fun s : State => s.config.apps.unlocked) leaseOp (step_unlocked p) s events

theorem run_base (p : Platform) (s : State) (events : List (Env × Event)) :
    (Runs.run (step p) s events).config.apps.base =
      (events.filterMap tilesOf).getLast?.getD s.config.apps.base := by
  have hrun := @Runs.run_part _ _ (step p) _ _ (fun base tiles => tiles.getD base)
    (fun s : State => s.config.apps.base) tilesOf (step_base p) s events
  rw [hrun, Runs.run_overwrite, List.reduceOption, List.filterMap_map]
  rfl

/-- Nothing in the history ends the unlock: no later grant for its app, and no
tick at or after its expiry. -/
def Unended (after : List (Env × Event)) (u : UnlockedApp) : Prop :=
  (∀ e ∈ after, ∀ v, grantOf e = some v → v.desktopId ≠ u.desktopId) ∧
    ∀ env, (env, Event.tick) ∈ after → env.nowUtc < u.expiresAt

theorem leaseOp_spares_iff {e : Env × Event} {u : UnlockedApp} :
    (leaseOp e).Spares UnlockedApp.desktopId u ↔
      (∀ v, grantOf e = some v → v.desktopId ≠ u.desktopId) ∧
        (e.2 = .tick → e.1.nowUtc < u.expiresAt) := by
  obtain ⟨env, event⟩ := e
  cases event with
  | tick => simp [leaseOp, grantOf, Leases.Op.Spares]
  | request req =>
      simp only [leaseOp]
      cases grantOf (env, .request req) with
      | none => simp [Leases.Op.Spares]
      | some v => simp [Leases.Op.Spares, ne_comm]

theorem unended_iff {after : List (Env × Event)} {u : UnlockedApp} :
    Unended after u ↔ ∀ op ∈ after.map leaseOp, op.Spares UnlockedApp.desktopId u := by
  simp only [List.forall_mem_map, leaseOp_spares_iff]
  constructor
  · rintro ⟨hgrants, hticks⟩ ⟨env, event⟩ he
    refine ⟨hgrants _ he, ?_⟩
    rintro rfl
    exact hticks env he
  · intro h
    exact ⟨fun e he => (h e he).1, fun env he => (h _ he).2 rfl⟩

theorem leaseOp_eq_grant_iff {e : Env × Event} {u : UnlockedApp} :
    leaseOp e = .grant u ↔ grantOf e = some u := by
  obtain ⟨env, event⟩ := e
  cases event with
  | tick => simp [leaseOp, grantOf]
  | request req =>
      simp only [leaseOp]
      cases grantOf (env, .request req) <;> simp

/-- A current unlock is one that the run has granted or that was there at its
start, and that nothing has ended since. -/
theorem mem_unlocked_iff {p : Platform} {s : State} {events : List (Env × Event)}
    {u : UnlockedApp} :
    u ∈ (Runs.run (step p) s events).config.apps.unlocked ↔
      (∃ before e after, events = before ++ e :: after ∧ grantOf e = some u ∧ Unended after u) ∨
        (u ∈ s.config.apps.unlocked ∧ Unended events u) := by
  rw [run_unlocked, Leases.mem_run, unended_iff]
  refine or_congr ?_ Iff.rfl
  constructor
  · rintro ⟨before, after, hsplit, hspared⟩
    obtain ⟨before', rest, rfl, rfl, hrest⟩ := List.map_eq_append_iff.mp hsplit
    obtain ⟨e, after', rfl, he, rfl⟩ := List.map_eq_cons_iff.mp hrest
    exact ⟨before', e, after', rfl, leaseOp_eq_grant_iff.mp he, unended_iff.mpr hspared⟩
  · rintro ⟨before, e, after, rfl, he, hunended⟩
    refine ⟨before.map leaseOp, after.map leaseOp, ?_, unended_iff.mp hunended⟩
    rw [List.map_append, List.map_cons, leaseOp_eq_grant_iff.mpr he]

/-- The unlocks and the base list after a run that began without unlocks: one
unlock for each app whose latest grant no tick has outlasted, with that grant's
expiry and origin; and the tiles of the last accepted tier switch that carried
any. A refused `Unlock` and a tier switch leave every unlock alone. -/
theorem unlocks_are_latest_grants (p : Platform) {s : State}
    (hfresh : s.config.apps.unlocked = []) (events : List (Env × Event)) :
    let s' := Runs.run (step p) s events
    (s'.config.apps.unlocked.map UnlockedApp.desktopId).Nodup ∧
      (∀ u, u ∈ s'.config.apps.unlocked ↔
        ∃ before e after, events = before ++ e :: after ∧ grantOf e = some u ∧ Unended after u) ∧
      (∀ e, grantOf e = none → e.2 ≠ .tick →
        (step p s' e).config.apps.unlocked = s'.config.apps.unlocked) ∧
      s'.config.apps.base = (events.filterMap tilesOf).getLast?.getD s.config.apps.base := by
  refine ⟨?_, fun u => ?_, fun e hgrant htick => ?_, run_base p s events⟩
  · rw [run_unlocked, hfresh]
    exact @Leases.nodup_run _ _ _ UnlockedApp.desktopId [] List.nodup_nil _
  · rw [mem_unlocked_iff, hfresh]
    simp
  · obtain ⟨env, event⟩ := e
    cases event with
    | tick => exact absurd rfl htick
    | request req =>
        rw [step_unlocked, leaseOp, hgrant]
        rfl

/-! ### A run with a renewed unlock -/

/-- An unlock, an override of the same app ten minutes later, and a tick after the
unlock's own half hour. -/
def renewedUnlock : List (Env × Event) :=
  let after (minutes : Int) : Env :=
    { nowUtc := sampleEnv.nowUtc + minutesDelta minutes
      nowLocal := sampleEnv.nowLocal + minutesDelta minutes
      allowlist := .parsed ["org.kde.gcompris"] }
  [(after 0, .request (.unlock "org.kde.gcompris" none)),
    (after 10, .request (.override "org.kde.gcompris" (some 60))), (after 31, .tick)]

theorem unlocks_are_latest_grants_renewed :
    let s' := Runs.run (step samplePlatform) sampleState renewedUnlock
    (s'.config.apps.unlocked.map UnlockedApp.desktopId).Nodup ∧
      (∀ u, u ∈ s'.config.apps.unlocked ↔
        ∃ before e after, renewedUnlock = before ++ e :: after ∧ grantOf e = some u ∧
          Unended after u) ∧
      (∀ e, grantOf e = none → e.2 ≠ .tick →
        (step samplePlatform s' e).config.apps.unlocked = s'.config.apps.unlocked) ∧
      s'.config.apps.base = (renewedUnlock.filterMap tilesOf).getLast?.getD [] :=
  unlocks_are_latest_grants samplePlatform rfl renewedUnlock

/-! ### Expiry -/

/-- What `Status` reports. -/
def statusPayload (p : Platform) (env : Env) (s : State) : StatusPayload :=
  let midnight := Budget.localMidnightUtc p.zone env.nowLocal
  let used := (Budget.computeDailyUsedMinutes env.sql s.db s.active midnight env.nowUtc).toOption.getD 0
  let budgetMinutes := (s.config.dailyTotalMinutesToday (p.zone.toLocal env.nowLocal).weekday).getD 0
  { tier := s.config.tier.current
    unlockedApps := s.config.effectiveLauncherTiles.map LauncherTile.desktopId
    dailyBudgetMinutes := budgetMinutes
    dailyUsedMinutes := used
    dailyRemainingMinutes := saturatingSub budgetMinutes used
    inBlockedWindow := Budget.inBlockedWindow p s.config env.nowLocal
    activeApp := (firstActive env s.active).map ActiveSession.app }

theorem handleStatus_eq (p : Platform) (env : Env) (s : State) :
    handleStatus p env s = .okWith (statusPayload p env s).toValue := rfl

theorem checkAllowed_isAppAllowed {p : Platform} {env : Env} {s : State} {app : String}
    (h : (checkAllowed p env s app).allowed = true) : s.config.isAppAllowed app = true := by
  by_contra hne
  simp only [checkAllowed, Bool.eq_false_iff.mpr hne, Bool.not_false, if_true] at h
  cases h

/-- An app outside the base list that is authorised, or listed by `Status`, has an
unlock that was granted in this run of the daemon or loaded at its start, and that
no tick since has found expired. -/
theorem accepted_app_outlived_ticks {p : Platform} {env₀ : Env} {defaultTier : String}
    {db : Option Db} {file : Option String} {tiles : Option (List LauncherTile)} {s₀ : State}
    (hstart : start p env₀ defaultTier db file tiles = some s₀) (events : List (Env × Event))
    (env : Env) (app : String)
    (happ : (checkAllowed p env (Runs.run (step p) s₀ events) app).allowed = true ∨
      app ∈ (statusPayload p env (Runs.run (step p) s₀ events)).unlockedApps)
    (hbase : app ∉ (Runs.run (step p) s₀ events).config.apps.base.map AppTile.desktopId) :
    ∃ u ∈ (Runs.run (step p) s₀ events).config.apps.unlocked, u.desktopId = app ∧
      ((∃ before e after, events = before ++ e :: after ∧ grantOf e = some u ∧ Unended after u) ∨
        (∃ c, loadedConfig p.toml defaultTier file = some c ∧ u ∈ c.apps.unlocked) ∧
          Unended events u) := by
  have hallowed : (Runs.run (step p) s₀ events).config.isAppAllowed app = true := by
    rcases happ with hchecked | hlisted
    · exact checkAllowed_isAppAllowed hchecked
    · exact Config.mem_effectiveLauncherTiles.mp hlisted
  obtain ⟨u, hu, rfl⟩ := List.mem_map.mp ((Config.isAppAllowed_iff.mp hallowed).resolve_left hbase)
  refine ⟨u, hu, rfl, ?_⟩
  rcases mem_unlocked_iff.mp hu with hgranted | ⟨hloaded, hunended⟩
  · exact .inl hgranted
  · exact .inr ⟨⟨s₀.config, start_config hstart, hloaded⟩, hunended⟩

/-- The history `after` follows the latest unlock of an app: one of the run, or one
that was loaded and that the run has not granted anew. -/
def LatestUnlock (loaded : Option Config) (events after : List (Env × Event))
    (u : UnlockedApp) : Prop :=
  ((∃ before e, events = before ++ e :: after ∧ grantOf e = some u) ∨
      (∃ c, loaded = some c ∧ u ∈ c.apps.unlocked) ∧ after = events) ∧
    ∀ e ∈ after, ∀ v, grantOf e = some v → v.desktopId ≠ u.desktopId

/-- A tick has run at or after the unlock's expiry. -/
def Swept (after : List (Env × Event)) (u : UnlockedApp) : Prop :=
  ∃ env, (env, Event.tick) ∈ after ∧ u.expiresAt ≤ env.nowUtc

theorem unended_iff_not_swept {after : List (Env × Event)} {u : UnlockedApp} :
    Unended after u ↔
      (∀ e ∈ after, ∀ v, grantOf e = some v → v.desktopId ≠ u.desktopId) ∧ ¬ Swept after u := by
  refine and_congr_right fun _ => ?_
  constructor
  · rintro hticks ⟨env, hmem, hexpired⟩
    exact absurd (hticks env hmem) (not_lt.mpr hexpired)
  · intro hnever env hmem
    exact lt_of_not_ge fun hexpired => hnever ⟨env, hmem, hexpired⟩

theorem mem_unlocked_iff_latestUnlock {p : Platform} {env₀ : Env} {defaultTier : String}
    {db : Option Db} {file : Option String} {tiles : Option (List LauncherTile)} {s₀ : State}
    (hstart : start p env₀ defaultTier db file tiles = some s₀) {events : List (Env × Event)}
    {u : UnlockedApp} :
    u ∈ (Runs.run (step p) s₀ events).config.apps.unlocked ↔
      ∃ after, LatestUnlock (loadedConfig p.toml defaultTier file) events after u ∧
        ¬ Swept after u := by
  have hloaded : u ∈ s₀.config.apps.unlocked ↔
      ∃ c, loadedConfig p.toml defaultTier file = some c ∧ u ∈ c.apps.unlocked := by
    rw [start_config hstart]
    simp
  rw [mem_unlocked_iff, hloaded]
  constructor
  · rintro (⟨before, e, after, hsplit, hgrant, hunended⟩ | ⟨hfile, hunended⟩)
    · obtain ⟨hlater, hswept⟩ := unended_iff_not_swept.mp hunended
      exact ⟨after, ⟨.inl ⟨before, e, hsplit, hgrant⟩, hlater⟩, hswept⟩
    · obtain ⟨hlater, hswept⟩ := unended_iff_not_swept.mp hunended
      exact ⟨events, ⟨.inr ⟨hfile, rfl⟩, hlater⟩, hswept⟩
  · rintro ⟨after, ⟨hgranted, hlater⟩, hswept⟩
    have hunended : Unended after u := unended_iff_not_swept.mpr ⟨hlater, hswept⟩
    rcases hgranted with ⟨before, e, hsplit, hgrant⟩ | ⟨hfile, rfl⟩
    · exact .inl ⟨before, e, after, hsplit, hgrant, hunended⟩
    · exact .inr ⟨hfile, hunended⟩

/-- Every app outside the base list that is authorised, or listed by `Status`, has an
unexpired unlock exactly when a tick has run since each latest unlock of such an
app expired — or another unlock of the app, loaded beside it, has time left. -/
theorem accepted_apps_are_unexpired_iff {p : Platform} {env₀ : Env} {defaultTier : String}
    {db : Option Db} {file : Option String} {tiles : Option (List LauncherTile)} {s₀ : State}
    (hstart : start p env₀ defaultTier db file tiles = some s₀) (events : List (Env × Event))
    (env : Env) :
    let s := Runs.run (step p) s₀ events
    let loaded := loadedConfig p.toml defaultTier file
    (∀ app, ((checkAllowed p env s app).allowed = true ∨ app ∈ (statusPayload p env s).unlockedApps) →
        app ∉ s.config.apps.base.map AppTile.desktopId →
        ∃ u ∈ s.config.apps.unlocked, u.desktopId = app ∧ env.nowUtc < u.expiresAt) ↔
      ∀ after u, LatestUnlock loaded events after u →
        u.desktopId ∉ s.config.apps.base.map AppTile.desktopId → u.expiresAt ≤ env.nowUtc →
        Swept after u ∨
          ∃ after' v, LatestUnlock loaded events after' v ∧ v.desktopId = u.desktopId ∧
            env.nowUtc < v.expiresAt ∧ ¬ Swept after' v := by
  intro s loaded
  constructor
  · intro hunexpired after u hlatest hbase hexpired
    by_cases hswept : Swept after u
    · exact .inl hswept
    · have hu : u ∈ s.config.apps.unlocked :=
        (mem_unlocked_iff_latestUnlock hstart).mpr ⟨after, hlatest, hswept⟩
      have hlisted : u.desktopId ∈ (statusPayload p env s).unlockedApps :=
        Config.mem_effectiveLauncherTiles.mpr
          (Config.isAppAllowed_iff.mpr (.inr (List.mem_map_of_mem hu)))
      obtain ⟨v, hv, happ, hleft⟩ := hunexpired u.desktopId (.inr hlisted) hbase
      obtain ⟨after', hlatest', hswept'⟩ := (mem_unlocked_iff_latestUnlock hstart).mp hv
      exact .inr ⟨after', v, hlatest', happ, hleft, hswept'⟩
  · intro hkept app happ hbase
    obtain ⟨u, hu, rfl, -⟩ := accepted_app_outlived_ticks hstart events env app happ hbase
    obtain ⟨after, hlatest, hswept⟩ := (mem_unlocked_iff_latestUnlock hstart).mp hu
    rcases lt_or_ge env.nowUtc u.expiresAt with hleft | hexpired
    · exact ⟨u, hu, rfl, hleft⟩
    · obtain ⟨after', v, hlatest', happ', hleft, hswept'⟩ :=
        (hkept after u hlatest hbase hexpired).resolve_left hswept
      exact ⟨v, (mem_unlocked_iff_latestUnlock hstart).mpr ⟨after', hlatest', hswept'⟩, happ', hleft⟩

/-- The puzzles were unlocked for half an hour; `seconds` before it ends. -/
def secondsBeforeEnd (seconds : Int) : Env where
  nowUtc := sampleEnv.nowUtc + minutesDelta 30 - seconds * 1000000000
  nowLocal := sampleEnv.nowLocal + minutesDelta 30 - seconds * 1000000000

/-- The daemon, started anew on the file with the unlock. -/
def restartedState : State where
  config := unlockedConfig
  configFile := some unlockedText
  launcherApps := some unlockedConfig.effectiveLauncherTiles

theorem restartedState_started :
    start tablePlatform (secondsBeforeEnd 25) "mini" (some {}) (some unlockedText) none =
      some restartedState := by
  refine start_eq_some.mpr ⟨unlockedConfig, some unlockedText, {}, ?_, rfl, rfl, rfl⟩
  exact Config.loadOrInit_some.mpr ⟨by decide +kernel, rfl⟩

/-- The daemon's first tick, twenty seconds later. -/
def firstTick : List (Env × Event) := [(secondsBeforeEnd 5, .tick)]

theorem accepted_apps_are_unexpired_iff_restarted :
    (∀ app, ((checkAllowed tablePlatform (secondsBeforeEnd (-5))
            (Runs.run (step tablePlatform) restartedState firstTick) app).allowed = true ∨
          app ∈ (statusPayload tablePlatform (secondsBeforeEnd (-5))
            (Runs.run (step tablePlatform) restartedState firstTick)).unlockedApps) →
        app ∉ (Runs.run (step tablePlatform) restartedState firstTick).config.apps.base.map
          AppTile.desktopId →
        ∃ u ∈ (Runs.run (step tablePlatform) restartedState firstTick).config.apps.unlocked,
          u.desktopId = app ∧ (secondsBeforeEnd (-5)).nowUtc < u.expiresAt) ↔
      ∀ after u, LatestUnlock (loadedConfig tableToml "mini" (some unlockedText)) firstTick after u →
        u.desktopId ∉ (Runs.run (step tablePlatform) restartedState firstTick).config.apps.base.map
          AppTile.desktopId →
        u.expiresAt ≤ (secondsBeforeEnd (-5)).nowUtc →
        Swept after u ∨
          ∃ after' v,
            LatestUnlock (loadedConfig tableToml "mini" (some unlockedText)) firstTick after' v ∧
              v.desktopId = u.desktopId ∧ (secondsBeforeEnd (-5)).nowUtc < v.expiresAt ∧
              ¬ Swept after' v :=
  accepted_apps_are_unexpired_iff restartedState_started firstTick (secondsBeforeEnd (-5))

/-- Five seconds after its end, and fifteen before the next tick, the unlock is as
good as ever. -/
theorem expired_unlock_is_accepted :
    ¬ ∀ (p : Platform) (env₀ : Env) (file : Option String) (s₀ : State)
      (events : List (Env × Event)) (env : Env) (app : String),
      start p env₀ "mini" (some {}) file none = some s₀ →
      let s := Runs.run (step p) s₀ events
      ((checkAllowed p env s app).allowed = true ∨ app ∈ (statusPayload p env s).unlockedApps) →
      app ∉ s.config.apps.base.map AppTile.desktopId →
      ∃ u ∈ s.config.apps.unlocked, u.desktopId = app ∧ env.nowUtc < u.expiresAt := by
  intro h
  obtain ⟨u, hu, -, hlater⟩ := h tablePlatform (secondsBeforeEnd 25) (some unlockedText)
    restartedState firstTick (secondsBeforeEnd (-5)) "org.kde.gcompris" restartedState_started
    (.inl (by decide +kernel)) (by decide +kernel)
  have hall : ∀ u ∈ (Runs.run (step tablePlatform) restartedState firstTick).config.apps.unlocked,
      u.expiresAt ≤ (secondsBeforeEnd (-5)).nowUtc := by decide +kernel
  exact absurd hlater (not_lt.mpr (hall u hu))

end OmarchyKids
