import OmarchyKids.Agentd.Budget

/-!
# OmarchyKids.Agentd.Handlers

The request handlers of the daemon. Each runs under the state's lock, so a
handler is a function from the state and its surroundings to the new state and
the response.

What a request can do to the policy — the config in memory and the two files —
is said once, in `dispatch_policy`: either it leaves all three alone, or it is
an accepted `SetTier`, `Unlock` or `Override`, whose new config is installed in
memory, saved and rendered in this order. `edit` is that new config.
-/

namespace OmarchyKids

/-! ### Editing the policy -/

namespace Config

/-- What `SetTier` does to the config. -/
def switchTier (c : Config) (tier : String) (apps : Option (List AppTile)) : Config :=
  { c with tier := ⟨tier⟩, apps := { c.apps with base := apps.getD c.apps.base } }

/-- Replaces the unlocks of an app by one. -/
def pushUnlock (c : Config) (u : UnlockedApp) : Config :=
  { c with apps := { c.apps with
      unlocked := c.apps.unlocked.filter (fun v => v.desktopId != u.desktopId) ++ [u] } }

end Config

namespace Handlers

/-- Failed override attempts for the same app before the event is severe. -/
def severeOverrideFailureThreshold : UInt32 := 3

def overrideFailureWindowMinutes : Int := 5

/-- Tiers `SetTier` accepts. -/
def knownTiers : List String := ["mini"]

/-- Saves, then renders; stops at the first failure, with the response's text. -/
def saveAndRender (p : Platform) (env : Env) (s : State) : State × Option String :=
  match s.save p env with
  | (s, some e) => (s, some ("failed to save config: " ++ e))
  | (s, none) =>
      match s.render p env with
      | (s, some e) => (s, some ("failed to render launcher tiles: " ++ e))
      | (s, none) => (s, none)

/-! ### Status -/

/-- `u32::saturating_sub`. -/
def saturatingSub (a b : UInt32) : UInt32 := if b ≤ a then a - b else 0

/-- The session the hash map's iterator yields first. -/
def firstActive (env : Env) (active : ActiveMap) : Option ActiveSession :=
  (active.values.rotate env.iteration).head?

def handleStatus (p : Platform) (env : Env) (s : State) : Response :=
  let midnight := Budget.localMidnightUtc p.zone env.nowLocal
  let used := (Budget.computeDailyUsedMinutes env.sql s.db s.active midnight env.nowUtc).toOption.getD 0
  let budgetMinutes := (s.config.dailyTotalMinutesToday (p.zone.toLocal env.nowLocal).weekday).getD 0
  .okWith <| StatusPayload.toValue
    { tier := s.config.tier.current
      unlockedApps := s.config.effectiveLauncherTiles.map LauncherTile.desktopId
      dailyBudgetMinutes := budgetMinutes
      dailyUsedMinutes := used
      dailyRemainingMinutes := saturatingSub budgetMinutes used
      inBlockedWindow := Budget.inBlockedWindow p s.config env.nowLocal
      activeApp := (firstActive env s.active).map ActiveSession.app }

/-! ### Tier switch -/

/-- The first tile of a tier list that resolves to no installed application. -/
def unresolvedTile (fs : Fs) (apps : List AppTile) : Option AppTile :=
  apps.find? fun tile => (Desktop.findDesktopFile fs tile.desktopId).isNone

def handleSetTier (p : Platform) (env : Env) (s : State) (tier : String)
    (apps : Option (List AppTile)) : State × Response :=
  if tier ∉ knownTiers then (s, .err ("unknown tier '" ++ tier ++ "'"))
  else
    match apps.bind (unresolvedTile env.fs) with
    | some tile =>
        (s, .err ("refusing to set tier: '" ++ tile.desktopId ++
          "' does not resolve to an installed application"))
    | none =>
        match saveAndRender p env { s with config := s.config.switchTier tier apps } with
        | (s, some e) => (s, .err e)
        | (s, none) => (s, .okEmpty)

/-! ### Unlock and override -/

/-- Label, icon and swatch for a temporarily unlocked app. -/
def tileMetadataFor (fs : Fs) (desktopId : String) : String × String × String :=
  let fallbackSwatch := "#94A3B8"
  match Desktop.findDesktopFile fs desktopId with
  | some path =>
      match Desktop.parseDesktopEntry fs path with
      | .ok entry => (entry.name, entry.icon, fallbackSwatch)
      | .error _ => (desktopId, desktopId, fallbackSwatch)
  | none => (desktopId, desktopId, fallbackSwatch)

/-- `Unlock` may only grant an app on the curated list; `Override` is exempt. -/
def unlockIsPermitted (app : String) (viaOverride : Bool) (allowlist : List String) : Bool :=
  viaOverride || allowlist.any (· == app)

/-- The entry an unlock adds. -/
def newUnlock (env : Env) (app : String) (minutes : UInt32) (viaOverride : Bool) : UnlockedApp :=
  let (label, icon, swatch) := tileMetadataFor env.fs app
  { desktopId := app, label, icon, swatch
    expiresAt := env.nowUtc + minutesDelta minutes.toNat, viaOverride }

def handleUnlock (p : Platform) (env : Env) (s : State) (app : String) (minutes : Option UInt32)
    (viaOverride : Bool) : State × Response :=
  if unlockIsPermitted app viaOverride env.allowlist.load then
    let minutes := minutes.getD defaultUnlockMinutes
    match saveAndRender p env
        { s with config := s.config.pushUnlock (newUnlock env app minutes viaOverride) } with
    | (s, some e) => (s, .err e)
    | (s, none) =>
        if viaOverride then
          match s.db.insertPinOverride env.sql app minutes env.nowUtc with
          | .ok db => ({ s with db }, .okEmpty)
          -- a failure to log the override is only reported on stderr
          | .error _ => (s, .okEmpty)
        else (s, .okEmpty)
  else
    (s, .err ("'" ++ app ++ "' is not on the parent-curated unlockable-apps list (" ++
      unlockableAppsPath p.home ++ ")"))

/-! ### Failed overrides -/

def handleOverrideFailed (env : Env) (s : State) (app : String) : State × Response :=
  let windowStart := env.nowUtc - minutesDelta overrideFailureWindowMinutes
  let recent := (s.db.recentOverrideFailureCount env.sql app windowStart).toOption.getD 0
  let severity := if severeOverrideFailureThreshold ≤ recent + 1 then "severe" else "routine"
  match s.db.insertSecurityEvent env.sql "override_failed" severity (some app) env.nowUtc with
  | .ok db => ({ s with db }, .okEmpty)
  | .error e => (s, .err ("failed to log security event: " ++ e))

/-! ### Wrapper -/

def handleWrapperStart (env : Env) (s : State) (app : String) (pid : UInt32) : State × Response :=
  let s :=
    if s.config.isAppAllowed app then s
    else
      match s.db.insertSecurityEvent env.sql "wrapper_started_disallowed_app" "routine" (some app)
          env.nowUtc with
      | .ok db => { s with db }
      | .error _ => s
  match s.db.startSession env.sql app pid env.nowUtc with
  | .ok db =>
      ({ s with db, active := s.active.insert pid { app, startedAt := env.nowUtc } }, .okEmpty)
  | .error e => (s, .err ("failed to log session start: " ++ e))

def handleWrapperStop (env : Env) (s : State) (app : String) (pid : UInt32) : State × Response :=
  let s := { s with active := s.active.erase pid }
  match s.db.endSession env.sql app pid env.nowUtc with
  | .ok db => ({ s with db }, .okEmpty)
  | .error e => (s, .err ("failed to log session stop: " ++ e))

/-- The rules shared by `WrapperAuthorize` and `WrapperPoll`. -/
def checkAllowed (p : Platform) (env : Env) (s : State) (app : String) : AllowedPayload :=
  let disallow (reason : String) : AllowedPayload := ⟨false, some reason⟩
  let weekday := (p.zone.toLocal env.nowLocal).weekday
  let midnight := Budget.localMidnightUtc p.zone env.nowLocal
  let dailyUsed :=
    (Budget.computeDailyUsedMinutes env.sql s.db s.active midnight env.nowUtc).toOption.getD 0
  let appUsed :=
    (Budget.computeAppUsedMinutes env.sql s.db s.active app midnight env.nowUtc).toOption.getD 0
  if !s.config.isAppAllowed app then disallow "app is not (or no longer) unlocked"
  else if Budget.inBlockedWindow p s.config env.nowLocal then
    disallow "currently inside a blocked time window"
  else if (s.config.dailyTotalMinutesToday weekday).any fun limit =>
      limit + Budget.graceMinutes < dailyUsed then
    disallow "daily time budget exhausted"
  else if (s.config.perAppMinutesToday app weekday).any fun limit =>
      limit + Budget.graceMinutes < appUsed then
    disallow "per-app time budget exhausted"
  else ⟨true, none⟩

def handleWrapperAuthorize (p : Platform) (env : Env) (s : State) (app : String) : Response :=
  .okWith (checkAllowed p env s app).toValue

def handleWrapperPoll (p : Platform) (env : Env) (s : State) (app : String) (_pid : UInt32) :
    Response :=
  .okWith (checkAllowed p env s app).toValue

/-! ### Report -/

def reportPayload (env : Env) (db : Db) (week : Bool) : Except String ReportPayload := do
  let rangeDays : Int := if week then 7 else 1
  let since := env.nowUtc - daysDelta rangeDays
  let prevSince := env.nowUtc - daysDelta (rangeDays * 2)
  let perApp ← (db.usageByAppSince env.sql since).mapError ("failed to read usage: " ++ ·)
  let thisPeriod ← (db.usedSecondsSince env.sql none since).mapError ("failed to sum usage: " ++ ·)
  let inclPrevious ←
    (db.usedSecondsSince env.sql none prevSince).mapError ("failed to sum usage: " ++ ·)
  return {
    rangeDays := UInt32.ofInt rangeDays
    perApp := perApp.map fun r => ⟨r.app, Budget.minutesOf r.seconds⟩
    totalMinutesThisPeriod := Budget.minutesOf thisPeriod
    totalMinutesPreviousPeriod :=
      saturatingSub (Budget.minutesOf inclPrevious) (Budget.minutesOf thisPeriod)
    pinOverrideCount := (db.pinOverrideCountSince env.sql since).toOption.getD 0
    securityEvents := ((db.recentSecurityEvents env.sql since).toOption.getD []).map fun r =>
      ⟨toRfc3339 r.occurredAt, r.eventType, r.severity, r.detail⟩ }

def handleReport (env : Env) (s : State) (week : Bool) : Response :=
  match reportPayload env s.db week with
  | .ok payload => .okWith payload.toValue
  | .error e => .err e

/-! ### Dispatch -/

def dispatch (p : Platform) (env : Env) (s : State) : Request → State × Response
  | .ping => (s, .okEmpty)
  | .status => (s, handleStatus p env s)
  | .setTier tier apps => handleSetTier p env s tier apps
  | .unlock app minutes => handleUnlock p env s app minutes false
  | .override app minutes => handleUnlock p env s app minutes true
  | .overrideFailed app => handleOverrideFailed env s app
  | .report week => (s, handleReport env s week)
  | .wrapperAuthorize app => (s, handleWrapperAuthorize p env s app)
  | .wrapperStart app pid => handleWrapperStart env s app pid
  | .wrapperStop app pid _ => handleWrapperStop env s app pid
  | .wrapperPoll app pid => (s, handleWrapperPoll p env s app pid)
  | .pushContent _ =>
      (s, .err "push-content is reserved but not implemented yet (see issue #13)")

end Handlers

end OmarchyKids
