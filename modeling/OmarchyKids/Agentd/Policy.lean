import OmarchyKids.Agentd.Daemon

/-!
# OmarchyKids.Agentd.Policy

What requests and ticks do to the policy: the config in memory and the two files
rendered from it.

A `SetTier`, `Unlock` or `Override` is an *edit* of the config
(`Request.edit`), checked before anything is touched (`Request.permitted`). A
permitted edit is *published*: installed in memory, then saved, then rendered.
`dispatch_policy` says that this is all a request can do to the policy, and
`tick_policy` that a tick publishes the config without its expired unlocks.
Everything about the policy over whole runs is derived from these two.
-/

namespace OmarchyKids

open Handlers

/-- The policy in its three places. -/
structure Policy where
  config : Config
  configFile : Option String
  launcherApps : Option (List LauncherTile)

/-- The part of the state that is the policy. -/
def State.policy (s : State) : Policy := ⟨s.config, s.configFile, s.launcherApps⟩

@[simp] theorem State.policy_config (s : State) : s.policy.config = s.config := rfl
@[simp] theorem State.policy_configFile (s : State) : s.policy.configFile = s.configFile := rfl
@[simp] theorem State.policy_launcherApps (s : State) : s.policy.launcherApps = s.launcherApps := rfl

/-- A new config is installed in memory, saved, and — only if that worked —
rendered. -/
def Policy.publish (p : Platform) (env : Env) (c : Config) (pol : Policy) : Policy where
  config := c
  configFile :=
    if (env.saveError p).isSome then pol.configFile else some (p.toml.toStringPretty c)
  launcherApps :=
    if (env.saveError p).isSome || (env.renderError p).isSome then pol.launcherApps
    else some c.effectiveLauncherTiles

/-! ### Requests that edit the policy -/

namespace Request

/-- The config a request asks for, if it is one that edits the policy. -/
def edit (env : Env) (c : Config) : Request → Option Config
  | setTier tier apps => some (c.switchTier tier apps)
  | unlock app minutes =>
      some (c.pushUnlock (newUnlock env app (minutes.getD defaultUnlockMinutes) false))
  | override app minutes =>
      some (c.pushUnlock (newUnlock env app (minutes.getD defaultUnlockMinutes) true))
  | _ => none

/-- The check a request has to pass before it touches anything. -/
def permitted (env : Env) : Request → Bool
  | setTier tier apps =>
      decide (tier ∈ knownTiers) && (apps.bind (unresolvedTile env.fs)).isNone
  | unlock app _ => unlockIsPermitted app false env.allowlist.load
  | _ => true

end Request

/-! ### What one operation does -/

/-- Storage with a failure text, as the handlers see it. -/
theorem saveAndRender_policy (p : Platform) (env : Env) (s : State) (c : Config) :
    (saveAndRender p env { s with config := c }).1.policy = s.policy.publish p env c ∧
      (saveAndRender p env { s with config := c }).2.isNone =
        ((env.saveError p).isNone && (env.renderError p).isNone) := by
  unfold saveAndRender
  simp only [State.save_eq, State.render_eq]
  cases hsave : env.saveError p with
  | some e => simp [State.policy, Policy.publish, hsave]
  | none => cases hrender : env.renderError p <;> simp [State.policy, Policy.publish, hsave, hrender]

theorem handleSetTier_policy (p : Platform) (env : Env) (s : State) (tier : String)
    (apps : Option (List AppTile)) :
    (handleSetTier p env s tier apps).1.policy =
        (if (Request.setTier tier apps).permitted env then
          s.policy.publish p env (s.config.switchTier tier apps) else s.policy) ∧
      (handleSetTier p env s tier apps).2.ok =
        ((Request.setTier tier apps).permitted env && (env.saveError p).isNone &&
          (env.renderError p).isNone) := by
  obtain ⟨hpol, hok⟩ := saveAndRender_policy p env s (s.config.switchTier tier apps)
  unfold handleSetTier Request.permitted
  by_cases htier : tier ∈ knownTiers
  · cases happs : apps.bind (unresolvedTile env.fs) with
    | some tile => simp [htier, happs]
    | none =>
        simp only [htier, happs]
        rw [← hpol, Bool.and_assoc, ← hok]
        rcases saveAndRender p env { s with config := s.config.switchTier tier apps } with ⟨s', _ | e⟩
        · simp
        · simp
  · simp [htier]

theorem handleUnlock_policy (p : Platform) (env : Env) (s : State) (app : String)
    (minutes : Option UInt32) (viaOverride : Bool) :
    (handleUnlock p env s app minutes viaOverride).1.policy =
        (if unlockIsPermitted app viaOverride env.allowlist.load then
          s.policy.publish p env (s.config.pushUnlock
            (newUnlock env app (minutes.getD defaultUnlockMinutes) viaOverride)) else s.policy) ∧
      (handleUnlock p env s app minutes viaOverride).2.ok =
        (unlockIsPermitted app viaOverride env.allowlist.load && (env.saveError p).isNone &&
          (env.renderError p).isNone) := by
  obtain ⟨hpol, hok⟩ := saveAndRender_policy p env s
    (s.config.pushUnlock (newUnlock env app (minutes.getD defaultUnlockMinutes) viaOverride))
  unfold handleUnlock
  cases unlockIsPermitted app viaOverride env.allowlist.load with
  | false => simp
  | true =>
      simp only [if_true]
      rw [← hpol, Bool.and_assoc, ← hok]
      rcases saveAndRender p env _ with ⟨s', _ | e⟩
      · -- the override's own row in the log changes nothing of the policy
        cases viaOverride with
        | false => simp
        | true =>
            simp only [if_true]
            split <;> exact ⟨rfl, rfl⟩
      · simp

theorem handleOverrideFailed_policy (env : Env) (s : State) (app : String) :
    (handleOverrideFailed env s app).1.policy = s.policy := by
  unfold handleOverrideFailed
  dsimp only
  split <;> rfl

theorem handleWrapperStart_policy (env : Env) (s : State) (app : String) (pid : UInt32) :
    (handleWrapperStart env s app pid).1.policy = s.policy := by
  unfold handleWrapperStart
  by_cases hallowed : s.config.isAppAllowed app = true
  · simp only [hallowed, if_true]
    split <;> rfl
  · simp only [hallowed]
    cases s.db.insertSecurityEvent env.sql "wrapper_started_disallowed_app" "routine" (some app)
        env.nowUtc <;> dsimp only <;> split <;> rfl

theorem handleWrapperStop_policy (env : Env) (s : State) (app : String) (pid : UInt32) :
    (handleWrapperStop env s app pid).1.policy = s.policy := by
  unfold handleWrapperStop
  dsimp only
  split <;> rfl

/-- All a request can do to the policy: publish its edit, if it is permitted. -/
theorem dispatch_policy (p : Platform) (env : Env) (s : State) (req : Request) :
    (dispatch p env s req).1.policy =
      match req.edit env s.config with
      | some c => if req.permitted env then s.policy.publish p env c else s.policy
      | none => s.policy := by
  cases req with
  | setTier tier apps => exact (handleSetTier_policy p env s tier apps).1
  | unlock app minutes => exact (handleUnlock_policy p env s app minutes false).1
  | override app minutes => exact (handleUnlock_policy p env s app minutes true).1
  | overrideFailed app => exact handleOverrideFailed_policy env s app
  | wrapperStart app pid => exact handleWrapperStart_policy env s app pid
  | wrapperStop app pid _ => exact handleWrapperStop_policy env s app pid
  | _ => rfl

/-- An edit is answered with success exactly when it is permitted and both files
could be written. -/
theorem dispatch_edit_ok {p : Platform} {env : Env} {s : State} {req : Request} {c : Config}
    (h : req.edit env s.config = some c) :
    (dispatch p env s req).2.ok =
      (req.permitted env && (env.saveError p).isNone && (env.renderError p).isNone) := by
  cases req with
  | setTier tier apps => exact (handleSetTier_policy p env s tier apps).2
  | unlock app minutes => exact (handleUnlock_policy p env s app minutes false).2
  | override app minutes => exact (handleUnlock_policy p env s app minutes true).2
  | _ => cases h

/-! ### Ticks -/

/-- The config without its expired unlocks. -/
def Config.pruned (c : Config) (now : DateTime) : Config := (c.pruneExpiredUnlocks now).1

/-- Whether a tick finds an expired unlock. -/
def Config.hasExpired (c : Config) (now : DateTime) : Bool := (c.pruneExpiredUnlocks now).2

/-- Where no unlock has expired, pruning changes nothing. -/
theorem Config.pruned_of_not_hasExpired {c : Config} {now : DateTime}
    (h : c.hasExpired now = false) : c.pruned now = c := by
  have hlen : (c.apps.unlocked.filter fun u => decide (now < u.expiresAt)).length =
      c.apps.unlocked.length := by
    simpa [hasExpired, pruneExpiredUnlocks] using h
  have hself : (c.apps.unlocked.filter fun u => decide (now < u.expiresAt)) = c.apps.unlocked :=
    (List.filter_sublist).eq_of_length hlen
  unfold pruned pruneExpiredUnlocks
  rw [hself]

theorem prewarn_policy (p : Platform) (env : Env) (acc : State × List Ticker.PreWarning)
    (candidate : UInt32 × String) : (Ticker.prewarn p env acc candidate).1.policy = acc.1.policy := by
  unfold Ticker.prewarn
  dsimp only
  split
  · rfl
  · split <;> rfl

/-- All a tick can do to the policy. The tiles are rendered even if saving
failed. -/
theorem tick_policy (p : Platform) (env : Env) (s : State) :
    (Ticker.tick p env s).1.policy =
      if s.config.hasExpired env.nowUtc then
        { config := s.config.pruned env.nowUtc
          configFile := if (env.saveError p).isSome then s.configFile
            else some (p.toml.toStringPretty (s.config.pruned env.nowUtc))
          launcherApps := if (env.renderError p).isSome then s.launcherApps
            else some (s.config.pruned env.nowUtc).effectiveLauncherTiles }
      else s.policy := by
  have hfold : ∀ (candidates : List (UInt32 × String)) (acc : State × List Ticker.PreWarning),
      (candidates.foldl (Ticker.prewarn p env) acc).1.policy = acc.1.policy := by
    intro candidates
    induction candidates with
    | nil => exact fun _ => rfl
    | cons candidate candidates ih =>
        intro acc
        rw [List.foldl_cons, ih, prewarn_policy]
  unfold Ticker.tick
  rw [hfold]
  unfold Ticker.pruneUnlocks
  cases hexp : s.config.hasExpired env.nowUtc with
  | false =>
      have hself := Config.pruned_of_not_hasExpired hexp
      unfold Config.hasExpired at hexp
      unfold Config.pruned at hself
      simp [hexp, hself, State.policy]
  | true =>
      unfold Config.hasExpired at hexp
      simp only [hexp, if_true, State.save_eq, State.render_eq]
      cases hsave : env.saveError p <;> cases hrender : env.renderError p <;>
        simp [State.policy, Config.pruned]

end OmarchyKids
