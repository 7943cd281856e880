import OmarchyKids.Agentd.Persistence

/-!
# OmarchyKids.Agentd.Views

The three views of the policy. What the daemon authorises, it computes from the
config in memory; what the child sees are the tiles in `launcher-apps.json`; and
what the next daemon will work with is the text of `config.toml`. As long as
files can be written and nobody else writes them, the three agree after every
step (`views_agree`): start-up renders what it loaded, and every step that
changes the config saves and renders the config it leaves (`step_policy`).
-/

namespace OmarchyKids

open Handlers Daemon

/-! ### Agreement -/

/-- The text the library writes for a config is read back as that config. -/
def Toml.RoundTrips (toml : Toml) (c : Config) : Prop :=
  toml.fromStr (toml.toStringPretty c) = some c

instance (toml : Toml) (c : Config) : Decidable (toml.RoundTrips c) :=
  inferInstanceAs (Decidable (_ = _))

/-- Both files show the config in memory. -/
structure Coherent (toml : Toml) (pol : Policy) : Prop where
  tiles : pol.launcherApps = some pol.config.effectiveLauncherTiles
  file : pol.configFile.bind toml.fromStr = some pol.config

/-- Nothing stands in the way of the step: both files can be written, and the
config the step leaves survives being written. -/
def Unhindered (p : Platform) (s : State) (e : Env × Event) : Prop :=
  e.1.saveError p = none ∧ e.1.renderError p = none ∧ p.toml.RoundTrips (step p s e).config

instance (p : Platform) (s : State) (e : Env × Event) : Decidable (Unhindered p s e) :=
  inferInstanceAs (Decidable (_ ∧ _ ∧ _))

/-- The step has the two files to write: it is a permitted edit, or a tick that finds
an unlock expired. -/
def edits (env : Env) (s : State) : Event → Bool
  | .request req => (req.edit env s.config).isSome && req.permitted env
  | .tick => s.config.hasExpired env.nowUtc

/-! ### One step -/

theorem start_coherent {p : Platform} {env : Env} {defaultTier : String} {db : Option Db}
    {file : Option String} {tiles : Option (List LauncherTile)} {s : State}
    (h : start p env defaultTier db file tiles = some s) (hrt : p.toml.RoundTrips s.config) :
    Coherent p.toml s.policy := by
  obtain ⟨config, file', log, hload, -, -, rfl⟩ := start_eq_some.mp h
  refine ⟨rfl, ?_⟩
  cases file with
  | some raw =>
      obtain ⟨hparse, rfl⟩ := Config.loadOrInit_some.mp hload
      exact hparse
  | none =>
      obtain ⟨-, -, rfl⟩ := Config.loadOrInit_none.mp hload
      exact hrt

/-- A step whose files can be written leaves the policy alone, or leaves some
config in all three places. -/
theorem step_policy {p : Platform} (s : State) {env : Env} (event : Event)
    (hsave : env.saveError p = none) (hrender : env.renderError p = none) :
    (step p s (env, event)).policy = s.policy ∨
      ∃ c, (step p s (env, event)).policy =
        ⟨c, some (p.toml.toStringPretty c), some c.effectiveLauncherTiles⟩ := by
  cases event with
  | request req =>
      rw [show (step p s (env, .request req)).policy = (dispatch p env s req).1.policy from rfl,
        dispatch_policy]
      split
      · rename_i c hedit
        split
        · exact .inr ⟨c, by simp [Policy.publish, hsave, hrender]⟩
        · exact .inl rfl
      · exact .inl rfl
  | tick =>
      rw [show (step p s (env, .tick)).policy = (Ticker.tick p env s).1.policy from rfl, tick_policy]
      split
      · exact .inr ⟨s.config.pruned env.nowUtc, by simp [hsave, hrender]⟩
      · exact .inl rfl

theorem step_policy_of_not_edits {p : Platform} {s : State} {env : Env} {event : Event}
    (h : edits env s event = false) : (step p s (env, event)).policy = s.policy := by
  cases event with
  | request req =>
      rw [show (step p s (env, .request req)).policy = (dispatch p env s req).1.policy from rfl,
        dispatch_policy]
      rw [edits] at h
      cases hedit : req.edit env s.config with
      | none => rfl
      | some c =>
          rw [hedit, Option.isSome_some, Bool.true_and] at h
          rw [h]
          rfl
  | tick =>
      have hnone : ¬ s.config.hasExpired env.nowUtc = true := Bool.eq_false_iff.mp h
      rw [show (step p s (env, .tick)).policy = (Ticker.tick p env s).1.policy from rfl, tick_policy,
        if_neg hnone]

theorem step_coherent {p : Platform} {s : State} {e : Env × Event} (h : Coherent p.toml s.policy)
    (he : Unhindered p s e) : Coherent p.toml (step p s e).policy := by
  obtain ⟨hsave, hrender, hrt⟩ := he
  obtain ⟨env, event⟩ := e
  rcases step_policy s event hsave hrender with hsame | ⟨c, hc⟩
  · rw [hsame]
    exact h
  · have hconfig : (step p s (env, event)).config = c := congrArg Policy.config hc
    rw [hconfig] at hrt
    rw [hc]
    exact ⟨rfl, hrt⟩

/-! ### Runs and restarts -/

/-- A daemon started on the files of a coherent one takes over its config, and
leaves the tiles as they are. -/
theorem restart_of_coherent {p : Platform} {s : State} (h : Coherent p.toml s.policy) {env : Env}
    (hrender : env.renderError p = none) (defaultTier : String) (db : Db) :
    ∃ s', start p env defaultTier (some db) s.configFile s.launcherApps = some s' ∧
      s'.policy = s.policy := by
  obtain ⟨raw, hfile, hparse⟩ := Option.bind_eq_some_iff.mp h.file
  have hload : Config.loadOrInit p.toml env.saveConfig p.home defaultTier s.configFile =
      some (s.config, some raw) := by
    rw [show s.configFile = some raw from hfile]
    exact Config.loadOrInit_some.mpr ⟨hparse, rfl⟩
  refine ⟨_, start_eq_some.mpr ⟨_, _, db, hload, rfl, hrender, rfl⟩, ?_⟩
  have htiles : s.launcherApps = some s.config.effectiveLauncherTiles := h.tiles
  rw [State.policy, State.policy, htiles, show s.configFile = some raw from hfile]

/-- After every run from start-up in which both files can be written: the tiles
list every accepted app once and nothing else, `config.toml` holds the config in
memory, and a restart would authorise and show the same. -/
theorem views_agree {p : Platform} {env₀ : Env} {defaultTier : String} {db : Option Db}
    {file : Option String} {tiles : Option (List LauncherTile)} {s₀ : State}
    (hstart : start p env₀ defaultTier db file tiles = some s₀)
    (hrt : p.toml.RoundTrips s₀.config) {events : List (Env × Event)}
    (hevents : Runs.Along (step p) (Unhindered p) s₀ events) :
    let s := Runs.run (step p) s₀ events
    (∃ shown, s.launcherApps = some shown ∧ (shown.map LauncherTile.desktopId).Nodup ∧
        ∀ app, app ∈ shown.map LauncherTile.desktopId ↔ s.config.isAppAllowed app = true) ∧
      s.configFile.bind p.toml.fromStr = some s.config ∧
      ∀ env, env.renderError p = none → ∀ tier log,
        ∃ s', start p env tier (some log) s.configFile s.launcherApps = some s' ∧
          (∀ app, s'.config.isAppAllowed app = s.config.isAppAllowed app) ∧
          s'.launcherApps = s.launcherApps := by
  have hcoherent : Coherent p.toml (Runs.run (step p) s₀ events).policy :=
    Runs.run_invariant_along (I := fun s : State => Coherent p.toml s.policy)
      (start_coherent hstart hrt) (fun s e he h => step_coherent h he) hevents
  refine ⟨⟨_, hcoherent.tiles, ?_, fun app => ?_⟩, hcoherent.file, fun env hrender tier log => ?_⟩
  · exact Config.nodup_effectiveLauncherTiles _
  · exact Config.mem_effectiveLauncherTiles
  · obtain ⟨s', hs', hpol⟩ := restart_of_coherent hcoherent hrender tier log
    refine ⟨s', hs', fun app => ?_, congrArg Policy.launcherApps hpol⟩
    rw [show s'.config = _ from congrArg Policy.config hpol]
    rfl

/-- Puzzles unlocked, a tick while they are, and the tick that locks them again. -/
def unlockAndLock : List (Env × Event) :=
  [(puzzleEnv, unlockPuzzles), (puzzleEnv, .tick),
    ({ puzzleEnv with nowUtc := sampleEnv.nowUtc + minutesDelta 30 }, .tick)]

theorem views_agree_puzzles :
    let s := Runs.run (step tablePlatform) startedState unlockAndLock
    (∃ shown, s.launcherApps = some shown ∧ (shown.map LauncherTile.desktopId).Nodup ∧
        ∀ app, app ∈ shown.map LauncherTile.desktopId ↔ s.config.isAppAllowed app = true) ∧
      s.configFile.bind tableToml.fromStr = some s.config ∧
      ∀ env, env.renderError tablePlatform = none → ∀ tier log,
        ∃ s', start tablePlatform env tier (some log) s.configFile s.launcherApps = some s' ∧
          (∀ app, s'.config.isAppAllowed app = s.config.isAppAllowed app) ∧
          s'.launcherApps = s.launcherApps :=
  views_agree
    (show start tablePlatform sampleEnv "mini" (some {}) none none = some startedState from rfl)
    (by decide +kernel) (by decide +kernel)

end OmarchyKids
