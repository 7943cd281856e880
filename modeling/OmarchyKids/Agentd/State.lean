import Mathlib
import OmarchyKids.Agentd.Db
import OmarchyKids.Common.Desktop
import OmarchyKids.Common.Protocol

/-!
# OmarchyKids.Agentd.State

The daemon's state, and what it meets outside itself.

The state is what the mutex guards (policy, usage log, running sessions)
together with the two files only the daemon is meant to write. Whatever varies
from one operation to the next — the clocks, the curated list, the installed
files, which storage step fails — comes in with the operation, as its `Env`.
What stays the same for the life of the process is the `Platform`.
-/

namespace OmarchyKids

/-! ### State -/

structure ActiveSession where
  app : String
  startedAt : DateTime
  /-- Whether the pre-warning has already fired for this session. -/
  warned : Bool := false
  deriving DecidableEq, Repr

/-- `HashMap<u32, ActiveSession>`, keyed by pid. -/
abbrev ActiveMap := AList fun _ : UInt32 => ActiveSession

/-- `HashMap::values`. -/
def ActiveMap.values (m : ActiveMap) : List ActiveSession := m.entries.map Sigma.snd

structure State where
  config : Config
  /-- The text in `config.toml`. -/
  configFile : Option String
  /-- The tiles in `launcher-apps.json`. -/
  launcherApps : Option (List LauncherTile)
  db : Db := {}
  active : ActiveMap := ∅

/-! ### Surroundings -/

/-- What is fixed while the daemon runs. -/
structure Platform where
  home : String
  zone : Zone
  toml : Toml
  /-- `NaiveTime::parse_from_str(s, "%H:%M")`. -/
  parseTime : String → Option NaiveTime

/-- The curated list's file, as one `allowlist::load` finds it. -/
inductive AllowlistFile
  | unreadable
  | malformed
  | parsed (unlockable : List String)
  deriving DecidableEq, Repr

/-- What one operation meets. -/
structure Env where
  /-- `Utc::now()`. -/
  nowUtc : DateTime
  /-- `Local::now()`, read separately. -/
  nowLocal : DateTime
  /-- Which entry the hash map's iterator yields first. -/
  iteration : Nat := 0
  allowlist : AllowlistFile := .unreadable
  fs : Fs := ⟨fun _ => false, fun _ => none⟩
  saveConfig : WriteOutcome := {}
  renderTiles : WriteOutcome := {}
  sql : Sql := Sql.ok

/-- An absent file means an empty list, and so does a malformed one. -/
def AllowlistFile.load : AllowlistFile → List String
  | unreadable => []
  | malformed => []
  | parsed unlockable => unlockable

/-! ### Writing the two files -/

namespace Launcher

/-- Writes the tiles the policy shows to `launcher-apps.json`. -/
def render (o : WriteOutcome) (home : String) (config : Config)
    (file : Option (List LauncherTile)) : Option (List LauncherTile) × Option String :=
  atomicWrite o (configDir home) (launcherAppsPath home) config.effectiveLauncherTiles file

end Launcher

/-- Why `config.toml` cannot be written, if it cannot. -/
def Env.saveError (p : Platform) (env : Env) : Option String :=
  env.saveConfig.error (configDir p.home) (configPath p.home)

/-- Why `launcher-apps.json` cannot be written, if it cannot. -/
def Env.renderError (p : Platform) (env : Env) : Option String :=
  env.renderTiles.error (configDir p.home) (launcherAppsPath p.home)

namespace State

/-- `Config::save` on the daemon's own config and path. -/
def save (p : Platform) (env : Env) (s : State) : State × Option String :=
  let (file, e) := s.config.save p.toml env.saveConfig p.home s.configFile
  ({ s with configFile := file }, e)

/-- `launcher::render` on the daemon's own config. -/
def render (p : Platform) (env : Env) (s : State) : State × Option String :=
  let (file, e) := Launcher.render env.renderTiles p.home s.config s.launcherApps
  ({ s with launcherApps := file }, e)

theorem save_eq (p : Platform) (env : Env) (s : State) :
    s.save p env =
      (if (env.saveError p).isSome then s
        else { s with configFile := some (p.toml.toStringPretty s.config) }, env.saveError p) := by
  unfold save Config.save Env.saveError
  cases h : env.saveConfig.error (configDir p.home) (configPath p.home) with
  | some e => simp [atomicWrite_of_error h]
  | none => simp [atomicWrite_of_ok h]

theorem render_eq (p : Platform) (env : Env) (s : State) :
    s.render p env =
      (if (env.renderError p).isSome then s
        else { s with launcherApps := some s.config.effectiveLauncherTiles }, env.renderError p) := by
  unfold render Launcher.render Env.renderError
  cases h : env.renderTiles.error (configDir p.home) (launcherAppsPath p.home) with
  | some e => simp [atomicWrite_of_error h]
  | none => simp [atomicWrite_of_ok h]

end State

end OmarchyKids
