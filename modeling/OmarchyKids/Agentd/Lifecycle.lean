import OmarchyKids.Agentd.Daemon

/-!
# OmarchyKids.Agentd.Lifecycle

The daemon on its box, through stops and starts. What a stop leaves are the two
files and the usage log; config and active sessions are gone with the process.

A process that is killed in the middle of an operation leaves what the operation
has written so far, and so does one whose next write fails: such an end is an
operation with a failing step, and then a stop. A start that gets as far as the
tiles and then cannot bind the socket is a start, and then a stop.
-/

namespace OmarchyKids

open Daemon

/-- What is on the box while the daemon does not run. -/
structure Disk where
  configFile : Option String := none
  launcherApps : Option (List LauncherTile) := none
  db : Db := {}

def State.disk (s : State) : Disk := ⟨s.configFile, s.launcherApps, s.db⟩

/-- The box, with the daemon running or not. -/
inductive Box
  | up (s : State)
  | down (d : Disk)

inductive LifeEvent
  | op (env : Env) (event : Event)
  | stop (now : DateTime)
  /-- A start, with the tier in its environment; `opens` says whether the usage
  log can be opened. -/
  | boot (env : Env) (defaultTier : String) (opens : Bool)

namespace LifeEvent

/-- When it happens. -/
def now : LifeEvent → DateTime
  | op env _ => env.nowUtc
  | stop now => now
  | boot env _ _ => env.nowUtc

end LifeEvent

namespace Disk

/-- The start-up of the daemon on these files. -/
def start (p : Platform) (d : Disk) (env : Env) (defaultTier : String) (opens : Bool) :
    Option State :=
  Daemon.start p env defaultTier (if opens then some d.db else none) d.configFile d.launcherApps

/-- What a start-up that fails leaves: a default config may have been written. -/
def afterFailedStart (p : Platform) (d : Disk) (env : Env) (defaultTier : String) : Disk :=
  { d with configFile :=
      ((Config.loadOrInit p.toml env.saveConfig p.home defaultTier d.configFile).map
        Prod.snd).getD d.configFile }

end Disk

/-- One event. A daemon that does not run is asked in vain, and a second one does
not start beside a running one. -/
def lifeStep (p : Platform) : Box → LifeEvent → Box
  | .up s, .op env event => .up (step p s (env, event))
  | .up s, .stop _ => .down s.disk
  | .up s, .boot .. => .up s
  | .down d, .boot env defaultTier opens =>
      match d.start p env defaultTier opens with
      | some s => .up s
      | none => .down (d.afterFailedStart p env defaultTier)
  | .down d, .op .. => .down d
  | .down d, .stop _ => .down d

/-! ### What a start takes over -/

namespace Disk

theorem start_db {p : Platform} {d : Disk} {env : Env} {defaultTier : String} {opens : Bool}
    {s : State} (h : d.start p env defaultTier opens = some s) : s.db = d.db ∧ s.active = ∅ := by
  obtain ⟨config, file, log, -, hlog, -, rfl⟩ := start_eq_some.mp h
  cases opens with
  | false => cases hlog
  | true =>
      obtain rfl : d.db = log := Option.some.inj hlog
      exact ⟨rfl, rfl⟩

/-- A start that fails leaves the config's file alone, or makes one of the default. -/
theorem afterFailedStart_configFile (p : Platform) (d : Disk) (env : Env) (defaultTier : String) :
    (d.afterFailedStart p env defaultTier).configFile = d.configFile ∨
      d.configFile = none ∧ (d.afterFailedStart p env defaultTier).configFile =
        some (p.toml.toStringPretty (.defaultForTier defaultTier)) := by
  rw [afterFailedStart]
  dsimp only
  cases hload : Config.loadOrInit p.toml env.saveConfig p.home defaultTier d.configFile with
  | none => exact .inl rfl
  | some loaded =>
      obtain ⟨config, file⟩ := loaded
      cases hfile : d.configFile with
      | some raw =>
          rw [hfile] at hload
          exact .inl (Config.loadOrInit_some.mp hload).2
      | none =>
          rw [hfile] at hload
          obtain ⟨-, rfl, rfl⟩ := Config.loadOrInit_none.mp hload
          exact .inr ⟨rfl, rfl⟩

end Disk

end OmarchyKids
