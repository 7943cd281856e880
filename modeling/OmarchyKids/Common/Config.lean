import OmarchyKids.Common.Files
import OmarchyKids.Common.Time
import OmarchyKids.Lib.KeyedList

/-!
# OmarchyKids.Common.Config

The policy file `config.toml`: its data model, what the daemon asks of it, and
how it is loaded and saved.

The TOML library is a parameter (`Toml`): the file holds a text, and the two
functions turn a `Config` into such a text and back. Maps are association lists;
only lookups by key depend on them.
-/

namespace OmarchyKids

/-- `BTreeMap<String, α>`. -/
abbrev BTreeMap (α : Type) := List (String × α)

/-! ### Data model -/

structure TierConfig where
  current : String
  deriving DecidableEq, Repr

structure TimeBudgetConfig where
  /-- Weekday key to the total minutes allowed that day. -/
  dailyTotalMinutes : BTreeMap UInt32 := []
  /-- App id to weekday key to the minutes allowed for that app that day. -/
  perAppMinutes : BTreeMap (BTreeMap UInt32) := []
  deriving DecidableEq, Repr

/-- A blocked window, `"HH:MM"` local time. `end < start` wraps past midnight. -/
structure Window where
  start : String
  «end» : String
  deriving DecidableEq, Repr

structure AppTile where
  desktopId : String
  label : String
  icon : String
  swatch : String
  deriving DecidableEq, Repr

structure UnlockedApp where
  desktopId : String
  label : String
  icon : String
  swatch : String
  expiresAt : DateTime
  viaOverride : Bool := false
  deriving DecidableEq, Repr

structure AppsConfig where
  /-- The tier's own tile list. -/
  base : List AppTile := []
  /-- Temporary unlocks. -/
  unlocked : List UnlockedApp := []
  deriving DecidableEq, Repr

structure PreWarningConfig where
  /-- Tier id to the lead time in minutes before a cutoff. -/
  leadMinutes : BTreeMap UInt32 := []
  deriving DecidableEq, Repr

structure Config where
  tier : TierConfig
  timeBudget : TimeBudgetConfig := {}
  timeWindows : BTreeMap (List Window) := []
  apps : AppsConfig := {}
  preWarning : PreWarningConfig := {}
  deriving DecidableEq, Repr

/-- A tile as the launcher reads it from `launcher-apps.json`. -/
structure LauncherTile where
  desktopId : String
  label : String
  icon : String
  swatch : String
  deriving DecidableEq, Repr

def AppTile.toLauncherTile (t : AppTile) : LauncherTile :=
  ⟨t.desktopId, t.label, t.icon, t.swatch⟩

def UnlockedApp.toLauncherTile (u : UnlockedApp) : LauncherTile :=
  ⟨u.desktopId, u.label, u.icon, u.swatch⟩

def weekdayKey : Weekday → String
  | .mon => "mon"
  | .tue => "tue"
  | .wed => "wed"
  | .thu => "thu"
  | .fri => "fri"
  | .sat => "sat"
  | .sun => "sun"

namespace Config

/-! ### Queries -/

/-- The fresh policy of a box nothing has configured yet. -/
def defaultForTier (tier : String) : Config where
  tier := ⟨tier⟩
  preWarning := ⟨[("mini", 1)]⟩

/-- Drops unlocks whose expiry has passed; says whether anything changed. -/
def pruneExpiredUnlocks (c : Config) (now : DateTime) : Config × Bool :=
  let kept := c.apps.unlocked.filter fun u => decide (now < u.expiresAt)
  ({ c with apps := { c.apps with unlocked := kept } },
    kept.length != c.apps.unlocked.length)

/-- One turn of the tile loop: `seen` remembers the ids pushed so far. -/
def pushTile (acc : List String × List LauncherTile) (t : LauncherTile) :
    List String × List LauncherTile :=
  if t.desktopId ∈ acc.1 then acc else (t.desktopId :: acc.1, acc.2 ++ [t])

/-- Base tiles plus temporary unlocks, de-duplicated by desktop id. -/
def effectiveLauncherTiles (c : Config) : List LauncherTile :=
  let afterBase := (c.apps.base.map AppTile.toLauncherTile).foldl pushTile ([], [])
  ((c.apps.unlocked.map UnlockedApp.toLauncherTile).foldl pushTile afterBase).2

/-- Whether an app may run at all, budgets and windows aside. -/
def isAppAllowed (c : Config) (desktopId : String) : Bool :=
  c.apps.base.any (fun t => t.desktopId == desktopId) ||
    c.apps.unlocked.any (fun u => u.desktopId == desktopId)

def dailyTotalMinutesToday (c : Config) (weekday : Weekday) : Option UInt32 :=
  c.timeBudget.dailyTotalMinutes.lookup (weekdayKey weekday)

def perAppMinutesToday (c : Config) (app : String) (weekday : Weekday) : Option UInt32 :=
  (c.timeBudget.perAppMinutes.lookup app).bind fun w => w.lookup (weekdayKey weekday)

def windowsToday (c : Config) (weekday : Weekday) : List Window :=
  (c.timeWindows.lookup (weekdayKey weekday)).getD []

def preWarningMinutes (c : Config) : UInt32 :=
  (c.preWarning.leadMinutes.lookup c.tier.current).getD 2

theorem isAppAllowed_iff {c : Config} {app : String} :
    c.isAppAllowed app = true ↔
      app ∈ c.apps.base.map AppTile.desktopId ∨
        app ∈ c.apps.unlocked.map UnlockedApp.desktopId := by
  simp [isAppAllowed]

theorem effectiveLauncherTiles_eq (c : Config) :
    c.effectiveLauncherTiles =
      KeyedList.firsts LauncherTile.desktopId (c.apps.base.map AppTile.toLauncherTile ++
        c.apps.unlocked.map UnlockedApp.toLauncherTile) := by
  rw [KeyedList.firsts, List.foldl_append]
  rfl

theorem nodup_effectiveLauncherTiles (c : Config) :
    (c.effectiveLauncherTiles.map LauncherTile.desktopId).Nodup := by
  rw [effectiveLauncherTiles_eq]
  exact KeyedList.nodup_firsts _

/-- The tiles show exactly the apps that may run. -/
theorem mem_effectiveLauncherTiles {c : Config} {app : String} :
    app ∈ c.effectiveLauncherTiles.map LauncherTile.desktopId ↔ c.isAppAllowed app = true := by
  rw [effectiveLauncherTiles_eq, KeyedList.mem_map_firsts, isAppAllowed_iff, List.map_append,
    List.map_map, List.map_map, List.mem_append]
  rfl

end Config

/-! ### Loading and saving -/

/-- `toml::to_string_pretty` and `toml::from_str`. -/
structure Toml where
  toStringPretty : Config → String
  fromStr : String → Option Config

namespace Config

/-- Writes the whole config; the error, if any, is the text of the first
operation that failed. -/
def save (toml : Toml) (o : WriteOutcome) (home : String) (c : Config) (file : Option String) :
    Option String × Option String :=
  atomicWrite o (configDir home) (configPath home) (toml.toStringPretty c) file

/-- Loads the config, or writes and returns a fresh default if there is none.
`none` is a start-up failure: a file that does not parse, or a default that
cannot be written. -/
def loadOrInit (toml : Toml) (o : WriteOutcome) (home defaultTier : String)
    (file : Option String) : Option (Config × Option String) :=
  match file with
  | some raw => (toml.fromStr raw).map fun c => (c, some raw)
  | none =>
      let c := defaultForTier defaultTier
      match c.save toml o home none with
      | (file', none) => some (c, file')
      | (_, some _) => none

theorem loadOrInit_some {toml : Toml} {o : WriteOutcome} {home tier raw : String} {c : Config}
    {file : Option String} :
    loadOrInit toml o home tier (some raw) = some (c, file) ↔
      toml.fromStr raw = some c ∧ file = some raw := by
  simp [loadOrInit, eq_comm]

theorem loadOrInit_none {toml : Toml} {o : WriteOutcome} {home tier : String} {c : Config}
    {file : Option String} :
    loadOrInit toml o home tier none = some (c, file) ↔
      o.error (configDir home) (configPath home) = none ∧ c = defaultForTier tier ∧
        file = some (toml.toStringPretty c) := by
  cases h : o.error (configDir home) (configPath home) with
  | some e => simp [loadOrInit, save, atomicWrite_of_error h]
  | none =>
      simp only [loadOrInit, save, atomicWrite_of_ok h, Option.some.injEq, Prod.mk.injEq, true_and]
      constructor
      · intro hpair
        exact ⟨hpair.1.symm, by rw [← hpair.1, hpair.2]⟩
      · intro hpair
        exact ⟨hpair.1.symm, by rw [hpair.2, hpair.1]⟩

end Config

end OmarchyKids
