import OmarchyKids.Agentd.Ticker
import OmarchyKids.Common.Transport
import OmarchyKids.Lib.Runs

/-!
# OmarchyKids.Agentd.Daemon

The daemon as a whole: start-up, one connection, and runs. The lock makes
requests and ticks atomic, so a run is a list of them in the order in which they
took the lock, each with the surroundings it met.
-/

namespace OmarchyKids.Daemon

/-- Start-up: loads or creates the config, opens the log, renders the tiles.
`none` if any of it fails. -/
def start (p : Platform) (env : Env) (defaultTier : String) (db : Option Db)
    (configFile : Option String) (launcherApps : Option (List LauncherTile)) : Option State := do
  let (config, configFile) ←
    Config.loadOrInit p.toml env.saveConfig p.home defaultTier configFile
  let db ← db
  match State.render p env { config, configFile, launcherApps, db } with
  | (s, none) => some s
  | (_, some _) => none

theorem start_eq_some {p : Platform} {env : Env} {defaultTier : String} {db : Option Db}
    {configFile : Option String} {launcherApps : Option (List LauncherTile)} {s : State} :
    start p env defaultTier db configFile launcherApps = some s ↔
      ∃ config file log,
        Config.loadOrInit p.toml env.saveConfig p.home defaultTier configFile = some (config, file) ∧
          db = some log ∧ env.renderError p = none ∧
          s = { config, configFile := file, launcherApps := some config.effectiveLauncherTiles,
                db := log } := by
  unfold start
  cases hload : Config.loadOrInit p.toml env.saveConfig p.home defaultTier configFile with
  | none => simp
  | some loaded =>
      obtain ⟨config, file⟩ := loaded
      cases db with
      | none => simp
      | some log =>
          cases hrender : env.renderError p with
          | some e => simp [State.render_eq, hrender]
          | none => simp [State.render_eq, hrender, eq_comm]

/-! ### Connections -/

/-- The line written for a response. -/
def responseLine (r : Response) : List UInt8 := Utf8.charsBytes r.toJson.encode ++ [10]

/-- Serves one connection: reads the request line, dispatches, and writes the
response line. `fromStr` is `serde_json::from_str::<Request>`. -/
def handleConnection (fromStr : String → Except String Request) (p : Platform) (env : Env)
    (s : State) (input : Stream) : State × List UInt8 :=
  match (readLineBounded input maxLineBytes).1 with
  | .error _ => (s, [])
  | .ok none => (s, [])
  | .ok (some line) =>
      match fromStr line with
      | .ok req =>
          let (s, response) := Handlers.dispatch p env s req
          (s, responseLine response)
      | .error e => (s, responseLine (.err ("malformed request: " ++ e)))

/-! ### Runs -/

inductive Event
  | request (req : Request)
  | tick
  deriving DecidableEq, Repr

/-- The state after one event. -/
def step (p : Platform) (s : State) (e : Env × Event) : State :=
  match e with
  | (env, .request req) => (Handlers.dispatch p env s req).1
  | (env, .tick) => (Ticker.tick p env s).1

/-! ### A sample installation -/

/-- The UTC zone. -/
def utc : Zone where
  toLocal t := ⟨t / 86400000000000, (t % 86400000000000).toNat⟩
  fromLocal t := .single (t.date * 86400000000000 + t.time)

/-- A box in UTC whose `config.toml` holds just the tier's name. -/
def samplePlatform : Platform where
  home := "/home/kid"
  zone := utc
  toml := ⟨fun c => "[tier]\ncurrent = \"" ++ c.tier.current ++ "\"\n", fun _ => none⟩
  parseTime _ := none

/-- A daemon just started with the default policy, 2026-09-01 at 00:00:05 UTC. -/
def sampleState : State where
  config := .defaultForTier "mini"
  configFile := none
  launcherApps := some []

def sampleEnv : Env where
  nowUtc := 1788220805000000000
  nowLocal := 1788220805000000000

/-- What is met `n` minutes after the sample state. -/
def minutesLater (n : Int) : Env where
  nowUtc := sampleEnv.nowUtc + minutesDelta n
  nowLocal := sampleEnv.nowLocal + minutesDelta n

end OmarchyKids.Daemon
