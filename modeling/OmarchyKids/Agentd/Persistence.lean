import OmarchyKids.Agentd.Authorisation

/-!
# OmarchyKids.Agentd.Persistence

The policy in memory against the policy on disk.

* **Edits from outside are overwritten.** The daemon reads `config.toml` once.
  Its steps never change the budget, window and pre-warning sections it holds,
  and each step that writes the file writes them as they were at start-up
  (`step_sections_configFile`). An edit made to the file meanwhile stays there
  until the next such step.
* **A failed edit is not undone.** An edit changes memory first, so an error
  answer leaves no trace only under the condition of
  `failed_edit_leaves_no_trace_iff`.
-/

namespace OmarchyKids

open Handlers Daemon

/-! ### The sections a parent edits -/

/-- The sections of `config.toml` that no request edits. -/
structure Sections where
  timeBudget : TimeBudgetConfig
  timeWindows : BTreeMap (List Window)
  preWarning : PreWarningConfig
  deriving DecidableEq, Repr

def Config.sections (c : Config) : Sections := ⟨c.timeBudget, c.timeWindows, c.preWarning⟩

/-- The sections a reader of the file sees. -/
def diskSections (toml : Toml) (file : Option String) : Option Sections :=
  (file.bind toml.fromStr).map Config.sections

theorem edit_sections {env : Env} {req : Request} {c c' : Config}
    (h : req.edit env c = some c') : c'.sections = c.sections := by
  cases req with
  | setTier tier apps =>
      obtain rfl : c.switchTier tier apps = c' := by simpa [Request.edit] using h
      rfl
  | unlock app minutes =>
      obtain rfl : c.pushUnlock (newUnlock env app (minutes.getD defaultUnlockMinutes) false) = c' := by
        simpa [Request.edit] using h
      rfl
  | override app minutes =>
      obtain rfl : c.pushUnlock (newUnlock env app (minutes.getD defaultUnlockMinutes) true) = c' := by
        simpa [Request.edit] using h
      rfl
  | _ => cases h

/-- Whether a step of the daemon writes `config.toml`. -/
def writesConfig (p : Platform) (env : Env) (s : State) : Event → Bool
  | .request req =>
      (req.edit env s.config).isSome && req.permitted env && (env.saveError p).isNone
  | .tick => s.config.hasExpired env.nowUtc && (env.saveError p).isNone

/-- A step of the daemon keeps the sections it holds, and leaves in the file
either what was there or its own config. -/
theorem step_sections_configFile (p : Platform) (s : State) (env : Env) (event : Event) :
    (step p s (env, event)).config.sections = s.config.sections ∧
      (step p s (env, event)).configFile =
        if writesConfig p env s event then
          some (p.toml.toStringPretty (step p s (env, event)).config)
        else s.configFile := by
  cases event with
  | request req =>
      have hpol := dispatch_policy p env s req
      have hconfig := congrArg Policy.config hpol
      have hfile := congrArg Policy.configFile hpol
      simp only [State.policy_config, State.policy_configFile] at hconfig hfile
      rw [show step p s (env, .request req) = (dispatch p env s req).1 from rfl, hconfig, hfile]
      cases hedit : req.edit env s.config with
      | none => simp [writesConfig, hedit]
      | some c =>
          cases hperm : req.permitted env with
          | false => simp [writesConfig, hperm]
          | true =>
              refine ⟨edit_sections hedit, ?_⟩
              cases hsave : env.saveError p <;>
                simp [writesConfig, Policy.publish, hedit, hperm, hsave]
  | tick =>
      have hpol := tick_policy p env s
      have hconfig := congrArg Policy.config hpol
      have hfile := congrArg Policy.configFile hpol
      simp only [State.policy_config, State.policy_configFile] at hconfig hfile
      rw [show step p s (env, .tick) = (Ticker.tick p env s).1 from rfl, hconfig, hfile]
      cases hexp : s.config.hasExpired env.nowUtc with
      | false => simp [writesConfig, hexp]
      | true =>
          refine ⟨rfl, ?_⟩
          cases hsave : env.saveError p <;> simp [writesConfig, hexp, hsave]

/-! ### Edits from outside -/

/-- What can happen to `config.toml`: someone else replaces its text, or the
daemon takes a step. -/
inductive FileEvent
  | parentEdit (text : String)
  | agentd (env : Env) (event : Event)

def fileStep (p : Platform) (s : State) : FileEvent → State
  | .parentEdit text => { s with configFile := some text }
  | .agentd env event => step p s (env, event)

/-- The config `load_or_init` comes up with. -/
def loadedConfig (toml : Toml) (defaultTier : String) : Option String → Option Config
  | some raw => toml.fromStr raw
  | none => some (.defaultForTier defaultTier)

theorem start_config {p : Platform} {env : Env} {defaultTier : String} {db : Option Db}
    {file : Option String} {tiles : Option (List LauncherTile)} {s : State}
    (h : start p env defaultTier db file tiles = some s) :
    loadedConfig p.toml defaultTier file = some s.config := by
  obtain ⟨config, file', log, hload, -, -, rfl⟩ := start_eq_some.mp h
  cases file with
  | some raw => exact (Config.loadOrInit_some.mp hload).1
  | none => exact congrArg some (Config.loadOrInit_none.mp hload).2.1.symm

/-- The daemon never re-reads the file: its sections are those it was started with. -/
theorem run_sections (p : Platform) (s : State) (ops : List FileEvent) :
    (Runs.run (fileStep p) s ops).config.sections = s.config.sections := by
  refine Runs.run_invariant (I := fun s' : State => s'.config.sections = s.config.sections) rfl ?_ ops
  rintro s' (text | ⟨env, event⟩) ih
  · exact ih
  · exact (step_sections_configFile p s' env event).1.trans ih

/-- Whatever was done to `config.toml` meanwhile, a step of the daemon that
writes it writes the sections loaded at start-up; any other step leaves the file
as it is. -/
theorem written_sections_are_loaded {p : Platform} {env₀ : Env} {defaultTier : String}
    {db : Option Db} {file : Option String} {tiles : Option (List LauncherTile)} {s₀ : State}
    (h : start p env₀ defaultTier db file tiles = some s₀) (ops : List FileEvent) (env : Env)
    (event : Event) :
    ∃ c₀, loadedConfig p.toml defaultTier file = some c₀ ∧
      if writesConfig p env (Runs.run (fileStep p) s₀ ops) event then
        ∃ c, (Runs.run (fileStep p) s₀ (ops ++ [.agentd env event])).configFile =
            some (p.toml.toStringPretty c) ∧ c.sections = c₀.sections
      else
        (Runs.run (fileStep p) s₀ (ops ++ [.agentd env event])).configFile =
          (Runs.run (fileStep p) s₀ ops).configFile := by
  refine ⟨s₀.config, start_config h, ?_⟩
  obtain ⟨hsections, hfile⟩ :=
    step_sections_configFile p (Runs.run (fileStep p) s₀ ops) env event
  rw [Runs.run_concat]
  split
  · rename_i hwrites
    refine ⟨_, hfile.trans (if_pos hwrites), ?_⟩
    rw [hsections, run_sections]
  · rename_i hkeeps
    exact hfile.trans (if_neg hkeeps)

/-! ### A lost edit -/

/-- The policy a parent has edited to allow an hour on Mondays. -/
def editedConfig : Config :=
  { Config.defaultForTier "mini" with timeBudget := { dailyTotalMinutes := [("mon", 60)] } }

/-- Puzzles are on the curated list. -/
def puzzleEnv : Env where
  nowUtc := sampleEnv.nowUtc
  nowLocal := sampleEnv.nowLocal
  allowlist := .parsed ["org.kde.gcompris"]

/-- The default policy after an unlock of the puzzles. -/
def unlockedConfig : Config :=
  (Config.defaultForTier "mini").pushUnlock (newUnlock puzzleEnv "org.kde.gcompris" 30 false)

def textOf (budget unlocked : String) : String :=
  "[tier]\ncurrent = \"mini\"\n\n[time_budget.daily_total_minutes]\n" ++ budget ++
    "\n[time_budget.per_app_minutes]\n\n[time_windows]\n\n[apps]\nbase = []\n" ++ unlocked ++
    "\n[pre_warning.lead_minutes]\nmini = 1\n"

def emptyText : String := textOf "" "unlocked = []\n"

def editedText : String := textOf "mon = 60\n" "unlocked = []\n"

def unlockedText : String :=
  textOf "" ("\n[[apps.unlocked]]\ndesktop_id = \"org.kde.gcompris\"\n" ++
    "label = \"org.kde.gcompris\"\nicon = \"org.kde.gcompris\"\nswatch = \"#94A3B8\"\n" ++
    "expires_at = \"2026-09-01T00:30:05Z\"\nvia_override = false\n")

/-- TOML on the three configs that occur below. -/
def tableToml : Toml :=
  let table := [(Config.defaultForTier "mini", emptyText), (editedConfig, editedText),
    (unlockedConfig, unlockedText)]
  { toStringPretty := fun c => ((table.find? fun entry => entry.1 == c).map Prod.snd).getD ""
    fromStr := fun text => (table.find? fun entry => entry.2 == text).map Prod.fst }

def tablePlatform : Platform := { samplePlatform with toml := tableToml }

def startedState : State := { sampleState with configFile := some emptyText }

def unlockPuzzles : Event := .request (.unlock "org.kde.gcompris" none)

theorem written_sections_are_loaded_sample :
    ∃ c₀, loadedConfig tableToml "mini" none = some c₀ ∧
      if writesConfig tablePlatform puzzleEnv
          (Runs.run (fileStep tablePlatform) startedState [.parentEdit editedText]) unlockPuzzles then
        ∃ c, (Runs.run (fileStep tablePlatform) startedState
            ([.parentEdit editedText] ++ [.agentd puzzleEnv unlockPuzzles])).configFile =
            some (tableToml.toStringPretty c) ∧ c.sections = c₀.sections
      else
        (Runs.run (fileStep tablePlatform) startedState
            ([.parentEdit editedText] ++ [.agentd puzzleEnv unlockPuzzles])).configFile =
          (Runs.run (fileStep tablePlatform) startedState [.parentEdit editedText]).configFile := by
  have hstart : start tablePlatform sampleEnv "mini" (some {}) none none = some startedState := rfl
  exact written_sections_are_loaded hstart [.parentEdit editedText] puzzleEnv unlockPuzzles

/-- The hour a parent wrote into the file is gone after the next unlock. -/
theorem unlock_overwrites_parent_edit :
    start tablePlatform sampleEnv "mini" (some {}) none none = some startedState ∧
      writesConfig tablePlatform puzzleEnv
        (Runs.run (fileStep tablePlatform) startedState [.parentEdit editedText])
        unlockPuzzles = true ∧
      diskSections tableToml (some editedText) = some editedConfig.sections ∧
      diskSections tableToml (Runs.run (fileStep tablePlatform) startedState
        [.parentEdit editedText, .agentd puzzleEnv unlockPuzzles]).configFile ≠
          some editedConfig.sections := by
  refine ⟨rfl, ?_, ?_, ?_⟩ <;> decide +kernel

/-! ### Failed edits -/

/-- Nothing was granted or changed: the accepted apps, the tier and the two
files are the same. -/
def NothingChanged (s s' : State) : Prop :=
  (∀ app, s'.config.isAppAllowed app = s.config.isAppAllowed app) ∧
    s'.config.tier.current = s.config.tier.current ∧
    s'.configFile = s.configFile ∧ s'.launcherApps = s.launcherApps

/-- `NothingChanged` speaks of the policy only. -/
theorem nothingChanged_iff_policy {s s' : State} :
    NothingChanged s s' ↔
      (∀ app, s'.policy.config.isAppAllowed app = s.policy.config.isAppAllowed app) ∧
        s'.policy.config.tier.current = s.policy.config.tier.current ∧
        s'.policy.configFile = s.policy.configFile ∧
        s'.policy.launcherApps = s.policy.launcherApps := Iff.rfl

theorem nothingChanged_self (s : State) : NothingChanged s s :=
  ⟨fun _ => rfl, rfl, rfl, rfl⟩

/-- A request that asks for what the policy grants already: an unlock of an
accepted app, or a switch to the current tier with tiles that make no difference
beside the unlocks. -/
def Request.AddsNothing (c : Config) : Request → Prop
  | setTier tier apps =>
      tier = c.tier.current ∧ ∀ app,
        app ∈ (apps.getD c.apps.base).map AppTile.desktopId ∨
            app ∈ c.apps.unlocked.map UnlockedApp.desktopId ↔ c.isAppAllowed app = true
  | unlock app _ => c.isAppAllowed app = true
  | override app _ => c.isAppAllowed app = true
  | _ => True

theorem pushUnlock_grants_same_iff {c : Config} {u : UnlockedApp} :
    ((∀ app, (c.pushUnlock u).isAppAllowed app = c.isAppAllowed app) ∧
      (c.pushUnlock u).tier.current = c.tier.current) ↔ c.isAppAllowed u.desktopId = true := by
  constructor
  · rintro ⟨hsame, -⟩
    rw [← hsame, Config.mem_pushUnlock]
    exact .inr rfl
  · intro hallowed
    refine ⟨fun app => Bool.eq_iff_iff.mpr ?_, rfl⟩
    rw [Config.mem_pushUnlock]
    refine ⟨?_, .inl⟩
    rintro (hbefore | rfl)
    · exact hbefore
    · exact hallowed

/-- An edit keeps accepted apps and tier exactly when it adds nothing. -/
theorem edit_grants_same_iff {env : Env} {req : Request} {c c' : Config}
    (h : req.edit env c = some c') :
    ((∀ app, c'.isAppAllowed app = c.isAppAllowed app) ∧ c'.tier.current = c.tier.current) ↔
      req.AddsNothing c := by
  cases req with
  | setTier tier apps =>
      obtain rfl : c.switchTier tier apps = c' := by simpa [Request.edit] using h
      unfold Request.AddsNothing
      rw [and_comm]
      refine and_congr Iff.rfl (forall_congr' fun app => ?_)
      rw [Bool.eq_iff_iff, Config.mem_switchTier]
  | unlock app minutes =>
      obtain rfl : c.pushUnlock (newUnlock env app (minutes.getD defaultUnlockMinutes) false) = c' := by
        simpa [Request.edit] using h
      exact pushUnlock_grants_same_iff
  | override app minutes =>
      obtain rfl : c.pushUnlock (newUnlock env app (minutes.getD defaultUnlockMinutes) true) = c' := by
        simpa [Request.edit] using h
      exact pushUnlock_grants_same_iff
  | _ => cases h

/-- An error answer to an edit leaves no trace exactly if the edit was refused,
or storage does not fail at all, or the edit adds nothing to what is granted and
`config.toml` is either not written or holds the new text already. -/
theorem failed_edit_leaves_no_trace_iff (p : Platform) (env : Env) (s : State) (req : Request) :
    ((dispatch p env s req).2.ok = false → NothingChanged s (dispatch p env s req).1) ↔
      ∀ c, req.edit env s.config = some c →
        req.permitted env = false ∨
        (env.saveError p = none ∧ env.renderError p = none) ∨
        (req.AddsNothing s.config ∧
          (env.saveError p ≠ none ∨ s.configFile = some (p.toml.toStringPretty c))) := by
  have hpol := dispatch_policy p env s req
  rw [nothingChanged_iff_policy]
  cases hedit : req.edit env s.config with
  | none =>
      simp only [hedit] at hpol
      refine ⟨fun _ c hc => absurd hc (by simp), fun _ _ => ?_⟩
      rw [hpol]
      exact nothingChanged_self s
  | some c =>
      simp only [hedit] at hpol
      rw [dispatch_edit_ok hedit, hpol]
      simp only [Option.some.injEq, forall_eq']
      cases hperm : req.permitted env with
      | false => exact ⟨fun _ => .inl rfl, fun _ _ => nothingChanged_self s⟩
      | true =>
          have hsame := edit_grants_same_iff hedit
          cases hsave : env.saveError p with
          | some e =>
              -- only memory was changed
              simp [Policy.publish, hsave, ← hsame]
          | none =>
              cases hrender : env.renderError p with
              | some e =>
                  -- memory and `config.toml` were changed
                  simp [Policy.publish, hsave, hrender, ← hsame, and_assoc, eq_comm]
              | none => simp

/-- The disk is full. -/
def fullDiskEnv : Env := { puzzleEnv with saveConfig := { write := some "No space left on device" } }

/-- An unlock that is answered with an error has been granted all the same. -/
theorem failed_unlock_grants_app :
    ¬ ∀ (p : Platform) (env : Env) (s : State) (req : Request),
      (req.edit env s.config).isSome → (dispatch p env s req).2.ok = false →
        NothingChanged s (dispatch p env s req).1 := by
  intro h
  obtain ⟨hsame, -⟩ := h samplePlatform fullDiskEnv sampleState (.unlock "org.kde.gcompris" none)
    rfl (by decide)
  exact absurd (hsame "org.kde.gcompris") (by decide)

end OmarchyKids
