import Mathlib
import OmarchyKids.Agentd.Grants
import OmarchyKids.Agentd.Lifecycle
import OmarchyKids.Agentd.Views

/-!
# OmarchyKids.Tiers.SetTier

`omarchy-kids-set-tier` beside the daemon, as far as `launcher-apps.json` goes.

A run of the script hands the tier's app list to the daemon. Whenever that does
not succeed it copies the list to `launcher-apps.json` itself, and goes on to
report success. So the file has two writers. What the daemon authorises is its
own record of the tier, though, which a copy does not reach: a list that the
daemon rejected is shown without being authorised, and a list that is copied
while the daemon is away is replaced at its next start.

`tiles_follow_agentd` says when the two writers agree: when a list that is copied
brings nothing new to the daemon's record.
-/

namespace OmarchyKids

namespace Box

def writeTiles (tiles : Option (List LauncherTile)) : Box → Box
  | up s => up { s with launcherApps := tiles }
  | down d => down { d with launcherApps := tiles }

/-- The tier's list as the daemon has it: in memory, or in its file. -/
def base (toml : Toml) : Box → List AppTile
  | up s => s.config.apps.base
  | down d => ((d.configFile.bind toml.fromStr).map fun c => c.apps.base).getD []

end Box

namespace SetTier

open Daemon Handlers

/-! ### The script -/

/-- Where a run of the script stands: it still has to copy its list, or is done
with it. -/
inductive Phase
  | fallback
  | settled
  deriving DecidableEq

structure Run where
  apps : List AppTile
  phase : Phase

structure World where
  box : Box
  /-- The runs in progress that have tried to hand their list over. -/
  runs : List Run := []
  /-- The list of the last run that reported success. -/
  reported : Option (List AppTile) := none

/-- What can happen next. -/
inductive Act
  | life (e : LifeEvent)
  /-- `omarchy-kids-agent set-tier`: whether the request gets to the daemon, and
  the answer back. -/
  | handOver (env : Env) (tier : String) (apps : List AppTile) (reached answered : Bool)
  /-- `cp` of the list by the `i`-th run. If it fails, what it leaves in the file;
  the script exits then. -/
  | copy (i : Nat) (failure : Option (Option (List LauncherTile)))
  /-- The rest of the `i`-th run succeeds, to its last line. -/
  | finish (i : Nat)
  /-- The rest of the `i`-th run fails, or the run is killed. -/
  | abort (i : Nat)

def handOver (p : Platform) (w : World) (env : Env) (tier : String) (apps : List AppTile)
    (reached answered : Bool) : World :=
  match w.box, reached with
  | .up s, true =>
      let (s', response) := dispatch p env s (.setTier tier (some apps))
      { w with
        box := .up s'
        runs := w.runs ++ [⟨apps, if response.ok && answered then .settled else .fallback⟩] }
  | _, _ => { w with runs := w.runs ++ [⟨apps, .fallback⟩] }

def copied (apps : List AppTile) (failure : Option (Option (List LauncherTile))) :
    Option (List LauncherTile) :=
  failure.getD (some (apps.map AppTile.toLauncherTile))

def act (p : Platform) (w : World) : Act → World
  | .life e => { w with box := lifeStep p w.box e }
  | .handOver env tier apps reached answered => handOver p w env tier apps reached answered
  | .copy i failure =>
      match w.runs[i]? with
      | some ⟨apps, .fallback⟩ =>
          { w with
            box := w.box.writeTiles (copied apps failure)
            runs := if failure.isSome then w.runs.eraseIdx i else w.runs.set i ⟨apps, .settled⟩ }
      | _ => w
  | .finish i =>
      match w.runs[i]? with
      | some ⟨apps, .settled⟩ => { w with runs := w.runs.eraseIdx i, reported := some apps }
      | _ => w
  | .abort i => { w with runs := w.runs.eraseIdx i }

/-! ### When the two writers agree -/

def names (apps : List AppTile) : List String := apps.map AppTile.desktopId

/-- The tiles show exactly the apps that may run. -/
def Shows (tiles : Option (List LauncherTile)) (c : Config) : Prop :=
  ∃ shown, tiles = some shown ∧
    ∀ app, app ∈ shown.map LauncherTile.desktopId ↔ c.isAppAllowed app = true

/-- The end of the `i`-th run leaves the list that was last reported within the
daemon's. -/
def KeepsReport (toml : Toml) (w : World) (i : Nat) : Prop :=
  w.runs.eraseIdx i = [] → ∀ apps, w.reported = some apps → names apps ⊆ names (w.box.base toml)

/-- Nothing but the script switches tiers, and storage works where the daemon has
files to write; a list the daemon accepts covers the lists of the other runs that
are done with theirs; and a list that is copied is no news to the daemon. -/
def Careful (p : Platform) (w : World) : Act → Prop
  | .life (.op env event) => ∀ s, w.box = .up s →
      (edits env s event = true → Unhindered p s (env, event)) ∧ tilesOf (env, event) = none
  | .life (.boot _ defaultTier _) => ∀ d, w.box = .down d → d.configFile = none →
      p.toml.RoundTrips (.defaultForTier defaultTier)
  | .life (.stop _) => True
  | .handOver env tier apps reached _ => ∀ s, w.box = .up s → reached = true →
      (Request.setTier tier (some apps)).permitted env = true →
        Unhindered p s (env, .request (.setTier tier (some apps))) ∧
          ∀ r ∈ w.runs, r.phase = .settled → names r.apps ⊆ names apps
  | .copy i failure => ∀ apps, w.runs[i]? = some ⟨apps, .fallback⟩ →
      (∀ s, w.box = .up s → Shows (copied apps failure) s.config) ∧
        if failure.isSome then KeepsReport p.toml w i else names apps ⊆ names (w.box.base p.toml)
  | .finish _ => True
  | .abort i => KeepsReport p.toml w i

theorem shows_effectiveLauncherTiles (c : Config) : Shows (some c.effectiveLauncherTiles) c :=
  ⟨_, rfl, fun _ => Config.mem_effectiveLauncherTiles⟩

@[simp] theorem base_writeTiles (toml : Toml) (tiles : Option (List LauncherTile)) (b : Box) :
    (b.writeTiles tiles).base toml = b.base toml := by
  cases b <;> rfl

/-! ### The daemon's side -/

/-- The two files of a running daemon hold its config and show what it authorises. -/
def Agrees (p : Platform) (s : State) : Prop :=
  s.configFile.bind p.toml.fromStr = some s.config ∧ Shows s.launcherApps s.config

theorem step_agrees {p : Platform} {s : State} {env : Env} {event : Event} (h : Agrees p s)
    (he : edits env s event = true → Unhindered p s (env, event)) :
    Agrees p (step p s (env, event)) := by
  have hpolicy : (step p s (env, event)).policy = s.policy ∨
      p.toml.RoundTrips (step p s (env, event)).config ∧ ∃ c, (step p s (env, event)).policy =
        ⟨c, some (p.toml.toStringPretty c), some c.effectiveLauncherTiles⟩ := by
    cases hedits : edits env s event with
    | false => exact .inl (step_policy_of_not_edits hedits)
    | true =>
        obtain ⟨hsave, hrender, hrt⟩ := he hedits
        exact (step_policy s event hsave hrender).imp id (And.intro hrt)
  rcases hpolicy with hsame | ⟨hrt, c, hc⟩
  · have hconfig : (step p s (env, event)).config = s.config := congrArg Policy.config hsame
    have hfile : (step p s (env, event)).configFile = s.configFile :=
      congrArg Policy.configFile hsame
    have htiles : (step p s (env, event)).launcherApps = s.launcherApps :=
      congrArg Policy.launcherApps hsame
    rw [Agrees, hconfig, hfile, htiles]
    exact h
  · have hconfig : (step p s (env, event)).config = c := congrArg Policy.config hc
    have hfile : (step p s (env, event)).configFile = some (p.toml.toStringPretty c) :=
      congrArg Policy.configFile hc
    have htiles : (step p s (env, event)).launcherApps = some c.effectiveLauncherTiles :=
      congrArg Policy.launcherApps hc
    rw [hconfig] at hrt
    rw [Agrees, hconfig, hfile, htiles]
    exact ⟨hrt, shows_effectiveLauncherTiles c⟩

theorem start_agrees {p : Platform} {d : Disk} {env : Env} {defaultTier : String} {opens : Bool}
    {s : State} (hstart : d.start p env defaultTier opens = some s)
    (hrt : d.configFile = none → p.toml.RoundTrips (.defaultForTier defaultTier)) :
    Agrees p s ∧ s.config.apps.base = (Box.down d).base p.toml := by
  obtain ⟨config, file, log, hload, -, -, rfl⟩ := start_eq_some.mp hstart
  cases hfile : d.configFile with
  | some raw =>
      rw [hfile] at hload
      obtain ⟨hparse, rfl⟩ := Config.loadOrInit_some.mp hload
      refine ⟨⟨hparse, shows_effectiveLauncherTiles config⟩, ?_⟩
      rw [Box.base, hfile, Option.bind_some, hparse]
      rfl
  | none =>
      rw [hfile] at hload
      obtain ⟨-, rfl, rfl⟩ := Config.loadOrInit_none.mp hload
      refine ⟨⟨hrt hfile, shows_effectiveLauncherTiles _⟩, ?_⟩
      rw [Box.base, hfile]
      rfl

theorem base_afterFailedStart {p : Platform} {d : Disk} {env : Env} {defaultTier : String}
    (hrt : d.configFile = none → p.toml.RoundTrips (.defaultForTier defaultTier)) :
    (Box.down (d.afterFailedStart p env defaultTier)).base p.toml = (Box.down d).base p.toml := by
  rcases Disk.afterFailedStart_configFile p d env defaultTier with hsame | ⟨hnone, hdefault⟩
  · rw [Box.base, Box.base, hsame]
  · have hparse : p.toml.fromStr (p.toml.toStringPretty (.defaultForTier defaultTier)) =
        some (.defaultForTier defaultTier) := hrt hnone
    rw [Box.base, Box.base, hdefault, hnone, Option.bind_some, hparse]
    rfl

/-- Neither the daemon's work nor its restarts change the tier's list. -/
theorem lifeStep_agrees {p : Platform} {w : World} {e : LifeEvent}
    (h : ∀ s, w.box = .up s → Agrees p s) (he : Careful p w (.life e)) :
    (lifeStep p w.box e).base p.toml = w.box.base p.toml ∧
      ∀ s, lifeStep p w.box e = .up s → Agrees p s := by
  cases hbox : w.box with
  | up s =>
      have hs := h s hbox
      cases e with
      | op env event =>
          obtain ⟨hstep, htiles⟩ := he s hbox
          refine ⟨?_, fun s' hs' => ?_⟩
          · have hbase := step_base p s (env, event)
            rw [htiles] at hbase
            exact hbase
          · obtain rfl := Box.up.inj hs'
            exact step_agrees hs hstep
      | stop now =>
          refine ⟨?_, fun s' hs' => by cases hs'⟩
          have hdisk : (Box.down s.disk).base p.toml =
              ((s.configFile.bind p.toml.fromStr).map fun c => c.apps.base).getD [] := rfl
          rw [lifeStep, hdisk, hs.1]
          rfl
      | boot env defaultTier opens =>
          refine ⟨rfl, fun s' hs' => ?_⟩
          obtain rfl := Box.up.inj hs'
          exact hs
  | down d =>
      cases e with
      | op env event => exact ⟨rfl, fun s' hs' => by cases hs'⟩
      | stop now => exact ⟨rfl, fun s' hs' => by cases hs'⟩
      | boot env defaultTier opens =>
          have hrt := he d hbox
          rw [lifeStep]
          cases hstart : d.start p env defaultTier opens with
          | none => exact ⟨base_afterFailedStart hrt, fun s' hs' => by cases hs'⟩
          | some s =>
              obtain ⟨hagrees, hbase⟩ := start_agrees hstart hrt
              refine ⟨hbase, fun s' hs' => ?_⟩
              obtain rfl := Box.up.inj hs'
              exact hagrees

/-! ### All of it -/

/-- The daemon and its files agree, and its list covers the runs that are done with
theirs or, when no run is in progress, the last one that reported success. -/
structure Consistent (p : Platform) (w : World) : Prop where
  agrees : ∀ s, w.box = .up s → Agrees p s
  settled : ∀ r ∈ w.runs, r.phase = .settled → names r.apps ⊆ names (w.box.base p.toml)
  reported : w.runs = [] → ∀ apps, w.reported = some apps →
    names apps ⊆ names (w.box.base p.toml)

theorem consistent_life {p : Platform} {w : World} {e : LifeEvent} (h : Consistent p w)
    (he : Careful p w (.life e)) : Consistent p (act p w (.life e)) := by
  obtain ⟨hbase, hagrees⟩ := lifeStep_agrees h.agrees he
  refine ⟨hagrees, fun r hr hphase => ?_, fun hruns apps happs => ?_⟩
  · rw [act, hbase]
    exact h.settled r hr hphase
  · rw [act, hbase]
    exact h.reported hruns apps happs

theorem consistent_handOver {p : Platform} {w : World} {env : Env} {tier : String}
    {apps : List AppTile} {reached answered : Bool} (h : Consistent p w)
    (he : Careful p w (.handOver env tier apps reached answered)) :
    Consistent p (handOver p w env tier apps reached answered) := by
  -- a hand-over that does not get through changes nothing
  have hlost : Consistent p { w with runs := w.runs ++ [⟨apps, .fallback⟩] } := by
    refine ⟨h.agrees, fun r hr hphase => ?_, fun hruns => ?_⟩
    · rcases List.mem_append.mp hr with hr | hr
      · exact h.settled r hr hphase
      · rw [List.mem_singleton.mp hr] at hphase
        cases hphase
    · exact absurd hruns (by simp)
  obtain ⟨box, runs, last⟩ := w
  match box, reached with
  | .down d, _ => exact hlost
  | .up s, false => exact hlost
  | .up s, true =>
      have hallowed := he s rfl rfl
      have hbase := step_base p s (env, .request (.setTier tier (some apps)))
      have hok := dispatch_edit_ok (p := p) (s := s)
        (show (Request.setTier tier (some apps)).edit env s.config = some _ from rfl)
      have hruns : (handOver p ⟨.up s, runs, last⟩ env tier apps true answered).runs =
          runs ++ [⟨apps, if (dispatch p env s (.setTier tier (some apps))).2.ok && answered then
            .settled else .fallback⟩] := rfl
      refine ⟨fun s' hs' => ?_, fun r hr hphase => ?_, fun hnil => ?_⟩
      · obtain rfl := Box.up.inj hs'
        have hedits : edits env s (.request (.setTier tier (some apps))) =
            (Request.setTier tier (some apps)).permitted env := Bool.true_and _
        exact step_agrees (h.agrees s rfl) fun h => (hallowed (hedits ▸ h)).1
      · rw [hruns] at hr
        change names r.apps ⊆
          names (step p s (env, .request (.setTier tier (some apps)))).config.apps.base
        rw [hbase, tilesOf]
        dsimp only
        cases hpermitted : (Request.setTier tier (some apps)).permitted env with
        | true =>
            rcases List.mem_append.mp hr with hr | hr
            · exact (hallowed hpermitted).2 r hr hphase
            · rw [List.mem_singleton.mp hr]
              exact List.Subset.refl _
        | false =>
            rcases List.mem_append.mp hr with hr | hr
            · exact h.settled r hr hphase
            · -- a rejected run is not done
              rw [List.mem_singleton.mp hr] at hphase
              rw [hpermitted] at hok
              simp [hok] at hphase
      · rw [hruns] at hnil
        exact absurd hnil (by simp)

theorem consistent_writeTiles {p : Platform} {w : World} {tiles : Option (List LauncherTile)}
    (h : Consistent p w) (htiles : ∀ s, w.box = .up s → Shows tiles s.config) :
    ∀ s, w.box.writeTiles tiles = .up s → Agrees p s := by
  intro s hs
  cases hbox : w.box with
  | up s' =>
      rw [hbox] at hs
      obtain rfl := Box.up.inj hs
      exact ⟨(h.agrees s' hbox).1, htiles s' hbox⟩
  | down d =>
      rw [hbox] at hs
      cases hs

theorem settled_eraseIdx {p : Platform} {w : World} (h : Consistent p w) (i : Nat) :
    ∀ r ∈ w.runs.eraseIdx i, r.phase = .settled → names r.apps ⊆ names (w.box.base p.toml) :=
  fun r hr => h.settled r (List.mem_of_mem_eraseIdx hr)

theorem consistent_copy {p : Platform} {w : World} {i : Nat}
    {failure : Option (Option (List LauncherTile))} (h : Consistent p w)
    (he : Careful p w (.copy i failure)) : Consistent p (act p w (.copy i failure)) := by
  rw [act]
  split
  · rename_i apps hrun
    obtain ⟨hshows, hlist⟩ := he apps hrun
    cases failure with
    | some left =>
        refine ⟨consistent_writeTiles h hshows, ?_, ?_⟩
        · rw [base_writeTiles]
          exact settled_eraseIdx h i
        · rw [base_writeTiles]
          exact hlist
    | none =>
        refine ⟨consistent_writeTiles h hshows, fun r hr hphase => ?_, fun hruns => ?_⟩
        · rw [base_writeTiles]
          rcases List.mem_or_eq_of_mem_set hr with hr | rfl
          · exact h.settled r hr hphase
          · exact hlist
        · have hsome : w.runs ≠ [] := by
            rintro hnil
            rw [hnil] at hrun
            cases hrun
          exact absurd (by simpa using hruns) hsome
  · exact h

theorem act_consistent {p : Platform} {w : World} {a : Act} (h : Consistent p w)
    (ha : Careful p w a) : Consistent p (act p w a) := by
  cases a with
  | life e => exact consistent_life h ha
  | handOver env tier apps reached answered => exact consistent_handOver h ha
  | copy i failure => exact consistent_copy h ha
  | finish i =>
      rw [act]
      split
      · rename_i apps hrun
        refine ⟨h.agrees, settled_eraseIdx h i, fun _ apps' happs' => ?_⟩
        obtain rfl := Option.some.inj happs'
        exact h.settled _ (List.mem_of_getElem? hrun) rfl
      · exact h
  | abort i => exact ⟨h.agrees, settled_eraseIdx h i, ha⟩

/-- On a box whose daemon starts without any switch in progress, and in a run all
of whose steps are careful: whenever the daemon runs and no switch is in progress,
the tiles show exactly the apps it authorises, the ones of the last switch that
reported success among them. -/
theorem tiles_follow_agentd {p : Platform} {d : Disk} {acts : List Act}
    (hacts : Runs.Along (act p) (Careful p) ⟨.down d, [], none⟩ acts) :
    let w := Runs.run (act p) ⟨.down d, [], none⟩ acts
    ∀ s, w.box = .up s → w.runs = [] →
      (∃ shown, s.launcherApps = some shown ∧
        ∀ app, app ∈ shown.map LauncherTile.desktopId ↔ s.config.isAppAllowed app = true) ∧
      ∀ apps, w.reported = some apps → ∀ tile ∈ apps, s.config.isAppAllowed tile.desktopId = true := by
  intro w s hbox hruns
  have hstart : Consistent p ⟨.down d, [], none⟩ := by
    refine ⟨fun s hs => ?_, fun r hr => ?_, fun _ apps happs => ?_⟩
    · cases hs
    · cases hr
    · cases happs
  have hend : Consistent p w :=
    Runs.run_invariant_along hstart (fun _ _ ha h => act_consistent h ha) hacts
  refine ⟨(hend.agrees s hbox).2, fun apps happs tile htile => ?_⟩
  have hbase := hend.reported hruns apps happs (List.mem_map_of_mem htile)
  rw [hbox] at hbase
  exact Config.isAppAllowed_iff.mpr (.inl hbase)

/-! ### The mini tier's list -/

/-- The list in `tiers/mini/launcher/apps.json`. -/
def miniApps : List AppTile :=
  [⟨"org.kde.gcompris", "GCompris", "gcompris-qt", "#5B8DEF"⟩,
    ⟨"org.kde.ktuberling", "KTuberling", "ktuberling", "#D97706"⟩]

/-- A box with some desktop files. -/
def installed (ids : List String) : Env :=
  { sampleEnv with
    fs := ⟨fun path => (ids.map fun id => "/usr/share/applications/" ++ id ++ ".desktop").contains path,
      fun _ => none⟩ }

/-- One of the two apps is missing, so the daemon rejects the list. -/
def rejectedSwitch : List Act :=
  [.life (.boot sampleEnv "mini" true),
    .handOver (installed ["org.kde.gcompris"]) "mini" miniApps true true, .copy 0 none, .finish 0]

/-- The rejected list is shown all the same. -/
theorem rejected_list_is_shown :
    ¬ ∀ (p : Platform) (d : Disk) (acts : List Act) (s : State),
      let w := Runs.run (act p) ⟨.down d, [], none⟩ acts
      w.box = .up s → w.runs = [] →
      (∃ shown, s.launcherApps = some shown ∧
        ∀ app, app ∈ shown.map LauncherTile.desktopId ↔ s.config.isAppAllowed app = true) ∧
      ∀ apps, w.reported = some apps → ∀ tile ∈ apps, s.config.isAppAllowed tile.desktopId = true := by
  intro h
  obtain ⟨-, hreported⟩ := h tablePlatform {} rejectedSwitch
    { startedState with launcherApps := some (miniApps.map AppTile.toLauncherTile) } rfl rfl
  exact absurd (hreported miniApps rfl ⟨"org.kde.gcompris", "GCompris", "gcompris-qt", "#5B8DEF"⟩
    (by simp [miniApps])) (by decide)

/-! ### A list handed over twice -/

/-- The policy with the mini tier's list, and its text. -/
def miniConfig : Config := (Config.defaultForTier "mini").switchTier "mini" (some miniApps)

def miniText : String :=
  "[tier]\ncurrent = \"mini\"\n\n[time_budget.daily_total_minutes]\n" ++
    "\n[time_budget.per_app_minutes]\n\n[time_windows]\n\n[apps]\nunlocked = []\n" ++
    "\n[[apps.base]]\ndesktop_id = \"org.kde.gcompris\"\nlabel = \"GCompris\"\n" ++
    "icon = \"gcompris-qt\"\nswatch = \"#5B8DEF\"\n" ++
    "\n[[apps.base]]\ndesktop_id = \"org.kde.ktuberling\"\nlabel = \"KTuberling\"\n" ++
    "icon = \"ktuberling\"\nswatch = \"#D97706\"\n\n[pre_warning.lead_minutes]\nmini = 1\n"

/-- TOML on the two configs of the run below. -/
def miniPlatform : Platform :=
  { samplePlatform with
    toml :=
      { toStringPretty := fun c => if c = miniConfig then miniText else emptyText
        fromStr := fun text =>
          if text = miniText then some miniConfig
          else if text = emptyText then some (.defaultForTier "mini")
          else none } }

/-- The daemon after it has taken the list over. -/
def miniState : State where
  config := miniConfig
  configFile := some miniText
  launcherApps := some (miniApps.map AppTile.toLauncherTile)

/-- On a fresh box the daemon accepts the list. The same list is copied while the
daemon is stopped, and shown when it is back. -/
def repeatedSwitch : List Act :=
  [.life (.boot sampleEnv "mini" true),
    .handOver (installed ["org.kde.gcompris", "org.kde.ktuberling"]) "mini" miniApps true true,
    .finish 0, .life (.stop sampleEnv.nowUtc), .handOver sampleEnv "mini" miniApps true true,
    .copy 0 none, .finish 0, .life (.boot sampleEnv "mini" true)]

theorem repeatedSwitch_careful : Runs.Along (act miniPlatform) (Careful miniPlatform)
    ⟨.down {}, [], none⟩ repeatedSwitch := by
  refine ⟨?_, ?_, trivial, trivial, ?_, ?_, trivial, ?_, trivial⟩
  · intro d _ _
    decide +kernel
  · change Careful miniPlatform ⟨.up startedState, [], none⟩ (.handOver _ _ _ _ _)
    intro s hs _
    obtain rfl := Box.up.inj hs
    refine fun _ => ⟨by decide +kernel, fun r hr => ?_⟩
    cases hr
  · change Careful miniPlatform ⟨.down miniState.disk, [], some miniApps⟩ (.handOver _ _ _ _ _)
    intro s hs
    cases hs
  · change Careful miniPlatform ⟨.down miniState.disk, [⟨miniApps, .fallback⟩], some miniApps⟩
      (.copy 0 none)
    intro apps happs
    obtain ⟨rfl, -⟩ := Run.mk.inj (Option.some.inj happs)
    refine ⟨fun s hs => ?_, ?_⟩
    · cases hs
    · have hbase : (Box.down miniState.disk).base miniPlatform.toml = miniApps := by decide +kernel
      change names miniApps ⊆ names ((Box.down miniState.disk).base miniPlatform.toml)
      rw [hbase]
      exact List.Subset.refl _
  · change Careful miniPlatform ⟨.down miniState.disk, [], some miniApps⟩ (.life (.boot _ _ _))
    intro d hd hnone
    obtain rfl := Box.down.inj hd
    cases hnone

theorem repeatedSwitch_run : Runs.run (act miniPlatform) ⟨.down {}, [], none⟩ repeatedSwitch =
    ⟨.up miniState, [], some miniApps⟩ := by
  have hstart : miniState.disk.start miniPlatform sampleEnv "mini" true = some miniState := by
    refine start_eq_some.mpr ⟨miniConfig, some miniText, {}, ?_, rfl, rfl, rfl⟩
    exact Config.loadOrInit_some.mpr ⟨by decide +kernel, rfl⟩
  change act miniPlatform ⟨.down miniState.disk, [], some miniApps⟩ (.life (.boot _ _ _)) = _
  rw [act, lifeStep, hstart]

theorem tiles_follow_agentd_mini :
    (∃ shown, miniState.launcherApps = some shown ∧
      ∀ app, app ∈ shown.map LauncherTile.desktopId ↔ miniConfig.isAppAllowed app = true) ∧
      ∀ tile ∈ miniApps, miniConfig.isAppAllowed tile.desktopId = true := by
  have hfollow := tiles_follow_agentd repeatedSwitch_careful
  rw [repeatedSwitch_run] at hfollow
  obtain ⟨hshown, hreported⟩ := hfollow miniState rfl rfl
  exact ⟨hshown, hreported miniApps rfl⟩

end SetTier

end OmarchyKids
