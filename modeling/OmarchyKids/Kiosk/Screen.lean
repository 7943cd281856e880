import OmarchyKids.Kiosk.Launches
import OmarchyKids.Tiers.Launcher

/-!
# OmarchyKids.Kiosk.Screen

From a tap on a tile to the app's process: the launcher, the file between it and the
daemon, and the wrappers.

The daemon writes `launcher-apps.json`, and the launcher's `FileView` reads it once, when the
shell starts. A change of the file makes the launcher take up the text again that the view
holds, which is the old one: nothing asks the view to read anew. So the launcher may be
behind; what it shows is still what the daemon once wrote (`told_run`), and whatever is
started from it the daemon is asked about first. An app that starts has been on the daemon's
list, has been on the screen, and is allowed in the state the daemon is in by then
(`started_from_screen`).
-/

namespace OmarchyKids

open Handlers Daemon Kiosk

/-- How far a `FileView` is with its file. -/
inductive Load
  | pending
  /-- The text has been read, and nobody told so far. -/
  | read (raw : String)
  | done

structure FileView where
  load : Load := .pending
  /-- `text()`: empty until the file has been loaded. -/
  text : String := ""

structure Screen where
  kiosk : Kiosk
  launcher : Launcher := {}
  view : FileView := {}

/-- What can happen next. -/
inductive Act
  | daemon (env : Env) (e : Daemon.Event)
  | turn (i : Nat) (t : Wrapper.Turn) (env : Env) (fate : Fate)
  /-- The shell starts, and with it a launcher. -/
  | startShell
  /-- The view reads the file. -/
  | readFile
  /-- `onLoaded`. -/
  | fileLoaded
  /-- `onFileChanged`. -/
  | fileChanged
  /-- The child, the shell or a timer. -/
  | user (e : Launcher.Event)

/-- The view after an act, with this text in the file. -/
def FileView.step (view : FileView) (content : Option String) : Act → FileView
  | .startShell => {}
  | .readFile =>
      match view.load with
      | .pending => { view with load := content.elim .done .read }
      | _ => view
  | .fileLoaded =>
      match view.load with
      | .read raw => ⟨.done, raw⟩
      | _ => view
  | _ => view

namespace Screen

/-- The apps whose wrapper these effects start. -/
def started (effects : List Launcher.Effect) : List String :=
  effects.filterMap fun
    | .execDetached ["uwsm-app", "--", "omarchy-kids-run", desktopId] => some desktopId
    | _ => none

/-- What comes to the launcher: `loadTiles` with a text of the view, and what the user does. -/
def event (s : Screen) : Act → Option Launcher.Event
  | .fileLoaded =>
      match s.view.load with
      | .read raw => (Launcher.loadTiles raw).map .loaded
      | _ => none
  | .fileChanged => (Launcher.loadTiles s.view.text).map .loaded
  | .user (.loaded _) => none
  | .user e => some e
  | _ => none

/-- The kiosk's moves in an act. -/
def moves (s : Screen) (a : Act) : List Move :=
  match a with
  | .daemon env e => [.daemon env e]
  | .turn i t env fate => [.turn i t env fate]
  | a => (s.event a).toList.flatMap fun e => (started (s.launcher.react e).2).map .launch

/-- A new shell has a new launcher. -/
def nextLauncher (s : Screen) : Act → Launcher
  | .startShell => {}
  | a => Runs.run Launcher.step s.launcher (s.event a).toList

/-- Nothing runs yet, and the shell is starting. -/
def boot (s₀ : State) : Screen := { kiosk := ⟨s₀, []⟩ }

section

variable (print : List LauncherTile → String) (p : Platform)

def step (s : Screen) (a : Act) : Screen where
  kiosk := Kiosk.run p s.kiosk (s.moves a)
  launcher := s.nextLauncher a
  view := s.view.step (s.kiosk.daemon.launcherApps.map print) a

def run (s : Screen) (acts : List Act) : Screen := Runs.run (step print p) s acts

theorem run_concat (s : Screen) (acts : List Act) (a : Act) :
    run print p s (acts ++ [a]) = step print p (run print p s acts) a :=
  Runs.run_concat _ _ _

/-- The kiosk's moves in these acts. -/
def allMoves (s : Screen) (acts : List Act) : List Move :=
  Runs.written (step print p) moves s acts

theorem allMoves_concat (s : Screen) (acts : List Act) (a : Act) :
    allMoves print p s (acts ++ [a]) = allMoves print p s acts ++ (run print p s acts).moves a :=
  Runs.written_concat _ _ _

/-- The kiosk runs on them. -/
theorem kiosk_run (s : Screen) (acts : List Act) :
    (run print p s acts).kiosk = Kiosk.run p s.kiosk (allMoves print p s acts) := by
  induction acts using List.reverseRecOn with
  | nil => rfl
  | append_singleton acts a ih =>
      rw [run_concat, step, ih, allMoves_concat, Kiosk.run, Kiosk.run, Kiosk.run, Runs.run_append]

/-- These tiles were in the file after some of these acts. -/
def WasWritten (s : Screen) (acts : List Act) (tiles : List LauncherTile) : Prop :=
  ∃ before, before <+: acts ∧ (run print p s before).kiosk.daemon.launcherApps = some tiles

/-- The app was on the daemon's list, in the file, after some of these acts. -/
def WasListed (s : Screen) (acts : List Act) (desktopId : String) : Prop :=
  ∃ before tiles, before <+: acts ∧
    (run print p s before).kiosk.daemon.launcherApps = some tiles ∧
    desktopId ∈ tiles.map LauncherTile.desktopId

variable {print p}

theorem WasWritten.mono {s : Screen} {acts : List Act} {tiles : List LauncherTile}
    (h : WasWritten print p s acts tiles) (more : List Act) :
    WasWritten print p s (acts ++ more) tiles := by
  obtain ⟨before, hbefore, hfile⟩ := h
  exact ⟨before, hbefore.trans (List.prefix_append _ _), hfile⟩

theorem WasWritten.listed {s : Screen} {acts : List Act} {tiles : List LauncherTile}
    (h : WasWritten print p s acts tiles) {tile : LauncherTile} (htile : tile ∈ tiles) :
    WasListed print p s acts tile.desktopId := by
  obtain ⟨before, hbefore, hfile⟩ := h
  exact ⟨before, tiles, hbefore, hfile, List.mem_map_of_mem htile⟩

theorem WasListed.mono {s : Screen} {acts : List Act} {desktopId : String}
    (h : WasListed print p s acts desktopId) (more : List Act) :
    WasListed print p s (acts ++ more) desktopId := by
  obtain ⟨before, tiles, hbefore, hfile, hmem⟩ := h
  exact ⟨before, tiles, hbefore.trans (List.prefix_append _ _), hfile, hmem⟩

end

end Screen

namespace Launcher

theorem mem_tileModel_of_row {l : Launcher} {index : Int} {tile : LauncherTile}
    (h : l.row index = some tile) : tile ∈ l.tileModel := by
  unfold row at h
  split at h
  · cases h
  · exact List.mem_of_getElem? h

theorem started_launchIndex {l : Launcher} {index : Int} {desktopId : String}
    (h : desktopId ∈ Screen.started (l.launchIndex index).2) :
    desktopId ≠ powerOffId ∧ ∃ tile ∈ l.tileModel, tile.desktopId = desktopId := by
  unfold launchIndex at h
  cases hrow : l.row index with
  | none => simp [hrow, Screen.started] at h
  | some tile =>
      rw [hrow] at h
      dsimp only at h
      split at h
      · simp [Screen.started] at h
      next hid =>
        obtain rfl : desktopId = tile.desktopId := by simpa [dismiss, Screen.started] using h
        exact ⟨hid, tile, mem_tileModel_of_row hrow, rfl⟩

/-- A wrapper is started for a tile on the screen. -/
theorem mem_tileModel_of_started {l : Launcher} {e : Event} {desktopId : String}
    (h : desktopId ∈ Screen.started (l.react e).2) :
    desktopId ≠ powerOffId ∧ ∃ tile ∈ l.tileModel, tile.desktopId = desktopId := by
  cases e with
  | «open» | close | loaded | warningHideTimer | preWarn => simp [react, Screen.started] at h
  | toggle | hoverTile | hoverConfirm =>
      rw [react] at h
      split at h <;> simp [dismiss, Screen.started] at h
  | clickTile i =>
      rw [react] at h
      split at h
      · exact started_launchIndex h
      · simp [Screen.started] at h
  | clickConfirm i =>
      rw [react] at h
      split at h
      · split at h
        · simp [Screen.started] at h
        · split at h <;> simp [confirmPowerOff, dismiss, Screen.started] at h
      · simp [Screen.started] at h
  | key k =>
      rw [react] at h
      split at h
      · cases k with
        | enter =>
            rw [confirmKey] at h
            split at h <;> simp [confirmPowerOff, dismiss, Screen.started] at h
        | _ => simp [confirmKey, Screen.started] at h
      · split at h
        · cases k with
          | enter => exact started_launchIndex h
          | _ => simp [gridKey, dismiss, Screen.started] at h
        · simp [Screen.started] at h

end Launcher

namespace Screen

/-! ### What the launcher knows -/

section

variable (print : List LauncherTile → String) (p : Platform)

/-- The view's texts are those of lists that were written, or there is none yet; and every
tile on the screen but the last has been on the list. -/
structure Told (s₀ : Screen) (acts : List Act) (s : Screen) : Prop where
  text : s.view.text = "" ∨ ∃ tiles, WasWritten print p s₀ acts tiles ∧ s.view.text = print tiles
  read : ∀ raw, s.view.load = .read raw →
    ∃ tiles, WasWritten print p s₀ acts tiles ∧ raw = print tiles
  shown : ∀ tile ∈ s.launcher.tileModel,
    tile = Launcher.powerOffTile ∨ WasListed print p s₀ acts tile.desktopId

variable {print p}

theorem Told.mono {s₀ s : Screen} {acts : List Act} (h : Told print p s₀ acts s) (a : Act) :
    Told print p s₀ (acts ++ [a]) s where
  text := h.text.imp_right fun ⟨tiles, hwritten, htext⟩ => ⟨tiles, hwritten.mono [a], htext⟩
  read raw hraw := by
    obtain ⟨tiles, hwritten, htext⟩ := h.read raw hraw
    exact ⟨tiles, hwritten.mono [a], htext⟩
  shown tile htile := (h.shown tile htile).imp_right fun h => h.mono [a]

/-- What comes from the view are tiles that have been on the list. -/
theorem Told.loaded (hprint : PrintsTiles print) {s₀ s : Screen} {acts : List Act}
    (h : Told print p s₀ acts s) {a : Act} {rows : List LauncherTile}
    (hevent : s.event a = some (.loaded rows)) :
    ∀ tile ∈ rows, tile = Launcher.powerOffTile ∨ WasListed print p s₀ acts tile.desktopId := by
  have hwritten : ∀ tiles, WasWritten print p s₀ acts tiles →
      (Launcher.loadTiles (print tiles)).map Launcher.Event.loaded = some (.loaded rows) →
      ∀ tile ∈ rows, tile = Launcher.powerOffTile ∨ WasListed print p s₀ acts tile.desktopId := by
    intro tiles hwritten hrows tile htile
    rw [Launcher.loadTiles_print hprint, Option.map_some] at hrows
    obtain rfl := Launcher.Event.loaded.inj (Option.some.inj hrows)
    rcases List.mem_append.mp htile with htile | htile
    · exact .inr (hwritten.listed htile)
    · exact .inl (List.mem_singleton.mp htile)
  cases a with
  | fileLoaded =>
      rw [event] at hevent
      cases hload : s.view.load with
      | read raw =>
          rw [hload] at hevent
          obtain ⟨tiles, htiles, rfl⟩ := h.read raw hload
          exact hwritten tiles htiles hevent
      | pending | done =>
          rw [hload] at hevent
          cases hevent
  | fileChanged =>
      rw [event] at hevent
      rcases h.text with htext | ⟨tiles, htiles, htext⟩
      · have hempty : Launcher.loadTiles "" = some [Launcher.powerOffTile] := by decide +kernel
        rw [htext, hempty, Option.map_some] at hevent
        obtain rfl := Launcher.Event.loaded.inj (Option.some.inj hevent)
        exact fun tile htile => .inl (List.mem_singleton.mp htile)
      · rw [htext] at hevent
        exact hwritten tiles htiles hevent
  | user e => cases e <;> cases hevent
  | daemon | turn | startShell | readFile => cases hevent

/-- A shell that is starting knows nothing. -/
theorem told_start {s₀ s : Screen} (acts : List Act) (hview : s.view = {})
    (hlauncher : s.launcher = {}) : Told print p s₀ acts s where
  text := .inl (by rw [hview])
  read raw hraw := by
    rw [hview] at hraw
    cases hraw
  shown tile htile := by
    rw [hlauncher] at htile
    cases htile

theorem told_run (hprint : PrintsTiles print) (s₀ : State) (acts : List Act) :
    Told print p (boot s₀) acts (run print p (boot s₀) acts) := by
  induction acts using List.reverseRecOn with
  | nil => exact told_start [] rfl rfl
  | append_singleton acts a ih =>
      have hold := ih.mono a
      have hlauncher : ∀ tile ∈ (Runs.run Launcher.step (run print p (boot s₀) acts).launcher
          ((run print p (boot s₀) acts).event a).toList).tileModel,
          tile = Launcher.powerOffTile ∨
            WasListed print p (boot s₀) (acts ++ [a]) tile.desktopId := by
        intro tile htile
        cases hevent : (run print p (boot s₀) acts).event a with
        | none =>
            rw [hevent] at htile
            exact hold.shown tile htile
        | some e =>
            rw [hevent, Option.toList_some, Runs.run_cons, Runs.run_nil,
              Launcher.tileModel_step] at htile
            cases hshown : Launcher.shows e with
            | none =>
                rw [hshown] at htile
                exact hold.shown tile htile
            | some rows =>
                rw [hshown, Option.getD_some] at htile
                cases e with
                | loaded rows' =>
                    obtain rfl := Option.some.inj hshown
                    exact hold.loaded hprint hevent tile htile
                | _ => cases hshown
      rw [run_concat]
      cases a with
      | startShell => exact told_start _ rfl rfl
      | readFile =>
          refine ⟨?_, ?_, hlauncher⟩
          · have htext : (step print p (run print p (boot s₀) acts) .readFile).view.text =
                (run print p (boot s₀) acts).view.text := by
              rw [step, FileView.step]
              dsimp only
              split <;> rfl
            rw [htext]
            exact hold.text
          · intro raw hraw
            rw [step, FileView.step] at hraw
            dsimp only at hraw
            split at hraw
            · cases hfile : (run print p (boot s₀) acts).kiosk.daemon.launcherApps with
              | none =>
                  rw [hfile] at hraw
                  cases hraw
              | some tiles =>
                  rw [hfile] at hraw
                  obtain rfl := Load.read.inj hraw
                  exact ⟨tiles, ⟨acts, List.prefix_append _ _, hfile⟩, rfl⟩
            · exact hold.read raw hraw
      | fileLoaded =>
          refine ⟨?_, ?_, hlauncher⟩
          · rw [step, FileView.step]
            dsimp only
            split
            next raw hload => exact .inr (hold.read raw hload)
            next => exact hold.text
          · intro raw hraw
            rw [step, FileView.step] at hraw
            dsimp only at hraw
            split at hraw
            · cases hraw
            · exact hold.read raw hraw
      | daemon | turn | fileChanged | user => exact ⟨hold.text, hold.read, hlauncher⟩

end

/-- The app whose wrapper a move starts. -/
def launched : Move → Option String
  | .launch desktopId => some desktopId
  | _ => none

theorem desktopIds_run (p : Platform) (k : Kiosk) (ms : List Move) :
    (Kiosk.run p k ms).processes.map Process.desktopId =
      k.processes.map Process.desktopId ++ ms.filterMap launched := by
  induction ms using List.reverseRecOn with
  | nil => simp [Kiosk.run]
  | append_singleton ms m ih =>
      rw [Kiosk.run_concat, List.filterMap_append, ← List.append_assoc, ← ih, Kiosk.step]
      cases m with
      | daemon env e => simp [Kiosk.proceed, launched]
      | launch desktopId => simp [Kiosk.proceed, launched]
      | turn i t env fate =>
          rw [show [Move.turn i t env fate].filterMap launched = [] from rfl, List.append_nil]
          -- a turn changes the state of a process only
          refine List.ext_getElem? fun j => ?_
          rw [List.getElem?_map, List.getElem?_map, Kiosk.proceed, List.getElem?_modify]
          by_cases hj : i = j <;> simp [hj, Function.comp_def]

/-- A wrapper that an act starts is one of a tile. -/
theorem mem_tileModel_of_launched {s : Screen} {a : Act} {desktopId : String}
    (h : desktopId ∈ (s.moves a).filterMap launched) :
    desktopId ≠ Launcher.powerOffId ∧
      ∃ tile ∈ s.launcher.tileModel, tile.desktopId = desktopId := by
  have hlaunch : ∀ es : List Launcher.Event,
      desktopId ∈ ((es.flatMap fun e => (started (s.launcher.react e).2).map .launch).filterMap
        launched) → ∃ e, desktopId ∈ started (s.launcher.react e).2 := by
    intro es hmem
    obtain ⟨m, hm, hdesktop⟩ := List.mem_filterMap.mp hmem
    obtain ⟨e, -, hm⟩ := List.mem_flatMap.mp hm
    obtain ⟨desktopId', hstarted, rfl⟩ := List.mem_map.mp hm
    obtain rfl : desktopId' = desktopId := Option.some.inj hdesktop
    exact ⟨e, hstarted⟩
  cases a with
  | daemon env e => simp [moves, launched] at h
  | turn i t env fate => simp [moves, launched] at h
  | startShell | readFile | fileLoaded | fileChanged | user =>
      obtain ⟨e, he⟩ := hlaunch _ h
      exact Launcher.mem_tileModel_of_started he

/-- Every wrapper is one of a listed app. -/
theorem listed_run {print : List LauncherTile → String} (hprint : PrintsTiles print) (p : Platform)
    (s₀ : State) (acts : List Act) :
    ∀ desktopId ∈ (run print p (boot s₀) acts).kiosk.processes.map Process.desktopId,
      WasListed print p (boot s₀) acts desktopId := by
  induction acts using List.reverseRecOn with
  | nil =>
      intro desktopId h
      simp [run, boot] at h
  | append_singleton acts a ih =>
      intro desktopId h
      rw [run_concat, step, desktopIds_run, List.mem_append] at h
      rcases h with hold | hnew
      · exact (ih desktopId hold).mono [a]
      · obtain ⟨hid, tile, htile, rfl⟩ := mem_tileModel_of_launched hnew
        rcases (told_run hprint s₀ acts).shown tile htile with rfl | hlisted
        · exact absurd rfl hid
        · exact hlisted.mono [a]

/-- **From the screen to the process.** Let the daemon print its tiles as JSON. Whenever an
app's process is started, the app has been on the list that the daemon wrote into the file,
and the last turn of its wrapper was a question to the daemon, which allowed the app in the
state it was in. -/
theorem started_from_screen {print : List LauncherTile → String} (hprint : PrintsTiles print)
    (p : Platform) (s₀ : State) {acts : List Act} {i : Nat} {proc : Process} {t : Wrapper.Turn}
    {env : Env} {fate : Fate} {argv : List String} {child : UInt32}
    (hproc : (run print p (boot s₀) acts).kiosk.processes[i]? = some proc)
    (hstart : .spawned argv child ∈ Wrapper.out proc.desktopId proc.state
      ((run print p (boot s₀) acts).kiosk.answered p i t env fate)) :
    WasListed print p (boot s₀) acts proc.desktopId ∧
      Kiosk.Cleared p ⟨s₀, []⟩ i proc.desktopId (allMoves print p (boot s₀) acts) := by
  refine ⟨listed_run hprint p s₀ acts _ (List.mem_map_of_mem (List.mem_of_getElem? hproc)), ?_⟩
  rw [kiosk_run] at hproc
  exact Kiosk.cleared_of_launching p s₀ _ i proc hproc (Wrapper.launch_of_spawned hstart).1

/-- The tiles are read, the launcher is opened, and Enter starts the first one. -/
def letterActs : List Act :=
  [.startShell, .readFile, .fileLoaded, .user .open, .user (.key .enter),
    .turn 0 (letterTurn 0) sampleEnv .answered]

def letterScreen : State :=
  { letterGame with launcherApps := some letterGame.config.effectiveLauncherTiles }

theorem started_from_screen_letters :
    WasListed prettyTiles samplePlatform (boot letterScreen) letterActs "klettres" ∧
      Kiosk.Cleared samplePlatform ⟨letterScreen, []⟩ 0 "klettres"
        (allMoves prettyTiles samplePlatform (boot letterScreen) letterActs) := by
  let k := (run prettyTiles samplePlatform (boot letterScreen) letterActs).kiosk
  have hcourse : (k.processes[0]?.map fun proc =>
      (proc.desktopId, proc.state.phase, proc.state.gone)) =
        some ("klettres", Wrapper.Phase.launching, none) := by
    decide +kernel
  obtain ⟨⟨desktopId, phase, gone⟩, hproc, hstate⟩ := Option.map_eq_some_iff.mp hcourse
  obtain ⟨rfl, rfl, rfl⟩ : desktopId = "klettres" ∧ phase = .launching ∧ gone = none := by
    simpa using hstate
  have hlaunch : Wrapper.launch (letterTurn 0).fs (letterTurn 0).spawn "klettres" =
      .ok (["klettres"], 4711) := by
    decide +kernel
  have hanswered :
      k.answered samplePlatform 0 (letterTurn 0) sampleEnv .answered = letterTurn 0 := by
    rw [Kiosk.answered, Kiosk.asked, hproc]
    rfl
  refine @started_from_screen prettyTiles printsTiles_prettyTiles samplePlatform letterScreen
    letterActs 0 _ (letterTurn 0) sampleEnv .answered ["klettres"] 4711 hproc ?_
  rw [hanswered, Wrapper.out, Wrapper.act, hlaunch]
  exact List.mem_singleton_self _

end Screen

end OmarchyKids
