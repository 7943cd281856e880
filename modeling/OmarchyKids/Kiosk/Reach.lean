import OmarchyKids.Agentd.Grants
import OmarchyKids.Agentd.Limits
import OmarchyKids.Kiosk.Screen

/-!
# OmarchyKids.Kiosk.Reach

What the child can get to.

Module `Kiosk.Screen` says that nothing starts but what has been listed and allowed. This is
the converse: after a start of the shell a tile on the daemon's list can be reached with the
keys (`run_startActs`), and when the daemon has said yes to an unlock, the app is on the list.
Whatever the others do before the wrapper asks, it may start the app unless the unlock has
ended, a time window is blocked or a budget used up (`granted_can_be_started`).

A shell that has loaded its file does not get there: whatever is unlocked, its launcher goes
on with the tiles it has (`shown_until_restart`).
-/

namespace OmarchyKids

open Handlers Daemon Kiosk

namespace Launcher

/-! ### With the keys -/

/-- Opens the launcher, goes `n` tiles to the right, and starts what is there. -/
def startKeys (n : Nat) : List Event := .open :: (List.replicate n (.key .right) ++ [.key .enter])

theorem loaded_notMem_startKeys (n : Nat) (rows : List LauncherTile) :
    .loaded rows ∉ startKeys n := by
  simp [startKeys]

theorem effects_right (n : Nat) {l : Launcher} (hgrid : l.Grid) :
    effects l (List.replicate n (.key .right)) = [] := by
  induction n generalizing l with
  | zero => rfl
  | succ n ih =>
      have hnothing : (l.react (.key .right)).2 = [] := by
        rw [react, if_neg hgrid.not_asking, if_pos hgrid]
        rfl
      have hnext : (l.step (.key .right)).Grid := by
        rw [right_step hgrid]
        exact hgrid
      rw [effects, List.replicate_succ, Runs.written_cons, hnothing, List.nil_append]
      exact ih hnext

/-- Each tile can be started, and nothing else is. -/
theorem effects_startKeys {l : Launcher} {n : Nat} {tile : LauncherTile}
    (htile : l.tileModel[n]? = some tile) (hid : tile.desktopId ≠ powerOffId) :
    effects l (startKeys n) =
      [.hide, .execDetached ["uwsm-app", "--", "omarchy-kids-run", tile.desktopId]] := by
  obtain ⟨hn, -⟩ := List.getElem?_eq_some_iff.mp htile
  have hgrid : l.openGrid.Grid := ⟨rfl, rfl⟩
  have hlength : l.openGrid.tileModel.length = l.tileModel.length := rfl
  have hright := right_run n hgrid (show (0 : Int) ≤ (l.tileModel.length : Int) - 1 by omega)
  have hindex : min ((l.openGrid.tileModel.length : Int) - 1) (l.openGrid.selectedIndex + n) =
      n := by
    rw [hlength, show l.openGrid.selectedIndex = 0 from rfl]
    omega
  rw [hindex] at hright
  have hthere : Grid { l.openGrid with selectedIndex := n } := hgrid
  have hrow : row { l.openGrid with selectedIndex := n } n = some tile := by
    rw [row, if_neg (by omega), Int.toNat_natCast]
    exact htile
  have henter : (react { l.openGrid with selectedIndex := n } (.key .enter)).2 =
      [.hide, .execDetached ["uwsm-app", "--", "omarchy-kids-run", tile.desktopId]] := by
    rw [react, if_neg hthere.not_asking, if_pos hthere, gridKey, launchIndex, hrow]
    dsimp only
    rw [if_neg hid]
    rfl
  have hopen : l.step .open = l.openGrid := rfl
  rw [effects, startKeys, Runs.written_cons, Runs.written_append, hopen, hright,
    Runs.written_cons, henter]
  have hquiet := effects_right n hgrid
  rw [effects] at hquiet
  rw [hquiet]
  rfl

end Launcher

namespace Kiosk

theorem run_launch (p : Platform) (k : Kiosk) (apps : List String) :
    run p k (apps.map .launch) =
      ⟨k.daemon, k.processes ++ apps.map fun desktopId => ({ desktopId } : Process)⟩ := by
  induction apps using List.reverseRecOn with
  | nil => simp [run]
  | append_singleton apps app ih =>
      rw [List.map_append, List.map_singleton, run_concat, ih, step]
      simp [heard, proceed]

/-- A process stays as it is while the others move. -/
theorem process_of_leavesAlone (p : Platform) {k : Kiosk} {i : Nat} {proc : Process}
    (h : k.processes[i]? = some proc) {moves : List Move} (hmoves : ∀ m ∈ moves, LeavesAlone i m) :
    (run p k moves).processes[i]? = some proc := by
  induction moves using List.reverseRecOn with
  | nil => exact h
  | append_singleton moves m ih =>
      have hbefore := ih fun m' hm' => hmoves m' (List.mem_append_left _ hm')
      have hm := hmoves m (List.mem_append_right _ (List.mem_singleton_self m))
      rw [run_concat, process_step p hbefore]
      cases m with
      | daemon env e => rfl
      | launch desktopId => rfl
      | turn j t env fate =>
          rw [turnIn, if_neg hm]
          rfl

end Kiosk

namespace Wrapper

/-- The first turn: the question. -/
theorem step_launching_iff {desktopId : String} {s : State} {t : Turn} :
    (step desktopId s t).phase = .launching ↔
      s.phase = .authorizing ∧ authorize t.answer = .ok true :=
  act_launching_iff

/-- The second: the start, if there is one. -/
theorem spawned_mem_out_iff {desktopId : String} {s : State} {t : Turn} {argv : List String}
    {child : UInt32} : .spawned argv child ∈ out desktopId s t ↔
      s.phase = .launching ∧ launch t.fs t.spawn desktopId = .ok (argv, child) := by
  constructor
  · exact launch_of_spawned
  · intro hstart
    obtain ⟨hphase, hlaunch⟩ := hstart
    rw [out, hphase, act, hlaunch]
    exact List.mem_append_right _ (List.mem_singleton_self _)

end Wrapper

namespace Screen

/-! ### On the screen -/

/-- The shell starts and loads the file, and the `n`th tile is chosen. -/
def startActs (n : Nat) : List Act :=
  .startShell :: .readFile :: .fileLoaded :: (Launcher.startKeys n).map .user

/-- Any act but a turn of this process. -/
def LeavesAlone (i : Nat) : Act → Prop
  | .turn j _ _ _ => j ≠ i
  | _ => True

section

variable (print : List LauncherTile → String) (p : Platform)

/-- What the daemon hears in these acts. -/
def heard (s : Screen) (acts : List Act) : List (Env × Daemon.Event) :=
  trace p s.kiosk (allMoves print p s acts)

theorem daemon_run (s : Screen) (acts : List Act) :
    (run print p s acts).kiosk.daemon =
      Runs.run (Daemon.step p) s.kiosk.daemon (heard print p s acts) := by
  rw [kiosk_run, Kiosk.daemon_run, heard]

theorem run_nil (s : Screen) : run print p s [] = s := rfl

theorem run_append (s : Screen) (acts more : List Act) :
    run print p s (acts ++ more) = run print p (run print p s acts) more :=
  Runs.run_append _ _ _

theorem heard_nil (s : Screen) : heard print p s [] = [] := rfl

theorem leavesAlone_moves {i : Nat} {s : Screen} {a : Act} (h : LeavesAlone i a) :
    ∀ m ∈ s.moves a, Kiosk.LeavesAlone i m := by
  intro m hm
  cases a with
  | daemon env e =>
      rw [List.mem_singleton.mp hm]
      trivial
  | turn j t env fate =>
      rw [List.mem_singleton.mp hm]
      exact h
  | startShell | readFile | fileLoaded | fileChanged | user =>
      obtain ⟨e, -, hm⟩ := List.mem_flatMap.mp hm
      obtain ⟨desktopId, -, rfl⟩ := List.mem_map.mp hm
      trivial

theorem process_of_leavesAlone {s : Screen} {i : Nat} {proc : Process}
    (h : s.kiosk.processes[i]? = some proc) {acts : List Act} (hacts : ∀ a ∈ acts, LeavesAlone i a) :
    (run print p s acts).kiosk.processes[i]? = some proc := by
  rw [kiosk_run]
  refine Kiosk.process_of_leavesAlone p h fun m hm => ?_
  obtain ⟨s', a, ha, hm⟩ := Runs.mem_written hm
  exact leavesAlone_moves (hacts a ha) m hm

/-- What the child does alone, the daemon does not hear. -/
theorem run_user (s : Screen) {es : List Launcher.Event} (hes : ∀ rows, .loaded rows ∉ es) :
    run print p s (es.map .user) =
      ⟨Kiosk.run p s.kiosk ((started (Launcher.effects s.launcher es)).map .launch),
        Runs.run Launcher.step s.launcher es, s.view⟩ := by
  induction es generalizing s with
  | nil => rfl
  | cons e es ih =>
      have hevent : s.event (.user e) = some e := by
        cases e with
        | loaded rows => exact absurd (List.mem_cons_self) (hes rows)
        | _ => rfl
      have hmoves : s.moves (.user e) = (started (s.launcher.react e).2).map .launch := by
        show ((s.event (.user e)).toList.flatMap fun e =>
          (started (s.launcher.react e).2).map Move.launch) = _
        rw [hevent, Option.toList_some, List.flatMap_singleton]
      have hlauncher : s.nextLauncher (.user e) = s.launcher.step e := by
        show Runs.run Launcher.step s.launcher (s.event (.user e)).toList = _
        rw [hevent]
        rfl
      have hstep : step print p s (.user e) =
          ⟨Kiosk.run p s.kiosk ((started (s.launcher.react e).2).map .launch),
            s.launcher.step e, s.view⟩ := by
        rw [step, hmoves, hlauncher]
        rfl
      rw [List.map_cons, run, Runs.run_cons, hstep]
      rw [← run, ih _ fun rows hrows => hes rows (List.mem_cons_of_mem _ hrows), Launcher.effects,
        Launcher.effects, Runs.written_cons, Runs.run_cons]
      simp only [started, List.filterMap_append, List.map_append, Kiosk.run_append]

/-- A shell that starts shows the tiles in the file. -/
theorem run_startShell (hprint : PrintsTiles print) {s : Screen} {tiles : List LauncherTile}
    (hfile : s.kiosk.daemon.launcherApps = some tiles) :
    run print p s [.startShell, .readFile, .fileLoaded] =
      ⟨s.kiosk, { tileModel := tiles ++ [Launcher.powerOffTile] }, ⟨.done, print tiles⟩⟩ := by
  have hread : run print p s [.startShell, .readFile] =
      ⟨s.kiosk, {}, ⟨.read (print tiles), ""⟩⟩ := by
    rw [run, Runs.run_cons, Runs.run_cons, Runs.run_nil]
    show Screen.mk s.kiosk {}
      (FileView.step {} (s.kiosk.daemon.launcherApps.map print) .readFile) = _
    rw [hfile]
    rfl
  have hevent : event ⟨s.kiosk, {}, ⟨.read (print tiles), ""⟩⟩ .fileLoaded =
      some (.loaded (tiles ++ [Launcher.powerOffTile])) := by
    rw [event]
    dsimp only
    rw [Launcher.loadTiles_print hprint, Option.map_some]
  have hmoves : moves ⟨s.kiosk, {}, ⟨.read (print tiles), ""⟩⟩ .fileLoaded = [] := by
    show ((event _ .fileLoaded).toList.flatMap fun e => (started (Launcher.react {} e).2).map
      Move.launch) = _
    rw [hevent]
    rfl
  have hlauncher : nextLauncher ⟨s.kiosk, {}, ⟨.read (print tiles), ""⟩⟩ .fileLoaded =
      { tileModel := tiles ++ [Launcher.powerOffTile] } := by
    show Runs.run Launcher.step {} (event _ .fileLoaded).toList = _
    rw [hevent]
    rfl
  rw [show [Act.startShell, .readFile, .fileLoaded] = [.startShell, .readFile] ++ [.fileLoaded]
    from rfl, run_concat, hread, step, hmoves, hlauncher]
  rfl

/-- A tile in the file can be reached: choosing it starts a wrapper of its app, and nothing
else happens. -/
theorem run_startActs (hprint : PrintsTiles print) {s : Screen} {tiles : List LauncherTile} {n : Nat}
    {tile : LauncherTile} (hfile : s.kiosk.daemon.launcherApps = some tiles)
    (htile : tiles[n]? = some tile) (hid : tile.desktopId ≠ Launcher.powerOffId) :
    (run print p s (startActs n)).kiosk =
      ⟨s.kiosk.daemon, s.kiosk.processes ++ [{ desktopId := tile.desktopId }]⟩ := by
  have hshown : (tiles ++ [Launcher.powerOffTile])[n]? = some tile := by
    obtain ⟨hn, -⟩ := List.getElem?_eq_some_iff.mp htile
    rw [List.getElem?_append_left hn]
    exact htile
  have hlaunch : started [.hide,
      .execDetached ["uwsm-app", "--", "omarchy-kids-run", tile.desktopId]] = [tile.desktopId] :=
    rfl
  have hacts : startActs n =
      [.startShell, .readFile, .fileLoaded] ++ (Launcher.startKeys n).map .user := rfl
  rw [hacts, run_append, run_startShell print p hprint hfile,
    run_user print p _ (Launcher.loaded_notMem_startKeys n),
    Launcher.effects_startKeys hshown hid, hlaunch, Kiosk.run_launch]
  rfl

/-! ### Without a start of the shell -/

/-- The view has loaded its file, and the launcher shows it. -/
def Loaded (s : Screen) : Prop :=
  s.view.load = .done ∧ Launcher.loadTiles s.view.text = some s.launcher.tileModel

variable {print p}

theorem loaded_step {s : Screen} (h : s.Loaded) {a : Act} (ha : a ≠ .startShell) :
    (step print p s a).Loaded ∧
      (step print p s a).launcher.tileModel = s.launcher.tileModel := by
  obtain ⟨hload, hshown⟩ := h
  have hview : (step print p s a).view = s.view := by
    cases a with
    | startShell => exact absurd rfl ha
    | readFile | fileLoaded =>
        rw [step, FileView.step]
        dsimp only
        rw [hload]
    | _ => rfl
  have hnext : s.nextLauncher a = Runs.run Launcher.step s.launcher (s.event a).toList := by
    cases a with
    | startShell => exact absurd rfl ha
    | _ => rfl
  have hrows : ∀ rows, s.event a = some (.loaded rows) → rows = s.launcher.tileModel := by
    intro rows hevent
    cases a with
    | fileLoaded =>
        rw [event, hload] at hevent
        cases hevent
    | fileChanged =>
        rw [event, hshown, Option.map_some] at hevent
        exact (Launcher.Event.loaded.inj (Option.some.inj hevent)).symm
    | user e => cases e <;> cases hevent
    | daemon | turn | startShell | readFile => cases hevent
  have hmodel : (step print p s a).launcher.tileModel = s.launcher.tileModel := by
    rw [step, hnext]
    dsimp only
    cases hevent : s.event a with
    | none => rfl
    | some e =>
        rw [Option.toList_some, Runs.run_cons, Runs.run_nil, Launcher.tileModel_step]
        cases e with
        | loaded rows => exact hrows rows hevent
        | _ => rfl
  refine ⟨⟨?_, ?_⟩, hmodel⟩
  · rw [hview]
    exact hload
  · rw [hview, hmodel]
    exact hshown

theorem loaded_run {s : Screen} (h : s.Loaded) {acts : List Act} (hacts : .startShell ∉ acts) :
    (run print p s acts).Loaded ∧ (run print p s acts).launcher.tileModel = s.launcher.tileModel := by
  induction acts using List.reverseRecOn with
  | nil => exact ⟨h, rfl⟩
  | append_singleton acts a ih =>
      obtain ⟨hloaded, hmodel⟩ := ih fun hmem => hacts (List.mem_append_left _ hmem)
      have ha : a ≠ .startShell := by
        intro ha
        exact hacts (by simp [ha])
      obtain ⟨hloaded', hmodel'⟩ := @loaded_step print p _ hloaded a ha
      rw [run_concat]
      exact ⟨hloaded', hmodel'.trans hmodel⟩

/-- Until the shell is started anew the launcher shows what it has loaded, whatever the daemon
writes into the file meanwhile; and it starts wrappers of these apps alone. -/
theorem shown_until_restart {s : Screen} (h : s.Loaded) {acts : List Act}
    (hacts : .startShell ∉ acts) :
    (run print p s acts).launcher.tileModel = s.launcher.tileModel ∧
      ∃ more, (run print p s acts).kiosk.processes.map Process.desktopId =
        s.kiosk.processes.map Process.desktopId ++ more ∧
          ∀ desktopId ∈ more, desktopId ∈ s.launcher.tileModel.map LauncherTile.desktopId := by
  refine ⟨(loaded_run h hacts).2, ?_⟩
  induction acts using List.reverseRecOn with
  | nil => exact ⟨[], by simp [run], by simp⟩
  | append_singleton acts a ih =>
      have hbefore : .startShell ∉ acts := fun hmem => hacts (List.mem_append_left _ hmem)
      obtain ⟨more, hprocesses, hmore⟩ := ih hbefore
      refine ⟨more ++ ((run print p s acts).moves a).filterMap launched, ?_, ?_⟩
      · rw [run_concat, step, desktopIds_run, hprocesses, List.append_assoc]
      · intro desktopId hmem
        rcases List.mem_append.mp hmem with hold | hnew
        · exact hmore desktopId hold
        · obtain ⟨-, tile, htile, rfl⟩ := mem_tileModel_of_launched hnew
          rw [(loaded_run h hbefore).2] at htile
          exact List.mem_map_of_mem htile

end

/-! ### After an unlock -/

/-- A grant is an edit that adds the unlock. -/
theorem edit_of_grantOf {env : Env} {req : Request} {u : UnlockedApp}
    (h : grantOf (env, .request req) = some u) (c : Config) :
    req.edit env c = some (c.pushUnlock u) := by
  cases req with
  | unlock app minutes =>
      rw [grantOf] at h
      dsimp only at h
      split at h
      · rw [Request.edit, Option.some.inj h]
      · cases h
  | override app minutes => rw [Request.edit, Option.some.inj h]
  | _ => cases h

/-- A grant that is answered with ok is on the list. -/
theorem listed_of_granted {p : Platform} {env : Env} {s : State} {req : Request} {u : UnlockedApp}
    (hgrant : grantOf (env, .request req) = some u) (hok : (dispatch p env s req).2.ok = true) :
    ∃ tiles, (dispatch p env s req).1.launcherApps = some tiles ∧
      u.desktopId ∈ tiles.map LauncherTile.desktopId := by
  have hedit := edit_of_grantOf hgrant s.config
  rw [dispatch_edit_ok hedit, Bool.and_eq_true, Bool.and_eq_true, Option.isNone_iff_eq_none,
    Option.isNone_iff_eq_none] at hok
  obtain ⟨⟨hpermitted, hsave⟩, hrender⟩ := hok
  have hpolicy := dispatch_policy p env s req
  rw [hedit] at hpolicy
  dsimp only at hpolicy
  rw [if_pos hpermitted] at hpolicy
  refine ⟨(s.config.pushUnlock u).effectiveLauncherTiles, ?_, ?_⟩
  · rw [← State.policy_launcherApps, hpolicy, Policy.publish, hsave, hrender]
    rfl
  · rw [Config.mem_effectiveLauncherTiles, Config.isAppAllowed_iff]
    exact .inr (by simp [Config.pushUnlock])

/-- A wrapper that asks now starts its app in its next turn exactly if the daemon allows it
now, whatever the others do in between. -/
theorem started_iff_allowed (print : List LauncherTile → String) (p : Platform) {s : Screen}
    {i : Nat} {desktopId : String}
    (hproc : s.kiosk.processes[i]? = some { desktopId }) (t : Wrapper.Turn) (env : Env)
    {after : List Act} (hothers : ∀ a ∈ after, LeavesAlone i a) :
    let told := run print p s (.turn i t env .answered :: after)
    ∃ proc, told.kiosk.processes[i]? = some proc ∧ proc.desktopId = desktopId ∧
      ∀ t' env' fate argv child,
        .spawned argv child ∈ Wrapper.out desktopId proc.state
          (told.kiosk.answered p i t' env' fate) ↔
        (checkAllowed p env s.kiosk.daemon desktopId).allowed = true ∧
          Wrapper.launch t'.fs t'.spawn desktopId = .ok (argv, child) := by
  intro told
  have hquestion : s.kiosk.asked i t = some (.wrapperAuthorize desktopId) := by
    rw [Kiosk.asked, hproc]
    rfl
  have hyes : Wrapper.authorize (s.kiosk.answered p i t env .answered).answer = .ok true ↔
      (checkAllowed p env s.kiosk.daemon desktopId).allowed = true := by
    rw [Kiosk.answered, hquestion, Wrapper.authorize_eq_true_iff]
    exact says_checkAllowed_iff _ true
  have hstep : (step print p s (.turn i t env .answered)).kiosk.processes[i]? =
      some ⟨desktopId, Wrapper.step desktopId {} (s.kiosk.answered p i t env .answered)⟩ := by
    have hturn := Kiosk.process_step p hproc (.turn i t env .answered)
    rwa [Kiosk.turnIn, if_pos rfl, Runs.run_cons, Runs.run_nil] at hturn
  refine ⟨_, process_of_leavesAlone print p hstep hothers, rfl, fun t' env' fate argv child => ?_⟩
  obtain ⟨a, ha⟩ := told.kiosk.answered_eq p i t' env' fate
  rw [ha, Wrapper.spawned_mem_out_iff, Wrapper.step_launching_iff, hyes]
  exact and_congr_left fun _ => and_iff_right rfl

/-- **What is unlocked can be started.** Let the daemon answer an `Override`, or an `Unlock`
of an app on the curated list, with ok. When the shell is started anew, there is a tile whose
choice starts a wrapper of the app; and whatever the others do before the wrapper's first turn
and between that and its second, if the daemon answers its question and nothing has ended the
unlock by then, the app's process starts exactly if the question came in no blocked window and
with no budget used up, and the installed entry can be started. -/
theorem granted_can_be_started {print : List LauncherTile → String} (hprint : PrintsTiles print)
    (p : Platform) (s₀ : Screen) {env : Env} {req : Request} {u : UnlockedApp}
    (hgrant : grantOf (env, .request req) = some u)
    (hok : (dispatch p env s₀.kiosk.daemon req).2.ok = true)
    (hid : u.desktopId ≠ Launcher.powerOffId) :
    let i := s₀.kiosk.processes.length
    ∃ n, let chosen := run print p s₀ (.daemon env (.request req) :: startActs n)
      ∀ before t env' after, (∀ a ∈ before ++ after, LeavesAlone i a) →
        Unended (heard print p chosen before) u →
        let asked := run print p chosen before
        let told := run print p asked (.turn i t env' .answered :: after)
        ∃ proc, told.kiosk.processes[i]? = some proc ∧ proc.desktopId = u.desktopId ∧
          ∀ t' env'' fate argv child,
            .spawned argv child ∈ Wrapper.out u.desktopId proc.state
              (told.kiosk.answered p i t' env'' fate) ↔
            (Budget.inBlockedWindow p asked.kiosk.daemon.config env'.nowLocal = false ∧
              ∀ k : BudgetKind, k.exceeded p env' asked.kiosk.daemon u.desktopId = false) ∧
            Wrapper.launch t'.fs t'.spawn u.desktopId = .ok (argv, child) := by
  intro i
  obtain ⟨tiles, hfile, hmem⟩ := listed_of_granted hgrant hok
  obtain ⟨tile, htile, htileId⟩ := List.mem_map.mp hmem
  obtain ⟨n, hn⟩ := List.mem_iff_getElem?.mp htile
  refine ⟨n, ?_⟩
  intro chosen before t env' after hothers hunended asked told
  have hgranted : (step print p s₀ (.daemon env (.request req))).kiosk =
      ⟨(dispatch p env s₀.kiosk.daemon req).1, s₀.kiosk.processes⟩ := rfl
  have hchosen : chosen.kiosk = ⟨(dispatch p env s₀.kiosk.daemon req).1,
      s₀.kiosk.processes ++ [{ desktopId := u.desktopId }]⟩ := by
    rw [show chosen = run print p (step print p s₀ (.daemon env (.request req))) (startActs n)
        from rfl,
      run_startActs print p hprint (by rw [hgranted]; exact hfile) hn (htileId ▸ hid), hgranted,
      htileId]
  have hproc : chosen.kiosk.processes[i]? = some { desktopId := u.desktopId } := by
    rw [hchosen]
    simp [i]
  -- the question
  have hasked : asked.kiosk.processes[i]? = some { desktopId := u.desktopId } :=
    process_of_leavesAlone print p hproc fun a ha => hothers a (List.mem_append_left _ ha)
  have hlisted : asked.kiosk.daemon.config.isAppAllowed u.desktopId = true := by
    have hrun : asked.kiosk.daemon = Runs.run (Daemon.step p) s₀.kiosk.daemon
        ((env, .request req) :: heard print p chosen before) := by
      rw [daemon_run, hchosen]
      rfl
    have hunlocked : u ∈ asked.kiosk.daemon.config.apps.unlocked := by
      rw [hrun]
      exact mem_unlocked_iff.mpr (.inl ⟨[], _, _, rfl, hgrant, hunended⟩)
    exact Config.isAppAllowed_iff.mpr (.inr (List.mem_map_of_mem hunlocked))
  obtain ⟨proc, hprocTold, hdesktopId, hspawned⟩ := started_iff_allowed print p hasked t env'
    fun a ha => hothers a (List.mem_append_right _ ha)
  refine ⟨proc, hprocTold, hdesktopId, fun t' env'' fate argv child => ?_⟩
  rw [hspawned t' env'' fate argv child, allowed_iff p env' _ _ .daily, hlisted]
  constructor
  · intro hstarted
    obtain ⟨⟨⟨-, hwindow, hperApp⟩, hdaily⟩, hlaunch⟩ := hstarted
    refine ⟨⟨hwindow, fun k => ?_⟩, hlaunch⟩
    cases k with
    | daily => exact hdaily
    | perApp => exact hperApp
  · intro hmay
    obtain ⟨⟨hwindow, hbudgets⟩, hlaunch⟩ := hmay
    exact ⟨⟨⟨rfl, hwindow, hbudgets .perApp⟩, hbudgets .daily⟩, hlaunch⟩

/-- The parent's PIN, for ten minutes. -/
def overrideLetters : Act := .daemon sampleEnv (.request (.override "klettres" (some 10)))

theorem granted_can_be_started_letters :
    ∃ n,
      let chosen := run prettyTiles samplePlatform (boot sampleState) (overrideLetters :: startActs n)
      let told := run prettyTiles samplePlatform chosen [.turn 0 (letterTurn 0) sampleEnv .answered]
      ∃ proc, told.kiosk.processes[0]? = some proc ∧ proc.desktopId = "klettres" ∧
        (.spawned ["klettres"] 4711 ∈ Wrapper.out "klettres" proc.state
            (told.kiosk.answered samplePlatform 0 (letterTurn 0) sampleEnv .answered) ↔
          (Budget.inBlockedWindow samplePlatform chosen.kiosk.daemon.config
              sampleEnv.nowLocal = false ∧
            ∀ k : BudgetKind, k.exceeded samplePlatform sampleEnv chosen.kiosk.daemon
              "klettres" = false) ∧
          Wrapper.launch (letterTurn 0).fs (letterTurn 0).spawn "klettres" =
            .ok (["klettres"], 4711)) := by
  have hgrant : grantOf (sampleEnv, .request (.override "klettres" (some 10))) =
      some (newUnlock sampleEnv "klettres" 10 true) := rfl
  have hid : (newUnlock sampleEnv "klettres" 10 true).desktopId ≠ Launcher.powerOffId := by
    decide +kernel
  obtain ⟨n, hstart⟩ := @granted_can_be_started prettyTiles printsTiles_prettyTiles
    samplePlatform (boot sampleState) sampleEnv (.override "klettres" (some 10)) _ hgrant
    (by decide +kernel) hid
  have hnobody : ∀ a ∈ ([] ++ [] : List Act), LeavesAlone 0 a := by simp
  obtain ⟨proc, hproc, hdesktopId, hspawned⟩ := hstart [] (letterTurn 0) sampleEnv [] hnobody
    (by rw [heard_nil, unended_iff]; simp)
  rw [run_nil] at hproc hspawned
  exact ⟨n, proc, hproc, hdesktopId, hspawned (letterTurn 0) sampleEnv .answered ["klettres"] 4711⟩

end Screen

end OmarchyKids
