import OmarchyKids.Kiosk.System

/-!
# OmarchyKids.Kiosk.Launches

No app starts that the daemon has not allowed.

A process of `omarchy-kids-run` starts an app in one phase only, and enters that phase only
by the answer to its question (`Cleared`). Between the question and the start it does
nothing else: the daemon allowed the app in the very state it was asked in, and the start
is the process's next turn, however much the others do in between.
-/

namespace OmarchyKids

open Handlers Daemon

/-- The wrapper reads off an answer of `checkAllowed` what it says. -/
theorem says_checkAllowed_iff (payload : AllowedPayload) (allowed : Bool) :
    Wrapper.Says allowed (.ok (.okWith payload.toValue)) ↔ payload.allowed = allowed := by
  have hmember : Json.member "allowed" (some payload.toValue) = some (.bool payload.allowed) := rfl
  constructor
  · rintro ⟨resp, hresp, -, hsays⟩
    obtain rfl : Response.okWith payload.toValue = resp := Except.ok.inj hresp
    rw [Response.okWith, hmember] at hsays
    simpa using hsays
  · rintro rfl
    exact ⟨_, rfl, rfl, hmember⟩

namespace Wrapper

theorem act_launching_iff {desktopId : String} {gone : Option ExitStatus} {t : Turn}
    {phase : Phase} : (act desktopId gone t phase).1 = .launching ↔
      phase = .authorizing ∧ authorize t.answer = .ok true := by
  cases phase with
  | authorizing =>
      rw [act]
      split <;> simp_all
  | launching =>
      rw [act]
      split <;> simp
  | polling | watching | running | reaping =>
      rw [act]
      split <;> simp
  | starting | terminating | killing | stopping | done => simp [act]
  | waiting =>
      rw [act]
      split
      · split <;> simp
      · simp

/-- What is started is what the installed entry says. -/
theorem launch_eq_ok {fs : Fs} {spawn : List String → Except String UInt32} {desktopId : String}
    {argv : List String} {child : UInt32} (h : launch fs spawn desktopId = .ok (argv, child)) :
    ∃ file entry, Desktop.findDesktopFile fs desktopId = some file ∧
      Desktop.parseDesktopEntry fs file = .ok entry ∧ Desktop.execToArgv entry.exec = argv ∧
      argv ≠ [] ∧ spawn argv = .ok child := by
  unfold launch at h
  cases hfile : Desktop.findDesktopFile fs desktopId with
  | none => simp [hfile] at h
  | some file =>
      cases hentry : Desktop.parseDesktopEntry fs file with
      | error e => simp [hfile, hentry] at h
      | ok entry =>
          cases hargv : Desktop.execToArgv entry.exec with
          | nil => simp [hfile, hentry, hargv] at h
          | cons program rest =>
              cases hspawn : spawn (program :: rest) with
              | error e => simp [hfile, hentry, hargv, hspawn] at h
              | ok pid =>
                  simp only [hfile, hentry, hargv, hspawn, Except.ok.injEq, Prod.mk.injEq] at h
                  obtain ⟨rfl, rfl⟩ := h
                  exact ⟨file, entry, rfl, hentry, hargv, List.cons_ne_nil _ _, hspawn⟩

/-- A process is started in one phase, by `launch`. -/
theorem launch_of_spawned {desktopId : String} {s : State} {t : Turn} {argv : List String}
    {child : UInt32} (h : .spawned argv child ∈ out desktopId s t) :
    s.phase = .launching ∧ launch t.fs t.spawn desktopId = .ok (argv, child) := by
  obtain ⟨out₁, out₂, hout⟩ := List.append_of_mem h
  have hphase : s.phase = .launching := (out_split hout fun _ => nofun).1
  refine ⟨hphase, ?_⟩
  rcases List.mem_append.mp h with hexit | hact
  · obtain ⟨status, hstatus⟩ := mem_exitAt hexit
    cases hstatus
  · rw [hphase, act] at hact
    cases hlaunch : launch t.fs t.spawn desktopId with
    | error e => simp [hlaunch] at hact
    | ok started =>
        simp only [hlaunch, List.mem_singleton, Event.spawned.injEq] at hact
        rw [hact.1, hact.2]

end Wrapper

namespace Kiosk

/-- Any move but a turn of this process. -/
def LeavesAlone (i : Nat) : Move → Prop
  | .turn j _ _ _ => j ≠ i
  | _ => True

/-- The process has been cleared by its last turn: it asked about its app, and the daemon
allowed the app in the state it was in. -/
def Cleared (p : Platform) (k : Kiosk) (i : Nat) (desktopId : String) (past : List Move) : Prop :=
  ∃ before t env after, past = before ++ .turn i t env .answered :: after ∧
    (run p k before).asked i t = some (.wrapperAuthorize desktopId) ∧
    (checkAllowed p env (run p k before).daemon desktopId).allowed = true ∧
    ∀ m ∈ after, LeavesAlone i m

theorem Cleared.concat {p : Platform} {k : Kiosk} {i : Nat} {desktopId : String}
    {past : List Move} (h : Cleared p k i desktopId past) {m : Move} (hm : LeavesAlone i m) :
    Cleared p k i desktopId (past ++ [m]) := by
  obtain ⟨before, t, env, after, rfl, hasked, hallowed, hafter⟩ := h
  refine ⟨before, t, env, after ++ [m], by simp, hasked, hallowed, fun m' hm' => ?_⟩
  rcases List.mem_append.mp hm' with hm' | hm'
  · exact hafter m' hm'
  · rw [List.mem_singleton.mp hm']
    exact hm

/-- A yes to the question comes from the daemon. -/
theorem cleared_of_authorized {p : Platform} {s₀ : State} {past : List Move} {i : Nat}
    {proc : Process} {t : Wrapper.Turn} {env : Env} {fate : Fate}
    (hproc : (run p ⟨s₀, []⟩ past).processes[i]? = some proc)
    (hphase : proc.state.phase = .authorizing)
    (hyes : Wrapper.authorize ((run p ⟨s₀, []⟩ past).answered p i t env fate).answer = .ok true) :
    Cleared p ⟨s₀, []⟩ i proc.desktopId (past ++ [.turn i t env fate]) := by
  have hasked : (run p ⟨s₀, []⟩ past).asked i t = some (.wrapperAuthorize proc.desktopId) := by
    rw [asked, hproc, Option.bind_some, hphase]
    rfl
  rw [answered, hasked, Wrapper.authorize_eq_true_iff] at hyes
  cases fate with
  | failed e served =>
      obtain ⟨resp, hresp, -⟩ := hyes
      cases hresp
  | answered =>
      refine ⟨past, t, env, [], rfl, hasked, ?_, fun m hm => nomatch hm⟩
      exact (says_checkAllowed_iff _ true).mp hyes

/-- Whoever is about to launch has been cleared. -/
theorem cleared_of_launching (p : Platform) (s₀ : State) (past : List Move) :
    ∀ (i : Nat) (proc : Process), (run p ⟨s₀, []⟩ past).processes[i]? = some proc →
      proc.state.phase = .launching → Cleared p ⟨s₀, []⟩ i proc.desktopId past := by
  induction past using List.reverseRecOn with
  | nil =>
      intro i proc hproc
      simp [run] at hproc
  | append_singleton past m ih =>
      intro i proc hproc hphase
      rw [run_concat] at hproc
      cases m with
      | daemon env e => exact (ih i proc hproc hphase).concat trivial
      | launch desktopId =>
          rw [step, proceed, List.getElem?_append] at hproc
          split at hproc
          · exact (ih i proc hproc hphase).concat trivial
          · -- the new process has yet to ask
            have hnew := List.mem_of_getElem? hproc
            rw [List.mem_singleton.mp hnew] at hphase
            cases hphase
      | turn j t env fate =>
          rw [step, proceed, List.getElem?_modify] at hproc
          by_cases hj : j = i
          · subst hj
            cases hold : (run p ⟨s₀, []⟩ past).processes[j]? with
            | none => simp [hold] at hproc
            | some old =>
                simp only [hold, Option.map_eq_map, Option.map_some, if_true,
                  Option.some.injEq] at hproc
                rw [← hproc, Wrapper.step, Wrapper.act_launching_iff] at hphase
                have hcleared := cleared_of_authorized hold hphase.1 hphase.2
                rw [← hproc]
                exact hcleared
          · have hold : (run p ⟨s₀, []⟩ past).processes[i]? = some proc := by
              simpa [hj] using hproc
            exact (ih i proc hold hphase).concat hj

/-- **Nothing starts unallowed.** Whenever a process starts an app, by what its installed
entry says, its turn before that was a question that the daemon answered, and in the state
the daemon was in it allowed the app. -/
theorem launched_was_allowed (p : Platform) (s₀ : State) {past : List Move} {i : Nat}
    {proc : Process} {t : Wrapper.Turn} {env : Env} {fate : Fate} {argv : List String}
    {child : UInt32} (hproc : (run p ⟨s₀, []⟩ past).processes[i]? = some proc)
    (hstart : .spawned argv child ∈
      Wrapper.out proc.desktopId proc.state ((run p ⟨s₀, []⟩ past).answered p i t env fate)) :
    Cleared p ⟨s₀, []⟩ i proc.desktopId past ∧
      ∃ file entry, Desktop.findDesktopFile t.fs proc.desktopId = some file ∧
        Desktop.parseDesktopEntry t.fs file = .ok entry ∧ Desktop.execToArgv entry.exec = argv ∧
        argv ≠ [] := by
  obtain ⟨hphase, hlaunch⟩ := Wrapper.launch_of_spawned hstart
  refine ⟨cleared_of_launching p s₀ past i proc hproc hphase, ?_⟩
  obtain ⟨a, ha⟩ := answered_eq p (run p ⟨s₀, []⟩ past) i t env fate
  rw [ha] at hlaunch
  obtain ⟨file, entry, hfile, hentry, hargv, hne, -⟩ := Wrapper.launch_eq_ok hlaunch
  exact ⟨file, entry, hfile, hentry, hargv, hne⟩

/-- A kiosk with one game on its list. -/
def letterGame : State :=
  { sampleState with
    config := sampleState.config.switchTier "mini"
      (some [⟨"klettres", "KLettres", "klettres", "#94A3B8"⟩]) }

def letterTurn (seconds : Nat) : Wrapper.Turn where
  now := seconds * 1000000000
  exit := none
  waitFails := false
  answer := .error .noResponse
  fs := ⟨fun path => path == "/usr/share/applications/klettres.desktop",
    fun _ => some "[Desktop Entry]\nName=KLettres\nExec=klettres %u\n"⟩
  spawn _ := .ok 4711

/-- The game is tapped, and its wrapper asks. -/
def letterMoves : List Move := [.launch "klettres", .turn 0 (letterTurn 0) sampleEnv .answered]

theorem launched_was_allowed_letters :
    Cleared samplePlatform ⟨letterGame, []⟩ 0 "klettres" letterMoves ∧
      ∃ file entry, Desktop.findDesktopFile (letterTurn 0).fs "klettres" = some file ∧
        Desktop.parseDesktopEntry (letterTurn 0).fs file = .ok entry ∧
        Desktop.execToArgv entry.exec = ["klettres"] ∧ ["klettres"] ≠ [] := by
  let k := run samplePlatform ⟨letterGame, []⟩ letterMoves
  have hcourse : (k.processes[0]?.map fun proc =>
      (proc.desktopId, proc.state.phase, proc.state.gone)) =
        some ("klettres", Wrapper.Phase.launching, none) := by
    decide +kernel
  obtain ⟨⟨desktopId, phase, gone⟩, hproc, hstate⟩ := Option.map_eq_some_iff.mp hcourse
  obtain ⟨rfl, rfl, rfl⟩ : desktopId = "klettres" ∧ phase = .launching ∧ gone = none := by
    simpa using hstate
  have hlaunch : Wrapper.launch (letterTurn 0).fs (letterTurn 0).spawn "klettres" =
      .ok (["klettres"], 4711) := by
    decide +kernel
  have hanswered :
      k.answered samplePlatform 0 (letterTurn 0) sampleEnv .answered = letterTurn 0 := by
    rw [answered, asked, hproc]
    rfl
  refine @launched_was_allowed samplePlatform letterGame letterMoves 0 _ (letterTurn 0) sampleEnv
    .answered ["klettres"] 4711 hproc ?_
  rw [hanswered, Wrapper.out, Wrapper.act, hlaunch]
  exact List.mem_singleton_self _

end Kiosk

end OmarchyKids
