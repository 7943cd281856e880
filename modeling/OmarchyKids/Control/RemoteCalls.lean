import OmarchyKids.Agentd.Authorisation
import OmarchyKids.Agentd.Persistence
import OmarchyKids.Control.MainWindow
import OmarchyKids.Control.RemoteCommand

/-!
# OmarchyKids.Control.RemoteCalls

From a click in the Control Center to the child's daemon, and back to the status line.

A job of the window is one or two command lines; `ssh` carries each to the agent behind the
pairing key, which takes it apart again, makes one request of it, and prints the answer. So
a job is a list of requests (`job_reaches_daemon`), and a successful unlock has changed the
child's policy when the window says so (`unlock_from_afar`).
-/

namespace OmarchyKids

open Handlers Daemon

namespace Agent

/-! ### The agent's command line -/

inductive Command
  | status
  | unlock (app : String) (minutes : Option UInt32)
  | override (app : String) (minutes : Option UInt32)
  | report (week : Bool)
  | setTier (tier : String) (appsFile : Option String)
  | repairPairing (port : UInt16) (timeoutMinutes : UInt32)

structure Cli where
  command : Command
  json : Bool

/-- The commands that are one request, as it is. -/
def toRequest : Command → Option Request
  | .status => some .status
  | .unlock app minutes => some (.unlock app minutes)
  | .report week => some (.report week)
  | .override .. | .setTier .. | .repairPairing .. => none

/-- What is expected of `Cli::try_parse_from`: the command lines of the Control Center mean
what they say, as long as the app is no option. The other outcome is an exit code. -/
structure ReadsRemote (parse : List String → Except Nat Cli) : Prop where
  status : ∀ argv0, parse [argv0, "status", "--json"] = .ok ⟨.status, true⟩
  report : ∀ argv0, parse [argv0, "report", "--week", "--json"] = .ok ⟨.report true, true⟩
  unlock : ∀ argv0 app (minutes : UInt32), Argv.isOption app = false →
    parse [argv0, "unlock", app, "--minutes", toString minutes.toNat, "--json"] =
      .ok ⟨.unlock app (some minutes), true⟩

end Agent

section

variable (toStringPretty : Response → String) (errorText : SendError → String)
  (printHuman : Request → Response → String × Except String Unit)

/-- The agent behind the pairing key, and the daemon it asks through `call`. `none` is a
command that is more than one request. -/
def behindKey (parse : List String → Except Nat Agent.Cli) (argv0 : String)
    (call : Request → State × Except SendError Response) (original : Option String) (s : State) :
    Option (State × SshExit) :=
  match parse (Agent.effectiveArgs [argv0] original) with
  | .error code => some (s, .exited code "")
  | .ok cli =>
      (Agent.toRequest cli.command).map fun req =>
        let (s, answer) := call req
        let exit := Agent.exitWith
          (Agent.sendAndPrint toStringPretty errorText printHuman req cli.json answer)
        (s, .exited exit.code exit.stdout)

end

/-- What `sshd` hands to the agent when the client calls it with these arguments. -/
def AgentClient.handedOver (host : HostEntry) (tmp : TempFile) (agentArgs : List String) :
    Option String :=
  sshOriginalCommand (sshReads (sshArgs host tmp agentArgs)).operands.tail

namespace MainWindow

/-! ### A job's requests -/

def Job.host : Job → HostEntry
  | .poll host => host
  | .unlock host _ _ => host

def SpinMinutes.toUInt32 (m : SpinMinutes) : UInt32 := UInt32.ofNat m.val

/-- What the daemon is asked, one request for each command line. -/
def Job.requests : Job → List Request
  | .poll _ => [.status, .report true]
  | .unlock _ app minutes => [.unlock app (some minutes.toUInt32)]

/-- The user's name is no option to `ssh`, and the app is neither taken apart on the way nor
an option to the agent. -/
structure Job.Sendable (job : Job) : Prop where
  username : Argv.isOption job.host.username = false
  app : ∀ host app minutes, job = .unlock host app minutes →
    AgentClient.Survives app ∧ Argv.isOption app = false

theorem toNat_toUInt32 (m : SpinMinutes) : m.toUInt32.toNat = m.val := by
  have hle := m.le_day
  rw [SpinMinutes.toUInt32, UInt32.toNat_ofNat']
  omega

/-- A number is written in digits, which mean nothing to a shell. -/
theorem survives_number (n : Nat) : AgentClient.Survives (toString n) := by
  have hdigits : ∀ c ∈ (toString n).toList, c.isDigit = true := fun c hc =>
    Nat.isDigit_of_mem_toDigits (b := 10) (by decide) (by decide)
      (show c ∈ Nat.toDigits 10 n by simpa [Nat.repr] using hc)
  refine ⟨fun hmem => absurd (hdigits _ hmem) (by decide), ?_⟩
  rw [ShellWords.plain_iff]
  refine ⟨?_, fun hhead => ?_, fun c hc => ?_⟩
  · intro hempty
    exact Nat.toDigits_ne_nil (n := n) (b := 10) (by simp at hempty)
  · exact absurd (hdigits _ (List.mem_of_mem_head? hhead)) (by decide)
  · have hdigit := hdigits c hc
    refine ⟨?_, ?_, ?_, ?_⟩
    · by_contra hblank
      rw [Bool.not_eq_false] at hblank
      simp only [ShellWords.isBlank, Bool.or_eq_true, beq_iff_eq] at hblank
      rcases hblank with (rfl | rfl) | rfl <;> cases hdigit
    · rintro rfl
      cases hdigit
    · rintro rfl
      cases hdigit
    · rintro rfl
      cases hdigit

theorem survives_option : ∀ arg ∈ ["--json", "--week", "--minutes"], AgentClient.Survives arg := by
  simp only [List.forall_mem_cons]
  refine ⟨?_, ?_, ?_, by simp⟩
  all_goals
    refine ⟨by decide, (ShellWords.plain_iff _).mpr ?_⟩
    simp [ShellWords.Ordinary, ShellWords.isBlank]

section

variable {toStringPretty : Response → String} {errorText : SendError → String}
  {printHuman : Request → Response → String × Except String Unit}
  {parse : List String → Except Nat Agent.Cli} (argv0 : String) (s : State)
  (call : Request → State × Except SendError Response)

/-- Arguments that survive arrive at the agent. -/
theorem effectiveArgs_handedOver {host : HostEntry} (hhost : Argv.isOption host.username = false)
    (tmp : AgentClient.TempFile) (command : Agent.Subcommand) (args : List String)
    (hargs : ∀ arg ∈ args, AgentClient.Survives arg) :
    Agent.effectiveArgs [argv0] (AgentClient.handedOver host tmp (command.name :: args)) =
      argv0 :: command.name :: args := by
  rw [AgentClient.handedOver, AgentClient.operands_sshReads hhost, List.tail_cons]
  exact (AgentClient.effectiveArgs_eq_iff argv0 command args).mpr hargs

theorem behindKey_of_parse {original : Option String} (command : Agent.Command) {req : Request}
    (hparse : parse (Agent.effectiveArgs [argv0] original) = .ok ⟨command, true⟩)
    (hreq : Agent.toRequest command = some req) :
    behindKey toStringPretty errorText printHuman parse argv0 call original s =
      some ((call req).1, agentExit toStringPretty errorText printHuman req (call req).2) := by
  rw [behindKey, hparse]
  simp only [hreq, Option.map_some]
  rfl

/-- Each command line of a job is its request at the daemon. -/
theorem job_reaches_daemon (hparse : Agent.ReadsRemote parse) {job : Job} (h : job.Sendable)
    (tmp : AgentClient.TempFile) :
    ∀ line ∈ job.agentArgs.zip job.requests,
      behindKey toStringPretty errorText printHuman parse argv0 call
          (AgentClient.handedOver job.host tmp line.1) s =
        some ((call line.2).1,
          agentExit toStringPretty errorText printHuman line.2 (call line.2).2) := by
  have hoptions := survives_option
  simp only [List.forall_mem_cons] at hoptions
  obtain ⟨hjson, hweek, hminutes, -⟩ := hoptions
  cases job with
  | poll host =>
      have hstatus := effectiveArgs_handedOver argv0 h.username tmp .status
        ["--json"] (by simpa using hjson)
      have hreport := effectiveArgs_handedOver argv0 h.username tmp .report
        ["--week", "--json"] (by
          simp only [List.forall_mem_cons]
          exact ⟨hweek, hjson, by simp⟩)
      simp only [Job.agentArgs, Job.requests, List.zip_cons_cons, List.forall_mem_cons]
      refine ⟨?_, ?_, by simp⟩
      · refine behindKey_of_parse argv0 s call .status ?_ rfl
        rw [← hparse.status argv0]
        exact congrArg parse hstatus
      · refine behindKey_of_parse argv0 s call (.report true) ?_ rfl
        rw [← hparse.report argv0]
        exact congrArg parse hreport
  | unlock host app minutes =>
      obtain ⟨happ, hoption⟩ := h.app host app minutes rfl
      have hunlock := effectiveArgs_handedOver argv0 h.username tmp .unlock
        [app, "--minutes", toString minutes.val, "--json"] (by
          simp only [List.forall_mem_cons]
          exact ⟨happ, hminutes, survives_number _, hjson, by simp⟩)
      simp only [Job.agentArgs, Job.requests, List.zip_cons_cons, List.forall_mem_cons]
      refine ⟨?_, by simp⟩
      refine behindKey_of_parse argv0 s call (.unlock app (some minutes.toUInt32)) ?_ rfl
      rw [← hparse.unlock argv0 app minutes.toUInt32 hoption, toNat_toUInt32]
      exact congrArg parse hunlock

/-! ### The unlock -/

/-- A granted unlock clears the input field and sends the window to the host again. -/
theorem applyUnlock_granted {fromJson : String → Option Json} {w : Window} {host : HostEntry}
    (h : Window.Aligned { w with unlockEnabled := true }) (hselected : w.selected = some host.name)
    {result : AgentClient.AgentCommandResult} {resp : Response} (hok : result.ok = true)
    (hresp : resp.ok = true) (hread : fromJson result.stdoutText = some resp.toJson) :
    let w' := Window.applyUnlock fromJson w host.name result
    w'.status = .checking host.name ∧ w'.unlockApp = "" ∧
      ∃ current, w.selectedHost = some current ∧ current.name = host.name ∧
        w'.jobs = w.jobs ++ [.poll current] := by
  have hshown : applyUnlockResult fromJson (Window.selected { w with unlockEnabled := true })
      host.name result.ok result.stdoutText = some .unlocked := by
    have hobject : Json.isObject (some resp.toJson) = true := rfl
    have hfield : Window.selected { w with unlockEnabled := true } = some host.name := hselected
    simp [applyUnlockResult, hfield, hok, hread, hobject, member_ok_toJson, hresp]
  have hname := h.selected_eq
  rw [show Window.selected { w with unlockEnabled := true } = some host.name from hselected,
    eq_comm, Option.map_eq_some_iff] at hname
  obtain ⟨current, hcurrent, hcurrentName⟩ := hname
  have hw' : Window.applyUnlock fromJson w host.name result =
      Window.pollSelectedHost { w with unlockEnabled := true, unlockApp := "" } := by
    simp only [Window.applyUnlock]
    rw [hshown]
  rw [hw', Window.pollSelectedHost, show Window.selectedHost
    { w with unlockEnabled := true, unlockApp := "" } = some current from hcurrent]
  exact ⟨congrArg Status.checking hcurrentName, rfl, current, hcurrent, hcurrentName, rfl⟩

/-- A failed unlock is written on the status line, and the input field stays as it is. -/
theorem applyUnlock_refused {fromJson : String → Option Json} {w : Window} {host : HostEntry}
    (hselected : w.selected = some host.name) {result : AgentClient.AgentCommandResult}
    (hok : result.ok = false) :
    (Window.applyUnlock fromJson w host.name result).status =
        .result host.name (.unlockFailed host.name) ∧
      (Window.applyUnlock fromJson w host.name result).unlockApp = w.unlockApp := by
  have hshown : applyUnlockResult fromJson (Window.selected { w with unlockEnabled := true })
      host.name result.ok result.stdoutText = some (.line (.unlockFailed host.name)) := by
    have hfield : Window.selected { w with unlockEnabled := true } = some host.name := hselected
    simp [applyUnlockResult, hfield, hok]
  have hw' : Window.applyUnlock fromJson w host.name result =
      { w with unlockEnabled := true, status := .result host.name (.unlockFailed host.name) } := by
    simp only [Window.applyUnlock]
    rw [hshown]
  rw [hw']
  exact ⟨rfl, rfl⟩

/-- An unlock that is answered with a yes stands in the policy. -/
theorem unlock_granted {p : Platform} {env : Env} {app : String} {minutes : UInt32}
    (h : (dispatch p env s (.unlock app (some minutes))).2.ok = true) :
    ∃ u ∈ (dispatch p env s (.unlock app (some minutes))).1.config.apps.unlocked,
      u.desktopId = app ∧ u.expiresAt = env.nowUtc + minutesDelta minutes.toNat := by
  obtain ⟨hpolicy, hok⟩ := handleUnlock_policy p env s app (some minutes) false
  change (handleUnlock p env s app (some minutes) false).2.ok = true at h
  rw [hok, Bool.and_assoc, Bool.and_eq_true] at h
  rw [if_pos h.1] at hpolicy
  have hconfig : (handleUnlock p env s app (some minutes) false).1.config =
      s.config.pushUnlock (newUnlock env app minutes false) := congrArg Policy.config hpolicy
  refine ⟨newUnlock env app minutes false, ?_, rfl, rfl⟩
  change _ ∈ (handleUnlock p env s app (some minutes) false).1.config.apps.unlocked
  rw [hconfig]
  simp [Config.pushUnlock]

/-- **An unlock from afar.** After any history of the window, a job that unlocks an app on
the selected host: the child's daemon is asked for just this app and these minutes, in
whatever state it is. If it says yes, the app is among the child's unlocks until that many
minutes from then, the window clears its input field and polls the host of the row again; if it
says no, the window keeps the field and says that the unlock has failed. -/
theorem unlock_from_afar {fromJson : String → Option Json} (hparse : Agent.ReadsRemote parse)
    (registry : List HostEntry) (es : List Window.Event) {i : Nat} {host : HostEntry} {app : String}
    {minutes : SpinMinutes} (hsend : (Job.unlock host app minutes).Sendable)
    (tmp : AgentClient.TempFile) (p : Platform) (env : Env)
    (hread : let resp := (dispatch p env s (.unlock app (some minutes.toUInt32))).2
      fromJson (toStringPretty resp ++ "\n") = some resp.toJson) :
    let w : Window := Window.run fromJson (Window.opened registry) es
    w.jobs[i]? = some (.unlock host app minutes) → w.selected = some host.name →
    ∃ s' exit, behindKey toStringPretty errorText printHuman parse argv0
        (fun req => ((dispatch p env s req).1, .ok (dispatch p env s req).2))
        (AgentClient.handedOver host tmp
          ["unlock", app, "--minutes", toString minutes.val, "--json"]) s = some (s', exit) ∧
      let resp := (dispatch p env s (.unlock app (some minutes.toUInt32))).2
      let w' := Window.step fromJson w (.unlocked i (AgentClient.runCaptured exit))
      s' = (dispatch p env s (.unlock app (some minutes.toUInt32))).1 ∧
        (resp.ok = true → (∃ u ∈ s'.config.apps.unlocked, u.desktopId = app ∧
            u.expiresAt = env.nowUtc + minutesDelta minutes.val) ∧
          w'.status = .checking host.name ∧ w'.unlockApp = "" ∧
          ∃ current, w.selectedHost = some current ∧ current.name = host.name ∧
            w'.jobs = w.jobs.eraseIdx i ++ [.poll current]) ∧
        (resp.ok = false → w'.status = .result host.name (.unlockFailed host.name) ∧
          w'.unlockApp = w.unlockApp) := by
  intro w hjob hselected
  have hreach := @job_reaches_daemon toStringPretty errorText printHuman parse argv0 s
    (fun req => ((dispatch p env s req).1, .ok (dispatch p env s req).2)) hparse _ hsend tmp
    (["unlock", app, "--minutes", toString minutes.val, "--json"],
      .unlock app (some minutes.toUInt32)) (by simp [Job.agentArgs, Job.requests])
  refine ⟨_, _, hreach, ?_⟩
  intro resp w'
  obtain ⟨haligned, -⟩ := @Window.run_aligned fromJson registry es
  have hcount := Window.countP_eraseIdx hjob
  rw [haligned.jobs, Job.isUnlock, if_pos rfl] at hcount
  have hnone : (w.jobs.eraseIdx i).countP Job.isUnlock = 0 := by
    split at hcount <;> omega
  have hrest : Window.Aligned { w with unlockEnabled := true, jobs := w.jobs.eraseIdx i } :=
    ⟨haligned.rows, haligned.row, hnone⟩
  have hw' : w' = Window.applyUnlock fromJson { w with jobs := w.jobs.eraseIdx i } host.name
      (AgentClient.runCaptured (agentExit toStringPretty errorText printHuman
        (.unlock app (some minutes.toUInt32)) (.ok resp))) := by
    simp only [w', Window.step, hjob]
    rfl
  have htext := Outcome.stdoutText_answered toStringPretty errorText printHuman
    (.unlock app (some minutes.toUInt32)) resp
  have hok_iff := Outcome.result_ok_iff toStringPretty errorText printHuman
    (.unlock app (some minutes.toUInt32)) (.answered resp)
  rw [Outcome.result] at htext hok_iff
  set rest : Window := { w with jobs := w.jobs.eraseIdx i }
  have hrestSelected : rest.selected = some host.name := hselected
  refine ⟨rfl, fun hok => ⟨?_, ?_⟩, fun hok => ?_⟩
  · have hgranted := unlock_granted s hok
    rwa [toNat_toUInt32] at hgranted
  · rw [hw']
    refine applyUnlock_granted hrest hrestSelected (hok_iff.mpr ⟨resp, rfl, hok⟩) hok ?_
    exact (congrArg fromJson htext).trans hread
  · rw [hw']
    refine applyUnlock_refused hrestSelected (Bool.eq_false_iff.mpr fun haccepted => ?_)
    obtain ⟨other, hother, hyes⟩ := hok_iff.mp haccepted
    cases hother
    exact Bool.false_ne_true (hok.symm.trans hyes)

end

/-- Takes the three commands of the Control Center. -/
def parseRemote : List String → Except Nat Agent.Cli
  | [_, "status", "--json"] => .ok ⟨.status, true⟩
  | [_, "report", "--week", "--json"] => .ok ⟨.report true, true⟩
  | [_, "unlock", app, "--minutes", minutes, "--json"] =>
      match minutes.toNat? with
      | some n =>
          if Argv.isOption app = false ∧ n < UInt32.size then
            .ok ⟨.unlock app (some (.ofNat n)), true⟩
          else .error 2
      | none => .error 2
  | _ => .error 2

theorem readsRemote_parseRemote : Agent.ReadsRemote parseRemote where
  status _ := rfl
  report _ := rfl
  unlock argv0 app minutes happ := by
    have hread : (toString minutes.toNat).toNat? = some minutes.toNat := Nat.toNat?_repr _
    simp only [parseRemote, hread]
    rw [if_pos ⟨happ, minutes.toNat_lt⟩, UInt32.ofNat_toNat]

def miaHost : HostEntry := { name := "Mia", hostname := "10.0.0.5", username := "mia" }

def puzzleMinutes : SpinMinutes := ⟨45, by decide, by decide⟩

/-- The puzzles for Mia, while the poll that comes with the selection is under way. -/
def puzzleClicks : List Window.Event :=
  [.select (some 0), .edit " org.kde.gcompris " puzzleMinutes, .unlock]

theorem unlock_from_afar_puzzles :
    let answer := dispatch samplePlatform puzzleEnv sampleState
      (.unlock "org.kde.gcompris" (some puzzleMinutes.toUInt32))
    ∃ s' exit, behindKey printAnswer (fun _ => "") printNothing parseRemote "omarchy-kids-agent"
        (fun req => ((dispatch samplePlatform puzzleEnv sampleState req).1,
          .ok (dispatch samplePlatform puzzleEnv sampleState req).2))
        (AgentClient.handedOver miaHost ⟨none, 0⟩
          ["unlock", "org.kde.gcompris", "--minutes", toString 45, "--json"]) sampleState =
          some (s', exit) ∧ s' = answer.1 ∧
      ∃ u ∈ s'.config.apps.unlocked, u.desktopId = "org.kde.gcompris" ∧
        u.expiresAt = puzzleEnv.nowUtc + minutesDelta 45 := by
  intro answer
  have hanswer : answer.2 = .okEmpty := rfl
  have hsurvives : AgentClient.Survives "org.kde.gcompris" := by
    refine ⟨by decide, (ShellWords.plain_iff _).mpr ?_⟩
    simp [ShellWords.Ordinary, ShellWords.isBlank]
  obtain ⟨s', exit, hbehind, hs', hyes, -⟩ := @unlock_from_afar printAnswer (fun _ => "")
    printNothing parseRemote "omarchy-kids-agent" sampleState readAnswer readsRemote_parseRemote
    [miaHost] puzzleClicks 1 miaHost "org.kde.gcompris" puzzleMinutes
    ⟨rfl, fun _ _ _ hjob => by cases hjob; exact ⟨hsurvives, by decide⟩⟩ ⟨none, 0⟩
    samplePlatform puzzleEnv
    (by
      show readAnswer (printAnswer answer.2 ++ "\n") = some answer.2.toJson
      rw [hanswer]
      exact if_pos rfl)
    rfl rfl
  exact ⟨s', exit, hbehind, hs', (hyes (congrArg Response.ok hanswer)).1⟩

end MainWindow

end OmarchyKids
