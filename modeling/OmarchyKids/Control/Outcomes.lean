import OmarchyKids.Agent.Main
import OmarchyKids.Control.HostRegistry
import OmarchyKids.Control.StatusCache

/-!
# OmarchyKids.Control.Outcomes

How one request ends, and what the Control Center says about it: the window after an
unlock, the window's status line, and the entry of the headless poll.

The daemon's answer arrives twice, as JSON on the agent's standard output and in its
exit code, and all three look at the exit code first. As the agent exits with a
failure for a refusal too, a refusal is told as a child that cannot be reached
(`refusal_is_unreachable`), and nothing ever shows the daemon's error text.
-/

namespace OmarchyKids

/-! ### How a request ends -/

/-- How the `ssh` process ends, with what it has written until then. -/
inductive SshExit
  | notStarted
  | exited (code : Nat) (stdout : String)
  /-- By a signal, be it that of the timeout. -/
  | killed (stdout : String)
  deriving DecidableEq, Repr

namespace AgentClient

structure AgentCommandResult where
  ok : Bool := false
  exitCode : Int := -1
  stdoutText : String := ""
  deriving DecidableEq, Repr

def runCaptured : SshExit → AgentCommandResult
  | .notStarted => {}
  | .exited code stdout => { ok := code == 0, exitCode := code, stdoutText := stdout }
  | .killed stdout => { stdoutText := stdout }

end AgentClient

/-- `ssh` ends on its own account, not with the agent's success. -/
structure SshFailure where
  exit : SshExit
  failed : ∀ stdout, exit ≠ .exited 0 stdout

inductive Outcome
  | sshFailed (failure : SshFailure)
  | agentdUnreachable (e : SendError)
  | answered (resp : Response)

/-- No answer that refuses. -/
def Outcome.NotRefused (outcome : Outcome) : Prop :=
  ∀ resp, outcome = .answered resp → resp.ok = true

section

variable (toStringPretty : Response → String) (errorText : SendError → String)
  (printHuman : Request → Response → String × Except String Unit)

/-- What the agent leaves behind when it is asked with `--json`. -/
def agentExit (req : Request) (answer : Except SendError Response) : SshExit :=
  let exit := Agent.exitWith (Agent.sendAndPrint toStringPretty errorText printHuman req true answer)
  .exited exit.code exit.stdout

/-- What `AgentClient::run` returns. `ssh` passes on the agent's output and exit
code. -/
def Outcome.result (req : Request) : Outcome → AgentClient.AgentCommandResult
  | sshFailed failure => AgentClient.runCaptured failure.exit
  | agentdUnreachable e =>
      AgentClient.runCaptured (agentExit toStringPretty errorText printHuman req (.error e))
  | answered resp =>
      AgentClient.runCaptured (agentExit toStringPretty errorText printHuman req (.ok resp))

theorem Outcome.result_ok_iff (req : Request) (outcome : Outcome) :
    (outcome.result toStringPretty errorText printHuman req).ok = true ↔
      ∃ resp, outcome = .answered resp ∧ resp.ok = true := by
  cases outcome with
  | sshFailed failure =>
      obtain ⟨exit, failed⟩ := failure
      cases exit with
      | notStarted => simp [result, AgentClient.runCaptured]
      | exited code stdout =>
          have hcode : code ≠ 0 := by
            intro hzero
            exact failed stdout (by rw [hzero])
          simp [result, AgentClient.runCaptured, hcode]
      | killed stdout => simp [result, AgentClient.runCaptured]
  | agentdUnreachable e =>
      simp [result, agentExit, Agent.sendAndPrint, Agent.exitWith, AgentClient.runCaptured]
  | answered resp =>
      have h := (Agent.exitWith_answer toStringPretty errorText printHuman req resp).2
      simpa [result, agentExit, AgentClient.runCaptured] using h

theorem Outcome.stdoutText_answered (req : Request) (resp : Response) :
    ((answered resp).result toStringPretty errorText printHuman req).stdoutText =
      toStringPretty resp ++ "\n" :=
  (Agent.exitWith_answer toStringPretty errorText printHuman req resp).1

end

/-! ### What the Control Center shows -/

namespace MainWindow

/-- The texts of the status line. -/
inductive StatusLine
  /-- `%1: unlock failed — unreachable over SSH.` -/
  | unlockFailed (hostName : String)
  /-- `%1: unlock rejected by agentd: %2` -/
  | unlockRejected (hostName error : String)
  /-- `%1: unreachable over SSH.` -/
  | unreachable (hostName : String)
  /-- `%1: agentd error: %2` -/
  | agentdError (hostName error : String)
  /-- Tier, unlocked apps, budget and active app out of the answer's data. -/
  | status (data : Option Json)

/-- What follows from a result. -/
inductive Shown
  | line (line : StatusLine)
  /-- The input field is cleared and the host polled again. -/
  | unlocked

variable (fromJson : String → Option Json)

/-- `none` is a window that has moved on to another host. -/
def applyUnlockResult (selected : Option String) (hostName : String) (ok : Bool)
    (resultJson : String) : Option Shown :=
  if selected ≠ some hostName then none
  else if !ok then some (.line (.unlockFailed hostName))
  else
    let doc := fromJson resultJson
    if !Json.isObject doc || !Json.toBool (Json.member "ok" doc) then
      some (.line (.unlockRejected hostName (Json.toText (Json.member "error" doc))))
    else some .unlocked

/-- The status line after a poll. -/
def applyPollResult (selected : Option String) (hostName : String) (statusOk : Bool)
    (statusText : String) : Option Shown :=
  if selected ≠ some hostName then none
  else if !statusOk then some (.line (.unreachable hostName))
  else
    let doc := fromJson statusText
    if !Json.isObject doc || !Json.toBool (Json.member "ok" doc) then
      some (.line (.agentdError hostName (Json.toText (Json.member "error" doc))))
    else some (.line (.status (Json.member "data" doc)))

end MainWindow

/-- The entry of one host in the headless poll. -/
def pollHost (host : HostEntry) (result : AgentClient.AgentCommandResult) (now : String) :
    HostStatus where
  name := host.name
  online := result.ok
  checkedAt := now
  lastError := if result.ok then "" else "unreachable over SSH"

/-- The headless poll of all hosts. -/
def runStatusPoll (run : HostEntry → AgentClient.AgentCommandResult) (now : HostEntry → String)
    (hosts : List HostEntry) : StatusCache :=
  hosts.foldl (fun cache host => cache.set (pollHost host (run host) (now host))) {}

/-- One entry for each host, in the registry's order. -/
theorem entries_runStatusPoll (run : HostEntry → AgentClient.AgentCommandResult)
    (now : HostEntry → String) (hosts : List HostEntry) :
    (runStatusPoll run now hosts).entries =
      hosts.map fun host => pollHost host (run host) (now host) := by
  have h := StatusCache.entries_foldl_set
    (hosts.map fun host => pollHost host (run host) (now host)) {}
  rw [List.foldl_map, List.nil_append] at h
  exact h

/-! ### What should be reported -/

/-- The three things to say about a request. -/
inductive Report
  | success
  | error (text : String)
  | unreachable
  deriving DecidableEq, Repr

def MainWindow.Shown.report : MainWindow.Shown → Report
  | .unlocked => .success
  | .line (.status _) => .success
  | .line (.unlockRejected _ text) => .error text
  | .line (.agentdError _ text) => .error text
  | .line (.unlockFailed _) => .unreachable
  | .line (.unreachable _) => .unreachable

/-- The right thing to say about an outcome. -/
structure Faithful (outcome : Outcome) (report : Report) : Prop where
  success : report = .success ↔ ∃ resp, outcome = .answered resp ∧ resp.ok = true
  error : ∀ text, report = .error text ↔
    ∃ resp, outcome = .answered resp ∧ resp.ok = false ∧ resp.error.getD "" = text
  unreachable : report = .unreachable → ∀ resp, outcome ≠ .answered resp

theorem faithful_success {outcome : Outcome} {resp : Response} (h : outcome = .answered resp)
    (hok : resp.ok = true) : Faithful outcome .success where
  success := ⟨fun _ => ⟨resp, h, hok⟩, fun _ => rfl⟩
  error := by
    intro text
    constructor
    · intro herror
      cases herror
    · intro hanswered
      obtain ⟨other, hother, hrefused, -⟩ := hanswered
      obtain rfl : resp = other := Outcome.answered.inj (h.symm.trans hother)
      rw [hok] at hrefused
      cases hrefused
  unreachable := fun hreport => by cases hreport

theorem faithful_unreachable_iff (outcome : Outcome) :
    Faithful outcome .unreachable ↔ ∀ resp, outcome ≠ .answered resp := by
  constructor
  · intro h
    exact h.unreachable rfl
  · intro h
    constructor
    · constructor
      · intro hreport
        cases hreport
      · intro hanswered
        obtain ⟨resp, hresp, -⟩ := hanswered
        exact absurd hresp (h resp)
    · intro text
      constructor
      · intro hreport
        cases hreport
      · intro hanswered
        obtain ⟨resp, hresp, -⟩ := hanswered
        exact absurd hresp (h resp)
    · exact fun _ => h

/-! ### What is reported -/

section

variable (toStringPretty : Response → String) (errorText : SendError → String)
  (printHuman : Request → Response → String × Except String Unit)
  (fromJson : String → Option Json)

theorem member_ok_toJson (resp : Response) :
    Json.toBool (Json.member "ok" (some resp.toJson)) = resp.ok := rfl

/-- Without the exit code of success, the outcome is called unreachable; with it, it
is a success. -/
theorem report_of_result (req : Request) {outcome : Outcome}
    (hread : ∀ resp, outcome = .answered resp →
      fromJson (toStringPretty resp ++ "\n") = some resp.toJson)
    (selected : Option String) (hostName : String) :
    let result := outcome.result toStringPretty errorText printHuman req
    let report := if result.ok then Report.success else Report.unreachable
    (MainWindow.applyUnlockResult fromJson selected hostName result.ok result.stdoutText).map
        MainWindow.Shown.report = (if selected = some hostName then some report else none) ∧
      (MainWindow.applyPollResult fromJson selected hostName result.ok result.stdoutText).map
        MainWindow.Shown.report = (if selected = some hostName then some report else none) := by
  intro result report
  by_cases hselected : selected = some hostName
  · cases hok : result.ok with
    | false =>
        simp [MainWindow.applyUnlockResult, MainWindow.applyPollResult, hselected, report, hok,
          MainWindow.Shown.report]
    | true =>
        obtain ⟨resp, rfl, hresp⟩ :=
          (Outcome.result_ok_iff toStringPretty errorText printHuman req outcome).mp hok
        have htext : fromJson result.stdoutText = some resp.toJson := by
          rw [← hread resp rfl]
          exact congrArg fromJson
            (Outcome.stdoutText_answered toStringPretty errorText printHuman req resp)
        have hobject : Json.isObject (some resp.toJson) = true := rfl
        simp [MainWindow.applyUnlockResult, MainWindow.applyPollResult, hselected, report, hok,
          MainWindow.Shown.report, htext, hobject, member_ok_toJson, hresp]
  · simp [MainWindow.applyUnlockResult, MainWindow.applyPollResult, hselected]

/-- This is right unless the daemon has refused. -/
theorem faithful_report_iff (req : Request) (outcome : Outcome) :
    Faithful outcome (if (outcome.result toStringPretty errorText printHuman req).ok then .success
        else .unreachable) ↔ outcome.NotRefused := by
  have hok := Outcome.result_ok_iff toStringPretty errorText printHuman req outcome
  by_cases hresult : (outcome.result toStringPretty errorText printHuman req).ok = true
  · obtain ⟨resp, hresp, haccepted⟩ := hok.mp hresult
    rw [if_pos hresult]
    refine iff_of_true (faithful_success hresp haccepted) ?_
    intro other hother
    obtain rfl : resp = other := Outcome.answered.inj (hresp.symm.trans hother)
    exact haccepted
  · rw [if_neg hresult, faithful_unreachable_iff]
    constructor
    · intro hnone resp hresp
      exact absurd hresp (hnone resp)
    · intro hrefused resp hresp
      exact hresult (hok.mpr ⟨resp, hresp, hrefused resp hresp⟩)

/-- The window after an unlock says the right thing, if it says anything. -/
def UnlockReported (req : Request) (outcome : Outcome) (selected : Option String)
    (hostName : String) : Prop :=
  let result := outcome.result toStringPretty errorText printHuman req
  ∀ shown, MainWindow.applyUnlockResult fromJson selected hostName result.ok result.stdoutText =
    some shown → Faithful outcome shown.report

/-- So does the status line after a poll, and the headless poll calls the host
offline only if there was no answer. -/
def StatusReported (req : Request) (outcome : Outcome) (selected : Option String)
    (host : HostEntry) (now : String) : Prop :=
  let result := outcome.result toStringPretty errorText printHuman req
  (∀ shown, MainWindow.applyPollResult fromJson selected host.name result.ok result.stdoutText =
    some shown → Faithful outcome shown.report) ∧
  ((pollHost host result now).online = false → ∀ resp, outcome ≠ .answered resp)

/-- What the window says, if it still shows the host. -/
theorem shown_faithful_iff {outcome : Outcome} {shown : Option MainWindow.Shown} {current : Prop}
    [Decidable current] {report : Report}
    (h : shown.map MainWindow.Shown.report = if current then some report else none) :
    (∀ s, shown = some s → Faithful outcome s.report) ↔ (current → Faithful outcome report) := by
  by_cases hcurrent : current
  · rw [if_pos hcurrent, Option.map_eq_some_iff] at h
    obtain ⟨s, rfl, rfl⟩ := h
    simp [hcurrent]
  · rw [if_neg hcurrent, Option.map_eq_none_iff] at h
    simp [h, hcurrent]

/-- The headless poll calls a host offline although it answered, when it refused. -/
theorem offline_iff (req : Request) (outcome : Outcome) (host : HostEntry) (now : String) :
    ((pollHost host (outcome.result toStringPretty errorText printHuman req) now).online = false →
        ∀ resp, outcome ≠ .answered resp) ↔ outcome.NotRefused := by
  have hok := Outcome.result_ok_iff toStringPretty errorText printHuman req outcome
  rw [pollHost]
  constructor
  · intro hoffline resp hresp
    by_contra hrefused
    have hfail : (outcome.result toStringPretty errorText printHuman req).ok = false := by
      rw [← Bool.not_eq_true, hok]
      intro hanswered
      obtain ⟨other, hother, haccepted⟩ := hanswered
      obtain rfl : resp = other := Outcome.answered.inj (hresp.symm.trans hother)
      exact hrefused haccepted
    exact hoffline hfail resp hresp
  · intro hrefused hfail resp hresp
    have hsuccess := hok.mpr ⟨resp, hresp, hrefused resp hresp⟩
    rw [hsuccess] at hfail
    cases hfail

/-- A window that shows the host reports an unlock rightly exactly when the daemon has
not refused it; a status request is reported rightly exactly when the daemon has not
refused it. -/
theorem reports_iff (app : String) (minutes : Option UInt32) (outcome : Outcome)
    (hread : ∀ resp, outcome = .answered resp →
      fromJson (toStringPretty resp ++ "\n") = some resp.toJson)
    (selected : Option String) (host : HostEntry) (now : String) :
    (UnlockReported toStringPretty errorText printHuman fromJson (.unlock app minutes) outcome
        selected host.name ↔ (selected = some host.name → outcome.NotRefused)) ∧
      (StatusReported toStringPretty errorText printHuman fromJson .status outcome selected host
        now ↔ outcome.NotRefused) := by
  constructor
  · have hunlock := (report_of_result toStringPretty errorText printHuman fromJson
      (.unlock app minutes) hread selected host.name).1
    rw [← faithful_report_iff toStringPretty errorText printHuman (.unlock app minutes)]
    exact shown_faithful_iff hunlock
  · have hpoll := (report_of_result toStringPretty errorText printHuman fromJson .status hread
      selected host.name).2
    have hfaithful := faithful_report_iff toStringPretty errorText printHuman .status outcome
    have hoffline := offline_iff toStringPretty errorText printHuman .status outcome host now
    constructor
    · intro hreported
      exact hoffline.mp hreported.2
    · intro hrefused
      exact ⟨(shown_faithful_iff hpoll).mpr fun _ => hfaithful.mpr hrefused, hoffline.mpr hrefused⟩

end

def refusedUnlock : Response :=
  .err "'krita' is not on the parent-curated unlockable-apps list (/home/mia/.config/omarchy-kids/unlockable-apps.toml)"

def refusedStatus : Response := .err "failed to sum usage: disk I/O error"

/-- Prints answers without data. -/
def printAnswer (resp : Response) : String :=
  match resp.error with
  | none => "\x7b\n  \"ok\": true\n\x7d"
  | some error => "\x7b\n  \"ok\": false,\n  \"error\": \"" ++ error ++ "\"\n\x7d"

/-- Reads these three answers. -/
def readAnswer (text : String) : Option Json :=
  if text = printAnswer .okEmpty ++ "\n" then some Response.okEmpty.toJson
  else if text = printAnswer refusedUnlock ++ "\n" then some refusedUnlock.toJson
  else if text = printAnswer refusedStatus ++ "\n" then some refusedStatus.toJson
  else none

/-- The output for people is not asked for. -/
def printNothing (_ : Request) (_ : Response) : String × Except String Unit := ("", .ok ())

theorem reports_iff_accepted :
    UnlockReported printAnswer (fun _ => "") printNothing readAnswer
        (.unlock "org.kde.krita" (some 30)) (.answered .okEmpty) (some "Mia") "Mia" ∧
      StatusReported printAnswer (fun _ => "") printNothing readAnswer .status
        (.answered .okEmpty) (some "Mia") { name := "Mia" } "2024-05-01T12:00:00Z" := by
  have hread : ∀ resp, Outcome.answered .okEmpty = .answered resp →
      readAnswer (printAnswer resp ++ "\n") = some resp.toJson := by
    intro resp hresp
    obtain rfl := Outcome.answered.inj hresp
    exact if_pos rfl
  have haccepted : Outcome.NotRefused (.answered .okEmpty) := by
    intro resp hresp
    obtain rfl := Outcome.answered.inj hresp
    rfl
  have h := reports_iff printAnswer (fun _ => "") printNothing readAnswer "org.kde.krita" (some 30)
    (.answered .okEmpty) hread (some "Mia") { name := "Mia" } "2024-05-01T12:00:00Z"
  exact ⟨h.1.mpr fun _ => haccepted, h.2.mpr haccepted⟩

/-- A refused unlock is told as a host that cannot be reached. So is a refused status
request, which puts the host offline as well; that half is about the Control Center
alone, for `handle_status` refuses none. -/
theorem refusal_is_unreachable :
    ¬ UnlockReported printAnswer (fun _ => "") printNothing readAnswer
        (.unlock "krita" (some 30)) (.answered refusedUnlock) (some "Mia") "Mia" ∧
      ¬ StatusReported printAnswer (fun _ => "") printNothing readAnswer .status
        (.answered refusedStatus) (some "Mia") { name := "Mia" }
        "2024-05-01T12:00:00Z" := by
  constructor
  · intro h
    have hreport := h (.line (.unlockFailed "Mia")) rfl
    exact hreport.unreachable rfl _ rfl
  · intro h
    exact h.2 rfl _ rfl

end OmarchyKids
