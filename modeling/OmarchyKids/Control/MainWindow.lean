import OmarchyKids.Control.Notifications
import OmarchyKids.Control.Outcomes
import OmarchyKids.Control.PairingDialog

/-!
# OmarchyKids.Control.MainWindow

The Control Center's window: the list of children, a status line and an event list for the
selected one, and the unlock control.

Requests run on worker threads, one job each, and their results come back in any order,
between clicks, timers and whatever the pairing dialog does. A row of the list stands for
the host at its index in the registry, and a result is only shown if its host is still
selected. `window_tells_of_selected` says what holds after any history: the rows match the
registry, the status line never speaks of a child other than the selected one, and the
unlock button is enabled exactly while no unlock is under way.
-/

namespace OmarchyKids

namespace MainWindow

/-! ### The window -/

/-- What the spin box can hold: one minute to a day. -/
structure SpinMinutes where
  val : Nat
  one_le : 1 ≤ val
  le_day : val ≤ 24 * 60

/-- The status line, with the host it speaks of. -/
inductive Status
  /-- `Select a child to see their status.` -/
  | initial
  /-- `Checking %1 ...` -/
  | checking (hostName : String)
  /-- `Enter a desktop id to unlock (e.g. org.kde.gcompris).` -/
  | enterApp
  /-- `Unlocking %1 on %2 ...` -/
  | unlocking (app hostName : String)
  | result (hostName : String) (line : StatusLine)

def Status.about : Status → Option String
  | initial | enterApp => none
  | checking hostName | unlocking _ hostName | result hostName _ => some hostName

/-- A request on a worker thread. -/
inductive Job
  /-- Status and weekly report. -/
  | poll (host : HostEntry)
  | unlock (host : HostEntry) (app : String) (minutes : SpinMinutes)

def Job.isUnlock : Job → Bool
  | poll _ => false
  | unlock .. => true

/-- The command lines for the agent, one call of `AgentClient::run` each. -/
def Job.agentArgs : Job → List (List String)
  | poll _ => [["status", "--json"], ["report", "--week", "--json"]]
  | unlock _ app minutes => [["unlock", app, "--minutes", toString minutes.val, "--json"]]

/-- A line of the event list, and whether it is red. -/
structure EventItem where
  text : String
  red : Bool
  deriving DecidableEq

structure Window where
  registry : List HostEntry
  /-- The host name behind each row. -/
  rows : List String
  /-- `none` is no row at all. -/
  currentRow : Option Nat := none
  status : Status := .initial
  events : List EventItem := []
  unlockApp : String := ""
  unlockMinutes : SpinMinutes := ⟨30, by decide, by decide⟩
  unlockEnabled : Bool := true
  lastNotifiedAt : LastNotified := ∅
  jobs : List Job := []

namespace Window

/-- Shows one row for each host, none of them selected. -/
def refreshHostList (w : Window) : Window :=
  { w with rows := w.registry.map HostEntry.name, currentRow := none }

/-- The window when it opens. -/
def opened (registry : List HostEntry) : Window :=
  refreshHostList { registry, rows := [] }

/-- The host name behind the current item. -/
def selected (w : Window) : Option String := w.currentRow.bind fun row => w.rows[row]?

/-- The registry's entry at the current row. -/
def selectedHost (w : Window) : Option HostEntry := w.currentRow.bind fun row => w.registry[row]?

def pollSelectedHost (w : Window) : Window :=
  match w.selectedHost with
  | none => w
  | some host => { w with status := .checking host.name, jobs := w.jobs ++ [.poll host] }

def unlockSelectedApp (w : Window) : Window :=
  match w.selectedHost with
  | none => w
  | some host =>
      let app := PairingDialog.trimmed w.unlockApp
      if app = "" then { w with status := .enterApp }
      else
        { w with unlockEnabled := false, status := .unlocking app host.name
                 jobs := w.jobs ++ [.unlock host app w.unlockMinutes] }

/-! ### Results -/

/-- An event's line. -/
def eventItem (ev : Json) : EventItem :=
  let severity := Json.toText (Json.member "severity" (some ev))
  let detail := Json.member "detail" (some ev)
  { text := "[" ++ occurredAt ev ++ "] " ++ Json.toText (Json.member "event_type" (some ev)) ++
      " (" ++ severity ++ ")" ++
      if Json.isNull detail then "" else " — " ++ Json.toText detail
    red := severity == "severe" }

section

-- `QJsonDocument::fromJson`
variable (fromJson : String → Option Json)

/-- The event list after a poll, newest first. -/
def eventItems (report : AgentClient.AgentCommandResult) : List EventItem :=
  if report.ok then
    match reportEvents (fromJson report.stdoutText) with
    | some events =>
        (events.insertionSort fun a b => occurredAt b ≤ occurredAt a).map eventItem
    | none => []
  else []

/-- The window after a poll of a host, and the notifications it starts. -/
def applyPoll (w : Window) (hostName : String) (status report : AgentClient.AgentCommandResult) :
    Window × List (List String) :=
  let w :=
    match applyPollResult fromJson w.selected hostName status.ok status.stdoutText with
    | some (.line line) =>
        { w with status := .result hostName line, events := eventItems fromJson report }
    | _ => w
  if report.ok then
    let (seen, severe) :=
      notifySevereEvents fromJson hostName report.stdoutText w.lastNotifiedAt
    ({ w with lastNotifiedAt := seen }, severe.map (notifySend hostName))
  else (w, [])

def applyUnlock (w : Window) (hostName : String) (result : AgentClient.AgentCommandResult) :
    Window :=
  let w := { w with unlockEnabled := true }
  match applyUnlockResult fromJson w.selected hostName result.ok result.stdoutText with
  | none => w
  | some (.line line) => { w with status := .result hostName line }
  | some .unlocked => pollSelectedHost { w with unlockApp := "" }

/-! ### The machine -/

inductive Event
  /-- Another row becomes the current one, or none. -/
  | select (row : Option Nat)
  /-- The refresh button, or the timer. -/
  | poll
  | edit (app : String) (minutes : SpinMinutes)
  | unlock
  /-- The pairing dialog records a host. -/
  | addHost (entry : HostEntry)
  /-- The pairing dialog is accepted. -/
  | paired
  /-- The `i`th job is done, and the window gets its result. -/
  | polled (i : Nat) (status report : AgentClient.AgentCommandResult)
  | unlocked (i : Nat) (result : AgentClient.AgentCommandResult)

def step (w : Window) : Event → Window
  | .select row =>
      if row = w.currentRow ∨ (row.any fun r => decide (w.rows.length ≤ r)) then w
      else pollSelectedHost { w with currentRow := row }
  | .poll => w.pollSelectedHost
  | .edit app minutes => { w with unlockApp := app, unlockMinutes := minutes }
  | .unlock => if w.unlockEnabled then w.unlockSelectedApp else w
  | .addHost entry => { w with registry := HostRegistry.addHost entry w.registry }
  | .paired => w.refreshHostList
  | .polled i status report =>
      match w.jobs[i]? with
      | some (.poll host) =>
          (applyPoll fromJson { w with jobs := w.jobs.eraseIdx i } host.name status report).1
      | _ => w
  | .unlocked i result =>
      match w.jobs[i]? with
      | some (.unlock host _ _) =>
          applyUnlock fromJson { w with jobs := w.jobs.eraseIdx i } host.name result
      | _ => w

/-- The window after these events. -/
def run (w : Window) (es : List Event) : Window := Runs.run (step fromJson) w es

end

/-! ### What holds after any history -/

/-- What all parts of the window rely on: rows and registry go together, and the unlock
button is disabled for the one unlock under way. -/
structure Aligned (w : Window) : Prop where
  rows : w.rows <+: w.registry.map HostEntry.name
  row : ∀ r, w.currentRow = some r → r < w.rows.length
  jobs : w.jobs.countP Job.isUnlock = if w.unlockEnabled then 0 else 1

/-- The status line speaks of the selected host. -/
def Tells (w : Window) : Prop :=
  ∀ name, w.selected = some name → w.status.about = some name ∨ w.status = .enterApp

/-- The current item stands for the host at its row. -/
theorem Aligned.selected_eq {w : Window} (h : w.Aligned) :
    w.selected = w.selectedHost.map HostEntry.name := by
  unfold selected selectedHost
  cases hrow : w.currentRow with
  | none => rfl
  | some r =>
      obtain ⟨rest, hrest⟩ := h.rows
      rw [Option.bind_some, Option.bind_some, ← List.getElem?_map, ← hrest,
        List.getElem?_append_left (h.row r hrow)]

theorem Aligned.pollSelectedHost {w : Window} (h : w.Aligned) :
    w.pollSelectedHost.Aligned ∧ w.pollSelectedHost.Tells := by
  have hselected := h.selected_eq
  unfold Window.pollSelectedHost
  cases hhost : w.selectedHost with
  | none =>
      rw [hhost] at hselected
      refine ⟨h, fun name hname => ?_⟩
      rw [hselected] at hname
      cases hname
  | some host =>
      rw [hhost] at hselected
      refine ⟨⟨h.rows, h.row, ?_⟩, fun name hname => .inl ?_⟩
      · rw [List.countP_append, h.jobs]
        rfl
      · exact hselected.symm.trans hname

theorem Aligned.unlockSelectedApp {w : Window} (h : w.Aligned) (htells : w.Tells)
    (henabled : w.unlockEnabled = true) :
    w.unlockSelectedApp.Aligned ∧ w.unlockSelectedApp.Tells := by
  have hselected := h.selected_eq
  unfold Window.unlockSelectedApp
  cases hhost : w.selectedHost with
  | none => exact ⟨h, htells⟩
  | some host =>
      rw [hhost] at hselected
      dsimp only
      split
      · exact ⟨⟨h.rows, h.row, h.jobs⟩, fun _ _ => .inr rfl⟩
      · refine ⟨⟨h.rows, h.row, ?_⟩, fun name hname => .inl ?_⟩
        · rw [List.countP_append, h.jobs, henabled]
          rfl
        · exact hselected.symm.trans hname

/-- A job is done. -/
theorem countP_eraseIdx {jobs : List Job} {i : Nat} {job : Job} (h : jobs[i]? = some job) :
    jobs.countP Job.isUnlock =
      (jobs.eraseIdx i).countP Job.isUnlock + if job.isUnlock then 1 else 0 := by
  obtain ⟨hi, rfl⟩ := List.getElem?_eq_some_iff.mp h
  rw [← (List.getElem_cons_eraseIdx_perm hi).countP_eq, List.countP_cons]

variable {fromJson : String → Option Json}

/-- A result is only shown if its host is still selected. -/
theorem applyPollResult_some {selected : Option String} {hostName text : String} {ok : Bool}
    {shown : Shown} (h : applyPollResult fromJson selected hostName ok text = some shown) :
    selected = some hostName := by
  by_contra hne
  rw [applyPollResult, if_pos hne] at h
  cases h

theorem applyUnlockResult_some {selected : Option String} {hostName text : String} {ok : Bool}
    {shown : Shown} (h : applyUnlockResult fromJson selected hostName ok text = some shown) :
    selected = some hostName := by
  by_contra hne
  rw [applyUnlockResult, if_pos hne] at h
  cases h

/-- The last step of `applyPoll` looks after the notifications alone. -/
theorem Aligned.applyPoll {w : Window} (h : w.Aligned) (htells : w.Tells) (hostName : String)
    (status report : AgentClient.AgentCommandResult) :
    (applyPoll fromJson w hostName status report).1.Aligned ∧
      (applyPoll fromJson w hostName status report).1.Tells := by
  have hshown : ∀ line, applyPollResult fromJson w.selected hostName status.ok
      status.stdoutText = some (.line line) → w.selected = some hostName :=
    fun _ => applyPollResult_some
  unfold Window.applyPoll
  split
  next line hline =>
    have hselected := hshown line hline
    have htells' : ∀ name, w.selected = some name → some hostName = some name :=
      fun name hname => hselected.symm.trans hname
    dsimp only
    split
    · exact ⟨⟨h.rows, h.row, h.jobs⟩, fun name hname => .inl (htells' name hname)⟩
    · exact ⟨⟨h.rows, h.row, h.jobs⟩, fun name hname => .inl (htells' name hname)⟩
  next =>
    dsimp only
    split
    · exact ⟨⟨h.rows, h.row, h.jobs⟩, htells⟩
    · exact ⟨h, htells⟩

theorem Aligned.applyUnlock {w : Window}
    (h : Aligned { w with unlockEnabled := true }) (htells : w.Tells) (hostName : String)
    (result : AgentClient.AgentCommandResult) :
    (applyUnlock fromJson w hostName result).Aligned ∧
      (applyUnlock fromJson w hostName result).Tells := by
  unfold Window.applyUnlock
  dsimp only
  split
  next => exact ⟨h, htells⟩
  next line hline =>
    refine ⟨⟨h.rows, h.row, h.jobs⟩, fun name hname => .inl ?_⟩
    exact (applyUnlockResult_some hline).symm.trans hname
  next => exact Aligned.pollSelectedHost ⟨h.rows, h.row, h.jobs⟩

/-- The names only grow at the end. -/
theorem prefix_addHost {names : List String} {hosts : List HostEntry} (entry : HostEntry)
    (h : names <+: hosts.map HostEntry.name) :
    names <+: (HostRegistry.addHost entry hosts).map HostEntry.name := by
  rw [HostRegistry.addHost, KeyedList.map_put_key]
  split
  · exact h
  · exact h.trans (List.prefix_append _ _)

theorem step_aligned {w : Window} (h : w.Aligned) (htells : w.Tells) (e : Event) :
    (step fromJson w e).Aligned ∧ (step fromJson w e).Tells := by
  cases e with
  | select row =>
      rw [step]
      split
      · exact ⟨h, htells⟩
      next hrow =>
        refine Aligned.pollSelectedHost ⟨h.rows, fun r hr => ?_, h.jobs⟩
        have hr : row = some r := hr
        rw [hr] at hrow
        simp only [Option.any_some, decide_eq_true_eq, not_or, not_le] at hrow
        exact hrow.2
  | poll => exact h.pollSelectedHost
  | edit app minutes => exact ⟨⟨h.rows, h.row, h.jobs⟩, htells⟩
  | unlock =>
      rw [step]
      split
      next henabled => exact h.unlockSelectedApp htells henabled
      next => exact ⟨h, htells⟩
  | addHost entry => exact ⟨⟨prefix_addHost entry h.rows, h.row, h.jobs⟩, htells⟩
  | paired => exact ⟨⟨List.prefix_rfl, nofun, h.jobs⟩, nofun⟩
  | polled i status report =>
      rw [step]
      split
      next host hjob =>
        have hcount := countP_eraseIdx hjob
        rw [h.jobs] at hcount
        have hrest : Aligned { w with jobs := w.jobs.eraseIdx i } := ⟨h.rows, h.row, hcount.symm⟩
        exact hrest.applyPoll htells host.name status report
      next => exact ⟨h, htells⟩
  | unlocked i result =>
      rw [step]
      split
      next host app minutes hjob =>
        have hcount := countP_eraseIdx hjob
        rw [h.jobs, Job.isUnlock, if_pos rfl] at hcount
        have hnone : (w.jobs.eraseIdx i).countP Job.isUnlock = 0 := by
          split at hcount <;> omega
        have hrest : Aligned { w with unlockEnabled := true, jobs := w.jobs.eraseIdx i } :=
          ⟨h.rows, h.row, hnone⟩
        exact @Aligned.applyUnlock fromJson { w with jobs := w.jobs.eraseIdx i } hrest htells
          host.name result
      next => exact ⟨h, htells⟩

theorem run_aligned (registry : List HostEntry) (es : List Event) :
    (run fromJson (opened registry) es).Aligned ∧ (run fromJson (opened registry) es).Tells := by
  refine Runs.run_invariant (I := fun w : Window => w.Aligned ∧ w.Tells) ?_
    (fun w e h => step_aligned h.1 h.2 e) es
  refine ⟨⟨List.prefix_rfl, fun r hr => ?_, rfl⟩, fun name hname => ?_⟩
  · cases hr
  · cases hname

/-- **The window tells of the selected child.** After any history of selections, polls,
unlocks and pairings, with the results of the requests in any order: each row stands for the
host of its name at the same place of the registry; the status line speaks of the selected
host, or asks for an app; the unlock button is disabled exactly while an unlock is under way,
of which there is one at most; and with a host selected, the button enabled and an app
typed in, a click sends one request, to that host. -/
theorem window_tells_of_selected (registry : List HostEntry) (es : List Event) :
    let w : Window := run fromJson (opened registry) es
    (∀ (i : Nat) name, w.rows[i]? = some name →
        ∃ host, w.registry[i]? = some host ∧ host.name = name) ∧
      (∀ name, w.selected = some name →
        w.status.about = some name ∨ w.status = .enterApp) ∧
      (w.unlockEnabled = true ↔ ∀ job ∈ w.jobs, job.isUnlock = false) ∧
      w.jobs.countP Job.isUnlock ≤ 1 ∧
      ∀ name, w.selected = some name → w.unlockEnabled = true →
        PairingDialog.trimmed w.unlockApp ≠ "" →
        ∃ host ∈ w.registry, host.name = name ∧ (step fromJson w .unlock).jobs =
          w.jobs ++ [.unlock host (PairingDialog.trimmed w.unlockApp) w.unlockMinutes] := by
  intro w
  obtain ⟨haligned, htells⟩ : w.Aligned ∧ w.Tells := run_aligned registry es
  have hnone : (∀ job ∈ w.jobs, job.isUnlock = false) ↔ w.jobs.countP Job.isUnlock = 0 := by
    simp [List.countP_eq_zero]
  refine ⟨fun i name hi => ?_, htells, ?_, ?_, fun name hname henabled happ => ?_⟩
  · obtain ⟨rest, hrest⟩ := haligned.rows
    have hlt := (List.getElem?_eq_some_iff.mp hi).1
    have hname : (w.registry.map HostEntry.name)[i]? = some name := by
      rw [← hrest, List.getElem?_append_left hlt, hi]
    rw [List.getElem?_map] at hname
    exact Option.map_eq_some_iff.mp hname
  · rw [hnone, haligned.jobs]
    cases w.unlockEnabled <;> simp
  · rw [haligned.jobs]
    split <;> omega
  · rw [haligned.selected_eq] at hname
    obtain ⟨host, hhost, rfl⟩ := Option.map_eq_some_iff.mp hname
    refine ⟨host, ?_, rfl, ?_⟩
    · obtain ⟨r, -, hr⟩ := Option.bind_eq_some_iff.mp hhost
      exact List.mem_of_getElem? hr
    · rw [step, if_pos henabled, unlockSelectedApp, hhost]
      simp [happ]

end Window

end MainWindow

end OmarchyKids
