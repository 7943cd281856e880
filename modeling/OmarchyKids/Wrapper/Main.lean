import OmarchyKids.Common.Desktop
import OmarchyKids.Common.Transport
import OmarchyKids.Lib.Runs

/-!
# OmarchyKids.Wrapper.Main

`omarchy-kids-run`: asks the daemon before it launches an app, tells it about the
start and the end, and asks it again while the app runs.

The program is a machine that takes one turn at a time; a turn holds what the
outside world does in it. The app may end before any of them, and the daemon may
answer anything: the program never looks at more than what `transport::send`
returns.
-/

namespace OmarchyKids

namespace Wrapper

/-! ### Reading the daemon's answers -/

/-- What `transport::send` returns. -/
abbrev Answer := Except SendError Response

inductive AuthorizeError
  | rejected (message : String)
  | unreachable (e : SendError)

/-- `data.allowed`, if it is a Boolean. -/
def allowedMember (resp : Response) : Option Bool :=
  match Json.member "allowed" resp.data with
  | some (.bool allowed) => some allowed
  | _ => none

/-- Before the launch: whatever is not a clear yes keeps the app from starting. -/
def authorize : Answer → Except AuthorizeError Bool
  | .ok resp =>
      if resp.ok then .ok ((allowedMember resp).getD false)
      else .error (.rejected (resp.error.getD "agentd rejected the authorization check"))
  | .error e => .error (.unreachable e)

/-- While the app runs: whatever is not a clear no lets it go on. -/
def stillAllowed : Answer → Bool
  | .ok resp => if resp.ok then (allowedMember resp).getD true else true
  | .error _ => true

/-- The daemon answered ok, with this value of `allowed`. -/
def Says (allowed : Bool) (a : Answer) : Prop :=
  ∃ resp, a = .ok resp ∧ resp.ok = true ∧ Json.member "allowed" resp.data = some (.bool allowed)

theorem allowedMember_eq_some_iff {resp : Response} {allowed : Bool} :
    allowedMember resp = some allowed ↔
      Json.member "allowed" resp.data = some (.bool allowed) := by
  rw [allowedMember]
  constructor
  · intro h
    split at h
    · rename_i b hmember
      rw [hmember, Option.some.inj h]
    · cases h
  · intro h
    rw [h]

theorem authorize_eq_true_iff {a : Answer} : authorize a = .ok true ↔ Says true a := by
  constructor
  · intro h
    cases a with
    | error e => cases h
    | ok resp =>
        rw [authorize] at h
        split at h
        next hok =>
          have hallowed : allowedMember resp = some true := by
            cases hmember : allowedMember resp with
            | none => simp [hmember] at h
            | some b => simpa [hmember] using h
          exact ⟨resp, rfl, hok, allowedMember_eq_some_iff.mp hallowed⟩
        next => cases h
  · rintro ⟨resp, rfl, hok, hmember⟩
    rw [authorize, if_pos hok, allowedMember_eq_some_iff.mpr hmember]
    rfl

theorem stillAllowed_eq_false_iff {a : Answer} : stillAllowed a = false ↔ Says false a := by
  constructor
  · intro h
    cases a with
    | error e => cases h
    | ok resp =>
        rw [stillAllowed] at h
        split at h
        next hok =>
          have hrefused : allowedMember resp = some false := by
            cases hmember : allowedMember resp with
            | none => simp [hmember] at h
            | some b => simpa [hmember] using h
          exact ⟨resp, rfl, hok, allowedMember_eq_some_iff.mp hrefused⟩
        next => cases h
  · rintro ⟨resp, rfl, hok, hmember⟩
    rw [stillAllowed, if_pos hok, allowedMember_eq_some_iff.mpr hmember]
    rfl

/-! ### Launching -/

/-- Looks the app up and starts it. `spawn` is `Command::spawn`. -/
def launch (fs : Fs) (spawn : List String → Except String UInt32) (desktopId : String) :
    Except String (List String × UInt32) :=
  match Desktop.findDesktopFile fs desktopId with
  | none => .error ("no .desktop entry found for '" ++ desktopId ++ "'")
  | some desktopFile =>
      match Desktop.parseDesktopEntry fs desktopFile with
      | .error e => .error e
      | .ok entry =>
          match Desktop.execToArgv entry.exec with
          | [] => .error ("empty Exec= in " ++ desktopFile)
          | program :: rest =>
              match spawn (program :: rest) with
              | .error e => .error ("failed to launch '" ++ program ++ "': " ++ e)
              | .ok pid => .ok (program :: rest, pid)

/-! ### The machine -/

/-- Fifteen seconds between polls. -/
def pollInterval : Nat := 15000000000

/-- Five seconds between the two signals. -/
def killGrace : Nat := 5000000000

/-- How a process ended. -/
inductive ExitStatus
  | exited (code : Int)
  | signaled (signal : Nat)
  deriving DecidableEq, Repr

def ExitStatus.code : ExitStatus → Option Int
  | exited code => some code
  | signaled _ => none

inductive Signal
  | term
  | kill
  deriving DecidableEq, Repr

/-- Where the program stands; `child` is the app's process. -/
inductive Phase
  | authorizing
  | launching
  | starting (child : UInt32)
  /-- At the head of the loop. -/
  | watching (child : UInt32) (lastPoll : Nat)
  /-- The app was still running at the head of the loop. -/
  | running (child : UInt32) (lastPoll : Nat)
  | polling (child : UInt32)
  | terminating (child : UInt32)
  /-- After the first signal. -/
  | waiting (child : UInt32) (deadline : Nat)
  | killing (child : UInt32)
  | reaping (child : UInt32)
  | stopping (child : UInt32)
  | done (exitCode : UInt8)
  deriving DecidableEq, Repr

/-- The app's process, while the program has one. -/
def Phase.child : Phase → Option UInt32
  | starting child | watching child _ | running child _ | polling child | terminating child
  | waiting child _ | killing child | reaping child | stopping child => some child
  | authorizing | launching | done _ => none

/-- The outside world's part in a turn. -/
structure Turn where
  /-- `Instant::now()`, in nanoseconds. -/
  now : Nat
  /-- How the app ends just before the turn, if it does. -/
  exit : Option ExitStatus
  /-- Waiting on the app's process is an error. -/
  waitFails : Bool
  answer : Answer
  fs : Fs
  spawn : List String → Except String UInt32

inductive Event
  | sent (req : Request) (answer : Answer)
  | spawned (argv : List String) (child : UInt32)
  | signalled (child : UInt32) (signal : Signal)
  /-- The app's own event: its process is gone. -/
  | exited (status : ExitStatus)

/-- One turn of the program. `gone` is how the app has ended, if it has. -/
def act (desktopId : String) (gone : Option ExitStatus) (t : Turn) : Phase → Phase × List Event
  | .authorizing =>
      (match authorize t.answer with
        | .ok true => .launching
        | _ => .done 1,
        [.sent (.wrapperAuthorize desktopId) t.answer])
  | .launching =>
      match launch t.fs t.spawn desktopId with
      | .ok (argv, child) => (.starting child, [.spawned argv child])
      | .error _ => (.done 1, [])
  | .starting child =>
      (.watching child t.now, [.sent (.wrapperStart desktopId child) t.answer])
  | .watching child lastPoll =>
      (if t.waitFails || gone.isSome then .stopping child else .running child lastPoll, [])
  | .running child lastPoll =>
      (if pollInterval ≤ t.now - lastPoll then .polling child else .watching child lastPoll, [])
  | .polling child =>
      (if stillAllowed t.answer then .watching child t.now else .terminating child,
        [.sent (.wrapperPoll desktopId child) t.answer])
  | .terminating child => (.waiting child (t.now + killGrace), [.signalled child .term])
  | .waiting child deadline =>
      (if t.now < deadline then
        if !t.waitFails && gone.isSome then .stopping child else .waiting child deadline
      else .killing child, [])
  | .killing child => (.reaping child, [.signalled child .kill])
  -- blocks until the process is gone
  | .reaping child =>
      (if t.waitFails || gone.isSome then .stopping child else .reaping child, [])
  | .stopping child =>
      let status := if t.waitFails then none else gone
      (.done 0, [.sent (.wrapperStop desktopId child (status.bind ExitStatus.code)) t.answer])
  | .done exitCode => (.done exitCode, [])

/-- The program and the app beside it. -/
structure State where
  phase : Phase := .authorizing
  /-- How the app ended, once it has. -/
  gone : Option ExitStatus := none

/-- The app after the world's part of a turn: it ends at most once. -/
def State.goneAt (s : State) (t : Turn) : Option ExitStatus :=
  if s.phase.child.isSome then s.gone.or t.exit else s.gone

/-- The end of the app, if it comes in this turn. -/
def State.exitAt (s : State) (t : Turn) : List Event :=
  if s.gone.isNone then ((s.goneAt t).map Event.exited).toList else []

def step (desktopId : String) (s : State) (t : Turn) : State where
  phase := (act desktopId (s.goneAt t) t s.phase).1
  gone := s.goneAt t

def out (desktopId : String) (s : State) (t : Turn) : List Event :=
  s.exitAt t ++ (act desktopId (s.goneAt t) t s.phase).2

/-- The program after these turns. -/
def exec (desktopId : String) (turns : List Turn) : State := Runs.run (step desktopId) {} turns

/-- All that happens in them, in order. -/
def events (desktopId : String) (turns : List Turn) : List Event :=
  Runs.written (step desktopId) (out desktopId) {} turns

theorem exec_concat (desktopId : String) (turns : List Turn) (t : Turn) :
    exec desktopId (turns ++ [t]) = step desktopId (exec desktopId turns) t :=
  Runs.run_concat _ _ _

theorem events_concat (desktopId : String) (turns : List Turn) (t : Turn) :
    events desktopId (turns ++ [t]) =
      events desktopId turns ++ out desktopId (exec desktopId turns) t :=
  Runs.written_concat _ _ _

end Wrapper

end OmarchyKids
