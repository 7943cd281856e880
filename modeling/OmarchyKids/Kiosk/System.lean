import OmarchyKids.Agentd.Daemon
import OmarchyKids.Wrapper.Course

/-!
# OmarchyKids.Kiosk.System

The daemon and the wrappers around it, as one machine.

Every app on the computer runs under a process of `omarchy-kids-run` of its own; all of
them talk to one daemon. A move is a turn of one of these processes, a new process, or an
event at the daemon that comes from elsewhere: a tick, or a request of any other client.
Moves come in any order. When a turn sends a request, the daemon serves it in that move,
unless the call fails: then the process gets an error, and the daemon has served the
request or it has not.

A process sees of the rest only the answers it gets, so what it does is a run of its own
(`process_run`), and the daemon sees only the requests (`daemon_run`).
-/

namespace OmarchyKids

open Handlers Daemon

namespace Wrapper

/-- The message a turn in this phase sends. -/
def asks (desktopId : String) (gone : Option ExitStatus) (t : Turn) : Phase → Option Request
  | .authorizing => some (.wrapperAuthorize desktopId)
  | .starting child => some (.wrapperStart desktopId child)
  | .polling child => some (.wrapperPoll desktopId child)
  | .stopping child =>
      let status := if t.waitFails then none else gone
      some (.wrapperStop desktopId child (status.bind ExitStatus.code))
  | _ => none

/-- A turn's messages are the one it asks. -/
theorem requests_act (desktopId : String) (gone : Option ExitStatus) (t : Turn) (phase : Phase) :
    requests (act desktopId gone t phase).2 = (asks desktopId gone t phase).toList := by
  cases phase with
  | launching =>
      rw [act]
      split <;> rfl
  | _ => rfl

end Wrapper

/-! ### The machine -/

/-- How a call of the daemon fares. -/
inductive Fate
  | answered
  /-- `transport::send` fails, after the daemon has served the request or before. -/
  | failed (e : SendError) (served : Bool)

/-- The daemon serves the request. -/
def Fate.served : Fate → Bool
  | answered => true
  | failed _ served => served

/-- One run of `omarchy-kids-run`. -/
structure Process where
  desktopId : String
  state : Wrapper.State := {}

structure Kiosk where
  daemon : State
  processes : List Process := []

inductive Move
  /-- A tick, or a request that no wrapper sent. -/
  | daemon (env : Env) (e : Daemon.Event)
  | launch (desktopId : String)
  /-- A turn of the `i`th process; `env` is what the daemon meets if it is asked. -/
  | turn (i : Nat) (t : Wrapper.Turn) (env : Env) (fate : Fate)

namespace Kiosk

/-- What a caller gets. -/
def answer (p : Platform) (env : Env) (s : State) (req : Request) : Fate → Wrapper.Answer
  | .answered => .ok (dispatch p env s req).2
  | .failed e _ => .error e

/-- What the `i`th process asks in its turn. -/
def asked (k : Kiosk) (i : Nat) (t : Wrapper.Turn) : Option Request :=
  k.processes[i]?.bind fun proc =>
    Wrapper.asks proc.desktopId (proc.state.goneAt t) t proc.state.phase

/-- The event at the daemon in a move, if there is one. -/
def heard (k : Kiosk) : Move → Option (Env × Daemon.Event)
  | .daemon env e => some (env, e)
  | .launch _ => none
  | .turn i t env fate =>
      if fate.served then (k.asked i t).map fun req => (env, .request req) else none

/-- The turn with the answer it gets; a turn that asks nothing looks at none. -/
def answered (p : Platform) (k : Kiosk) (i : Nat) (t : Wrapper.Turn) (env : Env) (fate : Fate) :
    Wrapper.Turn :=
  match k.asked i t with
  | some req => { t with answer := answer p env k.daemon req fate }
  | none => t

/-- Only the answer is another. -/
theorem answered_eq (p : Platform) (k : Kiosk) (i : Nat) (t : Wrapper.Turn) (env : Env)
    (fate : Fate) : ∃ a, k.answered p i t env fate = { t with answer := a } := by
  unfold answered
  cases k.asked i t with
  | none => exact ⟨t.answer, rfl⟩
  | some req => exact ⟨_, rfl⟩

/-- The processes after a move. -/
def proceed (p : Platform) (k : Kiosk) : Move → List Process
  | .daemon _ _ => k.processes
  | .launch desktopId => k.processes ++ [{ desktopId }]
  | .turn i t env fate =>
      k.processes.modify i fun proc =>
        { proc with state := Wrapper.step proc.desktopId proc.state (k.answered p i t env fate) }

def step (p : Platform) (k : Kiosk) (m : Move) : Kiosk where
  daemon := Runs.run (Daemon.step p) k.daemon (k.heard m).toList
  processes := k.proceed p m

/-- The kiosk after these moves. -/
def run (p : Platform) (k : Kiosk) (moves : List Move) : Kiosk := Runs.run (step p) k moves

theorem run_concat (p : Platform) (k : Kiosk) (moves : List Move) (m : Move) :
    run p k (moves ++ [m]) = step p (run p k moves) m :=
  Runs.run_concat _ _ _

theorem run_append (p : Platform) (k : Kiosk) (past rest : List Move) :
    run p k (past ++ rest) = run p (run p k past) rest :=
  Runs.run_append _ _ _

/-! ### The daemon's side -/

/-- The daemon's events in these moves. -/
def trace (p : Platform) (k : Kiosk) (moves : List Move) : List (Env × Daemon.Event) :=
  Runs.written (step p) (fun k m => (k.heard m).toList) k moves

theorem trace_concat (p : Platform) (k : Kiosk) (moves : List Move) (m : Move) :
    trace p k (moves ++ [m]) = trace p k moves ++ ((run p k moves).heard m).toList :=
  Runs.written_concat _ _ _

theorem trace_append (p : Platform) (k : Kiosk) (past rest : List Move) :
    trace p k (past ++ rest) = trace p k past ++ trace p (run p k past) rest :=
  Runs.written_append _ _ _

theorem trace_cons (p : Platform) (k : Kiosk) (m : Move) (rest : List Move) :
    trace p k (m :: rest) = (k.heard m).toList ++ trace p (step p k m) rest :=
  Runs.written_cons _ _ _

/-- The daemon runs on what it hears. -/
theorem daemon_run (p : Platform) (k : Kiosk) (moves : List Move) :
    (run p k moves).daemon = Runs.run (Daemon.step p) k.daemon (trace p k moves) := by
  induction moves using List.reverseRecOn with
  | nil => rfl
  | append_singleton moves m ih =>
      rw [run_concat, step, ih, trace_concat, Runs.run_append]

/-! ### A process's side -/

/-- The turns that process `i` takes in a move. -/
def turnIn (p : Platform) (i : Nat) (k : Kiosk) : Move → List Wrapper.Turn
  | .turn j t env fate => if j = i then [k.answered p i t env fate] else []
  | _ => []

/-- Its turns in these moves. -/
def turns (p : Platform) (i : Nat) (k : Kiosk) (moves : List Move) : List Wrapper.Turn :=
  Runs.written (step p) (turnIn p i) k moves

theorem turns_concat (p : Platform) (i : Nat) (k : Kiosk) (moves : List Move) (m : Move) :
    turns p i k (moves ++ [m]) = turns p i k moves ++ turnIn p i (run p k moves) m :=
  Runs.written_concat _ _ _

theorem process_step (p : Platform) {k : Kiosk} {i : Nat} {proc : Process}
    (h : k.processes[i]? = some proc) (m : Move) :
    (step p k m).processes[i]? =
      some ⟨proc.desktopId,
        Runs.run (Wrapper.step proc.desktopId) proc.state (turnIn p i k m)⟩ := by
  cases m with
  | daemon env e => exact h
  | launch desktopId =>
      obtain ⟨hi, -⟩ := List.getElem?_eq_some_iff.mp h
      rw [step, proceed, List.getElem?_append_left hi]
      exact h
  | turn j t env fate =>
      simp only [step, proceed, List.getElem?_modify, h, turnIn]
      by_cases hj : j = i
      · subst hj
        simp
      · simp [hj]

/-- A process runs on its own turns, whatever happens beside it. -/
theorem process_run (p : Platform) {k : Kiosk} {i : Nat} {proc : Process}
    (h : k.processes[i]? = some proc) (moves : List Move) :
    (run p k moves).processes[i]? =
      some ⟨proc.desktopId,
        Runs.run (Wrapper.step proc.desktopId) proc.state (turns p i k moves)⟩ := by
  induction moves using List.reverseRecOn with
  | nil => exact h
  | append_singleton moves m ih =>
      rw [run_concat, process_step p ih m, turns_concat, Runs.run_append]

end Kiosk

end OmarchyKids
