import OmarchyKids.Agent.Override

/-!
# OmarchyKids.Agent.Repair

Pairing again: `omarchy-kids-agent repair-pairing` starts `pkexec`, which runs the repair
helper as root. The helper lets the pairing port through UFW, runs `serve` as the child, and
takes the rule away again.

Nothing keeps two helpers apart, or a helper alive. What UFW says and does is given from
outside, and so is whatever others do to its rules. The rule of a port can only be there if it
was there before, or if a helper has opened the port, nobody has closed it since, and that
helper is still in its window or has not ended the way it should (`port_open_iff`).
-/

namespace OmarchyKids

namespace Agent

def repairHelperPath : String := "/usr/lib/omarchy-kids/omarchy-kids-repair-helper"

/-- The command line of `pkexec`; without `--user` it runs the helper as root. -/
def repairCommand (user logname : Option String) (port : UInt16) (timeoutMinutes : UInt32) :
    Except String (List String) := do
  let username ← required "cannot determine the current user (USER/LOGNAME unset)"
    (user <|> logname)
  return ["pkexec", repairHelperPath, "--child-user", username, "--port",
    toString port.toNat, "--timeout-minutes", toString timeoutMinutes.toNat]

end Agent

namespace RepairHelper

/-! ### The helper -/

structure Cli where
  childUser : String
  port : UInt16
  timeoutMinutes : UInt32

inductive Command
  | ufwStatus
  | ufwAllow (port : UInt16)
  | serve (childUser : String) (port : UInt16) (timeoutMinutes : UInt32)
  | ufwDelete (port : UInt16)
  deriving DecidableEq

/-- `{port}/tcp`. -/
def tcp (port : UInt16) : String := toString port.toNat ++ "/tcp"

def Command.argv : Command → List String
  | ufwStatus => ["ufw", "status"]
  | ufwAllow port => ["ufw", "allow", tcp port, "comment", "omarchy-kids pairing window"]
  | serve childUser port timeoutMinutes =>
      ["sudo", "-u", childUser, "omarchy-kids-pairing", "serve", "--port",
        toString port.toNat, "--timeout-minutes", toString timeoutMinutes.toNat]
  | ufwDelete port => ["ufw", "--force", "delete", "allow", tcp port]

/-- What a command does to the rules. -/
def Command.apply (rules : Finset UInt16) : Command → Finset UInt16
  | ufwAllow port => insert port rules
  | ufwDelete port => rules.erase port
  | ufwStatus | serve .. => rules

/-- How a command fares: it cannot be run, or it ends with a status. -/
structure Outcome where
  status : Except String Wrapper.ExitStatus
  stdout : String := ""
  /-- Whether UFW has done what it was told, whatever it says. -/
  applied : Bool := true

def Outcome.succeeded (o : Outcome) : Bool :=
  match o.status with
  | .ok status => status.code = some 0
  | .error _ => false

/-- `ufw_active`, of what `ufw status` prints. -/
def ufwActive (o : Outcome) : Bool :=
  o.succeeded && decide ("Status: active".toList <:+: o.stdout.toList)

inductive Phase
  /-- `is_root`. -/
  | starting
  /-- `ufw_active`, for `open_pairing_ufw_rule`. -/
  | opening
  | allowing
  | serving
  /-- `ufw_active`, for `close_pairing_ufw_rule`; `served` is none if `serve` could not be
  run. -/
  | closing (served : Option Bool)
  | deleting (served : Option Bool)
  deriving DecidableEq

/-- The command of a phase. -/
def Phase.command (cli : Cli) : Phase → Option Command
  | starting => none
  | opening | closing _ => some .ufwStatus
  | allowing => some (.ufwAllow cli.port)
  | serving => some (.serve cli.childUser cli.port cli.timeoutMinutes)
  | deleting _ => some (.ufwDelete cli.port)

/-- The exit code of `main`, of what `run` returns. -/
def exitCode (served : Option Bool) : Int := if served = some true then 0 else 1

/-- The next phase, or the exit code. -/
def act (isRoot : Bool) (o : Outcome) : Phase → Phase ⊕ Int
  | .starting => if isRoot then .inl .opening else .inr 1
  | .opening => if ufwActive o then .inl .allowing else .inl .serving
  | .allowing => if o.succeeded then .inl .serving else .inr (exitCode none)
  -- an error of `serve` is looked at only after the rule is gone
  | .serving => .inl (.closing (o.status.toOption.map fun status => status.code = some 0))
  | .closing served => if ufwActive o then .inl (.deleting served) else .inr (exitCode served)
  -- whether the rule could be deleted is not looked at
  | .deleting served => .inr (exitCode served)

end RepairHelper

namespace Repair

open RepairHelper

/-! ### The machine -/

/-- A process of `omarchy-kids-agent repair-pairing`, with what it has started. -/
inductive Attempt
  | prompting (command : List String)
  | helping (cli : Cli) (phase : Phase)
  /-- `pkexec` has ended, with its own code or the helper's. -/
  | ended (code : Option Int)
  /-- It was never run. -/
  | failed (message : String)

/-- What the agent leaves behind, once it has ended. -/
def Attempt.exit : Attempt → Option Agent.Exit
  | .ended code =>
      if code = some 0 then some (Agent.exitWith ("", .ok ()))
      else some (Agent.exitWith ("", .error
        ("pairing window closed without a successful pairing (pkexec exit " ++
          Override.codeText code ++ ")")))
  | .failed message => some (Agent.exitWith ("", .error message))
  | .prompting _ | .helping .. => none

/-- The rules by which UFW lets ports through, and the attempts so far. -/
structure System where
  rules : Finset UInt16
  attempts : List Attempt := []

inductive Move
  | repairPairing (user logname : Option String) (port : UInt16) (timeoutMinutes : UInt32)
  /-- A turn of the `i`th attempt: the prompt's end, or one command of the helper. -/
  | turn (i : Nat) (prompt : Override.Prompt) (isRoot : Bool) (o : RepairHelper.Outcome)
  /-- It is killed; a command under way may still do its work. -/
  | kill (i : Nat) (applied : Bool)
  /-- Somebody else changes the rules. -/
  | other (rules : Finset UInt16)

/-- The beginning. -/
def Attempt.begin (user logname : Option String) (port : UInt16) (timeoutMinutes : UInt32) :
    Attempt :=
  match Agent.repairCommand user logname port timeoutMinutes with
  | .ok command => .prompting command
  | .error message => .failed message

/-- The command that is run in a turn. -/
def Attempt.command : Attempt → Option Command
  | .helping cli phase => phase.command cli
  | .prompting _ | .ended _ | .failed _ => none

section

variable (parse : List String → Except Int Cli)

/-- One turn. `pkexec PROGRAM ARGUMENTS…` runs the program with these arguments. -/
def Attempt.act (prompt : Override.Prompt) (isRoot : Bool) (o : RepairHelper.Outcome) :
    Attempt → Attempt
  | .prompting command =>
      match prompt with
      | .unspawned e => .failed ("failed to run pkexec: " ++ e)
      | .refused code => .ended code
      | .authorised =>
          match parse (command.drop 1) with
          | .ok cli => .helping cli .starting
          | .error code => .ended (some code)
  | .helping cli phase =>
      match RepairHelper.act isRoot o phase with
      | .inl phase => .helping cli phase
      | .inr code => .ended (some code)
  | .ended code => .ended code
  | .failed message => .failed message

/-- `pkexec`, or the helper in its place, is gone. -/
def Attempt.kill : Attempt → Attempt
  | .prompting _ | .helping .. => .ended none
  | .ended code => .ended code
  | .failed message => .failed message

/-- What UFW does in a move. -/
def System.told (s : System) : Move → Option Command
  | .turn i _ _ o => if o.applied then s.attempts[i]?.bind Attempt.command else none
  | .kill i applied => if applied then s.attempts[i]?.bind Attempt.command else none
  | .repairPairing .. | .other _ => none

def step (s : System) (m : Move) : System where
  rules := match m with
    | .other rules => rules
    | m => (s.told m).elim s.rules (Command.apply s.rules)
  attempts := match m with
    | .repairPairing user logname port timeoutMinutes =>
        s.attempts ++ [Attempt.begin user logname port timeoutMinutes]
    | .turn i prompt isRoot o => s.attempts.modify i (Attempt.act parse prompt isRoot o)
    | .kill i _ => s.attempts.modify i Attempt.kill
    | .other _ => s.attempts

def run (s : System) (moves : List Move) : System := Runs.run (step parse) s moves

end

/-! ### Windows -/

/-- UFW lets the port through from now on, or no longer. -/
def Opens (q : UInt16) (s : System) (m : Move) : Prop := s.told m = some (.ufwAllow q)

def Closes (q : UInt16) (s : System) (m : Move) : Prop := s.told m = some (.ufwDelete q)

/-- Others do not touch the port's rule. -/
def Spares (q : UInt16) (s : System) : Move → Prop
  | .other rules => q ∈ rules ↔ q ∈ s.rules
  | _ => True

/-- The helper is between opening the port and closing it. -/
def Attempt.InWindow (q : UInt16) : Attempt → Prop
  | .helping cli .serving | .helping cli (.closing _) | .helping cli (.deleting _) => cli.port = q
  | _ => False

/-- The move makes an attempt end, or leave its window, with the port open: it is killed;
`ufw allow` fails; `ufw status` no longer says that UFW is active; or the rule is not deleted. -/
def Fault (i : Nat) (s : System) : Move → Prop
  | .kill j _ => j = i
  | .turn j _ _ o => j = i ∧ match s.attempts[i]? with
      | some (.helping _ .allowing) => o.succeeded = false
      | some (.helping _ (.closing _)) => ufwActive o = false
      | some (.helping _ (.deleting _)) => o.applied = false
      | _ => False
  | _ => False

/-- The attempt whose move it is. -/
def Move.attempt : Move → Option Nat
  | turn i .. | kill i _ => some i
  | repairPairing .. | other _ => none

section

variable {parse : List String → Except Int Cli} {q : UInt16} {i : Nat} {s : System}

theorem mem_apply_iff {rules : Finset UInt16} {c : Command} :
    q ∈ c.apply rules ↔ c = .ufwAllow q ∨ (q ∈ rules ∧ c ≠ .ufwDelete q) := by
  cases c with
  | ufwAllow port => simp [Command.apply, eq_comm]
  | ufwDelete port => simp [Command.apply, eq_comm, and_comm]
  | ufwStatus | serve => simp [Command.apply]

/-- A rule comes and goes by the two commands alone. -/
theorem mem_rules_step {m : Move} (hm : Spares q s m) :
    q ∈ (step parse s m).rules ↔ Opens q s m ∨ (q ∈ s.rules ∧ ¬ Closes q s m) := by
  have htold : q ∈ (s.told m).elim s.rules (Command.apply s.rules) ↔
      Opens q s m ∨ (q ∈ s.rules ∧ ¬ Closes q s m) := by
    rw [Opens, Closes]
    cases s.told m with
    | none => simp
    | some c => simp [mem_apply_iff]
  cases m with
  | other rules =>
      have hother : s.told (.other rules) = none := rfl
      rw [hother] at htold
      exact hm.trans htold
  | repairPairing | turn | kill => exact htold

theorem attempts_turn {a : Attempt} (h : s.attempts[i]? = some a) (prompt : Override.Prompt)
    (isRoot : Bool) (o : RepairHelper.Outcome) :
    (step parse s (.turn i prompt isRoot o)).attempts[i]? = some (a.act parse prompt isRoot o) := by
  simp [step, h]

/-- An attempt stays as it is while the others move. -/
theorem attempts_of_ne {a : Attempt} (h : s.attempts[i]? = some a) {m : Move}
    (hm : m.attempt ≠ some i) : (step parse s m).attempts[i]? = some a := by
  cases m with
  | repairPairing user logname port timeoutMinutes =>
      obtain ⟨hi, -⟩ := List.getElem?_eq_some_iff.mp h
      rw [step, List.getElem?_append_left hi]
      exact h
  | turn j | kill j =>
      have hj : j ≠ i := fun heq => hm (congrArg some heq)
      simp [step, h, hj]
  | other => exact h

theorem command_eq_ufwAllow {a : Attempt} (h : a.command = some (.ufwAllow q)) :
    ∃ cli, a = .helping cli .allowing ∧ cli.port = q := by
  cases a with
  | helping cli phase =>
      cases phase with
      | allowing => exact ⟨cli, rfl, Command.ufwAllow.inj (Option.some.inj h)⟩
      | _ => cases h
  | _ => cases h

/-- Who opens a port is in its window from then on. -/
theorem inWindow_of_opens {m : Move} (h : Opens q s m) :
    ∃ i, m.attempt = some i ∧
      ((∃ a, (step parse s m).attempts[i]? = some a ∧ a.InWindow q) ∨ Fault i s m) := by
  cases m with
  | repairPairing | other => cases h
  | kill i applied => exact ⟨i, rfl, .inr rfl⟩
  | turn i prompt isRoot o =>
      refine ⟨i, rfl, ?_⟩
      rw [Opens, System.told] at h
      split at h
      · obtain ⟨a, ha, hcommand⟩ := Option.bind_eq_some_iff.mp h
        obtain ⟨cli, rfl, hport⟩ := command_eq_ufwAllow hcommand
        cases hsucceeded : o.succeeded with
        | true =>
            refine .inl ⟨_, attempts_turn ha prompt isRoot o, ?_⟩
            rw [Attempt.act, RepairHelper.act, if_pos hsucceeded]
            exact hport
        | false => exact .inr ⟨rfl, by rw [ha]; exact hsucceeded⟩
      · cases h

/-- It stays there until the port is closed. -/
theorem inWindow_step {m : Move} (hspared : ¬ Closes q s m)
    (h : ∃ a, s.attempts[i]? = some a ∧ a.InWindow q) :
    (∃ a, (step parse s m).attempts[i]? = some a ∧ a.InWindow q) ∨ Fault i s m := by
  obtain ⟨a, ha, hwindow⟩ := h
  by_cases hm : m.attempt = some i
  · cases m with
    | repairPairing | other => cases hm
    | kill j applied => exact .inr (Option.some.inj hm)
    | turn j prompt isRoot o =>
        obtain rfl : j = i := Option.some.inj hm
        have hnext := @attempts_turn parse j s a ha prompt isRoot o
        cases a with
        | helping cli phase =>
            cases phase with
            | serving => exact .inl ⟨_, hnext, hwindow⟩
            | closing served =>
                cases hactive : ufwActive o with
                | true =>
                    refine .inl ⟨_, hnext, ?_⟩
                    rw [Attempt.act, RepairHelper.act, if_pos hactive]
                    exact hwindow
                | false => exact .inr ⟨rfl, by rw [ha]; exact hactive⟩
            | deleting served =>
                cases happlied : o.applied with
                | true =>
                    refine absurd ?_ hspared
                    rw [Closes, System.told, if_pos happlied, ha]
                    exact congrArg (fun port => some (Command.ufwDelete port)) hwindow
                | false => exact .inr ⟨rfl, by rw [ha]; exact happlied⟩
            | _ => exact hwindow.elim
        | _ => exact hwindow.elim
  · exact .inl ⟨a, attempts_of_ne ha hm, hwindow⟩

/-- Who has opened a port stays in its window until somebody closes it, or it goes wrong. -/
theorem inWindow_run {before after : List Move} {m : Move} (hopens : Opens q (run parse s before) m)
    (hafter : Runs.Along (step parse) (fun s m => ¬ Closes q s m) (run parse s (before ++ [m]))
      after) :
    ∃ i, m.attempt = some i ∧
      ((∃ a, (run parse s (before ++ m :: after)).attempts[i]? = some a ∧ a.InWindow q) ∨
        ∃ mid m' rest, m :: after = mid ++ m' :: rest ∧
          Fault i (run parse s (before ++ mid)) m') := by
  obtain ⟨i, hi, hopened⟩ := @inWindow_of_opens parse q _ m hopens
  refine ⟨i, hi, ?_⟩
  rcases hopened with hwindow | hfault
  · have hbegun : ∃ a, (run parse s (before ++ [m])).attempts[i]? = some a ∧ a.InWindow q := by
      rw [run, Runs.run_concat]
      exact hwindow
    have hstays := @Runs.holds_or_exists _ _ (step parse) (fun s m => ¬ Closes q s m) (Fault i)
      (fun s => ∃ a, s.attempts[i]? = some a ∧ a.InWindow q) (fun s m hm h => inWindow_step hm h)
      _ _ hafter hbegun
    rcases hstays with hwindow | ⟨mid, m', rest, rfl, hfault⟩
    · rw [run, ← Runs.run_append, List.append_assoc] at hwindow
      exact .inl hwindow
    · rw [run, ← Runs.run_append, List.append_assoc] at hfault
      exact .inr ⟨m :: mid, m', rest, rfl, hfault⟩
  · exact .inr ⟨[], m, after, rfl, by rw [List.append_nil]; exact hfault⟩

/-- **A pairing port is open in pairing windows only.** As long as nobody else touches its rule,
a port is let through exactly if an attempt has opened it and none has closed it since, or if
it was let through at the beginning and none has closed it. In the first case the attempt is
still in its window, or it has ended without closing the port: killed, or because UFW failed
it.

Attempts for one port do share its rule: when a second one's `serve` finds the port taken and
ends, the first one's window is shut. -/
theorem port_open_iff (parse : List String → Except Int Cli) (q : UInt16) (rules : Finset UInt16)
    {moves : List Move} (hothers : Runs.Along (step parse) (Spares q) ⟨rules, []⟩ moves) :
    q ∈ (run parse ⟨rules, []⟩ moves).rules ↔
      (∃ before m after i, moves = before ++ m :: after ∧ m.attempt = some i ∧
          Opens q (run parse ⟨rules, []⟩ before) m ∧
          Runs.Along (step parse) (fun s m => ¬ Closes q s m)
            (run parse ⟨rules, []⟩ (before ++ [m])) after ∧
          ((∃ a, (run parse ⟨rules, []⟩ moves).attempts[i]? = some a ∧ a.InWindow q) ∨
            ∃ mid m' rest, m :: after = mid ++ m' :: rest ∧
              Fault i (run parse ⟨rules, []⟩ (before ++ mid)) m')) ∨
        (q ∈ rules ∧
          Runs.Along (step parse) (fun s m => ¬ Closes q s m) ⟨rules, []⟩ moves) := by
  have hsince := @Runs.holds_iff_since _ _ (step parse) (Spares q) (Opens q) (Closes q)
    (fun s => q ∈ s.rules) (fun s m hm => mem_rules_step hm) _ _ hothers
  rw [run, hsince]
  refine or_congr ⟨?_, ?_⟩ Iff.rfl
  · intro hopened
    obtain ⟨before, m, after, rfl, hopens, hafter⟩ := hopened
    obtain ⟨i, hi, hwindow⟩ := inWindow_run hopens hafter
    exact ⟨before, m, after, i, rfl, hi, hopens, hafter, hwindow⟩
  · intro hopened
    obtain ⟨before, m, after, -, hsplit, -, hopens, hafter, -⟩ := hopened
    exact ⟨before, m, after, hsplit, hopens, hafter⟩

theorem spares_of_ne {m : Move} (h : ∀ rules, m ≠ .other rules) : Spares q s m := by
  cases m with
  | other rules => exact absurd rfl (h rules)
  | repairPairing | turn | kill => trivial

end

/-! ### A window -/

/-- Reads the helper's command line for port 7420. -/
def readsCli : List String → Except Int Cli
  | [_, "--child-user", childUser, "--port", "7420", "--timeout-minutes", "10"] =>
      .ok ⟨childUser, 7420, 10⟩
  | _ => .error 2

def active : RepairHelper.Outcome := ⟨.ok (.exited 0), "Status: active\n", true⟩

/-- The prompt, `is_root`, `ufw status` and `ufw allow`. -/
def windowMoves : List Move :=
  .repairPairing (some "kid") none 7420 10 ::
    List.replicate 4 (.turn 0 .authorised true active)

theorem port_open_iff_window :
    ∃ before m after i, windowMoves = before ++ m :: after ∧ m.attempt = some i ∧
      Opens 7420 (run readsCli ⟨∅, []⟩ before) m ∧
      ((∃ a, (run readsCli ⟨∅, []⟩ windowMoves).attempts[i]? = some a ∧ a.InWindow 7420) ∨
        ∃ mid m' rest, m :: after = mid ++ m' :: rest ∧
          Fault i (run readsCli ⟨∅, []⟩ (before ++ mid)) m') := by
  have hspared : Runs.Along (step readsCli) (Spares 7420) ⟨∅, []⟩ windowMoves :=
    Runs.along_of_forall_mem (fun m hm s => spares_of_ne fun rules heq => by
      simp [windowMoves, heq] at hm) _
  have hopen : 7420 ∈ (run readsCli ⟨∅, []⟩ windowMoves).rules := by decide +kernel
  rcases (port_open_iff readsCli 7420 ∅ hspared).mp hopen with hopened | ⟨hbefore, -⟩
  · obtain ⟨before, m, after, i, hsplit, hi, hopens, -, hwindow⟩ := hopened
    exact ⟨before, m, after, i, hsplit, hi, hopens, hwindow⟩
  · exact absurd hbefore (Finset.notMem_empty _)

end Repair

end OmarchyKids
