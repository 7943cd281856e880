import OmarchyKids.Agent.Main
import OmarchyKids.Control.AgentClient

/-!
# OmarchyKids.Control.RemoteCommand

The way of the agent's arguments from `AgentClient::run` to the agent: `exec`
hands them to `ssh` as C strings, `ssh` joins them with single blanks, and the
agent splits the text as a shell would. Nothing on the way quotes them.

So the agent gets the arguments back exactly when none of them needs a quote
(`effectiveArgs_eq_iff`); an app name with a blank arrives as two arguments, one
with an apostrophe as none.
-/

namespace OmarchyKids

namespace AgentClient

/-- What `ssh` has as remote command. -/
def remoteCommand (agentArgs : List String) : List String := agentArgs.map Argv.cString

/-- What `sshd` leaves in `SSH_ORIGINAL_COMMAND`. -/
def sshOriginalCommand (command : List String) : Option String :=
  if command = [] then none else some (" ".intercalate command)

/-- Where the destination is read as such, what follows it is the command. -/
theorem operands_sshReads {host : HostEntry} (h : Argv.isOption host.username = false)
    (tmp : TempFile) (agentArgs : List String) :
    (sshReads (sshArgs host tmp agentArgs)).operands =
      Argv.cString (host.username ++ "@" ++ host.hostname) :: remoteCommand agentArgs := by
  have hdest : Argv.isOption (Argv.cString (host.username ++ "@" ++ host.hostname)) = false := by
    rw [Argv.isOption_cString, isOption_destination, h]
  rw [sshArgs_eq, sshReads_flat]
  show (Argv.read sshTakesValue _).operands = _
  rw [Argv.read_operand hdest]
  rfl

/-- An argument that comes out of the other end as it went in. -/
def Survives (arg : String) : Prop := Argv.NulFree arg ∧ ShellWords.Plain arg.toList

instance (arg : String) : Decidable (Survives arg) := inferInstanceAs (Decidable (_ ∧ _))

/-- The arguments as `exec` hands them on weigh no more than the arguments, and as
much only if none is cut. -/
theorem weight_remoteCommand (args : List String) :
    ShellWords.weight ((remoteCommand args).map String.toList) ≤
        ShellWords.weight (args.map String.toList) ∧
      (ShellWords.weight ((remoteCommand args).map String.toList) =
          ShellWords.weight (args.map String.toList) → ∀ arg ∈ args, Argv.NulFree arg) := by
  induction args with
  | nil => simp [remoteCommand]
  | cons arg args ih =>
      have harg := Argv.length_cString_le arg
      obtain ⟨hle, hfree⟩ := ih
      simp only [remoteCommand, List.map_cons, ShellWords.weight_cons] at hle hfree ⊢
      refine ⟨by omega, fun h => List.forall_mem_cons.mpr ⟨?_, hfree (by omega)⟩⟩
      exact Argv.nulFree_of_length (by omega)

/-- Joined and split again, the arguments are as they were exactly when each
survives on its own. -/
theorem shlexSplit_join_iff {args : List String} :
    Agent.shlexSplit (" ".intercalate (remoteCommand args)) = some args ↔
      ∀ arg ∈ args, Survives arg := by
  have hjoin : (" ".intercalate (remoteCommand args)).toList =
      ShellWords.join ((remoteCommand args).map String.toList) := by
    rw [String.toList_intercalate]
    rfl
  rw [Agent.shlexSplit_eq_some_iff, hjoin]
  obtain ⟨hle, hfree⟩ := weight_remoteCommand args
  constructor
  · intro h arg harg
    obtain ⟨hback, hplain⟩ := ShellWords.split_join h
    exact ⟨hfree (by omega) arg harg, hplain (by omega) _ (List.mem_map_of_mem harg)⟩
  · intro h
    have hsame : remoteCommand args = args :=
      (Argv.map_cString_eq_self_iff args).mpr fun arg harg => (h arg harg).1
    rw [hsame]
    refine ShellWords.split_join_of_plain fun w hw => ?_
    obtain ⟨arg, harg, rfl⟩ := List.mem_map.mp hw
    exact (h arg harg).2

theorem survives_name (command : Agent.Subcommand) : Survives command.name := by
  have hplain : ShellWords.Plain command.name.toList := by
    rw [ShellWords.plain_iff]
    cases command <;> simp [Agent.Subcommand.name, ShellWords.Ordinary] <;> decide
  cases command <;> exact ⟨by decide, hplain⟩

/-- The agent's command line is its own name and the arguments that were meant
exactly when each argument behind the subcommand survives on its own. -/
theorem effectiveArgs_eq_iff (argv0 : String) (command : Agent.Subcommand) (args : List String) :
    Agent.effectiveArgs [argv0] (sshOriginalCommand (remoteCommand (command.name :: args))) =
        argv0 :: command.name :: args ↔
      ∀ arg ∈ args, Survives arg := by
  have hne : command.name :: args ≠ [] := List.cons_ne_nil _ _
  have hset : sshOriginalCommand (remoteCommand (command.name :: args)) =
      some (" ".intercalate (remoteCommand (command.name :: args))) := if_neg (List.cons_ne_nil _ _)
  rw [hset, Agent.effectiveArgs_singleton_iff hne, shlexSplit_join_iff, List.forall_mem_cons,
    and_iff_right (survives_name command)]

/-- An app id with a blank in it is two arguments at the child, and the text of one
with an apostrophe cannot be split at all. -/
theorem app_id_is_taken_apart :
    Agent.effectiveArgs ["omarchy-kids-agent"] (sshOriginalCommand (remoteCommand
        ["unlock", "my app", "--minutes", "30", "--json"])) =
      ["omarchy-kids-agent", "unlock", "my", "app", "--minutes", "30", "--json"] ∧
    Agent.effectiveArgs ["omarchy-kids-agent"] (sshOriginalCommand (remoteCommand
        ["unlock", "kid's app", "--minutes", "30", "--json"])) = ["omarchy-kids-agent"] := by
  decide +kernel

end AgentClient

end OmarchyKids
