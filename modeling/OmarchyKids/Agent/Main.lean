import OmarchyKids.Common.Transport
import OmarchyKids.Lib.ShellWords

/-!
# OmarchyKids.Agent.Main

The agent's command line tool on the child: where it takes its arguments from, and
what it makes of the daemon's answer.

Behind the pairing key it is started without arguments; what the parent's side
asked for is one text in `SSH_ORIGINAL_COMMAND`, which is taken apart again as a
shell would. An answer leaves twice: as text on the standard output, and as exit
code, which is a failure also for an answer that refuses.
-/

namespace OmarchyKids

namespace Agent

/-- What can be asked for. -/
inductive Subcommand
  | status
  | unlock
  | override
  | report
  | setTier
  | repairPairing
  deriving DecidableEq, Repr

/-- The subcommand on the command line. -/
def Subcommand.name : Subcommand → String
  | status => "status"
  | unlock => "unlock"
  | override => "override"
  | report => "report"
  | setTier => "set-tier"
  | repairPairing => "repair-pairing"

/-- `shlex::split`. -/
def shlexSplit (text : String) : Option (List String) :=
  (ShellWords.split text.toList).map (List.map String.ofList)

/-- The arguments to parse. `original` is `SSH_ORIGINAL_COMMAND`, if it is set. -/
def effectiveArgs (argv : List String) (original : Option String) : List String :=
  if 1 < argv.length then argv
  else
    match original with
    | none => argv
    | some original =>
        match shlexSplit original with
        | none => argv
        | some parsed => argv ++ parsed

theorem shlexSplit_eq_some_iff {text : String} {words : List String} :
    shlexSplit text = some words ↔ ShellWords.split text.toList = some (words.map String.toList) := by
  have hmap : ∀ ls : List (List Char),
      ls.map String.ofList = words ↔ ls = words.map String.toList := by
    intro ls
    constructor
    · intro h
      simp [← h]
    · intro h
      simp [h]
  simp only [shlexSplit, Option.map_eq_some_iff, hmap]
  constructor
  · intro h
    obtain ⟨ls, hls, rfl⟩ := h
    exact hls
  · intro h
    exact ⟨_, h, rfl⟩

/-- With nothing but the program's name, the arguments that follow are the words
of the original command. -/
theorem effectiveArgs_singleton_iff {argv0 original : String} {args : List String}
    (hargs : args ≠ []) :
    effectiveArgs [argv0] (some original) = argv0 :: args ↔ shlexSplit original = some args := by
  have hlen : ¬ 1 < [argv0].length := by simp
  rw [effectiveArgs, if_neg hlen]
  cases h : shlexSplit original with
  | none => simp [hargs.symm]
  | some parsed => simp

/-! ### Asking the daemon -/

/-- What the process leaves behind. -/
structure Exit where
  stdout : String
  stderr : String
  code : Nat
  deriving DecidableEq, Repr

section

-- `serde_json::to_string_pretty`, the texts of the transport's errors, and the
-- output for people
variable (toStringPretty : Response → String) (errorText : SendError → String)
  (printHuman : Request → Response → String × Except String Unit)

/-- What is printed for the daemon's answer, and the result. -/
def sendAndPrint (req : Request) (jsonOut : Bool) (answer : Except SendError Response) :
    String × Except String Unit :=
  match answer with
  | .error e => ("", .error (errorText e))
  | .ok resp =>
      if jsonOut then
        (toStringPretty resp ++ "\n",
          if resp.ok then .ok () else .error (resp.error.getD ""))
      else if !resp.ok then ("", .error (resp.error.getD "agentd returned an error"))
      else printHuman req resp

/-- The end of `main`. -/
def exitWith : String × Except String Unit → Exit
  | (stdout, .ok ()) => ⟨stdout, "", 0⟩
  | (stdout, .error msg) => ⟨stdout, "omarchy-kids-agent: " ++ msg ++ "\n", 1⟩

/-- With `--json` every answer is printed, and a refusal is a failure too. -/
theorem exitWith_answer (req : Request) (resp : Response) :
    (exitWith (sendAndPrint toStringPretty errorText printHuman req true (.ok resp))).stdout =
        toStringPretty resp ++ "\n" ∧
      ((exitWith (sendAndPrint toStringPretty errorText printHuman req true (.ok resp))).code = 0 ↔
        resp.ok = true) := by
  simp only [sendAndPrint, if_true]
  cases resp.ok with
  | true => exact ⟨rfl, by simp [exitWith]⟩
  | false => exact ⟨rfl, by simp [exitWith]⟩

end

end Agent

end OmarchyKids
