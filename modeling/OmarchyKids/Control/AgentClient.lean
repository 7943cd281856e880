import OmarchyKids.Control.HostRegistry
import OmarchyKids.Lib.Argv
import OmarchyKids.Lib.Utf8

/-!
# OmarchyKids.Control.AgentClient

How the Control Center calls `ssh` for a paired child: the pinned known-hosts
file, the argument vector, and what `ssh` reads out of it.

The vector is exec'd without a shell, so no field is shell syntax. It is still
read by `ssh`'s own argument grammar, and the destination is the one field that
stands where an option could: `ssh_reads_arguments_iff` says for which entries
it is read as the destination.
-/

namespace OmarchyKids

namespace AgentClient

/-- The name under which the pinned host key is filed. -/
def kHostKeyAlias : String := "omarchy-kids-child"

/-- The six characters `mkstemp` puts in the place of `XXXXXX`. -/
structure TempName where
  suffix : List Char
  length_suffix : suffix.length = 6
  isAlphanum : ∀ c ∈ suffix, c.isAlphanum

/-- How setting up the temporary file turns out: the name `mkstemp` finds (if
any), and how many octets of what is written reach the file. -/
structure TempFile where
  mkstemp : Option TempName
  kept : Nat

/-- The per-call known-hosts file. The path is empty while there is none. -/
structure PinnedKnownHosts where
  path : String := ""
  content : List UInt8 := []
  deriving DecidableEq

def PinnedKnownHosts.open (host : HostEntry) (tmp : TempFile) : PinnedKnownHosts :=
  if host.sshHostPublicKey = "" then {}
  else
    match tmp.mkstemp with
    | none => {}
    | some name =>
        -- the stream's state is never looked at: a failed write goes unnoticed
        { path := "/tmp/omarchy-kids-control-known-hosts-" ++ String.ofList name.suffix
          content :=
            (Utf8.bytes (kHostKeyAlias ++ " " ++ host.sshHostPublicKey ++ "\n")).take tmp.kept }

def PinnedKnownHosts.valid (pinned : PinnedKnownHosts) : Bool := pinned.path != ""

/-- The vector `AgentClient::run` builds, program name included. -/
def argv (host : HostEntry) (pinned : PinnedKnownHosts) (agentArgs : List String) : List String :=
  ["ssh", "-i", host.keyPath, "-p", toString host.sshPort, "-o", "BatchMode=yes",
    "-o", "ConnectTimeout=5"] ++
  (if pinned.valid then
    ["-o", "StrictHostKeyChecking=yes", "-o", "UserKnownHostsFile=" ++ pinned.path,
      "-o", "GlobalKnownHostsFile=/dev/null", "-o", "HostKeyAlias=" ++ kHostKeyAlias]
  else ["-o", "StrictHostKeyChecking=accept-new"]) ++
  [host.username ++ "@" ++ host.hostname] ++ agentArgs

/-- What `execvp` hands to `ssh` after the program name: every string is passed
as its `c_str()`. -/
def sshArgs (host : HostEntry) (tmp : TempFile) (agentArgs : List String) : List String :=
  (argv host (.open host tmp) agentArgs).tail.map Argv.cString

/-! ### How `ssh` reads its arguments -/

/-- The options `AgentClient` uses have their value in the next argument. -/
def sshTakesValue (option : String) : Bool := option == "-i" || option == "-p" || option == "-o"

/-- The options, then the destination and the remote command. -/
def sshReads (args : List String) : Argv.Reading := Argv.read sshTakesValue args

/-- The options `AgentClient` itself sets. -/
def ownOptions (host : HostEntry) (pinned : PinnedKnownHosts) : List (String × String) :=
  [("-i", host.keyPath), ("-p", toString host.sshPort), ("-o", "BatchMode=yes"),
    ("-o", "ConnectTimeout=5")] ++
  if pinned.valid then
    [("-o", "StrictHostKeyChecking=yes"), ("-o", "UserKnownHostsFile=" ++ pinned.path),
      ("-o", "GlobalKnownHostsFile=/dev/null"), ("-o", "HostKeyAlias=" ++ kHostKeyAlias)]
  else [("-o", "StrictHostKeyChecking=accept-new")]

/-- What the call is meant to say: these options, one destination, and the agent
arguments as remote command. -/
def intended (host : HostEntry) (tmp : TempFile) (agentArgs : List String) : Argv.Reading where
  options := Argv.valued (ownOptions host (.open host tmp))
  operands := (host.username ++ "@" ++ host.hostname) :: agentArgs

/-- The vector is the own options in front of destination and command. -/
theorem argv_tail (host : HostEntry) (pinned : PinnedKnownHosts) (agentArgs : List String) :
    (argv host pinned agentArgs).tail =
      Argv.flat (ownOptions host pinned) ++
        (host.username ++ "@" ++ host.hostname) :: agentArgs := by
  unfold argv ownOptions
  split <;> simp [Argv.flat]

/-! ### Which strings survive as C strings -/

theorem nulFree_ofList {cs : List Char} (h : ∀ c ∈ cs, c.isAlphanum) :
    Argv.NulFree (String.ofList cs) := by
  intro hmem
  rw [String.toList_ofList] at hmem
  exact absurd (h _ hmem) (by decide)

theorem nulFree_port (port : Int) : Argv.NulFree (toString port) := by
  have hdigits (n : Nat) : Argv.NulFree (toString n) := by
    intro hmem
    have hdigit := Nat.isDigit_of_mem_toDigits (b := 10) (by decide) (by decide)
      (show '\x00' ∈ Nat.toDigits 10 n by simpa [Nat.repr] using hmem)
    exact absurd hdigit (by decide)
  cases port with
  | ofNat n => exact hdigits n
  | negSucc n =>
      show Argv.NulFree ("-" ++ toString (n + 1))
      exact (Argv.nulFree_append _ _).mpr ⟨by decide, hdigits _⟩

theorem nulFree_path (host : HostEntry) (tmp : TempFile) :
    Argv.NulFree (PinnedKnownHosts.open host tmp).path := by
  unfold PinnedKnownHosts.open
  split
  · decide
  · split
    · decide
    · next name _ =>
        exact (Argv.nulFree_append _ _).mpr ⟨by decide +kernel, nulFree_ofList name.isAlphanum⟩

theorem nulFree_destination (host : HostEntry) :
    Argv.NulFree (host.username ++ "@" ++ host.hostname) ↔
      Argv.NulFree host.username ∧ Argv.NulFree host.hostname := by
  have hat : Argv.NulFree "@" := by decide
  rw [Argv.nulFree_append, Argv.nulFree_append, and_iff_left hat]

/-- The texts among the options pass `exec` unchanged. -/
theorem cString_optionText : ∀ text ∈ ["-i", "-p", "-o", "BatchMode=yes", "ConnectTimeout=5",
    "StrictHostKeyChecking=yes", "StrictHostKeyChecking=accept-new",
    "GlobalKnownHostsFile=/dev/null", "HostKeyAlias=" ++ kHostKeyAlias],
    Argv.cString text = text := by
  decide +kernel

/-- So does the name of the file. -/
theorem cString_knownHostsFile (host : HostEntry) (tmp : TempFile) :
    Argv.cString ("UserKnownHostsFile=" ++ (PinnedKnownHosts.open host tmp).path) =
      "UserKnownHostsFile=" ++ (PinnedKnownHosts.open host tmp).path :=
  ((Argv.nulFree_append _ _).mpr ⟨by decide +kernel, nulFree_path host tmp⟩).cString

/-- The options pass `exec` unchanged exactly when the key path does. -/
theorem ownOptions_cString (host : HostEntry) (tmp : TempFile) :
    (ownOptions host (.open host tmp)).map (fun o => (Argv.cString o.1, Argv.cString o.2)) =
        ownOptions host (.open host tmp) ↔ Argv.NulFree host.keyPath := by
  have hport : Argv.cString host.sshPort.repr = host.sshPort.repr :=
    (nulFree_port host.sshPort).cString
  have hpath := cString_knownHostsFile host tmp
  have htext := cString_optionText
  simp only [List.forall_mem_cons] at htext
  rw [← Argv.cString_eq_self_iff]
  unfold ownOptions
  split <;> simp [hport, hpath, htext]

/-- The flags are options with a value, also after `exec`. -/
theorem ownOptions_flag (host : HostEntry) (pinned : PinnedKnownHosts) :
    ∀ o ∈ ownOptions host pinned,
      Argv.isOption (Argv.cString o.1) = true ∧ sshTakesValue (Argv.cString o.1) = true := by
  intro o ho
  have hflag : o.1 = "-i" ∨ o.1 = "-p" ∨ o.1 = "-o" := by
    unfold ownOptions at ho
    split at ho <;> simp at ho <;> grind
  rcases hflag with h | h | h <;> rw [h] <;> decide

theorem execOptions_flag (host : HostEntry) (tmp : TempFile) :
    ∀ o ∈ (ownOptions host (.open host tmp)).map (fun o => (Argv.cString o.1, Argv.cString o.2)),
      Argv.isOption o.1 = true ∧ sshTakesValue o.1 = true := by
  intro o ho
  obtain ⟨own, hown, rfl⟩ := List.mem_map.mp ho
  exact ownOptions_flag host _ own hown

/-- So they are read off the front of what `exec` hands on. -/
theorem sshReads_flat (host : HostEntry) (tmp : TempFile) (rest : List String) :
    sshReads (Argv.flat ((ownOptions host (.open host tmp)).map
        fun o => (Argv.cString o.1, Argv.cString o.2)) ++ rest) =
      ⟨Argv.valued ((ownOptions host (.open host tmp)).map
          fun o => (Argv.cString o.1, Argv.cString o.2)) ++ (sshReads rest).options,
        (sshReads rest).operands⟩ :=
  Argv.read_flat (execOptions_flag host tmp) rest

/-- `user@host` looks like an option exactly when the username does. -/
theorem isOption_destination (host : HostEntry) :
    Argv.isOption (host.username ++ "@" ++ host.hostname) = Argv.isOption host.username := by
  rw [String.append_assoc]
  refine Argv.isOption_append ?_
  show Argv.isOption ("@" ++ host.hostname) = false
  rw [Argv.isOption, String.toList_append]
  rfl

theorem sshArgs_eq (host : HostEntry) (tmp : TempFile) (agentArgs : List String) :
    sshArgs host tmp agentArgs =
      Argv.flat ((ownOptions host (.open host tmp)).map
          fun o => (Argv.cString o.1, Argv.cString o.2)) ++
        Argv.cString (host.username ++ "@" ++ host.hostname) :: agentArgs.map Argv.cString := by
  rw [sshArgs, argv_tail, List.map_append, List.map_cons]
  simp [Argv.flat, List.flatMap_map, List.map_flatMap]

/-- `ssh` reads exactly what the call is meant to say when the username does not
look like an option and no string is cut at a NUL, and only then. -/
theorem ssh_reads_arguments_iff (host : HostEntry) (tmp : TempFile) (agentArgs : List String) :
    sshReads (sshArgs host tmp agentArgs) = intended host tmp agentArgs ↔
      Argv.isOption host.username = false ∧ Argv.NulFree host.username ∧
        Argv.NulFree host.hostname ∧ Argv.NulFree host.keyPath ∧
        ∀ arg ∈ agentArgs, Argv.NulFree arg := by
  have hcommand : agentArgs = agentArgs.map Argv.cString ↔
      ∀ arg ∈ agentArgs, Argv.NulFree arg := by
    rw [eq_comm, Argv.map_cString_eq_self_iff]
  have hdest : host.username ++ "@" ++ host.hostname =
        Argv.cString (host.username ++ "@" ++ host.hostname) ↔
      Argv.NulFree host.username ∧ Argv.NulFree host.hostname := by
    rw [eq_comm, Argv.cString_eq_self_iff, nulFree_destination]
  rw [sshReads, sshArgs_eq, intended, Argv.read_flat_iff (List.length_map _)
      (execOptions_flag host tmp),
    ownOptions_cString, Argv.isOption_cString, isOption_destination, List.cons.injEq, hdest,
    hcommand]
  constructor
  · intro h
    obtain ⟨hkey, hdash, ⟨huser, hhost⟩, hargs⟩ := h
    exact ⟨hdash, huser, hhost, hkey, hargs⟩
  · intro h
    obtain ⟨hdash, huser, hhost, hkey, hargs⟩ := h
    exact ⟨hkey, hdash, ⟨huser, hhost⟩, hargs⟩

/-- An entry as a tampered pairing could leave it. -/
def proxyHost : HostEntry :=
  { name := "Mia", hostname := "10.0.0.5", username := "-oProxyCommand=sh /tmp/x ",
    keyPath := "/home/parent/keys/Mia" }

/-- A username that begins with a dash becomes an option that runs a local
command, and the agent's subcommand the destination. -/
theorem username_is_read_as_option :
    sshReads (sshArgs proxyHost ⟨none, 0⟩ ["status", "--json"]) ≠
        intended proxyHost ⟨none, 0⟩ ["status", "--json"] ∧
      ("-oProxyCommand=sh /tmp/x @10.0.0.5", none) ∈
        (sshReads (sshArgs proxyHost ⟨none, 0⟩ ["status", "--json"])).options ∧
      (sshReads (sshArgs proxyHost ⟨none, 0⟩ ["status", "--json"])).operands =
        ["status", "--json"] := by
  decide +kernel

end AgentClient

end OmarchyKids
