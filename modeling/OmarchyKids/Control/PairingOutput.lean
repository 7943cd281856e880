import OmarchyKids.Control.PairingDialog
import OmarchyKids.Lib.Json
import OmarchyKids.Lib.Lines
import OmarchyKids.Pairing.Pair

/-!
# OmarchyKids.Control.PairingOutput

The standard output of `pair` as the channel between it and the pairing dialog.

`pair` prints for a reader at a terminal: the strings of the child's `Confirm`
stand in its lines as they are. The dialog reads the same lines and acts on those
that begin with one of two markers. A message box of the dialog runs an event loop
of its own, in which more output may arrive; the boxes that are open form a stack.
-/

namespace OmarchyKids

namespace PairingOutput

open Pairing (Confirm)

/-! ### What `pair` prints -/

section Printed

variable (keygen : List UInt8) (keyOut : String) (c : Confirm)

/-- `println!`. -/
def println (line : String) : List UInt8 := Utf8.bytes line ++ [10]

def greeting : String :=
  "Paired with " ++ c.hostname ++ " (SSH port " ++ toString c.sshPort.toNat ++ ")."

def fingerprintLine : String := "Key fingerprint: " ++ c.fingerprint

/-- The question at the terminal; the answer is to stand on the same line. -/
def prompt : String := "Does this match the fingerprint shown on the child's screen? [y/N] "

def knownHostsPath : String := keyOut ++ ".known_hosts"

def tryLine : String :=
  "Try: ssh -o UserKnownHostsFile=" ++ knownHostsPath keyOut ++ " -i " ++ keyOut ++ " -p " ++
    toString c.sshPort.toNat ++ " " ++ c.username ++ "@" ++ c.hostname

def resultJson : Json :=
  .obj [("fingerprint", .str c.fingerprint), ("hostname", .str c.hostname),
    ("key_path", .str keyOut), ("known_hosts_path", .str (knownHostsPath keyOut)),
    ("ssh_host_public_key", .str c.sshHostPublicKey), ("ssh_port", .num c.sshPort.toNat),
    ("username", .str c.username)]

def resultLine : String := "PAIR_RESULT: " ++ String.ofList (resultJson keyOut c).encode

/-- Up to the question. `keygen` is what `ssh-keygen` writes to the same output. -/
def beforeAnswer : List UInt8 :=
  keygen ++ println (greeting c) ++ println (fingerprintLine c) ++ Utf8.bytes prompt

/-- After a yes. -/
def afterAnswer : List UInt8 := println (tryLine keyOut c) ++ println (resultLine keyOut c)

end Printed

/-! ### Reading a line -/

/-- What a line makes the dialog do. -/
inductive Marker
  | question (fingerprint : String)
  | result (object : Json)
  | unreadable
  | other

section Reading

variable (fromUtf8 : List UInt8 → String) (fromJson : String → Option Json)

/-- `fromUtf8` is `QString::fromUtf8`, `fromJson` is `QJsonDocument::fromJson`. -/
def marker (lineBytes : List UInt8) : Marker :=
  let line := (fromUtf8 lineBytes).toList
  match Text.dropLeading "Key fingerprint: ".toList line with
  | some fingerprint => .question (String.ofList fingerprint)
  | none =>
      match Text.dropLeading "PAIR_RESULT: ".toList line with
      | none => .other
      | some json =>
          match fromJson (String.ofList json) with
          | some (.obj fields) => .result (.obj fields)
          | _ => .unreadable

/-- The members of a result, where they have the type that is asked for. -/
def pairResult (object : Json) : PairingDialog.PairResult where
  hostname := text "hostname"
  sshPort :=
    match Json.member "ssh_port" (some object) with
    | some (.num n) => if n < 2147483648 then some n else none
    | _ => none
  username := text "username"
  keyPath := text "key_path"
  fingerprint := text "fingerprint"
  sshHostPublicKey := text "ssh_host_public_key"
where
  text (key : String) : Option String :=
    match Json.member key (some object) with
    | some (.str s) => some s
    | _ => none

/-- The name field, which can be edited at any time, and the clock. -/
structure Screen where
  nameEdit : String
  now : String

def entryOf (screen : Screen) (object : Json) : HostEntry :=
  (PairingDialog.ResultLine.mk screen.nameEdit screen.now (pairResult object)).entry

/-! ### The dialog -/

/-- A message box. -/
inductive Box
  | question (fingerprint : String)
  /-- `fail`; whether it was called while a line was read, so that reading goes on
  when it is closed. -/
  | warning (resumes : Bool)

/-- What the dialog does that the parent or the registry sees. -/
inductive Act
  | asked (fingerprint : String)
  | answered (fingerprint : String) (yes : Bool)
  /-- `registry_.addHost`. -/
  | added (entry : HostEntry)

/-- The loop over the complete lines, up to the next message box: the lines left,
the box, and what was done. -/
def handleLines (screen : Screen) :
    List (List UInt8) → List (List UInt8) × Option Box × List Act
  | [] => ([], none, [])
  | line :: lines =>
      match marker fromUtf8 fromJson line with
      | .question fingerprint => (lines, some (.question fingerprint), [.asked fingerprint])
      | .unreadable => (lines, some (.warning true), [])
      | .result object =>
          let (left, box, acts) := handleLines screen lines
          (left, box, .added (entryOf screen object) :: acts)
      | .other => handleLines screen lines

/-- The dialog during one attempt, and the `pair` process at the other end. -/
structure State where
  /-- Output that the dialog has not read. -/
  unread : List UInt8
  /-- `pair` has gone on after its question. -/
  proceeded : Bool := false
  stdoutBuffer : List UInt8 := []
  /-- The lines written to the process. -/
  stdin : List String := []
  /-- The open message boxes, the innermost first. -/
  boxes : List Box := []
  resultReceived : Bool := false
  errorHandled : Bool := false
  accepted : Bool := false

def isAdded : Act → Bool
  | .added _ => true
  | _ => false

/-- The rest of `handleStdout`, from the top of its loop. -/
def drain (screen : Screen) (s : State) : State × List Act :=
  let (lines, rest) := Lines.split 10 s.stdoutBuffer
  let (left, box, acts) := handleLines fromUtf8 fromJson screen lines
  ({ s with
      stdoutBuffer := left.flatMap (· ++ [10]) ++ rest
      boxes := box.toList ++ s.boxes
      resultReceived := s.resultReceived || acts.any isAdded }, acts)

inductive Event
  /-- `pair` reads the answer and, if it is a yes, goes on to its end. -/
  | proceed
  /-- The next octets of the output arrive. -/
  | read (n : Nat) (screen : Screen)
  /-- The parent closes the innermost box. -/
  | close (yes : Bool) (screen : Screen)
  | finished (normal : Bool) (exitCode : Int)
  | errorOccurred

variable (keygen : List UInt8) (keyOut : String) (c : Confirm)

def turn (s : State) : Event → State × List Act
  | .proceed =>
      -- only the first line written is the answer
      if s.stdin.head?.any Pairing.saysYes && !s.proceeded then
        ({ s with unread := s.unread ++ afterAnswer keyOut c, proceeded := true }, [])
      else (s, [])
  | .read n screen =>
      drain fromUtf8 fromJson screen
        { s with stdoutBuffer := s.stdoutBuffer ++ s.unread.take n, unread := s.unread.drop n }
  | .close yes screen =>
      match s.boxes with
      | [] => (s, [])
      | .question fingerprint :: boxes =>
          let (s', acts) := drain fromUtf8 fromJson screen
            { s with boxes := boxes, stdin := s.stdin ++ [if yes then "y\n" else "n\n"] }
          (s', .answered fingerprint yes :: acts)
      | .warning true :: boxes => drain fromUtf8 fromJson screen { s with boxes := boxes }
      | .warning false :: boxes => ({ s with boxes := boxes }, [])
  | .finished normal exitCode =>
      if s.errorHandled then (s, [])
      else if normal && exitCode = 0 && s.resultReceived then ({ s with accepted := true }, [])
      else ({ s with boxes := .warning false :: s.boxes }, [])
  | .errorOccurred =>
      if s.errorHandled then (s, [])
      else ({ s with errorHandled := true, boxes := .warning false :: s.boxes }, [])

def step (s : State) (e : Event) : State := (turn fromUtf8 fromJson keyOut c s e).1

def out (s : State) (e : Event) : List Act := (turn fromUtf8 fromJson keyOut c s e).2

/-- `pair` has been started and has asked its question. -/
def start : State := { unread := beforeAnswer keygen c }

def exec (events : List Event) : State :=
  Runs.run (step fromUtf8 fromJson keyOut c) (start keygen c) events

/-- What the dialog has done after these events. -/
def acts (events : List Event) : List Act :=
  Runs.written (step fromUtf8 fromJson keyOut c) (out fromUtf8 fromJson keyOut c)
    (start keygen c) events

end Reading

end PairingOutput

end OmarchyKids
