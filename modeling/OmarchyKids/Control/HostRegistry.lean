import OmarchyKids.Lib.KeyedList
import OmarchyKids.Lib.TomlText

/-!
# OmarchyKids.Control.HostRegistry

The Control Center's list of paired child hosts, one entry per name, and the file
`hosts.toml` that it is kept in. The TOML library is a parameter.

`save` truncates the file in place, so a reader that comes in between, or after a crash,
sees some beginning of the new text.
-/

namespace OmarchyKids

/-- One paired child host — what the Control Center needs to reach and identify
it again. -/
structure HostEntry where
  /-- The label the parent chose. -/
  name : String := ""
  hostname : String := ""
  sshPort : Int := 22
  /-- The child account to log in as. -/
  username : String := ""
  /-- The private key; its public half is at `keyPath ++ ".pub"`. -/
  keyPath : String := ""
  fingerprint : String := ""
  pairedAt : String := ""
  /-- The child's sshd host key line; empty for hosts paired before it was
  recorded. -/
  sshHostPublicKey : String := ""
  deriving DecidableEq, Repr

namespace HostRegistry

/-- Adds a newly paired host, or replaces the first entry of the same name. -/
def addHost (entry : HostEntry) (hosts : List HostEntry) : List HostEntry :=
  KeyedList.put HostEntry.name entry hosts

/-! ### The file -/

/-- `node_view::value_or` for a text. -/
def stringOr (default : String) : Option TomlText.Value → String
  | some (.string s) => s
  | _ => default

/-- The values of a C++ `int`. -/
def IsInt (n : Int) : Prop := -2 ^ 31 ≤ n ∧ n < 2 ^ 31

instance (n : Int) : Decidable (IsInt n) := inferInstanceAs (Decidable (_ ∧ _))

/-- `node_view::value_or` for an `int`: what does not fit is as good as missing. -/
def intOr (default : Int) : Option TomlText.Value → Int
  | some (.integer n) => if IsInt n then n else default
  | some (.other (some n)) => if IsInt n then n else default
  | _ => default

/-- An entry from its table; a missing field has its default. -/
def entryOf (t : TomlText.Table) : HostEntry where
  name := stringOr "" (t.lookup "name")
  hostname := stringOr "" (t.lookup "hostname")
  sshPort := intOr 22 (t.lookup "ssh_port")
  username := stringOr "" (t.lookup "username")
  keyPath := stringOr "" (t.lookup "key_path")
  fingerprint := stringOr "" (t.lookup "fingerprint")
  pairedAt := stringOr "" (t.lookup "paired_at")
  sshHostPublicKey := stringOr "" (t.lookup "ssh_host_public_key")

/-- The entries of a document; elements that are no tables are skipped. -/
def entriesOf (root : TomlText.Table) : List HostEntry :=
  match root.lookup "hosts" with
  | some (.array elems) =>
      elems.filterMap fun
        | .table t => some (entryOf t)
        | _ => none
  | _ => []

/-- What the constructor makes of the file: nothing of a missing or malformed one. -/
def load (toml : TomlText.Library) (file : Option (List Char)) : List HostEntry :=
  match file with
  | none => []
  | some text =>
      match toml.parse text with
      | none => []
      | some root => entriesOf root

/-- The table of an entry. -/
def tableOf (h : HostEntry) : TomlText.Table :=
  TomlText.insert "ssh_host_public_key" (.string h.sshHostPublicKey) <|
  TomlText.insert "paired_at" (.string h.pairedAt) <|
  TomlText.insert "fingerprint" (.string h.fingerprint) <|
  TomlText.insert "key_path" (.string h.keyPath) <|
  TomlText.insert "username" (.string h.username) <|
  TomlText.insert "ssh_port" (.integer h.sshPort) <|
  TomlText.insert "hostname" (.string h.hostname) <|
  TomlText.insert "name" (.string h.name) []

/-- The text that `save` puts into the file. -/
def saveText (toml : TomlText.Library) (hosts : List HostEntry) : List Char :=
  toml.render (TomlText.insert "hosts" (.array (hosts.map fun h => .table (tableOf h))) [])

/-! #### Encoding and decoding -/

theorem tableOf_eq (h : HostEntry) :
    tableOf h =
      [("fingerprint", .string h.fingerprint), ("hostname", .string h.hostname),
        ("key_path", .string h.keyPath), ("name", .string h.name),
        ("paired_at", .string h.pairedAt), ("ssh_host_public_key", .string h.sshHostPublicKey),
        ("ssh_port", .integer h.sshPort), ("username", .string h.username)] := by
  simp [tableOf, TomlText.insert, List.cons_lt_cons_iff]

theorem saveText_eq (toml : TomlText.Library) (hosts : List HostEntry) :
    saveText toml hosts = toml.render (TomlText.tables "hosts" (hosts.map tableOf)) := by
  rw [saveText, TomlText.insert, TomlText.tables, List.map_map]
  rfl

/-- Every field comes back. -/
theorem entryOf_tableOf {h : HostEntry} (hport : IsInt h.sshPort) : entryOf (tableOf h) = h := by
  rw [tableOf_eq]
  simp [entryOf, List.lookup, stringOr, intOr, hport]

theorem entriesOf_tables (ts : List TomlText.Table) :
    entriesOf (TomlText.tables "hosts" ts) = ts.map entryOf := by
  simp [entriesOf, TomlText.tables, List.filterMap_map]

theorem bareKey_hosts : TomlText.BareKey "hosts" := by
  simp [TomlText.BareKey]

theorem flat_tableOf {h : HostEntry} (hport : IsInt h.sshPort) : TomlText.Flat (tableOf h) := by
  rw [tableOf_eq]
  refine ⟨?_, ?_, ?_⟩
  · simp [TomlText.BareKey]
  · have hlo := hport.1
    have hhi := hport.2
    simp [TomlText.Value.IsScalar]
    omega
  · simp [List.cons_lt_cons_iff]

end HostRegistry

end OmarchyKids
