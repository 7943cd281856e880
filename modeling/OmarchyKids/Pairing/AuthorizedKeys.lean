import OmarchyKids.Pairing.Proto

/-!
# OmarchyKids.Pairing.AuthorizedKeys

The two things the child does with a received public key: check it, and — only
after a confirmed `Ack` — append it to `authorized_keys`.
-/

namespace OmarchyKids.Pairing

/-- A candidate host key file. -/
inductive HostKeyFile
  | notFound
  | failed (e : String)
  | contents (text : String)
  deriving DecidableEq, Repr

/-- What the child's machine answers while one connection is handled: the
environment, the files and programs it asks, and the randomness it draws. For an
operation that can fail, `none` is success. -/
structure Machine where
  user : Option String := none
  logname : Option String := none
  home : Option String := none
  hostKeyFile : String → HostKeyFile
  /-- The output of `ssh-keygen -lf` on a file with this content. -/
  sshKeygen : String → Except String String
  createDirAll : Option String := none
  /-- Whether `authorized_keys` can be read. -/
  readable : Bool := true
  openAppend : Option String := none
  /-- After how many octets `write_all` fails. -/
  writeAll : Option (Nat × String) := none
  setPermissions : Option String := none
  spakeSeed : List UInt8 := []
  nonce : List UInt8 := []

/-- `none`: no such file. -/
abbrev KeysFile := Option (List UInt8)

/-! ### Checking a key -/

def knownPrefix : List String := ["ssh-ed25519 ", "ssh-rsa ", "ecdsa-sha2-"]

/-- Rejects anything that is not plausibly a public key and returns its
fingerprint; writes nothing. -/
def validateAndFingerprint (m : Machine) (pubkey : String) : Except Failure String := do
  let pubkey := Text.trim pubkey.toList
  if '\n' ∈ pubkey ∨ '\r' ∈ pubkey then
    bail "public key contains embedded newlines, refusing to install it"
  if 4096 < (Utf8.charsBytes pubkey).length then
    bail "public key is implausibly long, refusing to install it"
  if !knownPrefix.any (·.toList.isPrefixOf pubkey) then
    bail "public key doesn't start with a recognized algorithm, refusing to install it"
  match m.sshKeygen (String.ofList pubkey) with
  | .error e => bail e
  | .ok output =>
      match (Text.splitWhitespace output.toList).find? ("SHA256:".toList.isPrefixOf ·) with
      | none => bail "could not parse fingerprint from ssh-keygen output"
      | some token => .ok (String.ofList token)

/-! ### Installing a key -/

/-- The line for a key: it may run the agent and nothing else. -/
def restrictedEntry (pubkey : List Char) : String :=
  "command=\"/usr/bin/omarchy-kids-agent\",no-agent-forwarding,no-X11-forwarding,no-port-forwarding,restrict " ++
    String.ofList pubkey ++ "\n"

/-- The text of the file; empty if it is missing, unreadable or not UTF-8. -/
def readToStringOrEmpty (readable : Bool) (file : KeysFile) : String :=
  if readable then (file.bind Utf8.decode).getD "" else ""

/-- Appends the entry, unless the key's text already occurs in the file. -/
def writeToAuthorizedKeys (m : Machine) (pubkey : String) (file : KeysFile) :
    Except Failure Unit × KeysFile :=
  let pubkey := Text.trim pubkey.toList
  match m.home with
  | none => (bail "HOME is not set", file)
  | some _ =>
      match m.createDirAll with
      | some e => (bail e, file)
      | none =>
          if pubkey <:+: (readToStringOrEmpty m.readable file).toList then (.ok (), file)
          else
            match m.openAppend with
            | some e => (bail e, file)
            | none =>
                -- `create(true)`: from here on the file exists
                let existing := file.getD []
                let entry := Utf8.bytes (restrictedEntry pubkey)
                match m.writeAll with
                | some (written, e) => (bail e, some (existing ++ entry.take written))
                | none =>
                    match m.setPermissions with
                    | some e => (bail e, some (existing ++ entry))
                    | none => (.ok (), some (existing ++ entry))

/-- From `before` to `after` at most one entry is added, for this key: whole, cut
short by a failing write, or not at all. -/
def AddsEntry (pubkey : String) (before after : KeysFile) : Prop :=
  after = before ∨
    ∃ added, added <+: Utf8.bytes (restrictedEntry (Text.trim pubkey.toList)) ∧
      after = some (before.getD [] ++ added)

theorem writeToAuthorizedKeys_adds (m : Machine) (pubkey : String) (file : KeysFile) :
    AddsEntry pubkey file (writeToAuthorizedKeys m pubkey file).2 := by
  unfold writeToAuthorizedKeys
  dsimp only
  split
  · exact .inl rfl
  · split
    · exact .inl rfl
    · split
      · exact .inl rfl
      · split
        · exact .inl rfl
        · split
          · exact .inr ⟨_, List.take_prefix _ _, rfl⟩
          · split <;> exact .inr ⟨_, List.prefix_refl _, rfl⟩

end OmarchyKids.Pairing
