import OmarchyKids.Control.AgentClient
import OmarchyKids.Lib.KnownHosts
import OmarchyKids.Lib.Text

/-!
# OmarchyKids.Control.PinnedKey

The host key that pairing recorded, on its way into the check that `ssh` makes: as
text into the per-call known-hosts file, and as options that name this file.

The key text is written as it is, so a line break in it begins another entry; and
where the file cannot be created, its empty path stands for a host without a
recorded key. `pinned_iff` says when the pin holds: the file could be created, and
what reached it of the key text is the one key.
-/

namespace OmarchyKids

namespace AgentClient

/-! ### The options as `ssh` uses them -/

/-- The setting in an `-o` option. -/
def settingOf : String × Option String → Option String
  | (option, some value) => if option = "-o" then some value else none
  | (option, none) => (Text.dropLeading "-o".toList option.toList).map String.ofList

/-- The value of a setting, if it is one of that name. -/
def valueOf (name setting : String) : Option String :=
  (Text.dropLeading (name ++ "=").toList setting.toList).map String.ofList

/-- Of several values for a setting, `ssh` uses the first. -/
def sshSetting (name : String) (options : List (String × Option String)) : Option String :=
  (options.filterMap settingOf).findSome? (valueOf name)

theorem valueOf_append (name value : String) : valueOf name (name ++ "=" ++ value) = some value := by
  have h : Text.dropLeading (name ++ "=").toList (name ++ "=" ++ value).toList = some value.toList := by
    rw [Text.dropLeading_eq_some_iff, String.toList_append]
  rw [valueOf, h, Option.map_some, String.ofList_toList]

/-- A text that begins otherwise is no value for the name. -/
theorem valueOf_of_head {name setting : String}
    (h : setting.toList.head? ≠ (name ++ "=").toList.head?) : valueOf name setting = none := by
  rw [valueOf, Option.map_eq_none_iff]
  by_contra hsome
  obtain ⟨rest, hrest⟩ := Option.ne_none_iff_exists'.mp hsome
  rw [Text.dropLeading_eq_some_iff] at hrest
  have hne : (name ++ "=").toList ≠ [] := by simp
  rw [hrest, List.head?_append_of_ne_nil _ hne] at h
  exact h rfl

/-- The settings `ssh` finds first, whatever the destination is read as. -/
theorem settings_sshReads (host : HostEntry) (tmp : TempFile) (agentArgs : List String) :
    ∃ more, (sshReads (sshArgs host tmp agentArgs)).options.filterMap settingOf =
      "BatchMode=yes" :: "ConnectTimeout=5" ::
        (if (PinnedKnownHosts.open host tmp).valid then
          ["StrictHostKeyChecking=yes",
            "UserKnownHostsFile=" ++ (PinnedKnownHosts.open host tmp).path,
            "GlobalKnownHostsFile=/dev/null", "HostKeyAlias=" ++ kHostKeyAlias]
        else ["StrictHostKeyChecking=accept-new"]) ++ more := by
  have hpath := cString_knownHostsFile host tmp
  have htext := cString_optionText
  simp only [List.forall_mem_cons] at htext
  rw [sshArgs_eq, sshReads_flat, List.filterMap_append]
  refine ⟨_, congrArg (· ++ _) ?_⟩
  unfold ownOptions
  split <;> simp [Argv.valued, settingOf, hpath, htext]

/-! ### The pin -/

variable {Key : Type*} (parseKey : List UInt8 → Option Key)

/-- The recorded key: what `ssh` makes of the first line of the recorded text. -/
def recordedKey (host : HostEntry) : Option Key :=
  KnownHosts.keyOf parseKey
    (KnownHosts.content (Lines.first 10 (Utf8.bytes host.sshHostPublicKey)))

/-- The entry that a key should have. -/
def pinnedEntry (key : Key) : KnownHosts.Entry Key := ⟨none, Utf8.bytes kHostKeyAlias, key⟩

/-- `ssh` checks the server strictly, against a file that holds no entry but the
recorded key under the alias. Where the file holds none, it does not connect. -/
structure Pinned (host : HostEntry) (tmp : TempFile) (agentArgs : List String) : Prop where
  strict : sshSetting "StrictHostKeyChecking" (sshReads (sshArgs host tmp agentArgs)).options =
    some "yes"
  hostKeyAlias : sshSetting "HostKeyAlias" (sshReads (sshArgs host tmp agentArgs)).options =
    some kHostKeyAlias
  userFile : sshSetting "UserKnownHostsFile" (sshReads (sshArgs host tmp agentArgs)).options =
    some (PinnedKnownHosts.open host tmp).path
  globalFile : sshSetting "GlobalKnownHostsFile"
    (sshReads (sshArgs host tmp agentArgs)).options = some "/dev/null"
  onlyRecorded : ∀ e ∈ KnownHosts.entries parseKey (PinnedKnownHosts.open host tmp).content,
    (recordedKey parseKey host).map pinnedEntry = some e

/-- What of the key text and its line end reaches the file. -/
def writtenKey (host : HostEntry) (tmp : TempFile) : List UInt8 :=
  (Utf8.bytes (host.sshHostPublicKey ++ "\n")).take
    (tmp.kept - (Utf8.bytes (kHostKeyAlias ++ " ")).length)

/-- The written text is no other key than the recorded one: neither by what is left
of its first line, nor by a line behind that. -/
structure OneKey (host : HostEntry) (tmp : TempFile) : Prop where
  first : ∀ key,
    KnownHosts.keyOf parseKey (KnownHosts.content (Lines.first 10 (writtenKey host tmp))) = some key →
      recordedKey parseKey host = some key
  later : ∀ line ∈ Lines.lines 10 (Lines.after 10 (writtenKey host tmp)), ∀ e,
    KnownHosts.entry parseKey line = some e → (recordedKey parseKey host).map pinnedEntry = some e

theorem valid_open_iff {host : HostEntry} (h : host.sshHostPublicKey ≠ "") (tmp : TempFile) :
    (PinnedKnownHosts.open host tmp).valid = true ↔ tmp.mkstemp.isSome := by
  rw [PinnedKnownHosts.open, if_neg h]
  cases tmp.mkstemp with
  | none => simp [PinnedKnownHosts.valid]
  | some name =>
      have hne : "/tmp/omarchy-kids-control-known-hosts-" ++ String.ofList name.suffix ≠ "" := by
        intro hempty
        simpa using congrArg String.toList hempty
      simp [PinnedKnownHosts.valid, hne]

/-- Without a file, new keys are accepted. -/
theorem strict_iff (host : HostEntry) (tmp : TempFile) (agentArgs : List String) :
    sshSetting "StrictHostKeyChecking" (sshReads (sshArgs host tmp agentArgs)).options = some "yes" ↔
      (PinnedKnownHosts.open host tmp).valid = true := by
  obtain ⟨more, hsettings⟩ := settings_sshReads host tmp agentArgs
  have hskip : ∀ text ∈ ["BatchMode=yes", "ConnectTimeout=5"],
      valueOf "StrictHostKeyChecking" text = none := by decide +kernel
  have hyes : valueOf "StrictHostKeyChecking" "StrictHostKeyChecking=yes" = some "yes" := by
    decide +kernel
  have hnew : valueOf "StrictHostKeyChecking" "StrictHostKeyChecking=accept-new" =
      some "accept-new" := by decide +kernel
  simp only [List.forall_mem_cons] at hskip
  rw [sshSetting, hsettings]
  cases (PinnedKnownHosts.open host tmp).valid <;> simp [hskip, hyes, hnew]

/-- With a file, the other settings point at it and at nothing else. -/
theorem settings_of_valid {host : HostEntry} {tmp : TempFile}
    (h : (PinnedKnownHosts.open host tmp).valid = true) (agentArgs : List String) :
    sshSetting "HostKeyAlias" (sshReads (sshArgs host tmp agentArgs)).options = some kHostKeyAlias ∧
      sshSetting "UserKnownHostsFile" (sshReads (sshArgs host tmp agentArgs)).options =
        some (PinnedKnownHosts.open host tmp).path ∧
      sshSetting "GlobalKnownHostsFile" (sshReads (sshArgs host tmp agentArgs)).options =
        some "/dev/null" := by
  obtain ⟨more, hsettings⟩ := settings_sshReads host tmp agentArgs
  rw [if_pos h] at hsettings
  have hpath : valueOf "UserKnownHostsFile"
      ("UserKnownHostsFile=" ++ (PinnedKnownHosts.open host tmp).path) =
      some (PinnedKnownHosts.open host tmp).path := valueOf_append _ _
  have hhead : ("UserKnownHostsFile=" ++ (PinnedKnownHosts.open host tmp).path).toList.head? =
      some 'U' := by
    rw [String.toList_append, List.head?_append_of_ne_nil _ (by decide +kernel)]
    decide +kernel
  have hother : ∀ other ∈ ["HostKeyAlias", "GlobalKnownHostsFile"],
      valueOf other ("UserKnownHostsFile=" ++ (PinnedKnownHosts.open host tmp).path) = none := by
    have hothers : ∀ other ∈ ["HostKeyAlias", "GlobalKnownHostsFile"],
        some 'U' ≠ (other ++ "=").toList.head? := by decide +kernel
    intro other hmem
    refine valueOf_of_head ?_
    rw [hhead]
    exact hothers other hmem
  have hskip : ∀ other ∈ ["HostKeyAlias", "UserKnownHostsFile", "GlobalKnownHostsFile"],
      ∀ text ∈ ["BatchMode=yes", "ConnectTimeout=5", "StrictHostKeyChecking=yes"],
        valueOf other text = none := by decide +kernel
  have hglobal : valueOf "GlobalKnownHostsFile" "GlobalKnownHostsFile=/dev/null" =
      some "/dev/null" := by decide +kernel
  have halias : valueOf "HostKeyAlias" "GlobalKnownHostsFile=/dev/null" = none ∧
      valueOf "HostKeyAlias" ("HostKeyAlias=" ++ kHostKeyAlias) = some kHostKeyAlias := by
    decide +kernel
  simp only [List.forall_mem_cons] at hskip hother
  simp [sshSetting, hsettings, hskip, hother, hpath, hglobal, halias]

theorem hostName_alias : KnownHosts.HostName (Utf8.bytes kHostKeyAlias) where
  ne_nil := by decide
  noBlank := by decide +kernel
  noNul := by decide
  noLf := by decide
  noComment := by decide
  noMarker := by decide

/-- The entries of the file are those of the key text that reached it. -/
theorem onlyRecorded_iff {host : HostEntry} {tmp : TempFile} (h : host.sshHostPublicKey ≠ "")
    {name : TempName} (hname : tmp.mkstemp = some name) :
    (∀ e ∈ KnownHosts.entries parseKey (PinnedKnownHosts.open host tmp).content,
        (recordedKey parseKey host).map pinnedEntry = some e) ↔ OneKey parseKey host tmp := by
  have hcontent : (PinnedKnownHosts.open host tmp).content =
      (Utf8.bytes kHostKeyAlias ++ 32 :: Utf8.bytes (host.sshHostPublicKey ++ "\n")).take tmp.kept := by
    rw [PinnedKnownHosts.open, if_neg h, hname, String.append_assoc, Utf8.bytes_append,
      Utf8.bytes_append, List.append_assoc]
    rfl
  have hlen : (Utf8.bytes (kHostKeyAlias ++ " ")).length = (Utf8.bytes kHostKeyAlias).length + 1 := by
    rw [Utf8.bytes_append, List.length_append]
    rfl
  rcases Nat.lt_or_ge (Utf8.bytes kHostKeyAlias).length tmp.kept with hkept | hkept
  · -- name and blank are in the file
    have hfile : (PinnedKnownHosts.open host tmp).content =
        Utf8.bytes kHostKeyAlias ++ 32 :: writtenKey host tmp := by
      rw [hcontent, writtenKey, hlen, List.take_append, List.take_of_length_le hkept.le,
        show tmp.kept - (Utf8.bytes kHostKeyAlias).length =
          tmp.kept - ((Utf8.bytes kHostKeyAlias).length + 1) + 1 by omega, List.take_succ_cons]
    rw [hfile]
    simp only [hostName_alias.mem_entries_iff]
    constructor
    · intro honly
      constructor
      · intro key hkey
        have hrecorded := honly _ (.inl ⟨key, hkey, rfl⟩)
        obtain ⟨recorded, hrec, heq⟩ := Option.map_eq_some_iff.mp hrecorded
        rw [hrec]
        exact congrArg some (congrArg KnownHosts.Entry.key heq)
      · intro line hline e he
        exact honly e (.inr ⟨line, hline, he⟩)
    · intro hone e he
      rcases he with ⟨key, hkey, rfl⟩ | ⟨line, hline, he⟩
      · rw [hone.first key hkey]
        rfl
      · exact hone.later line hline e he
  · -- the file ends within the name
    have hfile : (PinnedKnownHosts.open host tmp).content =
        (Utf8.bytes kHostKeyAlias).take tmp.kept := by
      rw [hcontent, List.take_append_of_le_length hkept]
    have hwritten : writtenKey host tmp = [] := by
      rw [writtenKey, hlen, Nat.sub_eq_zero_of_le (by omega), List.take_zero]
    rw [hfile, hostName_alias.entries_take]
    refine ⟨fun _ => ⟨fun key hkey => ?_, fun line hline => ?_⟩, fun _ e he => absurd he (by simp)⟩
    · rw [hwritten] at hkey
      cases hkey
    · rw [hwritten] at hline
      cases hline

theorem lf_notMem_bytes {text : String} (h : '\n' ∉ text.toList) : 10 ∉ Utf8.bytes text :=
  fun hmem => h (Utf8.mem_charsBytes_of_ascii (by decide) hmem)

/-- A key on one line is all that is written, as long as no beginning of it is taken
for another key. -/
theorem oneKey_of_line {host : HostEntry} (hline : '\n' ∉ host.sshHostPublicKey.toList)
    (hcut : ∀ n key,
      KnownHosts.keyOf parseKey
          (KnownHosts.content ((Utf8.bytes host.sshHostPublicKey).take n)) = some key →
        recordedKey parseKey host = some key) (tmp : TempFile) :
    OneKey parseKey host tmp := by
  have hlf := lf_notMem_bytes hline
  have hwritten : ∃ n, Lines.first 10 (writtenKey host tmp) =
        (Utf8.bytes host.sshHostPublicKey).take n ∧
      Lines.after 10 (writtenKey host tmp) = [] := by
    rw [writtenKey, Utf8.bytes_append host.sshHostPublicKey]
    generalize tmp.kept - (Utf8.bytes (kHostKeyAlias ++ " ")).length = n
    rcases Nat.lt_or_ge (Utf8.bytes host.sshHostPublicKey).length n with hn | hn
    · have hend : Utf8.bytes "\n" = [10] := by decide
      have hwhole : (Utf8.bytes host.sshHostPublicKey ++ Utf8.bytes "\n").take n =
          Utf8.bytes host.sshHostPublicKey ++ 10 :: [] := by
        rw [hend]
        exact List.take_of_length_le (by simpa using hn)
      obtain ⟨hfirst, hafter⟩ := Lines.first_line hlf []
      rw [hwhole, hfirst, hafter]
      exact ⟨_, List.take_length.symm, rfl⟩
    · have hcut : 10 ∉ (Utf8.bytes host.sshHostPublicKey).take n :=
        fun hmem => hlf (List.mem_of_mem_take hmem)
      rw [List.take_append_of_le_length hn, Lines.first_of_notMem hcut, Lines.after_of_notMem hcut]
      exact ⟨n, rfl, rfl⟩
  obtain ⟨n, hfirst, hafter⟩ := hwritten
  constructor
  · rw [hfirst]
    exact hcut n
  · rw [hafter]
    intro line hmem
    cases hmem

/-- A host as pairing leaves it. -/
def pairedHost : HostEntry :=
  { name := "Mia", hostname := "10.0.0.5", username := "mia", keyPath := "/home/parent/keys/Mia"
    sshHostPublicKey := "ssh-ed25519 AAAA" }

def tempName : TempName := ⟨['A', 'b', 'C', 'd', '1', '2'], rfl, by simp⟩

/-- Reads two keys. -/
def readsTwo (text : List UInt8) : Option (List UInt8) :=
  if text = Utf8.bytes "ssh-ed25519 AAAA" ∨ text = Utf8.bytes "ssh-ed25519 BBBB" then some text
  else none

/-- The same host with a line break in the recorded text. -/
def twoLineHost : HostEntry :=
  { pairedHost with sshHostPublicKey := "ssh-ed25519 AAAA\n* ssh-ed25519 BBBB" }

end AgentClient

end OmarchyKids
