import OmarchyKids.Control.HostRegistry
import OmarchyKids.Lib.Runs
import OmarchyKids.Lib.Text
import Mathlib

/-!
# OmarchyKids.Control.PairingDialog

Pairing attempts made through the Control Center's dialog, as far as key files
and the host registry are concerned.

An attempt clears the key files of the child's name, runs `pair` on that path,
and records a host for every result line `pair` prints. Key files are named by
the sanitised child name and cleared before anything has been exchanged, while
registry entries stay: `entries_keep_usable_keys` says which attempts leave every
recorded key usable, and `retry_breaks_paired_child` that the others exist.

The state carries, beside each registry entry, the key that the child installed
when the entry was recorded. Nothing the dialog does depends on it.
-/

namespace OmarchyKids

namespace PairingDialog

/-- What a file holds; `K` are the key pairs. -/
inductive KeyFile (K : Type)
  | privateKey (k : K)
  | publicKey (k : K)
  | text (content : String)
  deriving DecidableEq, Repr

abbrev Files (K : Type) := String → Option (KeyFile K)

section Paths

-- `QChar::isLetterOrNumber`
variable (isLetterOrNumber : Char → Bool)

/-- Every UTF-16 unit that is no letter, digit, dash or underscore becomes an
underscore. -/
def sanitizeForFilename (name : String) : String :=
  let out := name.toList.flatMap fun c =>
    -- beyond the basic plane: two surrogates, neither of them a letter
    if 0xFFFF < c.toNat then ['_', '_']
    else if isLetterOrNumber c || c == '-' || c == '_' then [c]
    else ['_']
  if out = [] then "child" else String.ofList out

def computeKeyPath (home childName : String) : String :=
  home ++ "/.local/share/omarchy-kids-control/keys" ++ "/" ++
    sanitizeForFilename isLetterOrNumber childName

end Paths

/-- `QString::trimmed`. -/
def trimmed (s : String) : String := String.ofList (Text.trim s.toList)

/-! ### One attempt's input -/

/-- The text fields when the button is pressed. -/
structure Fields where
  name : String
  host : String
  sid : String
  code : String
  deriving DecidableEq, Repr

/-- All four fields are filled in. -/
def Fields.Complete (f : Fields) : Prop :=
  trimmed f.name ≠ "" ∧ trimmed f.host ≠ "" ∧ trimmed f.sid ≠ "" ∧ trimmed f.code ≠ ""

instance (f : Fields) : Decidable f.Complete := inferInstanceAs (Decidable (_ ∧ _))

/-- The JSON object of a `PAIR_RESULT` line: `none` where a member is missing or
of another type. -/
structure PairResult where
  hostname : Option String := none
  sshPort : Option Int := none
  username : Option String := none
  keyPath : Option String := none
  fingerprint : Option String := none
  sshHostPublicKey : Option String := none
  deriving DecidableEq, Repr

/-- A result line together with what the dialog adds when it arrives: the name
field (which can be edited meanwhile) and the time. -/
structure ResultLine where
  nameEdit : String
  pairedAt : String
  object : PairResult
  deriving DecidableEq, Repr

/-- How far `ssh-keygen` gets on a path that holds no file. -/
inductive Keygen (K : Type)
  | failed
  /-- It fails after writing the private key. -/
  | onlyPrivate (k : K)
  | pair (k : K)
  deriving DecidableEq, Repr

/-- The part of `pair` after the key generation, if it gets as far as a decrypted
`Confirm`: every earlier failure (connection, session, wrong code) leaves only
the key files. -/
structure Exchange where
  /-- The child appended this attempt's public key. -/
  installed : Bool
  /-- The text written to the `.known_hosts` file next to the key, once the
  fingerprint was confirmed. -/
  knownHosts : Option String
  /-- `pair` prints one at its end. A `Confirm` whose strings hold line breaks can
  put others in its output. -/
  results : List ResultLine
  deriving DecidableEq, Repr

structure Attempt (K : Type) where
  fields : Fields
  /-- Whether the two `QFile::remove` can delete. -/
  removeKey : Bool := true
  removePub : Bool := true
  keygen : Keygen K
  exchange : Option Exchange
  deriving DecidableEq, Repr

/-! ### The steps of an attempt -/

variable {K : Type}

def Files.remove (files : Files K) (path : String) (succeeds : Bool) : Files K :=
  if succeeds then Function.update files path none else files

def Files.write (files : Files K) (path : String) (content : KeyFile K) : Files K :=
  Function.update files path (some content)

/-- `omarchy-kids-pairing pair --key-out keyPath`: its effect on the files, and
the exchange it completes with the key it generated. -/
def pair (keyPath : String) (keygen : Keygen K) (exchange : Option Exchange) (files : Files K) :
    Files K × Option (K × Exchange) :=
  -- refuses to overwrite an existing key
  if (files keyPath).isSome then (files, none)
  else
    match keygen with
    | .failed => (files, none)
    | .onlyPrivate k => (files.write keyPath (.privateKey k), none)
    | .pair k =>
        let files := (files.write keyPath (.privateKey k)).write (keyPath ++ ".pub") (.publicKey k)
        let files :=
          match exchange.bind (·.knownHosts) with
          | none => files
          | some text => files.write (keyPath ++ ".known_hosts") (.text text)
        (files, exchange.map (k, ·))

/-- The entry `handleStdout` makes of a result line. -/
def ResultLine.entry (r : ResultLine) : HostEntry where
  name := trimmed r.nameEdit
  hostname := r.object.hostname.getD ""
  sshPort := r.object.sshPort.getD 22
  username := r.object.username.getD ""
  keyPath := r.object.keyPath.getD ""
  fingerprint := r.object.fingerprint.getD ""
  pairedAt := r.pairedAt
  sshHostPublicKey := r.object.sshHostPublicKey.getD ""

/-- A registry entry and the key the child had installed when it was recorded. -/
structure Paired (K : Type) where
  entry : HostEntry
  installed : Option K
  deriving DecidableEq, Repr

def Paired.name (p : Paired K) : String := p.entry.name

def ResultLine.paired (k : K) (ex : Exchange) (r : ResultLine) : Paired K where
  entry := r.entry
  installed := if ex.installed then some k else none

/-- The registry, one entry per name. -/
structure Registry (K : Type) where
  hosts : List (Paired K)
  distinct : (hosts.map Paired.name).Nodup

def Registry.entries (r : Registry K) : List HostEntry := r.hosts.map Paired.entry

def Registry.addHosts (r : Registry K) (new : List (Paired K)) : Registry K where
  hosts := KeyedList.putAll Paired.name new r.hosts
  distinct := KeyedList.nodup_putAll new r.distinct

structure World (K : Type) where
  files : Files K
  registry : Registry K

/-- Forgetting the installed keys, the registry grows by `addHost`. -/
theorem entries_addHosts (r : Registry K) (new : List (Paired K)) :
    (r.addHosts new).entries =
      (new.map Paired.entry).foldl (fun hosts e => HostRegistry.addHost e hosts) r.entries :=
  KeyedList.map_putAll (fun _ => rfl) new r.hosts

section Dialog

variable (isLetterOrNumber : Char → Bool) (home : String)

def Attempt.keyPath (a : Attempt K) : String :=
  computeKeyPath isLetterOrNumber home (trimmed a.fields.name)

/-- The file part of `startPairing`: clears what an earlier attempt for the same
path left behind. -/
def startPairing (files : Files K) (a : Attempt K) : Files K :=
  -- "a failed attempt never reaches registry_.addHost()": an earlier, successful
  -- one for the same path has
  (files.remove (a.keyPath isLetterOrNumber home) a.removeKey).remove
    (a.keyPath isLetterOrNumber home ++ ".pub") a.removePub

/-- From pressing the button to the end of the `pair` process. -/
def attempt (w : World K) (a : Attempt K) : World K :=
  if a.fields.Complete then
    let (files, completed) := pair (a.keyPath isLetterOrNumber home) a.keygen a.exchange
      (startPairing isLetterOrNumber home w.files a)
    match completed with
    | none => { w with files := files }
    | some (k, ex) =>
        { files := files, registry := w.registry.addHosts (ex.results.map (·.paired k ex)) }
  else w

/-! ### Which paths an attempt touches -/

/-- `pair` finds no file at the key path. -/
def Attempt.FindsNoKey (a : Attempt K) (files : Files K) : Prop :=
  a.removeKey = true ∨ files (a.keyPath isLetterOrNumber home) = none

instance (a : Attempt K) (files : Files K) :
    Decidable (a.FindsNoKey isLetterOrNumber home files) :=
  inferInstanceAs (Decidable (_ ∨ files _ = none))

/-- The exchange `pair` completes and the key it does so with, if any. -/
def Attempt.completed (a : Attempt K) (files : Files K) : Option (K × Exchange) :=
  if a.FindsNoKey isLetterOrNumber home files then
    match a.keygen with
    | .pair k => a.exchange.map (k, ·)
    | _ => none
  else none

/-- What `pair` writes on a path without a key. -/
def writes (keyPath : String) (keygen : Keygen K) (exchange : Option Exchange) : List String :=
  match keygen with
  | .failed => []
  | .onlyPrivate _ => [keyPath]
  | .pair _ =>
      match exchange.bind (·.knownHosts) with
      | none => [keyPath, keyPath ++ ".pub"]
      | some _ => [keyPath, keyPath ++ ".pub", keyPath ++ ".known_hosts"]

/-- Every path the attempt deletes or writes. -/
def Attempt.touched (a : Attempt K) (files : Files K) : List String :=
  (if a.removeKey then [a.keyPath isLetterOrNumber home] else []) ++
  (if a.removePub then [a.keyPath isLetterOrNumber home ++ ".pub"] else []) ++
  (if a.FindsNoKey isLetterOrNumber home files then
    writes (a.keyPath isLetterOrNumber home) a.keygen a.exchange else [])

end Dialog

/-! ### What one attempt does to the files -/

theorem append_ne_self {p s : String} (hs : s ≠ "") : p ++ s ≠ p := by
  intro h
  have hlist : p.toList ++ s.toList = p.toList := by rw [← String.toList_append, h]
  exact hs (String.toList_eq_nil_iff.mp (List.append_right_eq_self.mp hlist))

theorem Files.remove_of_ne {files : Files K} {path q : String} {succeeds : Bool} (h : q ≠ path) :
    files.remove path succeeds q = files q := by
  unfold Files.remove
  split
  · exact Function.update_of_ne h none files
  · rfl

/-- The same, in the terms of `Attempt.touched`. -/
theorem Files.remove_of_not {files : Files K} {path q : String} {succeeds : Bool}
    (h : q ∉ if succeeds then [path] else []) : files.remove path succeeds q = files q := by
  cases succeeds with
  | false => rfl
  | true => exact Files.remove_of_ne (by simpa using h)

theorem Files.remove_eq_some {files : Files K} {path q : String} {succeeds : Bool}
    {content : KeyFile K} (h : files.remove path succeeds q = some content) :
    q ∉ (if succeeds then [path] else []) ∧ files q = some content := by
  have hspared : q ∉ if succeeds then [path] else [] := by
    intro hq
    cases succeeds with
    | false => cases hq
    | true =>
        obtain rfl := List.mem_singleton.mp hq
        have hgone : files.remove q true q = none := by simp [Files.remove]
        rw [hgone] at h
        cases h
  exact ⟨hspared, (Files.remove_of_not hspared).symm.trans h⟩

theorem Files.write_of_ne {files : Files K} {path q : String} {content : KeyFile K}
    (h : q ≠ path) : files.write path content q = files q :=
  Function.update_of_ne h _ files

@[simp] theorem Files.write_self (files : Files K) (path : String) (content : KeyFile K) :
    files.write path content path = some content :=
  Function.update_self path _ files

/-- `pair` refuses to overwrite a key. -/
theorem pair_of_key {keyPath : String} {keygen : Keygen K} {exchange : Option Exchange}
    {files : Files K} (h : files keyPath ≠ none) :
    pair keyPath keygen exchange files = (files, none) := by
  unfold pair
  rw [if_pos (Option.isSome_iff_ne_none.mpr h)]

/-- The frame of `pair`. -/
theorem pair_of_not_mem_writes {keyPath q : String} {keygen : Keygen K}
    {exchange : Option Exchange} {files : Files K} (hnone : files keyPath = none)
    (hq : q ∉ writes keyPath keygen exchange) :
    (pair keyPath keygen exchange files).1 q = files q := by
  unfold pair writes at *
  rw [hnone]
  cases keygen with
  | failed => rfl
  | onlyPrivate k => exact Files.write_of_ne (by simpa using hq)
  | pair k =>
      cases hknown : exchange.bind (·.knownHosts) with
      | none =>
          simp only [hknown, List.mem_cons, not_or] at hq ⊢
          show ((files.write _ _).write _ _) q = files q
          rw [Files.write_of_ne hq.2.1, Files.write_of_ne hq.1]
      | some text =>
          simp only [hknown, List.mem_cons, not_or] at hq ⊢
          show (((files.write _ _).write _ _).write _ _) q = files q
          rw [Files.write_of_ne hq.2.2.1, Files.write_of_ne hq.2.1, Files.write_of_ne hq.1]

/-- A completed exchange leaves the generated private key at the key path. -/
theorem pair_key {keyPath : String} {keygen : Keygen K} {exchange : Option Exchange}
    {files : Files K} {k : K} {ex : Exchange}
    (h : (pair keyPath keygen exchange files).2 = some (k, ex)) :
    (pair keyPath keygen exchange files).1 keyPath = some (.privateKey k) := by
  have hpub : keyPath ≠ keyPath ++ ".pub" := (append_ne_self (by decide)).symm
  have hknown : keyPath ≠ keyPath ++ ".known_hosts" := (append_ne_self (by decide)).symm
  unfold pair at h ⊢
  split at h
  · cases h
  · next hnone =>
      rw [if_neg hnone]
      cases keygen with
      | failed => cases h
      | onlyPrivate k' => cases h
      | pair k' =>
          obtain ⟨ex', -, hk⟩ := Option.map_eq_some_iff.mp h
          obtain ⟨rfl, rfl⟩ := Prod.mk.inj hk
          dsimp only
          split
          · rw [Files.write_of_ne hpub, Files.write_self]
          · rw [Files.write_of_ne hknown, Files.write_of_ne hpub, Files.write_self]

/-- The private key `ssh-keygen` wrote. -/
def Keygen.key : Keygen K → Option K
  | .failed => none
  | .onlyPrivate k => some k
  | .pair k => some k

theorem Files.write_eq_privateKey {files : Files K} {path q : String} {content : KeyFile K} {k : K}
    (h : files.write path content q = some (.privateKey k)) :
    (q = path ∧ content = .privateKey k) ∨ (q ≠ path ∧ files q = some (.privateKey k)) := by
  by_cases hq : q = path
  · subst hq
    rw [Files.write_self] at h
    exact .inl ⟨rfl, Option.some.inj h⟩
  · rw [Files.write_of_ne hq] at h
    exact .inr ⟨hq, h⟩

/-- Where a private key that is on the disk after `pair` comes from. -/
theorem pair_privateKey {keyPath q : String} {keygen : Keygen K} {exchange : Option Exchange}
    {files : Files K} {k : K} (hnone : files keyPath = none)
    (h : (pair keyPath keygen exchange files).1 q = some (.privateKey k)) :
    (q = keyPath ∧ keygen.key = some k) ∨
      (q ∉ writes keyPath keygen exchange ∧ files q = some (.privateKey k)) := by
  -- the two writes of `ssh-keygen`
  have hkeys {k' : K} (h : (files.write keyPath (.privateKey k')).write (keyPath ++ ".pub")
      (.publicKey k') q = some (.privateKey k)) :
      (q = keyPath ∧ some k' = some k) ∨
        (q ≠ keyPath ∧ q ≠ keyPath ++ ".pub" ∧ files q = some (.privateKey k)) := by
    rcases Files.write_eq_privateKey h with ⟨-, hcontent⟩ | ⟨hpub, h⟩
    · cases hcontent
    · rcases Files.write_eq_privateKey h with ⟨rfl, hcontent⟩ | ⟨hkey, h⟩
      · cases hcontent
        exact .inl ⟨rfl, rfl⟩
      · exact .inr ⟨hkey, hpub, h⟩
  unfold pair at h
  rw [hnone] at h
  cases keygen with
  | failed => exact .inr ⟨List.not_mem_nil, h⟩
  | onlyPrivate k' =>
      rcases Files.write_eq_privateKey h with ⟨rfl, hcontent⟩ | ⟨hkey, h⟩
      · cases hcontent
        exact .inl ⟨rfl, rfl⟩
      · exact .inr ⟨by simpa [writes] using hkey, h⟩
  | pair k' =>
      cases hknown : exchange.bind (·.knownHosts) with
      | none =>
          simp only [hknown] at h
          rcases hkeys h with hgen | ⟨hkey, hpub, h⟩
          · exact .inl hgen
          · exact .inr ⟨by simp [writes, hknown, hkey, hpub], h⟩
      | some text =>
          simp only [hknown] at h
          rcases Files.write_eq_privateKey h with ⟨-, hcontent⟩ | ⟨hne, h⟩
          · cases hcontent
          · rcases hkeys h with hgen | ⟨hkey, hpub, h⟩
            · exact .inl hgen
            · exact .inr ⟨by simp [writes, hknown, hkey, hpub, hne], h⟩

section Dialog

variable {isLetterOrNumber : Char → Bool} {home : String}

theorem keyPath_ne_empty (a : Attempt K) : a.keyPath isLetterOrNumber home ≠ "" := by
  intro h
  rw [Attempt.keyPath, computeKeyPath, ← String.toList_eq_nil_iff] at h
  simp at h

/-- Whether `pair` finds a key is decided by the first removal. -/
theorem startPairing_key (files : Files K) (a : Attempt K) :
    startPairing isLetterOrNumber home files a (a.keyPath isLetterOrNumber home) = none ↔
      a.FindsNoKey isLetterOrNumber home files := by
  rw [startPairing, Files.remove_of_ne (append_ne_self (by decide)).symm, Attempt.FindsNoKey]
  cases a.removeKey <;> simp [Files.remove]

/-- What `pair` completes after `startPairing`. -/
theorem pair_completed (files : Files K) (a : Attempt K) :
    (pair (a.keyPath isLetterOrNumber home) a.keygen a.exchange
      (startPairing isLetterOrNumber home files a)).2 =
        a.completed isLetterOrNumber home files := by
  rw [Attempt.completed]
  by_cases hkey : a.FindsNoKey isLetterOrNumber home files
  · rw [if_pos hkey]
    unfold pair
    rw [(startPairing_key files a).mpr hkey]
    cases a.keygen <;> rfl
  · rw [if_neg hkey, pair_of_key (hkey ∘ (startPairing_key files a).mp)]

/-- The frame of an attempt's file operations. -/
theorem pair_of_not_touched {files : Files K} {a : Attempt K} {q : String}
    (hq : q ∉ a.touched isLetterOrNumber home files) :
    (pair (a.keyPath isLetterOrNumber home) a.keygen a.exchange
      (startPairing isLetterOrNumber home files a)).1 q = files q := by
  simp only [Attempt.touched, List.mem_append, not_or] at hq
  obtain ⟨⟨hkey, hpub⟩, hwrites⟩ := hq
  have hstart : startPairing isLetterOrNumber home files a q = files q := by
    rw [startPairing, Files.remove_of_not hpub, Files.remove_of_not hkey]
  by_cases hfinds : a.FindsNoKey isLetterOrNumber home files
  · rw [if_pos hfinds] at hwrites
    rw [pair_of_not_mem_writes ((startPairing_key files a).mpr hfinds) hwrites, hstart]
  · -- `pair` refuses, and nothing else is written
    rw [pair_of_key (hfinds ∘ (startPairing_key files a).mp)]
    exact hstart

/-- Every private key that is on the disk after an attempt was generated in it, or
was there before at a path the attempt does not touch. -/
theorem attempt_privateKey {files : Files K} {a : Attempt K} {q : String} {k : K}
    (h : (pair (a.keyPath isLetterOrNumber home) a.keygen a.exchange
      (startPairing isLetterOrNumber home files a)).1 q = some (.privateKey k)) :
    (q = a.keyPath isLetterOrNumber home ∧ a.keygen.key = some k) ∨
      (q ∉ a.touched isLetterOrNumber home files ∧ files q = some (.privateKey k)) := by
  have hstart (h : startPairing isLetterOrNumber home files a q = some (.privateKey k)) :=
    Files.remove_eq_some h
  by_cases hfinds : a.FindsNoKey isLetterOrNumber home files
  · rcases pair_privateKey ((startPairing_key files a).mpr hfinds) h with hgen | ⟨hwrites, h⟩
    · exact .inl hgen
    · obtain ⟨hpub, h⟩ := hstart h
      obtain ⟨hkey, h⟩ := Files.remove_eq_some h
      refine .inr ⟨?_, h⟩
      simp only [Attempt.touched, if_pos hfinds, List.mem_append, not_or]
      exact ⟨⟨hkey, hpub⟩, hwrites⟩
  · rw [pair_of_key (hfinds ∘ (startPairing_key files a).mp)] at h
    obtain ⟨hpub, h⟩ := hstart h
    obtain ⟨hkey, h⟩ := Files.remove_eq_some h
    refine .inr ⟨?_, h⟩
    simp only [Attempt.touched, if_neg hfinds, List.mem_append, not_or]
    exact ⟨⟨hkey, hpub⟩, List.not_mem_nil⟩

end Dialog

/-! ### What one attempt records -/

def ResultLine.name (r : ResultLine) : String := trimmed r.nameEdit

section Dialog

variable (isLetterOrNumber : Char → Bool) (home : String)

/-- The result lines of the exchange the attempt completes. -/
def Attempt.results (a : Attempt K) (files : Files K) : List ResultLine :=
  match a.completed isLetterOrNumber home files with
  | none => []
  | some (_, ex) => ex.results

/-- The entries made of them. -/
def Attempt.recorded (a : Attempt K) (files : Files K) : List (Paired K) :=
  match a.completed isLetterOrNumber home files with
  | none => []
  | some (k, ex) => ex.results.map (·.paired k ex)

variable {isLetterOrNumber home}

theorem attempt_of_complete {w : World K} {a : Attempt K} (h : a.fields.Complete) :
    attempt isLetterOrNumber home w a =
      { files := (pair (a.keyPath isLetterOrNumber home) a.keygen a.exchange
          (startPairing isLetterOrNumber home w.files a)).1
        registry := w.registry.addHosts (a.recorded isLetterOrNumber home w.files) } := by
  rw [attempt, if_pos h, Attempt.recorded, ← pair_completed]
  dsimp only
  split <;> rfl

theorem map_name_recorded (a : Attempt K) (files : Files K) :
    (a.recorded isLetterOrNumber home files).map Paired.name =
      (a.results isLetterOrNumber home files).map ResultLine.name := by
  unfold Attempt.recorded Attempt.results
  split
  · rfl
  · rw [List.map_map]
    rfl

/-- The exchange and the generated key behind a completed attempt. -/
theorem completed_eq_some {a : Attempt K} {files : Files K} {k : K} {ex : Exchange}
    (h : a.completed isLetterOrNumber home files = some (k, ex)) :
    a.exchange = some ex ∧ a.keygen.key = some k := by
  unfold Attempt.completed at h
  split at h
  · split at h
    · next hgen =>
        obtain ⟨ex', hex, heq⟩ := Option.map_eq_some_iff.mp h
        obtain ⟨rfl, rfl⟩ := Prod.mk.inj heq
        exact ⟨hex, by rw [hgen]; rfl⟩
    · cases h
  · cases h

/-- The entries that stay are made of the results that stay. -/
theorem mem_lasts_recorded {a : Attempt K} {files : Files K} {p : Paired K} :
    p ∈ KeyedList.lasts Paired.name (a.recorded isLetterOrNumber home files) ↔
      ∃ k ex r, a.completed isLetterOrNumber home files = some (k, ex) ∧
        r ∈ KeyedList.lasts ResultLine.name (a.results isLetterOrNumber home files) ∧
        p = r.paired k ex := by
  unfold Attempt.recorded Attempt.results
  cases a.completed isLetterOrNumber home files with
  | none => simp [KeyedList.lasts]
  | some completed =>
      obtain ⟨k, ex⟩ := completed
      have hkeys (r : ResultLine) : Paired.name (r.paired k ex) = r.name := rfl
      rw [KeyedList.lasts_map hkeys, List.mem_map]
      constructor
      · intro h
        obtain ⟨r, hr, rfl⟩ := h
        exact ⟨k, ex, r, rfl, hr, rfl⟩
      · intro h
        obtain ⟨k', ex', r, heq, hr, rfl⟩ := h
        cases heq
        exact ⟨r, hr, rfl⟩

end Dialog

/-! ### Usable keys -/

/-- The file at the entry's key path holds the private key whose public half the
child installed. -/
def Paired.Usable (files : Files K) (p : Paired K) : Prop :=
  ∃ k, p.installed = some k ∧ files p.entry.keyPath = some (.privateKey k)

instance [DecidableEq K] (files : Files K) (p : Paired K) : Decidable (p.Usable files) :=
  match h : p.installed with
  | none => isFalse fun ⟨k, hk, _⟩ => by simp [h] at hk
  | some k =>
      decidable_of_iff (files p.entry.keyPath = some (.privateKey k)) (by simp [Paired.Usable, h])

def World.Usable (w : World K) : Prop := ∀ p ∈ w.registry.hosts, p.Usable w.files

instance [DecidableEq K] (w : World K) : Decidable w.Usable :=
  inferInstanceAs (Decidable (∀ p ∈ w.registry.hosts, p.Usable w.files))

section Dialog

variable (isLetterOrNumber : Char → Bool) (home : String)

/-- Every registered entry whose key file the attempt touches is replaced by one
of its results, and every result that stays names the attempt's own key path,
with its key installed on the child. -/
def Harmless (w : World K) (a : Attempt K) : Prop :=
  a.fields.Complete →
    (∀ p ∈ w.registry.hosts, p.entry.keyPath ∈ a.touched isLetterOrNumber home w.files →
      p.name ∈ (a.results isLetterOrNumber home w.files).map ResultLine.name) ∧
    ∀ r ∈ KeyedList.lasts ResultLine.name (a.results isLetterOrNumber home w.files),
      r.object.keyPath = some (a.keyPath isLetterOrNumber home) ∧
        a.exchange.any (·.installed) = true

instance (w : World K) (a : Attempt K) : Decidable (Harmless isLetterOrNumber home w a) :=
  inferInstanceAs (Decidable (_ → _ ∧ _))

variable {isLetterOrNumber home}

/-- One harmless attempt keeps every key usable. -/
theorem attempt_usable {w : World K} {a : Attempt K} (h : Harmless isLetterOrNumber home w a)
    (hw : w.Usable) : (attempt isLetterOrNumber home w a).Usable := by
  by_cases hcomplete : a.fields.Complete
  · obtain ⟨hreplaced, hgenuine⟩ := h hcomplete
    rw [attempt_of_complete hcomplete]
    intro p hp
    rcases KeyedList.mem_of_mem_putAll w.registry.distinct hp with hlast | ⟨hp, hname⟩
    · -- a new entry: the key just generated and installed
      obtain ⟨k, ex, r, hc, hr, rfl⟩ := mem_lasts_recorded.mp hlast
      obtain ⟨hpath, hinstalled⟩ := hgenuine r hr
      rw [(completed_eq_some hc).1] at hinstalled
      refine ⟨k, if_pos hinstalled, ?_⟩
      show (pair _ _ _ _).1 (r.object.keyPath.getD "") = _
      rw [hpath]
      exact pair_key ((pair_completed w.files a).trans hc)
    · -- an old entry that no result replaces: its key file is spared
      rw [map_name_recorded] at hname
      obtain ⟨k, hk, hfile⟩ := hw p hp
      have hspared := fun htouched => hname (hreplaced p hp htouched)
      exact ⟨k, hk, (pair_of_not_touched hspared).trans hfile⟩
  · rw [attempt, if_neg hcomplete]
    exact hw

/-- The condition cannot be weakened: an attempt that generates a new key and is
not harmless leaves an entry without a usable key. -/
theorem harmless_of_usable {w : World K} {a : Attempt K}
    (hfresh : ∀ k, a.keygen.key = some k →
      (∀ q, w.files q ≠ some (.privateKey k)) ∧ ∀ p ∈ w.registry.hosts, p.installed ≠ some k)
    (h : (attempt isLetterOrNumber home w a).Usable) : Harmless isLetterOrNumber home w a := by
  intro hcomplete
  rw [attempt_of_complete hcomplete] at h
  constructor
  · intro p hp htouched
    by_contra hname
    rw [← map_name_recorded] at hname
    obtain ⟨k, hk, hfile⟩ := h p (KeyedList.mem_putAll (.inr ⟨hp, hname⟩))
    rcases attempt_privateKey hfile with ⟨-, hgen⟩ | ⟨hspared, -⟩
    · exact (hfresh k hgen).2 p hp hk
    · exact hspared htouched
  · intro r hr
    cases hc : a.completed isLetterOrNumber home w.files with
    | none => simp [Attempt.results, hc, KeyedList.lasts] at hr
    | some completed =>
        obtain ⟨k, ex⟩ := completed
        obtain ⟨hex, hgen⟩ := completed_eq_some hc
        obtain ⟨k', hk', hfile⟩ := h (r.paired k ex)
          (KeyedList.mem_putAll (.inl (mem_lasts_recorded.mpr ⟨k, ex, r, hc, hr, rfl⟩)))
        have hinstalled : ex.installed = true ∧ k = k' := by
          simpa [ResultLine.paired] using hk'
        obtain ⟨hinst, rfl⟩ := hinstalled
        rw [hex]
        refine ⟨?_, hinst⟩
        rcases attempt_privateKey hfile with ⟨hpath, -⟩ | ⟨-, hold⟩
        · cases hobject : r.object.keyPath with
          | none =>
              rw [ResultLine.paired, ResultLine.entry, hobject] at hpath
              exact absurd hpath.symm (keyPath_ne_empty a)
          | some path =>
              rw [ResultLine.paired, ResultLine.entry, hobject] at hpath
              exact congrArg some hpath
        · exact absurd hold ((hfresh k hgen).1 _)

/-- Along harmless attempts every registry entry keeps a usable key, at every
point of the run. -/
theorem entries_keep_usable_keys {w : World K} (hw : w.Usable) {attempts : List (Attempt K)}
    (h : Runs.Along (attempt isLetterOrNumber home) (Harmless isLetterOrNumber home) w attempts) :
    ∀ done, done <+: attempts →
      (Runs.run (attempt isLetterOrNumber home) w done).Usable := by
  intro done hprefix
  obtain ⟨rest, rfl⟩ := hprefix
  have hdone := ((Runs.along_append w done rest).mp h).1
  exact Runs.run_invariant_along hw (fun _ _ => attempt_usable) hdone

end Dialog

/-! ### Attempts that meet, and that miss, the condition -/

def parentHome : String := "/home/parent"

def firstRun : World Nat := ⟨fun _ => none, ⟨[], List.nodup_nil⟩⟩

def fieldsFor (name : String) : Fields := ⟨name, "10.0.0.5", "7f3a", "4821-9930"⟩

/-- Paired to the end: the child installed the key, and its result is recorded. -/
def pairs (name : String) (k : Nat) : Attempt Nat where
  fields := fieldsFor name
  keygen := .pair k
  exchange := some
    { installed := true
      knownHosts := some "kid ssh-ed25519 AAAA"
      results := [⟨name, "2026-07-01T12:00:00Z",
        { hostname := some "kid"
          keyPath := some (computeKeyPath Char.isAlphanum parentHome name) }⟩] }

/-- The same with a wrong code. -/
def missesCode (name : String) (k : Nat) : Attempt Nat where
  fields := fieldsFor name
  keygen := .pair k
  exchange := none

theorem entries_keep_usable_keys_two_children :
    (Runs.run (attempt Char.isAlphanum parentHome) firstRun
      [pairs "Mia" 1, missesCode "Tom" 2, pairs "Tom" 3, pairs "Mia" 4]).Usable :=
  entries_keep_usable_keys (by decide) (by decide +kernel) _ (List.prefix_refl _)

/-- A mistyped code when pairing a registered child again loses its key, and so
does pairing another child whose name is sanitised to the same file name. -/
theorem retry_breaks_paired_child :
    ¬ (Runs.run (attempt Char.isAlphanum parentHome) firstRun
        [pairs "Mia" 1, missesCode "Mia" 2]).Usable ∧
      ¬ (Runs.run (attempt Char.isAlphanum parentHome) firstRun
        [pairs "Mia B" 1, pairs "Mia_B" 2]).Usable := by
  decide +kernel

end PairingDialog

end OmarchyKids
