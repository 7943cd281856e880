import Mathlib

/-!
# OmarchyKids.Common.Files

Where the daemon keeps its files, and the "temporary file, then rename" write it
uses for both `config.toml` and `launcher-apps.json`.

A file is an `Option`: `none` while it does not exist. Nothing ever reads the
temporary file, so it is left out of the state; only the error text shows which
of the three operations failed.
-/

namespace OmarchyKids

/-! ### Paths -/

def configDir (home : String) : String := home ++ "/.config/omarchy-kids"

def configPath (home : String) : String := configDir home ++ "/config.toml"

def launcherAppsPath (home : String) : String := configDir home ++ "/launcher-apps.json"

/-- The parent-curated list of desktop ids `Unlock` may grant. The daemon only
ever reads it. -/
def unlockableAppsPath (home : String) : String := configDir home ++ "/unlockable-apps.toml"

/-! ### Atomic writes -/

/-- How the three operations of an atomic write turn out: `none` is success,
`some e` a failure with the system's error text. -/
structure WriteOutcome where
  createDirAll : Option String := none
  write : Option String := none
  rename : Option String := none
  deriving DecidableEq, Repr

/-- The first failure, with its `anyhow` context. -/
def WriteOutcome.error (o : WriteOutcome) (dir path : String) : Option String :=
  match o.createDirAll with
  | some e => some ("creating " ++ dir ++ ": " ++ e)
  | none =>
      match o.write with
      | some e => some ("writing " ++ path ++ ".tmp: " ++ e)
      | none => o.rename.map fun e => "renaming into " ++ path ++ ": " ++ e

/-- Writes `path` through `path.tmp` and a rename: the file changes as a whole or
not at all. -/
def atomicWrite {α : Type} (o : WriteOutcome) (dir path : String) (content : α)
    (file : Option α) : Option α × Option String :=
  match o.error dir path with
  | some e => (file, some e)
  | none => (some content, none)

/-- A failed atomic write leaves the file as it was. -/
theorem atomicWrite_of_error {α : Type} {o : WriteOutcome} {dir path e : String} {content : α}
    {file : Option α} (h : o.error dir path = some e) :
    atomicWrite o dir path content file = (file, some e) := by
  simp [atomicWrite, h]

theorem atomicWrite_of_ok {α : Type} {o : WriteOutcome} {dir path : String} {content : α}
    {file : Option α} (h : o.error dir path = none) :
    atomicWrite o dir path content file = (some content, none) := by
  simp [atomicWrite, h]

end OmarchyKids
