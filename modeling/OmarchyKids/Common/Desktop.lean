import OmarchyKids.Lib.Text

/-!
# OmarchyKids.Common.Desktop

Resolving a desktop id to an installed `.desktop` file, reading one, and turning
its `Exec=` line into an argument vector. Only the two system-wide directories are
consulted; the file system is a parameter.
-/

namespace OmarchyKids

/-- What the daemon sees of the file system. -/
structure Fs where
  /-- `Path::is_file`. -/
  isFile : String → Bool
  /-- `std::fs::read_to_string`; `none` is an error. -/
  readToString : String → Option String

namespace Desktop

structure DesktopEntry where
  name : String
  icon : String
  exec : String
  deriving DecidableEq, Repr

def isIdChar (c : Char) : Bool :=
  c.isAlphanum || c == '-' || c == '_' || c == '.'

/-- Rejects anything that could escape the `<dir>/<id>.desktop` join. -/
def isValidDesktopId (desktopId : String) : Bool :=
  if desktopId = "" ∨ desktopId = "." ∨ desktopId = ".." then false
  else desktopId.toList.all isIdChar

/-- The trusted application directories, most specific first. -/
def applicationDirs : List String := ["/usr/local/share/applications", "/usr/share/applications"]

def findDesktopFile (fs : Fs) (desktopId : String) : Option String :=
  if isValidDesktopId desktopId then
    (applicationDirs.map fun dir => dir ++ "/" ++ desktopId ++ ".desktop").find? fs.isFile
  else none

/-! ### Parsing an entry -/

/-- The slots of the line loop: the group flag and the first value of each key. -/
structure ParseState where
  inMainSection : Bool := false
  name : Option (List Char) := none
  icon : Option (List Char) := none
  exec : Option (List Char) := none

/-- One line of the loop. -/
def parseLine (s : ParseState) (rawLine : List Char) : ParseState :=
  let line := Text.trim rawLine
  if line.head? = some '[' then { s with inMainSection := line = "[Desktop Entry]".toList }
  else if !s.inMainSection then s
  else
    match Text.dropLeading "Name=".toList line with
    | some v => { s with name := some (s.name.getD v) }
    | none =>
        match Text.dropLeading "Icon=".toList line with
        | some v => { s with icon := some (s.icon.getD v) }
        | none =>
            match Text.dropLeading "Exec=".toList line with
            | some v => { s with exec := some (s.exec.getD v) }
            | none => s

/-- The file stem of a path, `"app"` when it has none. -/
def desktopIdFromPath (path : String) : String :=
  let file := (path.toList.reverse.takeWhile (· ≠ '/')).reverse
  let ext := (file.reverse.takeWhile (· ≠ '.')).length + 1
  if file = [] then "app"
  else if ext < file.length then String.ofList (file.take (file.length - ext))
  else String.ofList file

/-- Reads the entry; an unreadable file or a missing `Exec=` is an error. -/
def parseDesktopEntry (fs : Fs) (path : String) : Except String DesktopEntry :=
  match fs.readToString path with
  | none => .error ("reading " ++ path)
  | some content =>
      let s := (Text.splitLines content.toList).foldl parseLine {}
      match s.exec with
      | none => .error ("no Exec= line in " ++ path)
      | some exec =>
          .ok { name := (s.name.map String.ofList).getD (desktopIdFromPath path)
                icon := (s.icon.map String.ofList).getD ""
                exec := String.ofList exec }

/-! ### The argument vector of an entry -/

/-- The loop of `split_shell_words`, with the word so far: double quotes group,
and a backslash between them takes the next character as it is. -/
def splitShellWordsFrom (cur : List Char) (inQuotes : Bool) : List Char → List (List Char)
  | [] => if cur = [] then [] else [cur]
  | c :: cs =>
      if c = '"' then splitShellWordsFrom cur (!inQuotes) cs
      else if c = '\\' ∧ inQuotes then
        match cs with
        | [] => splitShellWordsFrom cur inQuotes []
        | next :: cs => splitShellWordsFrom (cur ++ [next]) inQuotes cs
      else if Text.isWhitespace c ∧ !inQuotes then
        (if cur = [] then [] else [cur]) ++ splitShellWordsFrom [] inQuotes cs
      else splitShellWordsFrom (cur ++ [c]) inQuotes cs

def splitShellWords (s : List Char) : List (List Char) := splitShellWordsFrom [] false s

/-- Drops each percent sign with the character behind it. -/
def stripFieldCodes : List Char → List Char
  | [] => []
  | c :: cs =>
      if c = '%' then
        match cs with
        | [] => []
        | _ :: cs => stripFieldCodes cs
      else c :: stripFieldCodes cs

/-- A percent sign and one more byte. -/
def isFieldCode (tok : List Char) : Bool :=
  (tok.map Char.utf8Size).sum == 2 && tok.head? == some '%'

/-- The words of an `Exec=` line without their field codes. -/
def execToArgv (exec : String) : List String :=
  ((((splitShellWords exec.toList).filter fun tok => !isFieldCode tok).map stripFieldCodes).filter
    fun tok => !tok.isEmpty).map String.ofList

theorem percent_notMem_stripFieldCodes (s : List Char) : '%' ∉ stripFieldCodes s := by
  fun_induction stripFieldCodes s with
  | case1 => exact List.not_mem_nil
  | case2 => exact List.not_mem_nil
  | case3 _ cs ih => exact ih
  | case4 c cs hc ih =>
      rw [List.mem_cons, not_or]
      exact ⟨Ne.symm hc, ih⟩

/-- No argument is empty, and none carries a percent sign. -/
theorem mem_execToArgv {exec arg : String} (h : arg ∈ execToArgv exec) :
    arg ≠ "" ∧ '%' ∉ arg.toList := by
  obtain ⟨tok, htok, rfl⟩ := List.mem_map.mp h
  obtain ⟨hmem, hne⟩ := List.mem_filter.mp htok
  obtain ⟨word, -, rfl⟩ := List.mem_map.mp hmem
  refine ⟨fun hempty => ?_, ?_⟩
  · rw [String.ofList_eq_empty_iff] at hempty
    rw [hempty] at hne
    cases hne
  · rw [String.toList_ofList]
    exact percent_notMem_stripFieldCodes word

example : execToArgv "tuxpaint --fullscreen=native \"a b\" %f" =
    ["tuxpaint", "--fullscreen=native", "a b"] := by decide +kernel

end Desktop

end OmarchyKids
