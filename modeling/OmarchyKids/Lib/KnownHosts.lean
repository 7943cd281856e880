import OmarchyKids.Lib.Lines
import OmarchyKids.Lib.Utf8

/-!
# OmarchyKids.Lib.KnownHosts

The known-hosts file of `ssh`: one entry a line, with an optional marker, the hosts
and their key, separated by blanks. Lines that are empty, comments, or hold no key
are passed over.

How a key is written is a parameter. What matters here is which lines are entries:
a line that begins with a host name and a blank is one for that host with the key
that follows (`entry_host`), and every line counts for itself.
-/

namespace KnownHosts

variable {Key : Type*}

structure Entry (Key : Type*) where
  /-- `@cert-authority` or `@revoked`. -/
  marker : Option (List UInt8)
  hosts : List UInt8
  key : Key
  deriving DecidableEq

def isBlank (b : UInt8) : Bool := b == 32 || b == 9

def skipBlanks (text : List UInt8) : List UInt8 := text.dropWhile isBlank

/-- The first field, and what follows the blanks behind it. -/
def field (text : List UInt8) : List UInt8 × List UInt8 :=
  (text.takeWhile fun b => !isBlank b, skipBlanks (text.dropWhile fun b => !isBlank b))

/-- Nothing more on the line. -/
def isComment (text : List UInt8) : Bool := text == [] || text.head? == some 35

def markers : List (List UInt8) := [Utf8.bytes "@cert-authority", Utf8.bytes "@revoked"]

variable (parseKey : List UInt8 → Option Key)

def keyOf (text : List UInt8) : Option Key := if isComment text then none else parseKey text

/-- Hosts and key, behind the marker if there is one. -/
def hostEntry (marker : Option (List UInt8)) (text : List UInt8) : Option (Entry Key) :=
  (keyOf parseKey (field text).2).map fun key => ⟨marker, (field text).1, key⟩

/-- The text of a line that is handled as a C string. -/
def content (line : List UInt8) : List UInt8 := skipBlanks (line.takeWhile (· != 0))

/-- The entry of a line. -/
def entry (line : List UInt8) : Option (Entry Key) :=
  if isComment (content line) then none
  else if (content line).head? = some 64 then
    if (field (content line)).1 ∈ markers ∧ (field (content line)).2.head? ≠ some 64 then
      hostEntry parseKey (some (field (content line)).1) (field (content line)).2
    else none
  else hostEntry parseKey none (content line)

/-- The entries of a file. -/
def entries (file : List UInt8) : List (Entry Key) :=
  (Lines.lines 10 file).filterMap (entry parseKey)

/-! ### Lines that begin with a host name -/

/-- A name that can stand in front of a key as it is. -/
structure HostName (host : List UInt8) : Prop where
  ne_nil : host ≠ []
  noBlank : ∀ b ∈ host, isBlank b = false
  noNul : 0 ∉ host
  noLf : 10 ∉ host
  noComment : host.head? ≠ some 35
  noMarker : host.head? ≠ some 64

variable {parseKey} {host : List UInt8}

theorem HostName.content_append (h : HostName host) (text : List UInt8) :
    content (host ++ text) = host ++ text.takeWhile (· != 0) := by
  have htake : (host ++ text).takeWhile (· != 0) = host ++ text.takeWhile (· != 0) := by
    refine List.takeWhile_append_of_pos fun b hb => ?_
    simpa using fun heq : b = 0 => h.noNul (heq ▸ hb)
  rw [content, htake, skipBlanks]
  cases host with
  | nil => exact absurd rfl h.ne_nil
  | cons b host =>
      have hb := h.noBlank b List.mem_cons_self
      rw [List.cons_append, List.dropWhile_cons_of_neg (by simp [hb])]

/-- Name and rest of the line are told apart by the first blank. -/
theorem HostName.entry_append (h : HostName host) (text : List UInt8) :
    entry parseKey (host ++ text) = hostEntry parseKey none (host ++ text.takeWhile (· != 0)) := by
  have hhead : (host ++ text.takeWhile (· != 0)).head? = host.head? :=
    List.head?_append_of_ne_nil _ h.ne_nil
  have hcomment : isComment (host ++ text.takeWhile (· != 0)) = false := by
    simp [isComment, h.ne_nil, h.noComment, hhead]
  rw [entry, h.content_append, if_neg (by simp [hcomment]), hhead, if_neg h.noMarker]

theorem HostName.takeWhile_append (h : HostName host) (text : List UInt8) :
    (host ++ text).takeWhile (fun b => !isBlank b) = host ++ text.takeWhile (fun b => !isBlank b) ∧
      (host ++ text).dropWhile (fun b => !isBlank b) = text.dropWhile (fun b => !isBlank b) := by
  have hall : ∀ b ∈ host, (!isBlank b) = true := fun b hb => by simp [h.noBlank b hb]
  exact ⟨List.takeWhile_append_of_pos hall, List.dropWhile_append_of_pos hall⟩

/-- Behind name and blank stands the key. -/
theorem HostName.entry_blank (h : HostName host) (text : List UInt8) :
    entry parseKey (host ++ 32 :: text) =
      (keyOf parseKey (content text)).map fun key => ⟨none, host, key⟩ := by
  have hblank : (32 :: text).takeWhile (· != 0) = 32 :: text.takeWhile (· != 0) := rfl
  obtain ⟨htake, hdrop⟩ := h.takeWhile_append (32 :: text.takeWhile (· != 0))
  rw [h.entry_append, hblank, hostEntry, field, htake, hdrop]
  simp [isBlank, skipBlanks, content]

/-- A name alone is no entry. -/
theorem HostName.entry_self (h : HostName host) : entry parseKey host = none := by
  obtain ⟨htake, hdrop⟩ := h.takeWhile_append []
  rw [← List.append_nil host, h.entry_append, hostEntry, field]
  simp only [List.takeWhile_nil, htake, hdrop]
  rfl

theorem ne_zero_of_take {n : Nat} (hn : host.take n ≠ []) : n ≠ 0 := by
  intro hzero
  exact hn (by rw [hzero, List.take_zero])

/-- A beginning of a name is a name, as long as there is one. -/
theorem HostName.take (h : HostName host) {n : Nat} (hn : host.take n ≠ []) :
    HostName (host.take n) where
  ne_nil := hn
  noBlank := fun b hb => h.noBlank b (List.mem_of_mem_take hb)
  noNul := fun hmem => h.noNul (List.mem_of_mem_take hmem)
  noLf := fun hmem => h.noLf (List.mem_of_mem_take hmem)
  noComment := by
    rw [List.head?_take, if_neg (ne_zero_of_take hn)]
    exact h.noComment
  noMarker := by
    rw [List.head?_take, if_neg (ne_zero_of_take hn)]
    exact h.noMarker

/-! ### Files that begin with a host name -/

theorem mem_entries {file : List UInt8} {e : Entry Key} :
    e ∈ entries parseKey file ↔ ∃ line ∈ Lines.lines 10 file, entry parseKey line = some e :=
  List.mem_filterMap

/-- One entry out of the rest of the first line, the others out of the lines behind
it. -/
theorem HostName.mem_entries_iff (h : HostName host) (text : List UInt8) (e : Entry Key) :
    e ∈ entries parseKey (host ++ 32 :: text) ↔
      (∃ key, keyOf parseKey (content (Lines.first 10 text)) = some key ∧ e = ⟨none, host, key⟩) ∨
        ∃ line ∈ Lines.lines 10 (Lines.after 10 text), entry parseKey line = some e := by
  have hfront : 10 ∉ host ++ [32] := by
    rw [List.mem_append, not_or]
    exact ⟨h.noLf, by decide⟩
  have hfile : host ++ 32 :: text = (host ++ [32]) ++ text := by simp
  have hline : host ++ [32] ++ Lines.first 10 text = host ++ 32 :: Lines.first 10 text := by simp
  rw [mem_entries, hfile, Lines.lines_append_first hfront (by simp), hline, List.exists_mem_cons_iff,
    h.entry_blank, Option.map_eq_some_iff]
  simp only [eq_comm]

/-- A file that is cut off within the name has no entry. -/
theorem HostName.entries_take (h : HostName host) (n : Nat) :
    entries parseKey (host.take n) = [] := by
  by_cases hn : host.take n = []
  · rw [hn]
    rfl
  · have hcut := h.take hn
    have hlines : Lines.lines 10 (host.take n) = [host.take n] := by
      rw [Lines.lines, Lines.split_of_notMem hcut.noLf]
      simp [hn]
    rw [entries, hlines, List.filterMap_cons_none hcut.entry_self, List.filterMap_nil]

end KnownHosts
