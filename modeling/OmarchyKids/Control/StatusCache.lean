import OmarchyKids.Lib.JsonText
import OmarchyKids.Lib.Utf8

/-!
# OmarchyKids.Control.StatusCache

The snapshot of all paired children that the headless poll leaves for the desktop
panel: JSON written by hand, octet by octet.

`write_decodes` says that it is JSON and means the entries, whatever characters
their texts hold.
-/

namespace OmarchyKids

/-- A paired child's last known reachability. -/
structure HostStatus where
  name : String := ""
  online : Bool := false
  /-- ISO 8601. -/
  checkedAt : String := ""
  /-- Empty when online. -/
  lastError : String := ""
  deriving DecidableEq, Repr

/-- What the entry should read as. -/
def HostStatus.toValue (e : HostStatus) : JsonText.Value :=
  .obj [("name", .str e.name), ("online", .bool e.online), ("checkedAt", .str e.checkedAt),
    ("lastError", .str e.lastError)]

structure StatusCache where
  entries : List HostStatus := []

namespace StatusCache

def set (cache : StatusCache) (status : HostStatus) : StatusCache :=
  { cache with entries := cache.entries ++ [status] }

theorem entries_foldl_set (statuses : List HostStatus) (cache : StatusCache) :
    (statuses.foldl set cache).entries = cache.entries ++ statuses := by
  induction statuses generalizing cache with
  | nil => simp
  | cons status statuses ih =>
      rw [List.foldl_cons, ih]
      simp [set]

/-! ### The text -/

/-- `%04x` of a control character. -/
def hex4 (n : Nat) : List Char :=
  [Nat.digitChar (n / 4096), Nat.digitChar (n / 256 % 16), Nat.digitChar (n / 16 % 16),
    Nat.digitChar (n % 16)]

def escapeOctet (b : UInt8) : List UInt8 :=
  if b = 34 then Utf8.bytes "\\\""
  else if b = 92 then Utf8.bytes "\\\\"
  else if b = 10 then Utf8.bytes "\\n"
  else if b = 13 then Utf8.bytes "\\r"
  else if b = 9 then Utf8.bytes "\\t"
  else if b.toNat < 0x20 then Utf8.charsBytes ('\\' :: 'u' :: hex4 b.toNat)
  else [b]

def escapeJson (raw : String) : List UInt8 := (Utf8.bytes raw).flatMap escapeOctet

def entryText (e : HostStatus) : List UInt8 :=
  Utf8.bytes "  \x7b\"name\": \"" ++ escapeJson e.name ++ Utf8.bytes "\", " ++
  Utf8.bytes "\"online\": " ++ Utf8.bytes (if e.online then "true" else "false") ++
  Utf8.bytes ", " ++
  Utf8.bytes "\"checkedAt\": \"" ++ escapeJson e.checkedAt ++ Utf8.bytes "\", " ++
  Utf8.bytes "\"lastError\": \"" ++ escapeJson e.lastError ++ Utf8.bytes "\"\x7d"

/-- The text `write` leaves in the file. -/
def write (cache : StatusCache) : List UInt8 :=
  Utf8.bytes "[\n" ++
  (cache.entries.zipIdx.flatMap fun (e, i) =>
    entryText e ++ (if i + 1 < cache.entries.length then Utf8.bytes "," else []) ++
      Utf8.bytes "\n") ++
  Utf8.bytes "]\n"

/-! ### What it means -/

/-- How one character is escaped. -/
def escapeChar (c : Char) : List Char :=
  if c = '"' then ['\\', '"']
  else if c = '\\' then ['\\', '\\']
  else if c = '\n' then ['\\', 'n']
  else if c = '\r' then ['\\', 'r']
  else if c = '\t' then ['\\', 't']
  else if c.toNat < 0x20 then '\\' :: 'u' :: hex4 c.toNat
  else [c]

theorem escapeOctet_ascii :
    ∀ n < 0x80, escapeOctet (UInt8.ofNat n) = Utf8.charsBytes (escapeChar (Char.ofNat n)) := by
  decide

theorem escapeOctet_high {b : UInt8} (h : 0x80 ≤ b.toNat) : escapeOctet b = [b] := by
  have hascii : ∀ a ∈ [(34 : UInt8), 92, 10, 13, 9], a.toNat < 0x80 := by simp
  have hother : ∀ a ∈ [(34 : UInt8), 92, 10, 13, 9], b ≠ a := by
    intro a ha heq
    have := hascii a ha
    rw [← heq] at this
    omega
  have hcontrol : ¬ b.toNat < 0x20 := by omega
  simp only [List.forall_mem_cons] at hother
  simp [escapeOctet, hother, hcontrol]

theorem escapeChar_high {c : Char} (h : 0x80 ≤ c.toNat) : escapeChar c = [c] := by
  have hascii : ∀ d ∈ ['"', '\\', '\n', '\r', '\t'], d.toNat < 0x80 := by simp
  have hother : ∀ d ∈ ['"', '\\', '\n', '\r', '\t'], c ≠ d := by
    intro d hd heq
    have := hascii d hd
    rw [← heq] at this
    omega
  have hcontrol : ¬ c.toNat < 0x20 := by omega
  simp only [List.forall_mem_cons] at hother
  simp [escapeChar, hother, hcontrol]

/-- Octet by octet or character by character: only ASCII is escaped, and no other
character has ASCII octets. -/
theorem flatMap_escapeOctet (c : Char) :
    (String.utf8EncodeChar c).flatMap escapeOctet = Utf8.charsBytes (escapeChar c) := by
  rcases Nat.lt_or_ge c.toNat 0x80 with hc | hc
  · have h := escapeOctet_ascii c.toNat hc
    rw [Char.ofNat_toNat] at h
    rw [Utf8.utf8EncodeChar_ascii hc, List.flatMap_singleton, h]
  · have hhigh : ∀ b ∈ String.utf8EncodeChar c, 0x80 ≤ b.toNat := by
      intro b hb
      by_contra hlt
      rw [not_le] at hlt
      have := Utf8.utf8EncodeChar_of_ascii hlt hb
      omega
    have hsame : (String.utf8EncodeChar c).flatMap escapeOctet =
        (String.utf8EncodeChar c).flatMap fun b => [b] :=
      List.flatMap_congr fun b hb => escapeOctet_high (hhigh b hb)
    rw [escapeChar_high hc, Utf8.charsBytes_cons, Utf8.charsBytes_nil, List.append_nil, hsame,
      List.flatMap_singleton']

theorem escapeJson_eq (raw : String) :
    escapeJson raw = Utf8.charsBytes (raw.toList.flatMap escapeChar) := by
  rw [escapeJson, Utf8.bytes]
  induction raw.toList with
  | nil => rfl
  | cons c cs ih =>
      rw [Utf8.charsBytes_cons, List.flatMap_append, ih, flatMap_escapeOctet, List.flatMap_cons,
        Utf8.charsBytes_append]

/-- The escape of a control character is a code unit of its own. -/
theorem hex4_hex4 : ∀ n < 0x20,
    JsonText.hex4 (Nat.digitChar (n / 4096)) (Nat.digitChar (n / 256 % 16))
        (Nat.digitChar (n / 16 % 16)) (Nat.digitChar (n % 16)) = some n ∧
      JsonText.isHigh n = false ∧ JsonText.isLow n = false := by
  decide

theorem chars_escapeChar (c : Char) {text cs : List Char} (h : JsonText.Chars text cs) :
    JsonText.Chars (escapeChar c ++ text) (c :: cs) := by
  unfold escapeChar
  split_ifs with hquote hbackslash hlf hcr htab hcontrol
  · subst hquote
    exact .simple (by decide) h
  · subst hbackslash
    exact .simple (by decide) h
  · subst hlf
    exact .simple (by decide) h
  · subst hcr
    exact .simple (by decide) h
  · subst htab
    exact .simple (by decide) h
  · obtain ⟨hunit, hhigh, hlow⟩ := hex4_hex4 c.toNat hcontrol
    have hread := JsonText.Chars.unit hunit hhigh hlow h
    rw [Char.ofNat_toNat] at hread
    exact hread
  · exact .plain ⟨hquote, hbackslash, by omega⟩ h

/-- An escaped text is the inside of a string literal for the text. -/
theorem chars_escape (cs : List Char) : JsonText.Chars (cs.flatMap escapeChar) cs := by
  induction cs with
  | nil => exact .nil
  | cons c cs ih =>
      rw [List.flatMap_cons]
      exact chars_escapeChar c ih

/-! ### The text is a document -/

/-- A string literal as it is written. -/
def literal (s : String) : List Char := '"' :: (s.toList.flatMap escapeChar ++ ['"'])

/-- A member as it is written. -/
def memberChars (key : String) (text : List Char) : List Char :=
  '"' :: (key.toList ++ '"' :: ':' :: ' ' :: text)

def onlineChars (online : Bool) : List Char :=
  if online then ['t', 'r', 'u', 'e'] else ['f', 'a', 'l', 's', 'e']

/-- The characters of an entry, without the indentation. -/
def entryChars (e : HostStatus) : List Char :=
  '\x7b' :: (memberChars "name" (literal e.name) ++ ',' ::
    ((' ' :: memberChars "online" (onlineChars e.online)) ++ ',' ::
      ((' ' :: memberChars "checkedAt" (literal e.checkedAt)) ++ ',' ::
        (' ' :: memberChars "lastError" (literal e.lastError)))) ++ ['\x7d'])

/-- The entries on their lines. -/
def linesChars : List HostStatus → List Char
  | [] => []
  | [e] => ' ' :: ' ' :: (entryChars e ++ ['\n'])
  | e :: es => ' ' :: ' ' :: (entryChars e ++ ',' :: '\n' :: linesChars es)

theorem spells_literal (s : String) : JsonText.Spells (.value (.str s)) (literal s) := by
  have h := JsonText.Spells.string (chars_escape s.toList)
  rw [String.ofList_toList] at h
  exact h

theorem spells_online (b : Bool) : JsonText.Spells (.value (.bool b)) (onlineChars b) := by
  cases b with
  | true => exact .trueWord
  | false => exact .falseWord

theorem spells_member {key : String} (hkey : ∀ c ∈ key.toList, JsonText.IsPlain c)
    {v : JsonText.Value} {text : List Char} (h : JsonText.Spells (.value v) text)
    {blank : List Char} (hblank : JsonText.Blank blank) :
    JsonText.Spells (.member (key, v)) (blank ++ memberChars key text) := by
  have hspace : JsonText.Blank [' '] := by simp [JsonText.Blank, JsonText.isSpace]
  have hnone : JsonText.Blank [] := by simp [JsonText.Blank]
  have helement := JsonText.Spells.element hspace h hnone
  have hmember := JsonText.Spells.member hblank (JsonText.chars_of_plain hkey) hnone helement
  rw [String.ofList_toList, List.append_nil] at hmember
  exact hmember

theorem spells_entry (e : HostStatus) : JsonText.Spells (.value e.toValue) (entryChars e) := by
  have hspace : JsonText.Blank [' '] := by simp [JsonText.Blank, JsonText.isSpace]
  have hnone : JsonText.Blank [] := by simp [JsonText.Blank]
  have hkeys : ∀ key ∈ ["name", "online", "checkedAt", "lastError"],
      ∀ c ∈ key.toList, JsonText.IsPlain c := by
    simp [JsonText.IsPlain]
  simp only [List.forall_mem_cons] at hkeys
  obtain ⟨hname, honline, hchecked, herror, -⟩ := hkeys
  refine .obj (.members ?_ (.members ?_ (.members ?_ (.single ?_))))
  · exact spells_member hname (spells_literal e.name) hnone
  · exact spells_member honline (spells_online e.online) hspace
  · exact spells_member hchecked (spells_literal e.checkedAt) hspace
  · exact spells_member herror (spells_literal e.lastError) hspace

/-- The lines are the items of an array, each with a line break in front. -/
theorem spells_lines {es : List HostStatus} (hne : es ≠ []) :
    JsonText.Spells (.items (es.map HostStatus.toValue)) ('\n' :: linesChars es) := by
  have hindent : JsonText.Blank ['\n', ' ', ' '] := by simp [JsonText.Blank, JsonText.isSpace]
  have hbreak : JsonText.Blank ['\n'] := by simp [JsonText.Blank, JsonText.isSpace]
  have hnone : JsonText.Blank [] := by simp [JsonText.Blank]
  induction es with
  | nil => exact absurd rfl hne
  | cons e es ih =>
      cases es with
      | nil => exact .item (.element hindent (spells_entry e) hbreak)
      | cons e' es =>
          have helement := JsonText.Spells.element hindent (spells_entry e) hnone
          rw [List.append_nil] at helement
          have hitems := JsonText.Spells.items helement (ih (List.cons_ne_nil e' es))
          simpa [linesChars] using hitems

/-! ### The octets are those of the text -/

theorem charsBytes_literal (s : String) :
    Utf8.charsBytes (literal s) = Utf8.bytes "\"" ++ escapeJson s ++ Utf8.bytes "\"" := by
  have hliteral : literal s = ['"'] ++ s.toList.flatMap escapeChar ++ ['"'] := by
    simp [literal]
  have hquote : Utf8.bytes "\"" = Utf8.charsBytes ['"'] := by decide
  rw [hliteral, Utf8.charsBytes_append, Utf8.charsBytes_append, escapeJson_eq, hquote]

theorem charsBytes_member (key : String) (text : List Char) :
    Utf8.charsBytes (memberChars key text) =
      Utf8.bytes "\"" ++ Utf8.bytes key ++ Utf8.bytes "\": " ++ Utf8.charsBytes text := by
  have hmember : memberChars key text = ['"'] ++ key.toList ++ ['"', ':', ' '] ++ text := by
    simp [memberChars]
  have hquote : Utf8.bytes "\"" = Utf8.charsBytes ['"'] := by decide
  have hcolon : Utf8.bytes "\": " = Utf8.charsBytes ['"', ':', ' '] := by decide
  rw [hmember, Utf8.charsBytes_append, Utf8.charsBytes_append, Utf8.charsBytes_append, hquote,
    hcolon, Utf8.bytes]

theorem charsBytes_online (b : Bool) :
    Utf8.charsBytes (onlineChars b) = Utf8.bytes (if b then "true" else "false") := by
  cases b <;> decide

/-- The fixed texts of an entry, taken apart at the literals. -/
theorem bytes_texts :
    Utf8.bytes "  \x7b\"name\": \"" =
        Utf8.charsBytes [' ', ' ', '\x7b'] ++
          (Utf8.bytes "\"" ++ Utf8.bytes "name" ++ Utf8.bytes "\": " ++ Utf8.bytes "\"") ∧
      Utf8.bytes "\", " = Utf8.bytes "\"" ++ Utf8.charsBytes [',', ' '] ∧
      Utf8.bytes "\"online\": " =
        Utf8.bytes "\"" ++ Utf8.bytes "online" ++ Utf8.bytes "\": " ∧
      Utf8.bytes ", " = Utf8.charsBytes [',', ' '] ∧
      Utf8.bytes "\"checkedAt\": \"" =
        Utf8.bytes "\"" ++ Utf8.bytes "checkedAt" ++ Utf8.bytes "\": " ++ Utf8.bytes "\"" ∧
      Utf8.bytes "\"lastError\": \"" =
        Utf8.bytes "\"" ++ Utf8.bytes "lastError" ++ Utf8.bytes "\": " ++ Utf8.bytes "\"" ∧
      Utf8.bytes "\"\x7d" = Utf8.bytes "\"" ++ Utf8.charsBytes ['\x7d'] := by
  decide +kernel

theorem entryText_eq (e : HostStatus) :
    entryText e = Utf8.charsBytes (' ' :: ' ' :: entryChars e) := by
  have hchars : ' ' :: ' ' :: entryChars e =
      [' ', ' ', '\x7b'] ++ (memberChars "name" (literal e.name) ++ ([',', ' '] ++
        (memberChars "online" (onlineChars e.online) ++ ([',', ' '] ++
          (memberChars "checkedAt" (literal e.checkedAt) ++ ([',', ' '] ++
            (memberChars "lastError" (literal e.lastError) ++ ['\x7d']))))))) := by
    simp [entryChars]
  obtain ⟨hname, hclose, honline, hcomma, hchecked, herror, hend⟩ := bytes_texts
  rw [hchars, entryText, hname, hclose, honline, hcomma, hchecked, herror, hend]
  simp only [Utf8.charsBytes_append, charsBytes_member, charsBytes_literal, charsBytes_online,
    List.append_assoc]

/-- The loop over the entries, from any position on. -/
theorem lines_eq (es : List HostStatus) (i : Nat) :
    ((es.zipIdx i).flatMap fun (e, j) =>
        entryText e ++ (if j + 1 < i + es.length then Utf8.bytes "," else []) ++
          Utf8.bytes "\n") = Utf8.charsBytes (linesChars es) := by
  have hcomma : Utf8.bytes "," = Utf8.charsBytes [','] := by decide
  have hbreak : Utf8.bytes "\n" = Utf8.charsBytes ['\n'] := by decide
  induction es generalizing i with
  | nil => rfl
  | cons e es ih =>
      have ih := ih (i + 1)
      rw [show i + 1 + es.length = i + (e :: es).length by simp; omega] at ih
      rw [List.zipIdx_cons, List.flatMap_cons, ih]
      dsimp only
      cases es with
      | nil =>
          have hlast : ¬ i + 1 < i + [e].length := by simp
          have hchars : linesChars [e] = (' ' :: ' ' :: entryChars e) ++ ['\n'] := by
            simp [linesChars]
          rw [if_neg hlast, hchars, Utf8.charsBytes_append, ← entryText_eq, hbreak]
          simp [linesChars]
      | cons e' es =>
          have hmore : i + 1 < i + (e :: e' :: es).length := by simp
          have hchars : linesChars (e :: e' :: es) =
              (' ' :: ' ' :: entryChars e) ++ ([','] ++ (['\n'] ++ linesChars (e' :: es))) := by
            simp [linesChars]
          rw [if_pos hmore, hchars, Utf8.charsBytes_append, ← entryText_eq, hcomma, hbreak]
          simp only [Utf8.charsBytes_append, List.append_assoc]

/-- The characters of the file. -/
def fileChars (es : List HostStatus) : List Char :=
  '[' :: ('\n' :: linesChars es ++ [']']) ++ ['\n']

theorem write_eq (cache : StatusCache) :
    write cache = Utf8.charsBytes (fileChars cache.entries) := by
  have hopen : Utf8.bytes "[\n" = Utf8.charsBytes ['[', '\n'] := by decide
  have hclose : Utf8.bytes "]\n" = Utf8.charsBytes [']', '\n'] := by decide
  have hlines := lines_eq cache.entries 0
  have hchars : fileChars cache.entries =
      ['[', '\n'] ++ linesChars cache.entries ++ [']', '\n'] := by
    simp [fileChars]
  rw [Nat.zero_add] at hlines
  rw [hchars, Utf8.charsBytes_append, Utf8.charsBytes_append, ← hlines, write, hopen, hclose]

theorem blank_break : JsonText.Blank ['\n'] := by simp [JsonText.Blank, JsonText.isSpace]

theorem blank_none : JsonText.Blank [] := by simp [JsonText.Blank]

theorem spells_file (es : List HostStatus) :
    JsonText.Spells (.value (.arr (es.map HostStatus.toValue)))
      ('[' :: ('\n' :: linesChars es ++ [']'])) := by
  by_cases hne : es = []
  · subst hne
    exact .emptyArr blank_break
  · exact .arr (spells_lines hne)

/-- It is an array of the entries, with or without the last line feed. -/
theorem document_file (es : List HostStatus) :
    JsonText.Document (fileChars es) (.arr (es.map HostStatus.toValue)) :=
  .element blank_none (spells_file es) blank_break

theorem document_fileBody (es : List HostStatus) :
    JsonText.Document ('[' :: ('\n' :: linesChars es ++ [']']))
      (.arr (es.map HostStatus.toValue)) := by
  have hbody := JsonText.Spells.element blank_none (spells_file es) blank_none
  rwa [List.nil_append, List.append_nil] at hbody

/-- What is written after any entries have been set is UTF-8, and its text is a JSON
document that means the entries in their order, and nothing else. -/
theorem write_decodes (statuses : List HostStatus) :
    ∃ text, Utf8.decode (write (statuses.foldl set {})) = some text ∧
      ∀ v, JsonText.Document text.toList v ↔ v = .arr (statuses.map HostStatus.toValue) := by
  refine ⟨String.ofList (fileChars statuses), ?_, fun v => ?_⟩
  · rw [write_eq, entries_foldl_set, List.nil_append, ← Utf8.bytes_ofList, Utf8.decode_bytes]
  · rw [String.toList_ofList]
    constructor
    · intro h
      exact h.unique (document_file statuses)
    · intro h
      rw [h]
      exact document_file statuses

end StatusCache

end OmarchyKids
