import OmarchyKids.Lib.Lines

/-!
# OmarchyKids.Lib.TomlText

The part of TOML that an array of flat tables needs: values as a reader gives them, what
a program may expect of a library with a reader and a writer (`Library.RoundTrips`,
`Library.Lawful`), and a line-wise reader and writer for which these expectations hold
(`linewise_lawful`).

A file is a text that may stop anywhere, so the expectations say two things of it: a
whole text is read back, and the text of a table goes on where that of its first keys
stops.
-/

namespace TomlText

/-! ### Values -/

inductive Value
  | string (s : String)
  | integer (n : Int)
  | array (elems : List Value)
  /-- Keys in ascending order. -/
  | table (entries : List (String × Value))
  /-- A boolean, a float, a date or a time, with the integer it is worth without a loss. -/
  | other (asInt : Option Int)

abbrev Table := List (String × Value)

/-- Inserts a key; one that is there keeps its value. -/
def insert (key : String) (value : Value) : Table → Table
  | [] => [(key, value)]
  | (k, v) :: entries =>
      if key.toList < k.toList then (key, value) :: (k, v) :: entries
      else if key = k then (k, v) :: entries
      else (k, v) :: insert key value entries

/-- A root table with one array of tables. -/
def tables (key : String) (ts : List Table) : Table := [(key, .array (ts.map .table))]

/-- A key that needs no quotes. -/
def BareKey (key : String) : Prop :=
  key ≠ "" ∧ ∀ c ∈ key.toList, c.isAlphanum = true ∨ c = '_' ∨ c = '-'

/-- A text, or an integer of 64 bits. -/
def Value.IsScalar : Value → Prop
  | .string _ => True
  | .integer n => -2 ^ 63 ≤ n ∧ n < 2 ^ 63
  | _ => False

/-- A table of scalars. -/
structure Flat (t : Table) : Prop where
  bare : ∀ entry ∈ t, BareKey entry.1
  scalar : ∀ entry ∈ t, entry.2.IsScalar
  sorted : (t.map fun entry => entry.1.toList).Pairwise (· < ·)

theorem Flat.nil : Flat [] where
  bare _ h := absurd h List.not_mem_nil
  scalar _ h := absurd h List.not_mem_nil
  sorted := .nil

/-- The first keys of a flat table. -/
theorem Flat.of_append {t more : Table} (h : Flat (t ++ more)) : Flat t where
  bare entry hmem := h.bare entry (List.mem_append_left more hmem)
  scalar entry hmem := h.scalar entry (List.mem_append_left more hmem)
  sorted := by
    have hsorted := h.sorted
    rw [List.map_append, List.pairwise_append] at hsorted
    exact hsorted.1

/-! ### Libraries -/

/-- A reader and a writer of documents. -/
structure Library where
  /-- `none` is a parse error. -/
  parse : List Char → Option Table
  render : Table → List Char

/-- A document with one array of flat tables under the key is read back. -/
structure Library.RoundTrips (lib : Library) (key : String) : Prop where
  parse_render : ∀ {ts : List Table}, ts ≠ [] → (∀ t ∈ ts, Flat t) →
    lib.parse (lib.render (tables key ts)) = some (tables key ts)

/-- What is known besides of documents that stop early. -/
structure Library.Lawful (lib : Library) (key : String) : Prop extends lib.RoundTrips key where
  /-- The empty document has no keys. -/
  parse_nil : lib.parse [] = some []
  /-- The keys of a table are written one after the other. -/
  render_append : ∀ {t more : Table}, Flat (t ++ more) →
    lib.render (tables key [t]) <+: lib.render (tables key [t ++ more])
  /-- An integer is written digit by digit. -/
  render_integer : ∀ {t : Table} {k : String} {m n : Int},
    Flat (t ++ [(k, .integer m)]) → Flat (t ++ [(k, .integer n)]) →
    (Int.repr m).toList <+: (Int.repr n).toList →
    lib.render (tables key [t ++ [(k, .integer m)]]) <+:
      lib.render (tables key [t ++ [(k, .integer n)]])

/-! ### A line-wise writer and reader

Every line is empty, a header or one key with its value. Between the tables stands an
empty line. -/

/-- Lines with a line feed between two of them. -/
def unlines : List (List Char) → List Char
  | [] => []
  | [line] => line
  | line :: rest => line ++ '\n' :: unlines rest

def headerLine (key : String) : List Char := "[[".toList ++ key.toList ++ "]]".toList

/-- The characters between double quotes. -/
def escape (c : Char) : List Char :=
  if c = '\n' then ['\\', 'n'] else if c = '"' ∨ c = '\\' then ['\\', c] else [c]

/-- A text between single quotes where that is possible. -/
def stringText (s : List Char) : List Char :=
  if '\'' ∉ s ∧ '\n' ∉ s then '\'' :: s ++ ['\'']
  else '"' :: s.flatMap escape ++ ['"']

def valueText : Value → List Char
  | .string s => stringText s.toList
  | .integer n => (Int.repr n).toList
  | _ => []

def entryLine (entry : String × Value) : List Char :=
  entry.1.toList ++ " = ".toList ++ valueText entry.2

def tableLines (key : String) (t : Table) : List (List Char) := headerLine key :: t.map entryLine

/-- The lines of the tables; an empty one before each but the first. -/
def documentLines (key : String) : List Table → List (List Char)
  | [] => []
  | t :: ts => tableLines key t ++ ts.flatMap fun t => [] :: tableLines key t

/-- The tables under a root. -/
def tablesOf : Table → List Table
  | [(_, .array elems)] => elems.filterMap fun
      | .table t => some t
      | _ => none
  | _ => []

/-- The text up to a double quote, which must be the last character. -/
def unescape : List Char → Option (List Char)
  | [] => none
  | c :: cs =>
      if c = '"' then (if cs = [] then some [] else none)
      else if c = '\\' then
        match cs with
        | [] => none
        | d :: cs => (unescape cs).map fun s => (if d = 'n' then '\n' else d) :: s
      else (unescape cs).map fun s => c :: s

def readValue : List Char → Option Value
  | '\'' :: cs =>
      if cs.dropWhile (· ≠ '\'') = ['\''] then
        some (.string (String.ofList (cs.takeWhile (· ≠ '\''))))
      else none
  | '"' :: cs => (unescape cs).map fun s => .string (String.ofList s)
  | cs => (String.ofList cs).toInt?.map .integer

def readEntry (line : List Char) : Option (String × Value) :=
  if " = ".toList.isPrefixOf (line.dropWhile (· ≠ ' ')) then
    (readValue ((line.dropWhile (· ≠ ' ')).drop 3)).map fun v =>
      (String.ofList (line.takeWhile (· ≠ ' ')), v)
  else none

/-- One line, with the tables so far. -/
def readLine (key : String) (acc : Option (List Table)) (line : List Char) : Option (List Table) :=
  match acc with
  | none => none
  | some ts =>
      if line = [] then some ts
      else if line = headerLine key then some (ts ++ [[]])
      else
        match ts.getLast?, readEntry line with
        | some t, some entry => some (ts.dropLast ++ [t ++ [entry]])
        | _, _ => none

def linewise (key : String) : Library where
  parse text :=
    match (Lines.lines '\n' text).foldl (readLine key) (some []) with
    | none => none
    | some [] => some []
    | some ts => some (tables key ts)
  render root := unlines (documentLines key (tablesOf root))

/-! #### Lines -/

theorem unlines_cons (line : List Char) {rest : List (List Char)} (h : rest ≠ []) :
    unlines (line :: rest) = line ++ '\n' :: unlines rest := by
  cases rest with
  | nil => exact absurd rfl h
  | cons next rest => rfl

theorem lines_unlines {ls : List (List Char)} (hfree : ∀ l ∈ ls, '\n' ∉ l)
    (hlast : ls.getLast? ≠ some []) : Lines.lines '\n' (unlines ls) = ls := by
  induction ls with
  | nil => rfl
  | cons line rest ih =>
      obtain ⟨hline, hrest⟩ := List.forall_mem_cons.mp hfree
      by_cases hne : rest = []
      · subst hne
        have hline' : line ≠ [] := by simpa using hlast
        rw [unlines, Lines.lines, Lines.split_of_notMem hline, if_neg hline', List.nil_append]
      · have ih := ih hrest (by rwa [List.getLast?_cons_of_ne_nil hne] at hlast)
        rw [Lines.lines] at ih
        rw [unlines_cons line hne, Lines.lines, Lines.split_line hline, List.cons_append, ih]

theorem unlines_append {ls : List (List Char)} (hne : ls ≠ []) (more : List (List Char)) :
    unlines ls <+: unlines (ls ++ more) := by
  induction ls with
  | nil => exact absurd rfl hne
  | cons line rest ih =>
      by_cases hrest : rest = []
      · subst hrest
        by_cases hmore : more = []
        · rw [hmore]
          exact List.prefix_rfl
        · rw [List.singleton_append, unlines_cons line hmore]
          exact List.prefix_append _ _
      · rw [List.cons_append, unlines_cons line hrest, unlines_cons line (by simp [hrest])]
        exact (List.prefix_append_right_inj _).mpr (List.cons_prefix_cons.mpr ⟨rfl, ih hrest⟩)

/-- A longer last line. -/
theorem unlines_last (ls : List (List Char)) {line line' : List Char} (h : line <+: line') :
    unlines (ls ++ [line]) <+: unlines (ls ++ [line']) := by
  induction ls with
  | nil => exact h
  | cons first rest ih =>
      rw [List.cons_append, List.cons_append, unlines_cons first (by simp),
        unlines_cons first (by simp)]
      exact (List.prefix_append_right_inj _).mpr (List.cons_prefix_cons.mpr ⟨rfl, ih⟩)

/-! #### Values -/

theorem unescape_flatMap (s : List Char) : unescape (s.flatMap escape ++ ['"']) = some s := by
  induction s with
  | nil => rfl
  | cons c s ih =>
      rw [List.flatMap_cons, List.append_assoc]
      by_cases hfeed : c = '\n'
      · subst hfeed
        rw [escape, if_pos rfl, List.cons_append, unescape.eq_def]
        simp [ih]
      · by_cases hspecial : c = '"' ∨ c = '\\'
        · rw [escape, if_neg hfeed, if_pos hspecial, List.cons_append, unescape.eq_def]
          rcases hspecial with rfl | rfl <;> simp [ih]
        · rw [escape, if_neg hfeed, if_neg hspecial, List.singleton_append, unescape.eq_def]
          rw [not_or] at hspecial
          simp only [hspecial, if_false, ih, Option.map_some]

theorem notMem_stringText (s : List Char) : '\n' ∉ stringText s := by
  rw [stringText]
  split
  next hplain => simp [hplain.2]
  next =>
    have hescape : ∀ c ∈ s, '\n' ∉ escape c := by
      intro c _
      by_cases hfeed : c = '\n'
      · rw [escape, if_pos hfeed]
        decide
      · rw [escape, if_neg hfeed]
        split <;> simp [Ne.symm hfeed]
    simpa using hescape

theorem readValue_stringText (s : List Char) :
    readValue (stringText s) = some (.string (String.ofList s)) := by
  rw [stringText]
  split
  next hplain =>
    obtain ⟨hquote, -⟩ := hplain
    have hall : ∀ c ∈ s, decide (c ≠ '\'') = true := fun c hc => by
      rw [decide_eq_true_iff]
      rintro rfl
      exact hquote hc
    have hdrop : (s ++ ['\'']).dropWhile (· ≠ '\'') = ['\''] := by
      rw [List.dropWhile_append_of_pos hall]
      rfl
    have htake : (s ++ ['\'']).takeWhile (· ≠ '\'') = s := by
      rw [List.takeWhile_append_of_pos hall]
      simp
    rw [List.cons_append, readValue, if_pos hdrop, htake]
  next => rw [List.cons_append, readValue, unescape_flatMap, Option.map_some]

/-- Digits, behind a minus sign or not. -/
theorem mem_repr {n : Int} {c : Char} (h : c ∈ (Int.repr n).toList) :
    c = '-' ∨ c.isDigit = true := by
  rw [Int.repr_eq_if] at h
  split at h
  · rw [Nat.toList_repr] at h
    exact .inr (Nat.isDigit_of_mem_toDigits (by decide) (by decide) h)
  · rw [String.toList_append, Nat.toList_repr, List.mem_append] at h
    rcases h with h | h
    · exact .inl (by simpa using h)
    · exact .inr (Nat.isDigit_of_mem_toDigits (by decide) (by decide) h)

theorem readValue_repr (n : Int) : readValue (Int.repr n).toList = some (.integer n) := by
  have hread : readValue (Int.repr n).toList =
      (String.ofList (Int.repr n).toList).toInt?.map .integer := by
    have hmem := @mem_repr n
    generalize (Int.repr n).toList = cs at hmem ⊢
    unfold readValue
    split
    next => exact absurd (hmem List.mem_cons_self) (by decide)
    next => exact absurd (hmem List.mem_cons_self) (by decide)
    next => rfl
  rw [hread, String.ofList_toList, Int.toInt?_repr, Option.map_some]

theorem notMem_valueText (v : Value) : '\n' ∉ valueText v := by
  cases v with
  | string s => exact notMem_stringText s.toList
  | integer n => exact fun h => absurd (mem_repr h) (by decide)
  | array elems => exact List.not_mem_nil
  | table entries => exact List.not_mem_nil
  | other asInt => exact List.not_mem_nil

theorem readValue_valueText {v : Value} (h : v.IsScalar) : readValue (valueText v) = some v := by
  cases v with
  | string s => rw [valueText, readValue_stringText, String.ofList_toList]
  | integer n => exact readValue_repr n
  | array elems => exact absurd h id
  | table entries => exact absurd h id
  | other asInt => exact absurd h id

/-! #### Documents -/

theorem BareKey.ne_space {key : String} (h : BareKey key) {c : Char} (hc : c ∈ key.toList) :
    c ≠ ' ' ∧ c ≠ '\n' ∧ c ≠ '[' := by
  refine ⟨?_, ?_, ?_⟩ <;> rintro rfl <;> exact absurd (h.2 _ hc) (by decide)

theorem notMem_headerLine {key : String} (h : BareKey key) : '\n' ∉ headerLine key := by
  have hkey : '\n' ∉ key.toList := fun hmem => (h.ne_space hmem).2.1 rfl
  simp [headerLine, hkey]

theorem notMem_entryLine {entry : String × Value} (h : BareKey entry.1) :
    '\n' ∉ entryLine entry := by
  have hkey : '\n' ∉ entry.1.toList := fun hmem => (h.ne_space hmem).2.1 rfl
  simp [entryLine, hkey, notMem_valueText]

theorem readEntry_entryLine {entry : String × Value} (hkey : BareKey entry.1)
    (hvalue : entry.2.IsScalar) : readEntry (entryLine entry) = some entry := by
  have hall : ∀ c ∈ entry.1.toList, decide (c ≠ ' ') = true :=
    fun c hc => decide_eq_true (hkey.ne_space hc).1
  have hdrop : (entryLine entry).dropWhile (· ≠ ' ') = " = ".toList ++ valueText entry.2 := by
    rw [entryLine, List.append_assoc, List.dropWhile_append_of_pos hall]
    rfl
  have htake : (entryLine entry).takeWhile (· ≠ ' ') = entry.1.toList := by
    rw [entryLine, List.append_assoc, List.takeWhile_append_of_pos hall]
    exact List.append_nil _
  have hthree : (" = ".toList ++ valueText entry.2).drop 3 = valueText entry.2 := rfl
  rw [readEntry, hdrop, htake, if_pos (List.isPrefixOf_iff_prefix.mpr (List.prefix_append _ _)),
    hthree, readValue_valueText hvalue, Option.map_some, String.ofList_toList]

/-- An entry is no empty line and no header. -/
theorem entryLine_ne {entry : String × Value} (h : BareKey entry.1) (key : String) :
    entryLine entry ≠ [] ∧ entryLine entry ≠ headerLine key := by
  cases hchars : entry.1.toList with
  | nil => exact absurd (String.toList_eq_nil_iff.mp hchars) h.1
  | cons c cs =>
      have hc : c ≠ '[' := (h.ne_space (hchars ▸ List.mem_cons_self)).2.2
      constructor
      · simp [entryLine, hchars]
      · simp [entryLine, hchars, headerLine, hc]

theorem foldl_entries {key : String} (t : Table) (hbare : ∀ entry ∈ t, BareKey entry.1)
    (hscalar : ∀ entry ∈ t, entry.2.IsScalar) (ts : List Table) (done : Table) :
    (t.map entryLine).foldl (readLine key) (some (ts ++ [done])) = some (ts ++ [done ++ t]) := by
  induction t generalizing done with
  | nil => rw [List.append_nil]; rfl
  | cons entry t ih =>
      obtain ⟨hne, hheader⟩ := entryLine_ne (hbare entry List.mem_cons_self) key
      have hread := readEntry_entryLine (hbare entry List.mem_cons_self)
        (hscalar entry List.mem_cons_self)
      have hstep : readLine key (some (ts ++ [done])) (entryLine entry) =
          some (ts ++ [done ++ [entry]]) := by
        rw [readLine]
        simp only [hne, hheader, if_false, List.getLast?_concat, hread, List.dropLast_concat]
      rw [List.map_cons, List.foldl_cons, hstep,
        ih (fun e he => hbare e (List.mem_cons_of_mem _ he))
          (fun e he => hscalar e (List.mem_cons_of_mem _ he)), List.append_assoc]
      rfl

theorem foldl_table {key : String} {t : Table} (h : Flat t) (ts : List Table) :
    (tableLines key t).foldl (readLine key) (some ts) = some (ts ++ [t]) := by
  have hheader : readLine key (some ts) (headerLine key) = some (ts ++ [[]]) := by
    have hne : headerLine key ≠ [] := by simp [headerLine]
    rw [readLine]
    simp only [hne, if_false, if_true]
  rw [tableLines, List.foldl_cons, hheader, foldl_entries t h.bare h.scalar ts [], List.nil_append]

theorem foldl_document {key : String} {ts : List Table} (h : ∀ t ∈ ts, Flat t) :
    (documentLines key ts).foldl (readLine key) (some []) = some ts := by
  have hmore : ∀ (ts : List Table), (∀ t ∈ ts, Flat t) → ∀ done : List Table,
      (ts.flatMap fun t => [] :: tableLines key t).foldl (readLine key) (some done) =
        some (done ++ ts) := by
    intro ts hts
    induction ts with
    | nil => exact fun done => by rw [List.append_nil]; rfl
    | cons t ts ih =>
        intro done
        have hblank : readLine key (some done) [] = some done := rfl
        rw [List.flatMap_cons, List.foldl_append, List.foldl_cons, hblank,
          foldl_table (hts t List.mem_cons_self),
          ih (fun u hu => hts u (List.mem_cons_of_mem _ hu)), List.append_assoc]
        rfl
  cases ts with
  | nil => rfl
  | cons t ts =>
      rw [documentLines, List.foldl_append, foldl_table (h t List.mem_cons_self), List.nil_append,
        hmore ts (fun u hu => h u (List.mem_cons_of_mem _ hu))]
      rfl

theorem tablesOf_tables (key : String) (ts : List Table) : tablesOf (tables key ts) = ts := by
  simp [tablesOf, tables]

theorem documentLines_eq (key : String) {ts : List Table} (hne : ts ≠ []) :
    ∃ before t, t ∈ ts ∧ documentLines key ts = before ++ tableLines key t := by
  obtain ⟨init, last, rfl⟩ := List.eq_nil_or_concat ts |>.resolve_left hne
  cases init with
  | nil => exact ⟨[], last, List.mem_singleton_self last, by simp [documentLines]⟩
  | cons t init =>
      refine ⟨tableLines key t ++ (init.flatMap fun t => [] :: tableLines key t) ++ [[]], last,
        by simp, ?_⟩
      simp [documentLines, List.flatMap_append]

theorem linewise_lawful {key : String} (hkey : BareKey key) : (linewise key).Lawful key where
  parse_nil := rfl
  parse_render := by
    intro ts hne hflat
    have hfree : ∀ line ∈ documentLines key ts, '\n' ∉ line := by
      have htable : ∀ t ∈ ts, ∀ line ∈ tableLines key t, '\n' ∉ line := by
        intro t ht line hline
        rcases List.mem_cons.mp hline with rfl | hline
        · exact notMem_headerLine hkey
        · obtain ⟨entry, hentry, rfl⟩ := List.mem_map.mp hline
          exact notMem_entryLine ((hflat t ht).bare entry hentry)
      cases ts with
      | nil => exact absurd rfl hne
      | cons t ts =>
          intro line hline
          rw [documentLines, List.mem_append, List.mem_flatMap] at hline
          rcases hline with hline | ⟨u, hu, hline⟩
          · exact htable t List.mem_cons_self line hline
          · rcases List.mem_cons.mp hline with rfl | hline
            · exact List.not_mem_nil
            · exact htable u (List.mem_cons_of_mem _ hu) line hline
    have hlast : (documentLines key ts).getLast? ≠ some [] := by
      obtain ⟨before, t, ht, hlines⟩ := documentLines_eq key hne
      intro hempty
      rw [hlines, tableLines, List.getLast?_append_of_ne_nil _ (List.cons_ne_nil _ _)] at hempty
      rcases List.mem_cons.mp (List.mem_of_getLast? hempty) with hheader | hentry
      · simp [headerLine] at hheader
      · obtain ⟨entry, hmem, heq⟩ := List.mem_map.mp hentry
        exact (entryLine_ne ((hflat t ht).bare entry hmem) key).1 heq
    simp only [linewise, tablesOf_tables, lines_unlines hfree hlast, foldl_document hflat]
  render_append := by
    intro t more _
    simp only [linewise, tablesOf_tables, documentLines, List.flatMap_nil, List.append_nil,
      tableLines, List.map_append]
    exact unlines_append (List.cons_ne_nil _ _) _
  render_integer := by
    intro t k m n _ _ hdigits
    simp only [linewise, tablesOf_tables, documentLines, List.flatMap_nil, List.append_nil,
      tableLines, List.map_append, List.map_cons, List.map_nil, ← List.cons_append]
    exact unlines_last _ ((List.prefix_append_right_inj _).mpr hdigits)

end TomlText
