import OmarchyKids.Common.Desktop

/-!
# OmarchyKids.Common.ExecLine

What `splitShellWords` and `execToArgv` make of words that somebody quoted for them.

Between double quotes a character is read as itself, or as itself behind a backslash,
so a quoted word comes out as it went in as long as its quotes and backslashes are
protected (`readsAs_quoted`). A word without characters leaves no trace, and neither
does a percent sign of an `Exec=` line: `stripFieldCodes` takes the two of a literal
`%%` for a field code.
-/

namespace OmarchyKids

namespace Desktop

/-! ### Quoted words -/

/-- The characters of a word, the special ones behind a backslash. -/
def escaped (special word : List Char) : List Char :=
  word.flatMap fun c => if c ∈ special then ['\\', c] else [c]

/-- A word between double quotes. -/
def quoted (special word : List Char) : List Char := '"' :: escaped special word ++ ['"']

/-- A piece of text that adds this word, and nothing else, to the word so far. -/
def ReadsAs (piece word : List Char) : Prop :=
  ∀ cur rest, splitShellWordsFrom cur false (piece ++ rest) =
    splitShellWordsFrom (cur ++ word) false rest

/-! One lemma for what each kind of character does to the splitter. -/

theorem splitShellWordsFrom_quote (cur : List Char) (inQuotes : Bool) (cs : List Char) :
    splitShellWordsFrom cur inQuotes ('"' :: cs) = splitShellWordsFrom cur (!inQuotes) cs := by
  rw [splitShellWordsFrom.eq_def]
  simp only [if_true]

theorem splitShellWordsFrom_backslash (cur : List Char) (c : Char) (cs : List Char) :
    splitShellWordsFrom cur true ('\\' :: c :: cs) = splitShellWordsFrom (cur ++ [c]) true cs := by
  rw [splitShellWordsFrom.eq_def]
  simp only [Char.reduceEq, if_false, and_self, if_true]

/-- White space belongs to the word between quotes only. -/
theorem splitShellWordsFrom_char (cur : List Char) {inQuotes : Bool} {c : Char} (cs : List Char)
    (hquote : c ≠ '"') (hbackslash : ¬(c = '\\' ∧ inQuotes))
    (hgap : ¬(Text.isWhitespace c ∧ !inQuotes)) :
    splitShellWordsFrom cur inQuotes (c :: cs) = splitShellWordsFrom (cur ++ [c]) inQuotes cs := by
  rw [splitShellWordsFrom.eq_def]
  simp only [hquote, hbackslash, hgap, if_false]

theorem splitShellWordsFrom_gap (cur : List Char) {c : Char} (cs : List Char)
    (hgap : Text.isWhitespace c) :
    splitShellWordsFrom cur false (c :: cs) =
      (if cur = [] then [] else [cur]) ++ splitShellWordsFrom [] false cs := by
  have hquote : c ≠ '"' := by
    rintro rfl
    exact absurd hgap (by decide)
  rw [splitShellWordsFrom.eq_def]
  simp only [hquote, hgap, Bool.false_eq_true, and_false, if_false, Bool.not_false, and_self,
    if_true]

/-- Between quotes the loop adds exactly the characters that were escaped to the word
so far. -/
theorem splitShellWordsFrom_escaped {special : List Char} (hquote : '"' ∈ special)
    (hbackslash : '\\' ∈ special) (word cur rest : List Char) :
    splitShellWordsFrom cur true (escaped special word ++ rest) =
      splitShellWordsFrom (cur ++ word) true rest := by
  induction word generalizing cur with
  | nil => simp [escaped]
  | cons c word ih =>
      have hcons : escaped special (c :: word) =
          (if c ∈ special then ['\\', c] else [c]) ++ escaped special word := rfl
      have hword : cur ++ c :: word = cur ++ [c] ++ word := List.append_cons cur c word
      rw [hcons, hword, ← ih (cur ++ [c]), List.append_assoc]
      by_cases hc : c ∈ special
      · rw [if_pos hc]
        exact splitShellWordsFrom_backslash cur c _
      · have hquote' : c ≠ '"' := fun h => hc (h ▸ hquote)
        have hbackslash' : c ≠ '\\' := fun h => hc (h ▸ hbackslash)
        rw [if_neg hc]
        exact splitShellWordsFrom_char cur _ hquote' (fun h => hbackslash' h.1) (by simp)

theorem readsAs_quoted {special : List Char} (hquote : '"' ∈ special)
    (hbackslash : '\\' ∈ special) (word : List Char) : ReadsAs (quoted special word) word := by
  intro cur rest
  have hquoted : quoted special word ++ rest =
      '"' :: (escaped special word ++ '"' :: rest) := by simp [quoted]
  rw [hquoted, splitShellWordsFrom_quote, Bool.not_false,
    splitShellWordsFrom_escaped hquote hbackslash, splitShellWordsFrom_quote, Bool.not_true]

/-- A text without quotes and white space stands for itself, backslashes included. -/
theorem readsAs_self {piece : List Char}
    (h : ∀ c ∈ piece, c ≠ '"' ∧ Text.isWhitespace c = false) : ReadsAs piece piece := by
  induction piece with
  | nil => exact fun cur rest => by rw [List.append_nil, List.nil_append]
  | cons c piece ih =>
      intro cur rest
      obtain ⟨hquote, hgap⟩ := h c List.mem_cons_self
      rw [List.cons_append, splitShellWordsFrom_char cur _ hquote (by simp) (by simp [hgap]),
        ih fun c' hc' => h c' (List.mem_cons_of_mem _ hc'), List.append_assoc]
      rfl

/-! ### Words with white space between them -/

/-- The pieces in their order, with at least one gap character between two of them. -/
inductive Joined (isGap : Char → Prop) : List (List Char) → List Char → Prop
  | nil : Joined isGap [] []
  | single (piece : List Char) : Joined isGap [piece] piece
  | cons {pieces : List (List Char)} {next text : List Char} (piece gap : List Char)
      (hne : gap ≠ []) (hgap : ∀ c ∈ gap, isGap c) (h : Joined isGap (next :: pieces) text) :
      Joined isGap (piece :: next :: pieces) (piece ++ gap ++ text)

theorem Joined.mono {isGap isGap' : Char → Prop} (himp : ∀ c, isGap c → isGap' c)
    {pieces : List (List Char)} {text : List Char} (h : Joined isGap pieces text) :
    Joined isGap' pieces text := by
  induction h with
  | nil => exact .nil
  | single piece => exact .single piece
  | cons piece gap hne hgap _ ih => exact .cons piece gap hne (fun c hc => himp c (hgap c hc)) ih

/-- The first gap character ends the word, the others separate nothing. -/
theorem splitShellWordsFrom_gaps {cur gap : List Char} (hcur : cur ≠ []) (hne : gap ≠ [])
    (hgap : ∀ c ∈ gap, Text.isWhitespace c = true) (rest : List Char) :
    splitShellWordsFrom cur false (gap ++ rest) = cur :: splitShellWordsFrom [] false rest := by
  have hblank : ∀ gap : List Char, (∀ c ∈ gap, Text.isWhitespace c = true) →
      splitShellWordsFrom [] false (gap ++ rest) = splitShellWordsFrom [] false rest := by
    intro gap hgap
    induction gap with
    | nil => rfl
    | cons c gap ih =>
        rw [List.cons_append, splitShellWordsFrom_gap [] _ (hgap c List.mem_cons_self), if_pos rfl,
          List.nil_append, ih fun c' hc' => hgap c' (List.mem_cons_of_mem _ hc')]
  cases gap with
  | nil => exact absurd rfl hne
  | cons c gap =>
      rw [List.cons_append, splitShellWordsFrom_gap cur _ (hgap c List.mem_cons_self),
        if_neg hcur, List.singleton_append, hblank gap]
      exact fun c' hc' => hgap c' (List.mem_cons_of_mem _ hc')

/-- Pieces which stand for non-empty words are split into these words. -/
theorem splitShellWords_joined {pieces words : List (List Char)} {text : List Char}
    (hjoin : Joined (Text.isWhitespace · = true) pieces text)
    (hread : List.Forall₂ ReadsAs pieces words) (hne : ∀ w ∈ words, w ≠ []) :
    splitShellWords text = words := by
  rw [splitShellWords]
  induction hjoin generalizing words with
  | nil =>
      cases hread
      rw [splitShellWordsFrom, if_pos rfl]
  | single piece =>
      obtain _ | ⟨hpiece, ⟨⟩⟩ := hread
      have hend := hpiece [] []
      rw [List.append_nil, List.nil_append] at hend
      rw [hend, splitShellWordsFrom, if_neg (hne _ List.mem_cons_self)]
  | cons piece gap hgapne hgap _ ih =>
      obtain _ | ⟨hpiece, hrest⟩ := hread
      rw [List.append_assoc, hpiece, List.nil_append,
        splitShellWordsFrom_gaps (hne _ List.mem_cons_self) hgapne hgap,
        ih hrest fun w hw => hne w (List.mem_cons_of_mem _ hw)]

/-- Quoting is undone by splitting: for words of any characters, and whatever white
space stands between them. -/
theorem splitShellWords_quoted {words : List (List Char)} {text : List Char}
    (hne : ∀ w ∈ words, w ≠ [])
    (hjoin : Joined (Text.isWhitespace · = true) (words.map (quoted ['"', '\\'])) text) :
    splitShellWords text = words := by
  refine splitShellWords_joined hjoin ?_ hne
  rw [List.forall₂_map_left_iff]
  exact List.forall₂_same.mpr fun w _ => readsAs_quoted (by simp) (by simp) w

theorem splitShellWords_quoted_sample :
    splitShellWords (quoted ['"', '\\'] "a \"b\\".toList ++ " \t\n".toList ++
      quoted ['"', '\\'] "%f".toList) = ["a \"b\\".toList, "%f".toList] :=
  splitShellWords_quoted (by simp)
    (.cons (quoted ['"', '\\'] "a \"b\\".toList) " \t\n".toList (by simp)
      (by simp [Text.isWhitespace])
      (.single (quoted ['"', '\\'] "%f".toList)))

/-! ### Writing an `Exec=` line -/

/-- The letters behind a percent sign that the Desktop Entry Specification lists. -/
def fieldCodes : List Char :=
  ['f', 'F', 'u', 'U', 'd', 'D', 'n', 'N', 'i', 'c', 'k', 'v', 'm']

/-- One piece of an `Exec=` value. -/
inductive ExecItem
  | argument (arg : String)
  | fieldCode (c : Char) (h : c ∈ fieldCodes)

/-- The characters that the specification wants behind a backslash. -/
def execSpecial : List Char := ['"', '\\', '$', '`']

/-- Each percent sign doubled. -/
def doublePercent (word : List Char) : List Char :=
  word.flatMap fun c => if c = '%' then ['%', '%'] else [c]

/-- How the specification writes the piece. -/
def ExecItem.encode : ExecItem → List Char
  | .argument arg => quoted execSpecial (doublePercent arg.toList)
  | .fieldCode c _ => ['%', c]

/-- The argument that the piece stands for; a field code stands for none. -/
def ExecItem.argument? : ExecItem → Option String
  | .argument arg => some arg
  | .fieldCode _ _ => none

/-- The word that the splitter makes of the piece. -/
def ExecItem.word : ExecItem → List Char
  | .argument arg => doublePercent arg.toList
  | .fieldCode c _ => ['%', c]

theorem ExecItem.readsAs_encode (item : ExecItem) : ReadsAs item.encode item.word := by
  cases item with
  | argument arg => exact readsAs_quoted (by decide) (by decide) _
  | fieldCode c h =>
      have hplain : ∀ c ∈ fieldCodes, c ≠ '"' ∧ Text.isWhitespace c = false := by
        simp [fieldCodes, Text.isWhitespace]
      refine readsAs_self fun c' hc' => ?_
      rcases List.mem_cons.mp hc' with rfl | hc'
      · decide
      · rw [List.mem_singleton.mp hc']
        exact hplain c h

theorem doublePercent_of_notMem {word : List Char} (h : '%' ∉ word) :
    doublePercent word = word := by
  induction word with
  | nil => rfl
  | cons c word ih =>
      rw [List.mem_cons, not_or] at h
      have hcons : doublePercent (c :: word) =
          (if c = '%' then ['%', '%'] else [c]) ++ doublePercent word := rfl
      rw [hcons, if_neg (Ne.symm h.1), ih h.2, List.singleton_append]

theorem stripFieldCodes_of_notMem {word : List Char} (h : '%' ∉ word) :
    stripFieldCodes word = word := by
  induction word with
  | nil => rfl
  | cons c word ih =>
      rw [List.mem_cons, not_or] at h
      rw [stripFieldCodes.eq_def]
      simp only [Ne.symm h.1, if_false, ih h.2]

theorem isFieldCode_of_notMem {word : List Char} (h : '%' ∉ word) : isFieldCode word = false := by
  have hhead : word.head? ≠ some '%' := fun hhead => h (List.mem_of_mem_head? hhead)
  simp [isFieldCode, hhead]

/-- Every listed code is a token of two bytes. -/
theorem isFieldCode_of_mem : ∀ c ∈ fieldCodes, isFieldCode ['%', c] = true := by
  simp [fieldCodes, isFieldCode, Char.utf8Size]

/-- The three passes over the words keep the arguments and drop the codes, if no
argument is empty or carries a percent sign. -/
theorem argv_words {items : List ExecItem}
    (h : ∀ arg ∈ items.filterMap ExecItem.argument?, arg ≠ "" ∧ '%' ∉ arg.toList) :
    ((((items.map ExecItem.word).filter fun tok => !isFieldCode tok).map stripFieldCodes).filter
      fun tok => !tok.isEmpty).map String.ofList = items.filterMap ExecItem.argument? := by
  induction items with
  | nil => rfl
  | cons item items ih =>
      cases item with
      | argument arg =>
          rw [List.filterMap_cons_some (f := ExecItem.argument?) rfl, List.forall_mem_cons] at h
          obtain ⟨⟨hne, hpercent⟩, hrest⟩ := h
          have hnonempty : ¬arg.toList = [] := by simpa using hne
          rw [List.filterMap_cons_some (f := ExecItem.argument?) rfl, List.map_cons, ExecItem.word,
            doublePercent_of_notMem hpercent,
            List.filter_cons_of_pos (by rw [isFieldCode_of_notMem hpercent]; rfl), List.map_cons,
            stripFieldCodes_of_notMem hpercent, List.filter_cons_of_pos (by simpa using hnonempty),
            List.map_cons, String.ofList_toList, ih hrest]
      | fieldCode c hc =>
          rw [List.filterMap_cons_none (f := ExecItem.argument?) rfl] at h
          rw [List.filterMap_cons_none (f := ExecItem.argument?) rfl, List.map_cons, ExecItem.word,
            List.filter_cons_of_neg (by rw [isFieldCode_of_mem c hc]; decide), ih h]

/-- The line that the specification prescribes comes back as its arguments exactly if
none of them is empty or carries a percent sign: an empty word leaves no trace, and the
two characters of `%%` are dropped as a field code. -/
theorem execToArgv_encode_iff {items : List ExecItem} {line : List Char}
    (hjoin : Joined (· = ' ') (items.map ExecItem.encode) line) :
    execToArgv (String.ofList line) = items.filterMap ExecItem.argument? ↔
      ∀ arg ∈ items.filterMap ExecItem.argument?, arg ≠ "" ∧ '%' ∉ arg.toList := by
  constructor
  · intro heq arg harg
    exact mem_execToArgv (heq ▸ harg)
  · intro h
    have hwords : splitShellWords line = items.map ExecItem.word := by
      refine splitShellWords_joined (hjoin.mono ?_) ?_ ?_
      · rintro c rfl
        decide
      · rw [List.forall₂_map_left_iff, List.forall₂_map_right_iff]
        exact List.forall₂_same.mpr fun item _ => item.readsAs_encode
      · intro word hword
        obtain ⟨item, hitem, rfl⟩ := List.mem_map.mp hword
        cases item with
        | argument arg =>
            obtain ⟨hne, hpercent⟩ := h arg (List.mem_filterMap.mpr ⟨_, hitem, rfl⟩)
            rw [ExecItem.word, doublePercent_of_notMem hpercent]
            simpa using hne
        | fieldCode c _ => exact List.cons_ne_nil _ _
    rw [execToArgv, String.toList_ofList, hwords, argv_words h]

theorem execToArgv_encode_iff_sample :
    execToArgv "\"app\" \"a\\$b\"  %f" = ["app", "a$b"] ↔
      ∀ arg ∈ ["app", "a$b"], arg ≠ "" ∧ '%' ∉ arg.toList :=
  @execToArgv_encode_iff [.argument "app", .argument "a$b", .fieldCode 'f' (by decide)]
    "\"app\" \"a\\$b\"  %f".toList
    (.cons "\"app\"".toList " ".toList (by simp) (by simp)
      (.cons "\"a\\$b\"".toList "  ".toList (by simp) (by simp) (.single "%f".toList)))

/-- A percent sign that was doubled as the specification asks does not come back. -/
theorem execToArgv_percent :
    Joined (· = ' ') ([.argument "app", .argument "50%"].map ExecItem.encode)
        "\"app\" \"50%%\"".toList ∧
      execToArgv "\"app\" \"50%%\"" ≠ ["app", "50%"] :=
  ⟨.cons "\"app\"".toList " ".toList (by simp) (by simp) (.single "\"50%%\"".toList),
    by decide +kernel⟩

end Desktop

end OmarchyKids
