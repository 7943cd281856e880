import OmarchyKids.Common.Desktop

/-!
# OmarchyKids.Common.DesktopGroups

Which lines of a `.desktop` file `parseDesktopEntry` looks at: for each of its three
keys the first line with that key inside a `[Desktop Entry]` group, and no other. A
group may be closed and opened again, so "inside" is said of a line by the last header
before it, not by a flag.
-/

namespace OmarchyKids

namespace Desktop

/-! ### Lines inside groups -/

def mainHeader : List Char := "[Desktop Entry]".toList

/-- A line, already trimmed, that opens a group. -/
def isHeader (line : List Char) : Bool := line.head? == some '['

/-- The group that a line stands in, by the lines before it. -/
def lastHeader (before : List (List Char)) : Option (List Char) :=
  (before.filter isHeader).getLast?

/-- The lines inside `[Desktop Entry]` groups, given the lines before the first one. -/
def mainLinesAfter (before : List (List Char)) : List (List Char) → List (List Char)
  | [] => []
  | line :: rest =>
      (if isHeader line = false ∧ lastHeader before = some mainHeader then [line] else []) ++
        mainLinesAfter (before ++ [line]) rest

/-- The trimmed lines of a file that stand inside `[Desktop Entry]` groups. -/
def mainLines (content : String) : List (List Char) :=
  mainLinesAfter [] ((Text.splitLines content.toList).map Text.trim)

/-- The keys that the launcher needs. -/
inductive Key
  | name
  | icon
  | exec
  deriving DecidableEq, Repr

def Key.lead : Key → List Char
  | .name => "Name=".toList
  | .icon => "Icon=".toList
  | .exec => "Exec=".toList

/-- The first line with the key inside a `[Desktop Entry]` group. -/
def firstLine (key : Key) (content : String) : Option (List Char) :=
  (mainLines content).find? fun line => key.lead.isPrefixOf line

/-- What stands behind the key. -/
def valueIn (key : Key) (lines : List (List Char)) : Option (List Char) :=
  (lines.find? fun line => key.lead.isPrefixOf line).map fun line => line.drop key.lead.length

theorem valueIn_append (key : Key) (xs ys : List (List Char)) :
    valueIn key (xs ++ ys) = (valueIn key xs).or (valueIn key ys) := by
  rw [valueIn, List.find?_append, Option.map_or]
  rfl

theorem valueIn_singleton (key : Key) (line : List Char) :
    valueIn key [line] = Text.dropLeading key.lead line := by
  rw [valueIn, Text.dropLeading]
  by_cases h : key.lead.isPrefixOf line = true
  · rw [List.find?_cons_of_pos h, if_pos h, Option.map_some]
  · rw [List.find?_cons_of_neg h, if_neg h]
    rfl

/-! ### The line loop -/

/-- The slot of a key. -/
def ParseState.slot (s : ParseState) : Key → Option (List Char)
  | .name => s.name
  | .icon => s.icon
  | .exec => s.exec

/-- The keys begin with different letters. -/
theorem head?_lead_inj {key other : Key} (h : key.lead.head? = other.lead.head?) : key = other := by
  cases key <;> cases other <;> first | rfl | exact absurd h (by decide)

/-- A line carries one key at most. -/
theorem dropLeading_lead_ne {key other : Key} (hne : key ≠ other) {line v : List Char}
    (h : Text.dropLeading key.lead line = some v) : Text.dropLeading other.lead line = none := by
  cases hother : Text.dropLeading other.lead line with
  | none => rfl
  | some w =>
      rw [Text.dropLeading_eq_some_iff] at h hother
      have hlead : ∀ k : Key, k.lead ≠ [] := by
        intro k
        cases k <;> decide
      have hhead := congrArg List.head? (h.symm.trans hother)
      rw [List.head?_append_of_ne_nil _ (hlead key), List.head?_append_of_ne_nil _ (hlead other)]
        at hhead
      exact absurd (head?_lead_inj hhead) hne

/-- The loop body with its texts under their names. -/
theorem parseLine_eq (s : ParseState) (rawLine : List Char) :
    parseLine s rawLine =
      if (Text.trim rawLine).head? = some '[' then
        { s with inMainSection := decide (Text.trim rawLine = mainHeader) }
      else if !s.inMainSection then s
      else
        match Text.dropLeading Key.name.lead (Text.trim rawLine) with
        | some v => { s with name := some (s.name.getD v) }
        | none =>
            match Text.dropLeading Key.icon.lead (Text.trim rawLine) with
            | some v => { s with icon := some (s.icon.getD v) }
            | none =>
                match Text.dropLeading Key.exec.lead (Text.trim rawLine) with
                | some v => { s with exec := some (s.exec.getD v) }
                | none => s := rfl

theorem parseLine_header {s : ParseState} {rawLine : List Char}
    (h : isHeader (Text.trim rawLine) = true) :
    (parseLine s rawLine).inMainSection = decide (Text.trim rawLine = mainHeader) ∧
      ∀ key, (parseLine s rawLine).slot key = s.slot key := by
  have hhead : (Text.trim rawLine).head? = some '[' := by simpa [isHeader] using h
  rw [parseLine_eq, if_pos hhead]
  exact ⟨rfl, fun key => by cases key <;> rfl⟩

theorem parseLine_outside {s : ParseState} {rawLine : List Char}
    (h : isHeader (Text.trim rawLine) = false) (hout : s.inMainSection = false) :
    parseLine s rawLine = s := by
  have hhead : (Text.trim rawLine).head? ≠ some '[' := by simpa [isHeader] using h
  rw [parseLine_eq, if_neg hhead, hout, Bool.not_false, if_pos rfl]

/-- Inside a group the first value of a key stays, and the flag does. -/
theorem parseLine_inside {s : ParseState} {rawLine : List Char}
    (h : isHeader (Text.trim rawLine) = false) (hin : s.inMainSection = true) :
    (parseLine s rawLine).inMainSection = true ∧
      ∀ key, (parseLine s rawLine).slot key =
        (s.slot key).or (Text.dropLeading key.lead (Text.trim rawLine)) := by
  have hhead : (Text.trim rawLine).head? ≠ some '[' := by simpa [isHeader] using h
  have hgetD : ∀ (o : Option (List Char)) (v : List Char), some (o.getD v) = o.or (some v) := by
    rintro (_ | _) v <;> rfl
  rw [parseLine_eq, if_neg hhead, if_neg (by simp [hin])]
  generalize Text.trim rawLine = line
  -- at most one of the three texts is there, and its slot the only one that changes
  cases hname : Text.dropLeading Key.name.lead line with
  | some v =>
      have hicon := @dropLeading_lead_ne .name .icon (by decide) _ _ hname
      have hexec := @dropLeading_lead_ne .name .exec (by decide) _ _ hname
      refine ⟨hin, fun key => ?_⟩
      cases key with
      | name => exact (hgetD s.name v).trans (by rw [hname]; rfl)
      | icon => rw [hicon, Option.or_none]; rfl
      | exec => rw [hexec, Option.or_none]; rfl
  | none =>
      cases hicon : Text.dropLeading Key.icon.lead line with
      | some v =>
          have hexec := @dropLeading_lead_ne .icon .exec (by decide) _ _ hicon
          refine ⟨hin, fun key => ?_⟩
          cases key with
          | name => rw [hname, Option.or_none]; rfl
          | icon => exact (hgetD s.icon v).trans (by rw [hicon]; rfl)
          | exec => rw [hexec, Option.or_none]; rfl
      | none =>
          cases hexec : Text.dropLeading Key.exec.lead line with
          | some v =>
              refine ⟨hin, fun key => ?_⟩
              cases key with
              | name => rw [hname, Option.or_none]; rfl
              | icon => rw [hicon, Option.or_none]; rfl
              | exec => exact (hgetD s.exec v).trans (by rw [hexec]; rfl)
          | none =>
              refine ⟨hin, fun key => ?_⟩
              cases key with
              | name => rw [hname, Option.or_none]
              | icon => rw [hicon, Option.or_none]
              | exec => rw [hexec, Option.or_none]

theorem lastHeader_concat (before : List (List Char)) (line : List Char) :
    lastHeader (before ++ [line]) = if isHeader line then some line else lastHeader before := by
  rw [lastHeader, List.filter_append]
  by_cases h : isHeader line = true
  · rw [List.filter_cons_of_pos h, List.filter_nil, List.getLast?_concat, if_pos h]
  · rw [List.filter_cons_of_neg h, List.filter_nil, List.append_nil, if_neg h]
    rfl

/-- The loop, started behind some lines with the flag that they leave: a slot that was
empty holds in the end the first value inside a group. The flag says at each line whether
the last header was the main one. -/
theorem foldl_parseLine (rawLines : List (List Char)) {s : ParseState}
    {before : List (List Char)}
    (hflag : s.inMainSection = true ↔ lastHeader before = some mainHeader) (key : Key) :
    (rawLines.foldl parseLine s).slot key =
      (s.slot key).or (valueIn key (mainLinesAfter before (rawLines.map Text.trim))) := by
  induction rawLines generalizing s before with
  | nil => exact (Option.or_none).symm
  | cons rawLine rawLines ih =>
      rw [List.foldl_cons, List.map_cons, mainLinesAfter]
      have hlast := lastHeader_concat before (Text.trim rawLine)
      cases hheader : isHeader (Text.trim rawLine) with
      | true =>
          obtain ⟨hflag', hslot⟩ := @parseLine_header s rawLine hheader
          rw [hheader, if_pos rfl] at hlast
          have hnext := @ih (parseLine s rawLine) (before ++ [Text.trim rawLine])
            (by rw [hflag', hlast, decide_eq_true_iff, Option.some.injEq])
          rw [hnext, hslot, if_neg (by simp), List.nil_append]
      | false =>
          rw [hheader, if_neg Bool.false_ne_true] at hlast
          by_cases hin : s.inMainSection = true
          · obtain ⟨hflag', hslot⟩ := parseLine_inside hheader hin
            have hnext := @ih (parseLine s rawLine) (before ++ [Text.trim rawLine])
              (by rw [hflag', hlast, ← hflag, hin])
            rw [hnext, hslot, if_pos ⟨rfl, hflag.mp hin⟩, valueIn_append, valueIn_singleton,
              Option.or_assoc]
          · have hnext := @ih s (before ++ [Text.trim rawLine]) (by rw [hlast, hflag])
            rw [parseLine_outside hheader (Bool.eq_false_iff.mpr hin), hnext,
              if_neg fun h => hin (hflag.mpr h.2), List.nil_append]

/-- What the parser makes of a content, in terms of the first line of each key. -/
theorem parseDesktopEntry_eq {fs : Fs} {path content : String}
    (h : fs.readToString path = some content) :
    parseDesktopEntry fs path =
      match valueIn .exec (mainLines content) with
      | none => .error ("no Exec= line in " ++ path)
      | some exec =>
          .ok { name := ((valueIn .name (mainLines content)).map String.ofList).getD
                  (desktopIdFromPath path)
                icon := ((valueIn .icon (mainLines content)).map String.ofList).getD ""
                exec := String.ofList exec } := by
  have hstart : ({} : ParseState).inMainSection = true ↔ lastHeader [] = some mainHeader :=
    iff_of_false Bool.false_ne_true (Option.some_ne_none _).symm
  have hslot := fun key => @foldl_parseLine (Text.splitLines content.toList) {} [] hstart key
  have hname := hslot .name
  have hicon := hslot .icon
  have hexec := hslot .exec
  rw [show ({} : ParseState).slot .name = none from rfl, Option.none_or] at hname
  rw [show ({} : ParseState).slot .icon = none from rfl, Option.none_or] at hicon
  rw [show ({} : ParseState).slot .exec = none from rfl, Option.none_or] at hexec
  rw [parseDesktopEntry, h]
  simp only [mainLines, ← hname, ← hicon, ← hexec]
  rfl

/-- Two contents with the same first lines inside their groups give the same entry, or
the same error: nothing else of a file reaches what is launched. -/
theorem parseDesktopEntry_congr {fs₁ fs₂ : Fs} {path content₁ content₂ : String}
    (h₁ : fs₁.readToString path = some content₁) (h₂ : fs₂.readToString path = some content₂)
    (hfirst : ∀ key, firstLine key content₁ = firstLine key content₂) :
    parseDesktopEntry fs₁ path = parseDesktopEntry fs₂ path := by
  have hvalue : ∀ key, valueIn key (mainLines content₁) = valueIn key (mainLines content₂) := by
    intro key
    have hline := hfirst key
    rw [firstLine, firstLine] at hline
    rw [valueIn, valueIn, hline]
  rw [parseDesktopEntry_eq h₁, parseDesktopEntry_eq h₂, hvalue .exec, hvalue .name, hvalue .icon]

/-- A file with one group, and one with another group before it, a comment and a second
`Exec=`. -/
theorem parseDesktopEntry_congr_sample :
    parseDesktopEntry ⟨fun _ => true, fun _ => some "[Desktop Entry]\nExec=paint"⟩ "paint.desktop" =
      parseDesktopEntry
        ⟨fun _ => true, fun _ => some "[A]\nExec=sh\n[Desktop Entry]\n#\n Exec=paint\nExec=sh"⟩
        "paint.desktop" :=
  parseDesktopEntry_congr rfl rfl fun key => by cases key <;> decide +kernel

end Desktop

end OmarchyKids
