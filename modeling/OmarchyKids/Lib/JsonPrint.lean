import OmarchyKids.Lib.Json
import OmarchyKids.Lib.JsonText

/-!
# OmarchyKids.Lib.JsonPrint

Printing JSON values, in whatever layout, and reading them back.

* `Layout` — where a printer puts white space: `compact` nowhere, `pretty` each item on
  a line of its own;
* `document_print` — whatever the layout, the text is a document for the value, so
  `decode_print`: the decoder returns the value;
* `Json.value`, `Json.ofValue` — the values of `Json` among all of them, and what a
  reader that sorts the members of an object makes of a value;
* `decode_encode` — the compact text of a `Json` whose members are sorted is read back.
-/

namespace JsonText

/-! ### String literals -/

/-- Both hexadecimal digits of a control character. -/
theorem hex4_control : ∀ n < 32, hex4 '0' '0' (Json.hexDigit (n / 16)) (Json.hexDigit (n % 16)) = some n ∧
    isHigh n = false ∧ isLow n = false := by
  decide

theorem chars_escapeChar (c : Char) {text cs : List Char} (h : Chars text cs) :
    Chars (Json.escapeChar c ++ text) (c :: cs) := by
  have hof : ∀ n, c.toNat = n → c = Char.ofNat n := fun n hn => by rw [← hn, Char.ofNat_toNat]
  unfold Json.escapeChar
  split_ifs with hquote hbackslash hlf hcr htab hback hfeed hcontrol
  · subst hquote
    exact .simple (by decide) h
  · subst hbackslash
    exact .simple (by decide) h
  · subst hlf
    exact .simple (by decide) h
  · subst hcr
    exact .simple (by decide) h
  · subst htab
    exact .simple (by decide) h
  · rw [hof 8 hback]
    exact .simple (by decide) h
  · rw [hof 12 hfeed]
    exact .simple (by decide) h
  · obtain ⟨hunit, hhigh, hlow⟩ := hex4_control c.toNat hcontrol
    have hread := Chars.unit hunit hhigh hlow h
    rw [Char.ofNat_toNat] at hread
    exact hread
  · exact .plain ⟨hquote, hbackslash, by omega⟩ h

theorem chars_escape (cs : List Char) : Chars (cs.flatMap Json.escapeChar) cs := by
  induction cs with
  | nil => exact .nil
  | cons c cs ih =>
      rw [List.flatMap_cons]
      exact chars_escapeChar c ih

theorem spells_quote (s : String) : Spells (.value (.str s)) (Json.quote s) := by
  have h := Spells.string (chars_escape s.toList)
  rw [String.ofList_toList] at h
  exact h

/-! ### Numbers -/

/-- An integer in decimal. -/
def intText (n : Int) : List Char :=
  if n < 0 then '-' :: Nat.toDigits 10 n.natAbs else Nat.toDigits 10 n.natAbs

/-- A whole number, or one with an exponent. -/
def numberText (mantissa exponent : Int) : List Char :=
  intText mantissa ++ if exponent = 0 then [] else 'e' :: intText exponent

theorem digitsValue_toDigits (n : Nat) : digitsValue (Nat.toDigits 10 n) = n :=
  Nat.ofDigitChars_ten_toDigits

theorem isDigits_toDigits (n : Nat) : IsDigits (Nat.toDigits 10 n) :=
  ⟨Nat.toDigits_ne_nil, fun _ hd => Nat.isDigit_of_mem_toDigits (by decide) (by decide) hd⟩

/-- A number above zero does not begin with a zero. -/
theorem head?_toDigits {n : Nat} (hn : 0 < n) : (Nat.toDigits 10 n).head? ≠ some '0' := by
  induction n using Nat.strongRecOn with
  | ind n ih =>
      rw [Nat.toDigits_eq_if (by decide)]
      split
      next hlt =>
        have hdigit : ∀ m < 10, 0 < m → [m.digitChar].head? ≠ some '0' := by decide
        exact hdigit n hlt hn
      next hge =>
        rw [List.head?_append_of_ne_nil _ Nat.toDigits_ne_nil]
        exact ih (n / 10) (by omega) (by omega)

theorem isIntPart_toDigits (n : Nat) : IsIntPart (Nat.toDigits 10 n) := by
  refine ⟨isDigits_toDigits n, fun hzero => ?_⟩
  rcases Nat.eq_zero_or_pos n with rfl | hn
  · rfl
  · exact absurd hzero (head?_toDigits hn)

/-- The exponent as it is written. -/
theorem exponent_text (e : Int) : Exponent (if e = 0 then [] else 'e' :: intText e) e := by
  by_cases hzero : e = 0
  · rw [if_pos hzero, hzero]
    exact .none
  · rw [if_neg hzero, intText]
    by_cases hneg : e < 0
    · have h := Exponent.minus (.inl rfl : 'e' = 'e' ∨ 'e' = 'E') (isDigits_toDigits e.natAbs)
      rw [digitsValue_toDigits, show -(e.natAbs : Int) = e by omega] at h
      rw [if_pos hneg]
      exact h
    · have h := Exponent.plain (.inl rfl : 'e' = 'e' ∨ 'e' = 'E') (isDigits_toDigits e.natAbs)
      rw [digitsValue_toDigits, show (e.natAbs : Int) = e by omega] at h
      rw [if_neg hneg]
      exact h

theorem number_text (m e : Int) : Number (numberText m e) (.num m e) := by
  rw [numberText, intText]
  by_cases hneg : m < 0
  · have h := Number.neg (isIntPart_toDigits m.natAbs) .none (exponent_text e)
    rw [List.append_nil, digitsValue_toDigits, show -(m.natAbs : Int) = m by omega,
      List.length_nil, Nat.cast_zero, sub_zero] at h
    rw [if_pos hneg]
    exact h
  · have h := Number.pos (isIntPart_toDigits m.natAbs) .none (exponent_text e)
    rw [List.append_nil, digitsValue_toDigits, show (m.natAbs : Int) = m by omega,
      List.length_nil, Nat.cast_zero, sub_zero] at h
    rw [if_neg hneg]
    exact h

/-! ### Layouts -/

/-- Where a printer puts white space. -/
structure Layout where
  /-- In front of an item at this depth, and of the bracket that closes it. -/
  lead : Nat → List Char
  /-- Behind a colon. -/
  gap : List Char
  blank_lead : ∀ depth, Blank (lead depth)
  blank_gap : Blank gap

theorem blank_nil : Blank [] := by simp [Blank]

theorem Blank.append {a b : List Char} (ha : Blank a) (hb : Blank b) : Blank (a ++ b) :=
  fun c hc => (List.mem_append.mp hc).elim (ha c) (hb c)

def compact : Layout := ⟨fun _ => [], [], fun _ => blank_nil, blank_nil⟩

/-- Two blanks for each level. -/
def pretty : Layout where
  lead depth := '\n' :: List.replicate (2 * depth) ' '
  gap := [' ']
  blank_lead depth := by
    intro c hc
    rcases List.mem_cons.mp hc with rfl | hc
    · decide
    · rw [List.eq_of_mem_replicate hc]
      decide
  blank_gap := by simp [Blank, isSpace]

section Print

variable (l : Layout)

mutual
/-- A value that stands at this depth. -/
def print (depth : Nat) : Value → List Char
  | .null => ['n', 'u', 'l', 'l']
  | .bool true => ['t', 'r', 'u', 'e']
  | .bool false => ['f', 'a', 'l', 's', 'e']
  | .num m e => numberText m e
  | .str s => Json.quote s
  | .arr [] => ['[', ']']
  | .arr (v :: vs) => '[' :: (printItems (depth + 1) (v :: vs) ++ (l.lead depth ++ [']']))
  | .obj [] => ['\x7b', '\x7d']
  | .obj (field :: fields) =>
      '\x7b' :: (printMembers (depth + 1) (field :: fields) ++ (l.lead depth ++ ['\x7d']))
def printItems (depth : Nat) : List Value → List Char
  | [] => []
  | [v] => l.lead depth ++ print depth v
  | v :: vs => l.lead depth ++ print depth v ++ ',' :: printItems depth vs
def printMembers (depth : Nat) : List (String × Value) → List Char
  | [] => []
  | [(k, v)] => l.lead depth ++ (Json.quote k ++ ':' :: (l.gap ++ print depth v))
  | (k, v) :: fields =>
      l.lead depth ++ (Json.quote k ++ ':' :: (l.gap ++ print depth v)) ++
        ',' :: printMembers depth fields
end

end Print

/-! ### What is printed is a document -/

/-- White space behind the last item. -/
theorem Spells.items_blank {vs : List Value} {text blank : List Char} (h : Spells (.items vs) text)
    (hblank : Blank blank) : Spells (.items vs) (text ++ blank) := by
  generalize hp : Phrase.items vs = p at h
  induction h generalizing vs with
  | item h =>
      cases hp
      cases h with
      | element ha h hb =>
          rw [List.append_assoc, List.append_assoc]
          exact .item (.element ha h (hb.append hblank))
  | items h hs _ ih =>
      cases hp
      rw [List.append_assoc, List.cons_append]
      exact .items h (ih rfl)
  | _ => cases hp

theorem Spells.members_blank {fields : List (String × Value)} {text blank : List Char}
    (h : Spells (.members fields) text) (hblank : Blank blank) :
    Spells (.members fields) (text ++ blank) := by
  have hmember : ∀ {field : String × Value} {text : List Char}, Spells (.member field) text →
      Spells (.member field) (text ++ blank) := by
    intro field text h
    cases h with
    | member ha hk hb h =>
        cases h with
        | element ha' h hb' =>
            have hlonger := Spells.member ha hk hb (.element ha' h (hb'.append hblank))
            simpa using hlonger
  generalize hp : Phrase.members fields = p at h
  induction h generalizing fields with
  | single h =>
      cases hp
      exact .single (hmember h)
  | members h hs _ ih =>
      cases hp
      rw [List.append_assoc, List.cons_append]
      exact .members h (ih rfl)
  | _ => cases hp

section Print

variable {l : Layout}

/-- One printed member. -/
theorem spells_member (k : String) {v : Value} {depth : Nat} {text : List Char}
    (h : Spells (.value v) text) :
    Spells (.member (k, v)) (l.lead depth ++ (Json.quote k ++ ':' :: (l.gap ++ text))) := by
  have helement := Spells.element l.blank_gap h blank_nil
  have hmember := Spells.member (l.blank_lead depth) (chars_escape k.toList) blank_nil helement
  rw [String.ofList_toList, List.append_nil] at hmember
  simpa [Json.quote] using hmember

mutual
theorem spells_print (depth : Nat) : ∀ v : Value, Spells (.value v) (print l depth v)
  | .null => .nullWord
  | .bool true => .trueWord
  | .bool false => .falseWord
  | .num m e => .number (number_text m e)
  | .str s => spells_quote s
  | .arr [] => .emptyArr blank_nil
  | .arr (v :: vs) => by
      have hitems := (spells_printItems (depth + 1) (v :: vs) (List.cons_ne_nil v vs)).items_blank
        (l.blank_lead depth)
      have harr := Spells.arr hitems
      rw [List.append_assoc] at harr
      rw [print]
      exact harr
  | .obj [] => .emptyObj blank_nil
  | .obj (field :: fields) => by
      have hmembers := (spells_printMembers (depth + 1) (field :: fields)
        (List.cons_ne_nil field fields)).members_blank (l.blank_lead depth)
      have hobj := Spells.obj hmembers
      rw [List.append_assoc] at hobj
      rw [print]
      exact hobj
theorem spells_printItems (depth : Nat) : ∀ vs : List Value, vs ≠ [] →
    Spells (.items vs) (printItems l depth vs)
  | [], hne => absurd rfl hne
  | [v], _ => by
      have h := Spells.element (l.blank_lead depth) (spells_print depth v) blank_nil
      rw [List.append_nil] at h
      rw [printItems]
      exact .item h
  | v :: w :: vs, _ => by
      have h := Spells.element (l.blank_lead depth) (spells_print depth v) blank_nil
      rw [List.append_nil] at h
      rw [printItems]
      · exact .items h (spells_printItems depth (w :: vs) (List.cons_ne_nil w vs))
      · exact List.cons_ne_nil w vs
theorem spells_printMembers (depth : Nat) : ∀ fields : List (String × Value), fields ≠ [] →
    Spells (.members fields) (printMembers l depth fields)
  | [], hne => absurd rfl hne
  | [(k, v)], _ => by
      rw [printMembers]
      exact .single (spells_member k (spells_print depth v))
  | (k, v) :: field :: fields, _ => by
      rw [printMembers]
      · exact .members (spells_member k (spells_print depth v))
          (spells_printMembers depth (field :: fields) (List.cons_ne_nil field fields))
      · exact List.cons_ne_nil field fields
end

/-- Whatever the layout, the printed text is a document for the value. -/
theorem document_print (depth : Nat) (v : Value) : Document (print l depth v) v := by
  have h := Spells.element blank_nil (spells_print (l := l) depth v) blank_nil
  rw [List.nil_append, List.append_nil] at h
  exact h

/-- The decoder reads a printed value back. -/
theorem decode_print (depth : Nat) (v : Value) : decode (print l depth v) = some v :=
  decode_of_document (document_print depth v)

end Print

/-! ### One value, one line -/

theorem newline_not_mem_intText (n : Int) : '\n' ∉ intText n := by
  have hdigits : '\n' ∉ Nat.toDigits 10 n.natAbs := fun h =>
    absurd (Nat.isDigit_of_mem_toDigits (by decide) (by decide) h) (by decide)
  rw [intText]
  split
  · simpa using hdigits
  · exact hdigits

mutual
/-- Without white space there is no line break either. -/
theorem newline_not_mem_compact (depth : Nat) : ∀ v : Value, '\n' ∉ print compact depth v
  | .null => by simp [print]
  | .bool true => by simp [print]
  | .bool false => by simp [print]
  | .num m e => by
      have hm := newline_not_mem_intText m
      have he := newline_not_mem_intText e
      rw [print, numberText]
      split <;> simp [hm, he]
  | .str s => by simpa only [print] using Json.newline_not_mem_quote s
  | .arr [] => by simp [print]
  | .arr (v :: vs) => by
      have h := newline_not_mem_compactItems (depth + 1) (v :: vs)
      simpa [print, compact] using h
  | .obj [] => by simp [print]
  | .obj (field :: fields) => by
      have h := newline_not_mem_compactMembers (depth + 1) (field :: fields)
      simpa [print, compact] using h
theorem newline_not_mem_compactItems (depth : Nat) : ∀ vs : List Value,
    '\n' ∉ printItems compact depth vs
  | [] => by simp [printItems]
  | [v] => by simpa [printItems, compact] using newline_not_mem_compact depth v
  | v :: w :: vs => by
      have hv := newline_not_mem_compact depth v
      have hvs := newline_not_mem_compactItems depth (w :: vs)
      simpa [printItems, compact] using ⟨hv, hvs⟩
theorem newline_not_mem_compactMembers (depth : Nat) : ∀ fields : List (String × Value),
    '\n' ∉ printMembers compact depth fields
  | [] => by simp [printMembers]
  | [(k, v)] => by
      have hk := Json.newline_not_mem_quote k
      have hv := newline_not_mem_compact depth v
      simpa [printMembers, compact] using ⟨hk, hv⟩
  | (k, v) :: field :: fields => by
      have hk := Json.newline_not_mem_quote k
      have hv := newline_not_mem_compact depth v
      have hfields := newline_not_mem_compactMembers depth (field :: fields)
      simpa [printMembers, compact] using ⟨hk, hv, hfields⟩
end

end JsonText

/-! ## Values without fractions -/

namespace Json

open JsonText (Value)

mutual
/-- The value that a `Json` is. -/
def value : Json → Value
  | null => .null
  | bool b => .bool b
  | num n => .num n 0
  | str s => .str s
  | arr items => .arr (values items)
  | obj fields => .obj (fieldValues fields)
def values : List Json → List Value
  | [] => []
  | j :: js => value j :: values js
def fieldValues : List (String × Json) → List (String × Value)
  | [] => []
  | (k, j) :: fields => (k, value j) :: fieldValues fields
end

/-! ### The compact text -/

theorem numberText_natCast (n : Nat) : JsonText.numberText n 0 = Nat.toDigits 10 n := by
  rw [JsonText.numberText, JsonText.intText, if_neg (by omega), if_pos rfl, List.append_nil,
    Int.natAbs_natCast]

mutual
/-- `encode` prints without white space. -/
theorem encode_eq_print (depth : Nat) : ∀ j : Json,
    encode j = JsonText.print JsonText.compact depth j.value
  | null => rfl
  | bool true => rfl
  | bool false => rfl
  | num n => (numberText_natCast n).symm
  | str s => rfl
  | arr [] => rfl
  | arr (j :: js) => by
      have h := encodeItems_eq_print (depth + 1) (j :: js)
      simpa [encode, value, values, JsonText.print, JsonText.compact] using h
  | obj [] => rfl
  | obj ((k, j) :: fields) => by
      have h := encodeFields_eq_print (depth + 1) ((k, j) :: fields)
      simpa [encode, value, fieldValues, JsonText.print, JsonText.compact] using h
theorem encodeItems_eq_print (depth : Nat) : ∀ js : List Json,
    encodeItems js = JsonText.printItems JsonText.compact depth (values js)
  | [] => rfl
  | [j] => encode_eq_print depth j
  | j :: k :: js => by
      have hj := encode_eq_print depth j
      have hrest := encodeItems_eq_print depth (k :: js)
      simpa [encodeItems, values, JsonText.printItems, JsonText.compact, hj] using hrest
theorem encodeFields_eq_print (depth : Nat) : ∀ fields : List (String × Json),
    encodeFields fields = JsonText.printMembers JsonText.compact depth (fieldValues fields)
  | [] => rfl
  | [(k, j)] => by
      have hj := encode_eq_print depth j
      simp [encodeFields, fieldValues, JsonText.printMembers, JsonText.compact, hj]
  | (k, j) :: field :: fields => by
      have hj := encode_eq_print depth j
      have hrest := encodeFields_eq_print depth (field :: fields)
      simpa [encodeFields, fieldValues, JsonText.printMembers, JsonText.compact, hj] using hrest
end

theorem decode_encode (j : Json) : JsonText.decode j.encode = some j.value := by
  rw [encode_eq_print 0]
  exact JsonText.decode_print 0 j.value

/-! ### Reading into sorted members -/

/-- Puts a member in its place by the order of the keys; one with the same key is
replaced. -/
def insertMember (k : String) (j : Json) : List (String × Json) → List (String × Json)
  | [] => [(k, j)]
  | (k', j') :: fields =>
      if k.toList < k'.toList then (k, j) :: (k', j') :: fields
      else if k = k' then (k, j) :: fields
      else (k', j') :: insertMember k j fields

def sortMembers (fields : List (String × Json)) : List (String × Json) :=
  fields.foldl (fun sorted field => insertMember field.1 field.2 sorted) []

mutual
/-- The value as a `Json`, unless a number in it is none of `Json`'s. -/
def ofValue : Value → Option Json
  | .null => some null
  | .bool b => some (bool b)
  | .num m e => if e = 0 ∧ 0 ≤ m then some (num m.toNat) else none
  | .str s => some (str s)
  | .arr vs => (ofValues vs).map arr
  | .obj fields => (ofFields fields).map fun fields => obj (sortMembers fields)
def ofValues : List Value → Option (List Json)
  | [] => some []
  | v :: vs => (ofValue v).bind fun j => (ofValues vs).map (j :: ·)
def ofFields : List (String × Value) → Option (List (String × Json))
  | [] => some []
  | (k, v) :: fields => (ofValue v).bind fun j => (ofFields fields).map ((k, j) :: ·)
end

/-- The keys stand in ascending order. -/
def Ascending (fields : List (String × Json)) : Prop :=
  (fields.map fun field => field.1.toList).Pairwise (· < ·)

mutual
/-- Every object in it lists its members in ascending order. -/
def Sorted : Json → Prop
  | null => True
  | bool _ => True
  | num _ => True
  | str _ => True
  | arr items => SortedItems items
  | obj fields => Ascending fields ∧ SortedFields fields
def SortedItems : List Json → Prop
  | [] => True
  | j :: js => Sorted j ∧ SortedItems js
def SortedFields : List (String × Json) → Prop
  | [] => True
  | (_, j) :: fields => Sorted j ∧ SortedFields fields
end

/-- A key behind all the others goes to the end. -/
theorem insertMember_of_lt {k : String} {j : Json} {fields : List (String × Json)}
    (h : ∀ field ∈ fields, field.1.toList < k.toList) :
    insertMember k j fields = fields ++ [(k, j)] := by
  induction fields with
  | nil => rfl
  | cons field fields ih =>
      obtain ⟨hfield, hfields⟩ := List.forall_mem_cons.mp h
      have hne : k ≠ field.1 := fun heq => lt_irrefl _ (heq ▸ hfield)
      rw [insertMember, if_neg (lt_asymm hfield), if_neg hne, ih hfields, List.cons_append]

theorem sortMembers_of_ascending {fields : List (String × Json)} (h : Ascending fields) :
    sortMembers fields = fields := by
  induction fields using List.reverseRecOn with
  | nil => rfl
  | append_singleton fields field ih =>
      rw [Ascending, List.map_append, List.pairwise_append] at h
      obtain ⟨hfields, -, hlast⟩ := h
      have hlt : ∀ other ∈ fields, other.1.toList < field.1.toList := by
        intro other hother
        exact hlast _ (List.mem_map_of_mem hother) _ (by simp)
      have hsort : sortMembers (fields ++ [field]) =
          insertMember field.1 field.2 (sortMembers fields) := by
        simp [sortMembers]
      rw [hsort, ih hfields, insertMember_of_lt hlt]

mutual
theorem ofValue_value : ∀ {j : Json}, j.Sorted → ofValue j.value = some j
  | null, _ => rfl
  | bool _, _ => rfl
  | num n, _ => by simp [value, ofValue]
  | str _, _ => rfl
  | arr items, h => by
      rw [Sorted] at h
      rw [value, ofValue, ofValues_values h, Option.map_some]
  | obj fields, h => by
      rw [Sorted] at h
      rw [value, ofValue, ofFields_fieldValues h.2, Option.map_some, sortMembers_of_ascending h.1]
theorem ofValues_values : ∀ {js : List Json}, SortedItems js → ofValues (values js) = some js
  | [], _ => rfl
  | j :: js, h => by
      rw [SortedItems] at h
      rw [values, ofValues, ofValue_value h.1, Option.bind_some, ofValues_values h.2,
        Option.map_some]
theorem ofFields_fieldValues : ∀ {fields : List (String × Json)}, SortedFields fields →
    ofFields (fieldValues fields) = some fields
  | [], _ => rfl
  | (k, j) :: fields, h => by
      rw [SortedFields] at h
      rw [fieldValues, ofFields, ofValue_value h.1, Option.bind_some, ofFields_fieldValues h.2,
        Option.map_some]
end

theorem sortedItems_map {α : Type*} {f : α → Json} (h : ∀ a, (f a).Sorted) (as : List α) :
    SortedItems (as.map f) := by
  induction as with
  | nil => trivial
  | cons a as ih => exact ⟨h a, ih⟩

end Json
