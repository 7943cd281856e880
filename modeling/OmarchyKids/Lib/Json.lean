import Mathlib
import OmarchyKids.Lib.Utf8

/-!
# OmarchyKids.Lib.Json

JSON values and the compact encoder (no white space, the shortest escape for
every character), with the exact octet count of what it writes.

* `Json.encode` — the text;
* `Json.octets` — its length in octets, computed from the value without building
  the text (`length_encode`);
* `newline_not_mem_encode` — an encoded value is one line: control characters
  only ever appear escaped;
* `member`, `toText`, … — reading a parsed value without checking its shape.
-/

/-- A JSON value. Numbers are naturals: nothing here writes any other. -/
inductive Json
  | null
  | bool (b : Bool)
  | num (n : Nat)
  | str (s : String)
  | arr (items : List Json)
  | obj (fields : List (String × Json))

namespace Json

/-! ### Strings -/

/-- A lower-case hexadecimal digit. -/
def hexDigit (n : Nat) : Char := Nat.digitChar n

/-- How one character is written inside a string literal. -/
def escapeChar (c : Char) : List Char :=
  if c = '"' then ['\\', '"']
  else if c = '\\' then ['\\', '\\']
  else if c = '\n' then ['\\', 'n']
  else if c = '\r' then ['\\', 'r']
  else if c = '\t' then ['\\', 't']
  else if c.toNat = 8 then ['\\', 'b']
  else if c.toNat = 12 then ['\\', 'f']
  else if c.toNat < 32 then
    ['\\', 'u', '0', '0', hexDigit (c.toNat / 16), hexDigit (c.toNat % 16)]
  else [c]

/-- A string literal. -/
def quote (s : String) : List Char := '"' :: s.toList.flatMap escapeChar ++ ['"']

/-! ### Values -/

mutual
/-- The compact text of a value. -/
def encode : Json → List Char
  | null => "null".toList
  | bool true => "true".toList
  | bool false => "false".toList
  | num n => Nat.toDigits 10 n
  | str s => quote s
  | arr items => '[' :: encodeItems items ++ [']']
  | obj fields => '{' :: encodeFields fields ++ ['}']
/-- Array items, separated by commas. -/
def encodeItems : List Json → List Char
  | [] => []
  | [j] => encode j
  | j :: js => encode j ++ ',' :: encodeItems js
/-- Object members, separated by commas. -/
def encodeFields : List (String × Json) → List Char
  | [] => []
  | [(k, j)] => quote k ++ ':' :: encode j
  | (k, j) :: fs => quote k ++ ':' :: encode j ++ ',' :: encodeFields fs
end

/-! ### Octet counts -/

/-- The octets a string literal's content takes. -/
def escapedOctets (s : String) : Nat := (s.toList.map fun c => ((escapeChar c).map Char.utf8Size).sum).sum

/-- The octets a string literal takes, quotes included. -/
def quotedOctets (s : String) : Nat := escapedOctets s + 2

/-- The octets a number takes. -/
def numOctets (n : Nat) : Nat := (Nat.toDigits 10 n).length

mutual
/-- The octets the compact text of a value takes. -/
def octets : Json → Nat
  | null => 4
  | bool true => 4
  | bool false => 5
  | num n => numOctets n
  | str s => quotedOctets s
  | arr items => itemsOctets items + 2
  | obj fields => fieldsOctets fields + 2
/-- The octets of array items and the commas between them. -/
def itemsOctets : List Json → Nat
  | [] => 0
  | [j] => octets j
  | j :: js => octets j + 1 + itemsOctets js
/-- The octets of object members and the commas between them. -/
def fieldsOctets : List (String × Json) → Nat
  | [] => 0
  | [(k, j)] => quotedOctets k + 1 + octets j
  | (k, j) :: fs => quotedOctets k + 1 + octets j + 1 + fieldsOctets fs
end

theorem length_quote (s : String) : (Utf8.charsBytes (quote s)).length = quotedOctets s := by
  have hbody : ∀ cs : List Char, (Utf8.charsBytes (cs.flatMap escapeChar)).length =
      (cs.map fun c => ((escapeChar c).map Char.utf8Size).sum).sum := by
    intro cs
    induction cs with
    | nil => rfl
    | cons c cs ih => simp [ih, Utf8.length_charsBytes (escapeChar c)]
  have hq : (String.utf8EncodeChar '"').length = 1 := by decide
  simp [quote, quotedOctets, escapedOctets, hbody, hq]
  omega

/-- A decimal digit takes one octet. -/
theorem utf8Size_of_isDigit {c : Char} (h : c.isDigit = true) : c.utf8Size = 1 := by
  simp only [Char.isDigit, Bool.and_eq_true, decide_eq_true_eq] at h
  have hle : c.val ≤ 0x7f := UInt32.le_trans h.2 (by decide)
  simp [Char.utf8Size, hle]

theorem length_num (n : Nat) : (Utf8.charsBytes (Nat.toDigits 10 n)).length = numOctets n := by
  have h1 : (Nat.toDigits 10 n).map Char.utf8Size = (Nat.toDigits 10 n).map fun _ => 1 :=
    List.map_congr_left fun c hc => utf8Size_of_isDigit
      (Nat.isDigit_of_mem_toDigits (by decide) (by decide) hc)
  rw [Utf8.length_charsBytes, h1, numOctets]
  simp

mutual
/-- `octets` is the length of the encoded text. -/
theorem length_encode : ∀ j : Json, (Utf8.charsBytes (encode j)).length = octets j
  | null => by decide
  | bool true => by decide
  | bool false => by decide
  | num n => by simpa only [encode, octets] using length_num n
  | str s => by simpa only [encode, octets] using length_quote s
  | arr items => by
      have ih := length_encodeItems items
      have hb : (String.utf8EncodeChar '[').length = 1 ∧ (String.utf8EncodeChar ']').length = 1 := by
        decide
      simp [encode, octets, ih, hb]
      omega
  | obj fields => by
      have ih := length_encodeFields fields
      have hb : (String.utf8EncodeChar '{').length = 1 ∧ (String.utf8EncodeChar '}').length = 1 := by
        decide
      simp [encode, octets, ih, hb]
      omega
theorem length_encodeItems : ∀ js : List Json,
    (Utf8.charsBytes (encodeItems js)).length = itemsOctets js
  | [] => rfl
  | [j] => by simpa only [encodeItems, itemsOctets] using length_encode j
  | j :: k :: js => by
      have ih := length_encodeItems (k :: js)
      have hj := length_encode j
      have hc : (String.utf8EncodeChar ',').length = 1 := by decide
      simp [encodeItems, itemsOctets, ih, hj, hc]
      omega
theorem length_encodeFields : ∀ fs : List (String × Json),
    (Utf8.charsBytes (encodeFields fs)).length = fieldsOctets fs
  | [] => rfl
  | [(k, j)] => by
      have hj := length_encode j
      have hc : (String.utf8EncodeChar ':').length = 1 := by decide
      simp [encodeFields, fieldsOctets, hj, length_quote, hc]
      omega
  | (k, j) :: f :: fs => by
      have ih := length_encodeFields (f :: fs)
      have hj := length_encode j
      have hc : (String.utf8EncodeChar ':').length = 1 ∧ (String.utf8EncodeChar ',').length = 1 := by
        decide
      simp [encodeFields, fieldsOctets, ih, hj, length_quote, hc]
      omega
end

/-- Arrays and objects by the sum over their members: one comma fewer than
members. -/
theorem itemsOctets_eq_sum (js : List Json) :
    itemsOctets js = (js.map fun j => octets j + 1).sum - 1 := by
  induction js with
  | nil => rfl
  | cons j js ih =>
      cases js with
      | nil => simp [itemsOctets]
      | cons k js =>
          rw [itemsOctets.eq_3 _ _ (by simp), ih]
          simp only [List.map_cons, List.sum_cons]
          omega

/-! ### One value, one line -/

theorem newline_not_mem_escapeChar (c : Char) : '\n' ∉ escapeChar c := by
  have hhex : ∀ n < 16, '\n' ≠ hexDigit n := by decide
  unfold escapeChar
  repeat' split
  all_goals try decide
  · have h1 := hhex (c.toNat / 16) (by omega)
    have h2 := hhex (c.toNat % 16) (by omega)
    simp [h1, h2]
  · rename_i hn _ _ _ _ _
    simpa [eq_comm] using hn

theorem newline_not_mem_quote (s : String) : '\n' ∉ quote s := by
  simp only [quote, List.mem_cons, List.mem_append, List.mem_flatMap, not_or, not_exists, not_and]
  exact ⟨⟨by decide, fun c _ => newline_not_mem_escapeChar c⟩, by decide, by simp⟩

mutual
/-- An encoded value contains no line break. -/
theorem newline_not_mem_encode : ∀ j : Json, '\n' ∉ encode j
  | null => by decide
  | bool true => by decide
  | bool false => by decide
  | num n => by
      intro h
      rw [encode] at h
      exact absurd (Nat.isDigit_of_mem_toDigits (by decide) (by decide) h) (by decide)
  | str s => by simpa only [encode] using newline_not_mem_quote s
  | arr items => by simpa [encode] using newline_not_mem_encodeItems items
  | obj fields => by simpa [encode] using newline_not_mem_encodeFields fields
theorem newline_not_mem_encodeItems : ∀ js : List Json, '\n' ∉ encodeItems js
  | [] => by simp [encodeItems]
  | [j] => by simpa only [encodeItems] using newline_not_mem_encode j
  | j :: k :: js => by
      simpa [encodeItems] using ⟨newline_not_mem_encode j, newline_not_mem_encodeItems (k :: js)⟩
theorem newline_not_mem_encodeFields : ∀ fs : List (String × Json), '\n' ∉ encodeFields fs
  | [] => by simp [encodeFields]
  | [(k, j)] => by
      simpa [encodeFields] using ⟨newline_not_mem_quote k, newline_not_mem_encode j⟩
  | (k, j) :: f :: fs => by
      simpa [encodeFields] using
        ⟨newline_not_mem_quote k, newline_not_mem_encode j, newline_not_mem_encodeFields (f :: fs)⟩
end

/-! ### Reading

As Qt reads a parsed document: what is missing or of another type reads as the
empty value of the type asked for. -/

/-- `toObject().value(key)`; `none` is an undefined value. -/
def member (key : String) : Option Json → Option Json
  | some (obj fields) => fields.lookup key
  | _ => none

/-- `toBool()`. -/
def toBool : Option Json → Bool
  | some (bool b) => b
  | _ => false

/-- `toArray()`. -/
def toArray : Option Json → List Json
  | some (arr items) => items
  | _ => []

/-- `toString()`. -/
def toText : Option Json → String
  | some (str s) => s
  | _ => ""

/-- `isNull()`: an undefined value is not null. -/
def isNull : Option Json → Bool
  | some null => true
  | _ => false

/-- `QJsonDocument::isObject`. -/
def isObject : Option Json → Bool
  | some (obj _) => true
  | _ => false

end Json
