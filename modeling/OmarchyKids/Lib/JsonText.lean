import Mathlib
import OmarchyKids.Lib.Text

/-!
# OmarchyKids.Lib.JsonText

The grammar of JSON texts with the values they denote, and a decoder for it.

* `Spells` — the grammar, one rule for each production: a value, the items of an
  array, the members of an object;
* `Document` — a value with white space around it;
* `decode` — the decoder, which recurses on a bound for the length of the text;
* `decode_of_document` — what the grammar derives, the decoder returns, so a text
  has one value at most (`Document.unique`).

Numbers are kept as decimal fractions, string escapes are resolved, and a `\u` escape
of half a surrogate pair alone is no character.
-/

namespace JsonText

inductive Value
  | null
  | bool (b : Bool)
  /-- `mantissa * 10 ^ exponent`. -/
  | num (mantissa exponent : Int)
  | str (s : String)
  | arr (items : List Value)
  | obj (fields : List (String × Value))

/-! ### White space -/

def isSpace (c : Char) : Bool := c == ' ' || c == '\t' || c == '\n' || c == '\r'

def skip (cs : List Char) : List Char := cs.dropWhile isSpace

/-- Only white space. -/
def Blank (cs : List Char) : Prop := ∀ c ∈ cs, isSpace c = true

/-- Something that is not white space stands in front. -/
def Solid (cs : List Char) : Prop := ∃ c rest, cs = c :: rest ∧ isSpace c = false

theorem skip_blank {blank : List Char} (h : Blank blank) (cs : List Char) :
    skip (blank ++ cs) = skip cs := by
  rw [skip, List.dropWhile_append_of_pos h, skip]

theorem Solid.skip_eq {cs : List Char} (h : Solid cs) : skip cs = cs := by
  obtain ⟨c, rest, rfl, hc⟩ := h
  rw [skip, List.dropWhile_cons_of_neg (by simp [hc])]

theorem Solid.append {cs : List Char} (h : Solid cs) (rest : List Char) : Solid (cs ++ rest) := by
  obtain ⟨c, tail, rfl, hc⟩ := h
  exact ⟨c, tail ++ rest, rfl, hc⟩

/-! ### String literals -/

def hexValue (c : Char) : Option Nat :=
  if c.isDigit then some (c.toNat - 48)
  else if 'a' ≤ c ∧ c ≤ 'f' then some (c.toNat - 87)
  else if 'A' ≤ c ∧ c ≤ 'F' then some (c.toNat - 55)
  else none

/-- The code unit of four hexadecimal digits. -/
def hex4 (a b c d : Char) : Option Nat :=
  match hexValue a, hexValue b, hexValue c, hexValue d with
  | some a, some b, some c, some d => some (4096 * a + 256 * b + 16 * c + d)
  | _, _, _, _ => none

def isHigh (n : Nat) : Bool := 0xD800 ≤ n && n < 0xDC00

def isLow (n : Nat) : Bool := 0xDC00 ≤ n && n < 0xE000

/-- The code point of a surrogate pair. -/
def pairValue (high low : Nat) : Nat := 0x10000 + 1024 * (high - 0xD800) + (low - 0xDC00)

/-- What a backslash makes of the character behind it, `u` apart. -/
def simpleEscape (c : Char) : Option Char :=
  if c = '"' ∨ c = '\\' ∨ c = '/' then some c
  else if c = 'b' then some '\x08'
  else if c = 'f' then some '\x0c'
  else if c = 'n' then some '\n'
  else if c = 'r' then some '\r'
  else if c = 't' then some '\t'
  else none

/-- A character that stands for itself in a string literal. -/
def IsPlain (c : Char) : Prop := c ≠ '"' ∧ c ≠ '\\' ∧ 0x20 ≤ c.toNat

instance (c : Char) : Decidable (IsPlain c) := inferInstanceAs (Decidable (_ ∧ _))

/-- The text between the quotes, and the characters it stands for. -/
inductive Chars : List Char → List Char → Prop
  | nil : Chars [] []
  | plain {c text cs} (hc : IsPlain c) (h : Chars text cs) : Chars (c :: text) (c :: cs)
  | simple {e c text cs} (he : simpleEscape e = some c) (h : Chars text cs) :
      Chars ('\\' :: e :: text) (c :: cs)
  | unit {a b c d n text cs} (hn : hex4 a b c d = some n) (hhigh : isHigh n = false)
      (hlow : isLow n = false) (h : Chars text cs) :
      Chars ('\\' :: 'u' :: a :: b :: c :: d :: text) (Char.ofNat n :: cs)
  | pair {a b c d e f g i n m text cs} (hn : hex4 a b c d = some n) (hhigh : isHigh n = true)
      (hm : hex4 e f g i = some m) (hlow : isLow m = true) (h : Chars text cs) :
      Chars ('\\' :: 'u' :: a :: b :: c :: d :: '\\' :: 'u' :: e :: f :: g :: i :: text)
        (Char.ofNat (pairValue n m) :: cs)

theorem chars_of_plain {cs : List Char} (h : ∀ c ∈ cs, IsPlain c) : Chars cs cs := by
  induction cs with
  | nil => exact .nil
  | cons c cs ih =>
      rw [List.forall_mem_cons] at h
      exact .plain h.1 (ih h.2)

/-- Puts a character in front of what was read. -/
def push (c : Char) (read : List Char × List Char) : List Char × List Char := (c :: read.1, read.2)

/-- Behind the first half of a surrogate pair: the other half. -/
def lowUnit (high : Nat) : List Char → Option (Char × List Char)
  | x :: y :: a :: b :: c :: d :: xs =>
      if x = '\\' ∧ y = 'u' then
        match hex4 a b c d with
        | none => none
        | some n => if isLow n then some (Char.ofNat (pairValue high n), xs) else none
      else none
  | _ => none

/-- Behind `\u`. -/
def unit : List Char → Option (Char × List Char)
  | a :: b :: c :: d :: xs =>
      match hex4 a b c d with
      | none => none
      | some n =>
          if isHigh n then lowUnit n xs
          else if isLow n then none
          else some (Char.ofNat n, xs)
  | _ => none

/-- Behind a backslash. -/
def escape : List Char → Option (Char × List Char)
  | [] => none
  | x :: xs => if x = 'u' then unit xs else (simpleEscape x).map fun c => (c, xs)

/-- Reads up to the closing quote. -/
def stringBody : Nat → List Char → Option (List Char × List Char)
  | 0, _ => none
  | _ + 1, [] => none
  | fuel + 1, x :: xs =>
      if x = '"' then some ([], xs)
      else if x = '\\' then
        match escape xs with
        | none => none
        | some (c, xs) => (stringBody fuel xs).map (push c)
      else if x.toNat < 0x20 then none
      else (stringBody fuel xs).map (push x)

/-- A string literal is read up to its closing quote. -/
theorem stringBody_of_chars {text cs : List Char} (h : Chars text cs) (rest : List Char) {fuel : Nat}
    (hfuel : text.length < fuel) : stringBody fuel (text ++ '"' :: rest) = some (cs, rest) := by
  induction h generalizing fuel with
  | nil =>
      obtain ⟨fuel, rfl⟩ := Nat.exists_eq_add_one_of_ne_zero (Nat.ne_of_gt hfuel)
      rw [List.nil_append, stringBody, if_pos rfl]
  | @plain c text cs hc h ih =>
      obtain ⟨fuel, rfl⟩ := Nat.exists_eq_add_one_of_ne_zero (Nat.ne_zero_of_lt hfuel)
      obtain ⟨hquote, hbackslash, hcontrol⟩ := hc
      rw [List.length_cons] at hfuel
      rw [List.cons_append, stringBody, if_neg hquote, if_neg hbackslash, if_neg (by omega),
        ih (by omega)]
      rfl
  | @simple e c text cs he h ih =>
      obtain ⟨fuel, rfl⟩ := Nat.exists_eq_add_one_of_ne_zero (Nat.ne_zero_of_lt hfuel)
      have hu : e ≠ 'u' := by
        intro heq
        have hnone : simpleEscape 'u' = none := by decide
        rw [heq, hnone] at he
        cases he
      simp only [List.length_cons] at hfuel
      simp [stringBody, escape, hu, he, ih (show text.length < fuel by omega), push]
  | @unit a b c d n text cs hn hhigh hlow h ih =>
      obtain ⟨fuel, rfl⟩ := Nat.exists_eq_add_one_of_ne_zero (Nat.ne_zero_of_lt hfuel)
      simp only [List.length_cons] at hfuel
      simp [stringBody, escape, unit, hn, hhigh, hlow, ih (show text.length < fuel by omega), push]
  | @pair a b c d e f g i n m text cs hn hhigh hm hlow h ih =>
      obtain ⟨fuel, rfl⟩ := Nat.exists_eq_add_one_of_ne_zero (Nat.ne_zero_of_lt hfuel)
      simp only [List.length_cons] at hfuel
      simp [stringBody, escape, unit, lowUnit, hn, hhigh, hm, hlow,
        ih (show text.length < fuel by omega), push]

/-! ### Numbers -/

def digitsValue (ds : List Char) : Nat := ds.foldl (fun n d => 10 * n + (d.toNat - 48)) 0

/-- One digit at least, and nothing else. -/
def IsDigits (ds : List Char) : Prop := ds ≠ [] ∧ ∀ d ∈ ds, d.isDigit = true

/-- No leading zero. -/
def IsIntPart (ds : List Char) : Prop := IsDigits ds ∧ (ds.head? = some '0' → ds = ['0'])

/-- The digits behind the point. -/
inductive Fraction : List Char → List Char → Prop
  | none : Fraction [] []
  | some {ds} (h : IsDigits ds) : Fraction ('.' :: ds) ds

inductive Exponent : List Char → Int → Prop
  | none : Exponent [] 0
  | plain {e ds} (he : e = 'e' ∨ e = 'E') (h : IsDigits ds) : Exponent (e :: ds) (digitsValue ds)
  | plus {e ds} (he : e = 'e' ∨ e = 'E') (h : IsDigits ds) :
      Exponent (e :: '+' :: ds) (digitsValue ds)
  | minus {e ds} (he : e = 'e' ∨ e = 'E') (h : IsDigits ds) :
      Exponent (e :: '-' :: ds) (-digitsValue ds)

inductive Number : List Char → Value → Prop
  | pos {int ftext frac etext exp} (hint : IsIntPart int) (hfrac : Fraction ftext frac)
      (hexp : Exponent etext exp) :
      Number (int ++ (ftext ++ etext)) (.num (digitsValue (int ++ frac)) (exp - frac.length))
  | neg {int ftext frac etext exp} (hint : IsIntPart int) (hfrac : Fraction ftext frac)
      (hexp : Exponent etext exp) :
      Number ('-' :: (int ++ (ftext ++ etext)))
        (.num (-digitsValue (int ++ frac)) (exp - frac.length))

/-- The digits in front, and the rest. -/
def digits (cs : List Char) : List Char × List Char :=
  (cs.takeWhile Char.isDigit, cs.dropWhile Char.isDigit)

def fraction : List Char → Option (List Char × List Char)
  | [] => some ([], [])
  | c :: cs =>
      if c = '.' then if (digits cs).1 = [] then none else some (digits cs)
      else some ([], c :: cs)

def exponentDigits (sign : Int) (cs : List Char) : Option (Int × List Char) :=
  if (digits cs).1 = [] then none else some (sign * digitsValue (digits cs).1, (digits cs).2)

/-- Behind the `e`. -/
def signedExponent : List Char → Option (Int × List Char)
  | [] => none
  | c :: cs =>
      if c = '+' then exponentDigits 1 cs
      else if c = '-' then exponentDigits (-1) cs
      else exponentDigits 1 (c :: cs)

def exponent : List Char → Option (Int × List Char)
  | [] => some (0, [])
  | c :: cs => if c = 'e' ∨ c = 'E' then signedExponent cs else some (0, c :: cs)

def unsigned (sign : Int) (cs : List Char) : Option (Value × List Char) :=
  if (digits cs).1 = [] ∨ (digits cs).1.head? = some '0' ∧ (digits cs).1 ≠ ['0'] then none
  else
    match fraction (digits cs).2 with
    | none => none
    | some (frac, rest) =>
        match exponent rest with
        | none => none
        | some (exp, rest) =>
            some (.num (sign * digitsValue ((digits cs).1 ++ frac)) (exp - frac.length), rest)

def number : List Char → Option (Value × List Char)
  | [] => none
  | c :: cs => if c = '-' then unsigned (-1) cs else unsigned 1 (c :: cs)

/-- What can follow a number without going on with it. -/
def Follow (rest : List Char) : Prop :=
  ∀ c, rest.head? = some c → c.isDigit = false ∧ c ≠ '.' ∧ c ≠ 'e' ∧ c ≠ 'E'

theorem digits_append {ds rest : List Char} (hds : ∀ d ∈ ds, d.isDigit = true)
    (hrest : ∀ c, rest.head? = some c → c.isDigit = false) : digits (ds ++ rest) = (ds, rest) := by
  rw [digits, List.takeWhile_append_of_pos hds, List.dropWhile_append_of_pos hds]
  cases rest with
  | nil => simp
  | cons c rest => simp [hrest c rfl]

theorem exponentDigits_append {ds rest : List Char} (sign : Int) (hds : IsDigits ds)
    (hrest : Follow rest) :
    exponentDigits sign (ds ++ rest) = some (sign * digitsValue ds, rest) := by
  rw [exponentDigits, digits_append hds.2 fun c hc => (hrest c hc).1, if_neg hds.1]

/-- A digit is none of the signs. -/
theorem ne_of_isDigit {c : Char} (h : c.isDigit = true) :
    c ≠ '+' ∧ c ≠ '-' ∧ c ≠ '.' ∧ c ≠ '"' ∧ c ≠ '[' ∧ c ≠ ']' ∧ c ≠ '\x7b' ∧
      c ≠ 'n' ∧ c ≠ 't' ∧ c ≠ 'f' ∧ isSpace c = false := by
  have hsigns : ∀ d ∈ ['+', '-', '.', '"', '[', ']', '\x7b', 'n', 't', 'f', ' ', '\t', '\n', '\r'],
      d.isDigit = false := by simp
  have hother : ∀ d ∈ ['+', '-', '.', '"', '[', ']', '\x7b', 'n', 't', 'f', ' ', '\t', '\n', '\r'],
      c ≠ d := by
    intro d hd heq
    have hc := hsigns d hd
    rw [← heq, h] at hc
    cases hc
  simp only [List.forall_mem_cons] at hother
  simp [isSpace, hother]

theorem exponent_append {text rest : List Char} {e : Int} (h : Exponent text e)
    (hrest : Follow rest) : exponent (text ++ rest) = some (e, rest) := by
  cases h with
  | none =>
      cases rest with
      | nil => rfl
      | cons c rest =>
          obtain ⟨-, -, hlower, hupper⟩ := hrest c rfl
          rw [List.nil_append, exponent, if_neg (not_or.mpr ⟨hlower, hupper⟩)]
  | @plain mark ds he h =>
      rw [List.cons_append, exponent, if_pos he]
      cases ds with
      | nil => exact absurd rfl h.1
      | cons d ds =>
          obtain ⟨hplus, hminus, -⟩ := ne_of_isDigit (h.2 d List.mem_cons_self)
          rw [List.cons_append, signedExponent, if_neg hplus, if_neg hminus, ← List.cons_append,
            exponentDigits_append 1 h hrest, one_mul]
  | plus he h =>
      rw [List.cons_append, exponent, if_pos he, List.cons_append, signedExponent, if_pos rfl,
        exponentDigits_append 1 h hrest, one_mul]
  | minus he h =>
      rw [List.cons_append, exponent, if_pos he, List.cons_append, signedExponent,
        if_neg (by decide), if_pos rfl, exponentDigits_append (-1) h hrest, neg_one_mul]

/-- An exponent, or what follows the number, is no digit and no point. -/
theorem head_exponent {text rest : List Char} {e : Int} (h : Exponent text e)
    (hrest : Follow rest) :
    ∀ c, (text ++ rest).head? = some c → c.isDigit = false ∧ c ≠ '.' := by
  have hmark : ∀ c, c = 'e' ∨ c = 'E' → c.isDigit = false ∧ c ≠ '.' := by
    rintro c (rfl | rfl) <;> decide
  intro c hc
  cases h with
  | none => exact ⟨(hrest c hc).1, (hrest c hc).2.1⟩
  | plain he =>
      cases hc
      exact hmark _ he
  | plus he =>
      cases hc
      exact hmark _ he
  | minus he =>
      cases hc
      exact hmark _ he

theorem fraction_append {text ds rest : List Char} (h : Fraction text ds)
    (hrest : ∀ c, rest.head? = some c → c.isDigit = false ∧ c ≠ '.') :
    fraction (text ++ rest) = some (ds, rest) := by
  cases h with
  | none =>
      cases rest with
      | nil => rfl
      | cons c rest => rw [List.nil_append, fraction, if_neg (hrest c rfl).2]
  | some h =>
      rw [List.cons_append, fraction, if_pos rfl, digits_append h.2 fun c hc => (hrest c hc).1,
        if_neg h.1]

theorem head_fraction {text ds rest : List Char} (h : Fraction text ds)
    (hrest : ∀ c, rest.head? = some c → c.isDigit = false ∧ c ≠ '.') :
    ∀ c, (text ++ rest).head? = some c → c.isDigit = false := by
  intro c hc
  cases h with
  | none => exact (hrest c hc).1
  | some h =>
      cases hc
      decide

theorem unsigned_append {int ftext frac etext rest : List Char} {exp : Int} (sign : Int)
    (hint : IsIntPart int) (hfrac : Fraction ftext frac) (hexp : Exponent etext exp)
    (hrest : Follow rest) :
    unsigned sign (int ++ (ftext ++ etext) ++ rest) =
      some (.num (sign * digitsValue (int ++ frac)) (exp - frac.length), rest) := by
  have hexpHead := head_exponent hexp hrest
  have hdigits : digits (int ++ (ftext ++ etext) ++ rest) = (int, ftext ++ (etext ++ rest)) := by
    rw [List.append_assoc, List.append_assoc]
    exact digits_append hint.1.2 (head_fraction hfrac hexpHead)
  have hvalid : ¬ (int = [] ∨ int.head? = some '0' ∧ int ≠ ['0']) := by
    intro hinvalid
    rcases hinvalid with hnil | ⟨hzero, hne⟩
    · exact hint.1.1 hnil
    · exact hne (hint.2 hzero)
  rw [unsigned, hdigits, if_neg hvalid]
  simp only [fraction_append hfrac hexpHead, exponent_append hexp hrest]

/-- A number is read up to what follows it. -/
theorem number_of_number {text rest : List Char} {v : Value} (h : Number text v)
    (hrest : Follow rest) : number (text ++ rest) = some (v, rest) := by
  cases h with
  | @pos int ftext frac etext exp hint hfrac hexp =>
      have hread := unsigned_append 1 hint hfrac hexp hrest
      rw [one_mul] at hread
      cases int with
      | nil => exact absurd rfl hint.1.1
      | cons d int =>
          obtain ⟨-, hminus, -⟩ := ne_of_isDigit (hint.1.2 d List.mem_cons_self)
          rw [List.cons_append, List.cons_append, number, if_neg hminus]
          exact hread
  | neg hint hfrac hexp =>
      have hread := unsigned_append (-1) hint hfrac hexp hrest
      rw [neg_one_mul] at hread
      rw [List.cons_append, number, if_pos rfl]
      exact hread

/-! ### The grammar of values -/

/-- What a piece of a text can be. -/
inductive Phrase
  | value (v : Value)
  /-- A value with white space around it. -/
  | element (v : Value)
  | items (vs : List Value)
  | member (field : String × Value)
  | members (fields : List (String × Value))

inductive Spells : Phrase → List Char → Prop
  | nullWord : Spells (.value .null) ['n', 'u', 'l', 'l']
  | trueWord : Spells (.value (.bool true)) ['t', 'r', 'u', 'e']
  | falseWord : Spells (.value (.bool false)) ['f', 'a', 'l', 's', 'e']
  | number {text v} (h : Number text v) : Spells (.value v) text
  | string {text cs} (h : Chars text cs) :
      Spells (.value (.str (String.ofList cs))) ('"' :: (text ++ ['"']))
  | emptyArr {blank} (h : Blank blank) : Spells (.value (.arr [])) ('[' :: (blank ++ [']']))
  | arr {text vs} (h : Spells (.items vs) text) :
      Spells (.value (.arr vs)) ('[' :: (text ++ [']']))
  | emptyObj {blank} (h : Blank blank) :
      Spells (.value (.obj [])) ('\x7b' :: (blank ++ ['\x7d']))
  | obj {text fields} (h : Spells (.members fields) text) :
      Spells (.value (.obj fields)) ('\x7b' :: (text ++ ['\x7d']))
  | element {a b v text} (ha : Blank a) (h : Spells (.value v) text) (hb : Blank b) :
      Spells (.element v) (a ++ (text ++ b))
  | item {v text} (h : Spells (.element v) text) : Spells (.items [v]) text
  | items {v vs text rest} (h : Spells (.element v) text) (hs : Spells (.items vs) rest) :
      Spells (.items (v :: vs)) (text ++ ',' :: rest)
  | member {a b key k v text} (ha : Blank a) (hk : Chars key k) (hb : Blank b)
      (h : Spells (.element v) text) :
      Spells (.member (String.ofList k, v)) (a ++ '"' :: (key ++ '"' :: (b ++ ':' :: text)))
  | single {field text} (h : Spells (.member field) text) : Spells (.members [field]) text
  | members {field fields text rest} (h : Spells (.member field) text)
      (hs : Spells (.members fields) rest) :
      Spells (.members (field :: fields)) (text ++ ',' :: rest)

/-- A JSON text. -/
def Document (text : List Char) (v : Value) : Prop := Spells (.element v) text

/-! ### The decoder -/

def keyword (word : List Char) (v : Value) (cs : List Char) : Option (Value × List Char) :=
  (Text.dropLeading word cs).map fun rest => (v, rest)

/-- A value with white space around it. -/
def element (value : List Char → Option (Value × List Char)) (cs : List Char) :
    Option (Value × List Char) :=
  (value (skip cs)).map fun read => (read.1, skip read.2)

/-- Behind the opening quote of a key. -/
def keyAndValue (value : List Char → Option (Value × List Char)) (fuel : Nat) (cs : List Char) :
    Option ((String × Value) × List Char) :=
  match stringBody fuel cs with
  | none => none
  | some (key, rest) =>
      match skip rest with
      | [] => none
      | c :: rest =>
          if c = ':' then
            (element value rest).map fun read => ((String.ofList key, read.1), read.2)
          else none

def member (value : List Char → Option (Value × List Char)) (fuel : Nat) (cs : List Char) :
    Option ((String × Value) × List Char) :=
  match skip cs with
  | [] => none
  | c :: rest => if c = '"' then keyAndValue value fuel rest else none

mutual
def value : Nat → List Char → Option (Value × List Char)
  | 0, _ => none
  | _ + 1, [] => none
  | fuel + 1, c :: cs =>
      if c = '"' then
        (stringBody fuel cs).map fun read => (.str (String.ofList read.1), read.2)
      else if c = '[' then
        if (skip cs).head? = some ']' then some (.arr [], (skip cs).tail)
        else (items fuel cs).map fun read => (.arr read.1, read.2)
      else if c = '\x7b' then
        if (skip cs).head? = some '\x7d' then some (.obj [], (skip cs).tail)
        else (members fuel cs).map fun read => (.obj read.1, read.2)
      else if c = 'n' then keyword ['n', 'u', 'l', 'l'] .null (c :: cs)
      else if c = 't' then keyword ['t', 'r', 'u', 'e'] (.bool true) (c :: cs)
      else if c = 'f' then keyword ['f', 'a', 'l', 's', 'e'] (.bool false) (c :: cs)
      else number (c :: cs)
def items : Nat → List Char → Option (List Value × List Char)
  | 0, _ => none
  | fuel + 1, cs =>
      match element (value fuel) cs with
      | none => none
      | some (_, []) => none
      | some (v, c :: rest) =>
          if c = ',' then (items fuel rest).map fun read => (v :: read.1, read.2)
          else if c = ']' then some ([v], rest)
          else none
def members : Nat → List Char → Option (List (String × Value) × List Char)
  | 0, _ => none
  | fuel + 1, cs =>
      match member (value fuel) fuel cs with
      | none => none
      | some (_, []) => none
      | some (field, c :: rest) =>
          if c = ',' then (members fuel rest).map fun read => (field :: read.1, read.2)
          else if c = '\x7d' then some ([field], rest)
          else none
end

/-- The value of a whole text. -/
def decode (cs : List Char) : Option Value :=
  match element (value (cs.length + 1)) cs with
  | some (v, []) => some v
  | _ => none

/-! ### What the grammar derives is read -/

/-- What follows an element: a separator, a closing bracket, or nothing. -/
def Stop (rest : List Char) : Prop :=
  ∀ c, rest.head? = some c → c = ',' ∨ c = ']' ∨ c = '\x7d'

theorem Stop.skip_eq {rest : List Char} (h : Stop rest) : skip rest = rest := by
  cases rest with
  | nil => rfl
  | cons c rest =>
      have hc : isSpace c = false := by
        rcases h c rfl with rfl | rfl | rfl <;> decide
      exact Solid.skip_eq ⟨c, rest, rfl, hc⟩

theorem follow_of_isSpace {c : Char} (h : isSpace c = true) :
    c.isDigit = false ∧ c ≠ '.' ∧ c ≠ 'e' ∧ c ≠ 'E' := by
  simp only [isSpace, Bool.or_eq_true, beq_iff_eq] at h
  rcases h with ((rfl | rfl) | rfl) | rfl <;> decide

/-- Neither goes on with a number, even behind white space. -/
theorem Stop.follow {rest : List Char} (h : Stop rest) {blank : List Char} (hblank : Blank blank) :
    Follow (blank ++ rest) := by
  intro c hc
  cases blank with
  | nil => rcases h c hc with rfl | rfl | rfl <;> decide
  | cons b blank =>
      cases hc
      exact follow_of_isSpace (hblank c List.mem_cons_self)

/-- A value begins with a character that is neither white space nor a bracket that
would close an array. -/
theorem Spells.solid {v : Value} {text : List Char} (h : Spells (.value v) text) :
    Solid text ∧ text.head? ≠ some ']' := by
  have hsolid : ∀ c rest, isSpace c = false → c ≠ ']' →
      Solid (c :: rest) ∧ (c :: rest).head? ≠ some ']' :=
    fun c rest hspace hne => ⟨⟨c, rest, rfl, hspace⟩, by simpa using hne⟩
  have hnumber : ∀ int tail, IsIntPart int →
      Solid (int ++ tail) ∧ (int ++ tail).head? ≠ some ']' := by
    intro int tail hint
    cases int with
    | nil => exact absurd rfl hint.1.1
    | cons d int =>
        have hd := ne_of_isDigit (hint.1.2 d List.mem_cons_self)
        exact hsolid d _ hd.2.2.2.2.2.2.2.2.2.2 hd.2.2.2.2.2.1
  cases h with
  | number h =>
      cases h with
      | pos hint => exact hnumber _ _ hint
      | neg => exact hsolid _ _ (by decide) (by decide)
  | _ => exact hsolid _ _ (by decide) (by decide)

theorem Spells.skip_element {v : Value} {text : List Char} (h : Spells (.element v) text)
    (tail : List Char) : (skip (text ++ tail)).head? ≠ some ']' := by
  cases h with
  | @element a b _ text ha h hb =>
      obtain ⟨hsolid, hhead⟩ := h.solid
      have hne : text ≠ [] := by
        obtain ⟨c, rest, rfl, -⟩ := hsolid
        simp
      rw [List.append_assoc, skip_blank ha, List.append_assoc, (hsolid.append _).skip_eq,
        List.head?_append_of_ne_nil _ hne]
      exact hhead

theorem Spells.skip_items {vs : List Value} {text : List Char} (h : Spells (.items vs) text)
    (tail : List Char) : (skip (text ++ tail)).head? ≠ some ']' := by
  cases h with
  | item h => exact h.skip_element tail
  | items h hs =>
      rw [List.append_assoc]
      exact h.skip_element _

theorem Spells.skip_member {field : String × Value} {text : List Char}
    (h : Spells (.member field) text) (tail : List Char) :
    (skip (text ++ tail)).head? ≠ some '\x7d' := by
  cases h with
  | @member a b key k v text ha hk hb h =>
      have hsolid : Solid ('"' :: (key ++ '"' :: (b ++ ':' :: text)) ++ tail) :=
        ⟨'"', _, rfl, by decide⟩
      rw [List.append_assoc, skip_blank ha, hsolid.skip_eq]
      simp

theorem Spells.skip_members {fields : List (String × Value)} {text : List Char}
    (h : Spells (.members fields) text) (tail : List Char) :
    (skip (text ++ tail)).head? ≠ some '\x7d' := by
  cases h with
  | single h => exact h.skip_member tail
  | members h hs =>
      rw [List.append_assoc]
      exact h.skip_member _

/-- The decoder reads a piece of a text and stops behind it. -/
def Reads : Phrase → List Char → Prop
  | .value v, text => ∀ fuel rest, text.length < fuel → Follow rest →
      value fuel (text ++ rest) = some (v, rest)
  | .element v, text => ∀ fuel rest, text.length < fuel → Stop rest →
      element (value fuel) (text ++ rest) = some (v, rest)
  | .items vs, text => ∀ fuel rest, text.length + 1 < fuel →
      items fuel (text ++ ']' :: rest) = some (vs, rest)
  | .member field, text => ∀ fuel rest, text.length < fuel → Stop rest →
      member (value fuel) fuel (text ++ rest) = some (field, rest)
  | .members fields, text => ∀ fuel rest, text.length + 1 < fuel →
      members fuel (text ++ '\x7d' :: rest) = some (fields, rest)

theorem stop_cons {c : Char} (h : c = ',' ∨ c = ']' ∨ c = '\x7d') (rest : List Char) :
    Stop (c :: rest) := by
  intro d hd
  cases hd
  exact h

theorem keyword_append (word : List Char) (v : Value) (rest : List Char) :
    keyword word v (word ++ rest) = some (v, rest) := by
  have h : Text.dropLeading word (word ++ rest) = some rest := Text.dropLeading_eq_some_iff.mpr rfl
  rw [keyword, h, Option.map_some]

/-- A number begins with a character that begins nothing else. -/
theorem value_of_number {text rest : List Char} {v : Value} (h : Number text v)
    (hrest : Follow rest) (fuel : Nat) : value (fuel + 1) (text ++ rest) = some (v, rest) := by
  have hread := number_of_number h hrest
  cases h with
  | @pos int ftext frac etext exp hint hfrac hexp =>
      cases int with
      | nil => exact absurd rfl hint.1.1
      | cons d int =>
          obtain ⟨-, -, -, hquote, harr, -, hobj, hn, ht, hf, -⟩ :=
            ne_of_isDigit (hint.1.2 d List.mem_cons_self)
          rw [List.cons_append, List.cons_append] at hread ⊢
          rw [value, if_neg hquote, if_neg harr, if_neg hobj, if_neg hn, if_neg ht, if_neg hf, hread]
  | neg => simpa [value] using hread

theorem reads_of_spells {p : Phrase} {text : List Char} (h : Spells p text) : Reads p text := by
  induction h with
  | nullWord =>
      intro fuel rest hfuel _
      obtain ⟨fuel, rfl⟩ := Nat.exists_eq_add_one_of_ne_zero (Nat.ne_zero_of_lt hfuel)
      simpa [value] using keyword_append ['n', 'u', 'l', 'l'] .null rest
  | trueWord =>
      intro fuel rest hfuel _
      obtain ⟨fuel, rfl⟩ := Nat.exists_eq_add_one_of_ne_zero (Nat.ne_zero_of_lt hfuel)
      simpa [value] using keyword_append ['t', 'r', 'u', 'e'] (.bool true) rest
  | falseWord =>
      intro fuel rest hfuel _
      obtain ⟨fuel, rfl⟩ := Nat.exists_eq_add_one_of_ne_zero (Nat.ne_zero_of_lt hfuel)
      simpa [value] using keyword_append ['f', 'a', 'l', 's', 'e'] (.bool false) rest
  | number h =>
      intro fuel rest hfuel hrest
      obtain ⟨fuel, rfl⟩ := Nat.exists_eq_add_one_of_ne_zero (Nat.ne_zero_of_lt hfuel)
      exact value_of_number h hrest fuel
  | @string text cs h =>
      intro fuel rest hfuel _
      obtain ⟨fuel, rfl⟩ := Nat.exists_eq_add_one_of_ne_zero (Nat.ne_zero_of_lt hfuel)
      simp only [List.length_cons, List.length_append, List.length_nil] at hfuel
      have hbody := stringBody_of_chars h rest (show text.length < fuel by omega)
      simp [value, hbody]
  | @emptyArr blank h =>
      intro fuel rest hfuel _
      obtain ⟨fuel, rfl⟩ := Nat.exists_eq_add_one_of_ne_zero (Nat.ne_zero_of_lt hfuel)
      have hskip : skip (blank ++ ']' :: rest) = ']' :: rest := by
        rw [skip_blank h, Solid.skip_eq ⟨']', rest, rfl, by decide⟩]
      simp [value, hskip]
  | @arr text vs h ih =>
      intro fuel rest hfuel _
      obtain ⟨fuel, rfl⟩ := Nat.exists_eq_add_one_of_ne_zero (Nat.ne_zero_of_lt hfuel)
      simp only [List.length_cons, List.length_append, List.length_nil] at hfuel
      have hitems := ih fuel rest (by omega)
      have hskip := h.skip_items (']' :: rest)
      simp [value, hskip, hitems]
  | @emptyObj blank h =>
      intro fuel rest hfuel _
      obtain ⟨fuel, rfl⟩ := Nat.exists_eq_add_one_of_ne_zero (Nat.ne_zero_of_lt hfuel)
      have hskip : skip (blank ++ '\x7d' :: rest) = '\x7d' :: rest := by
        rw [skip_blank h, Solid.skip_eq ⟨'\x7d', rest, rfl, by decide⟩]
      simp [value, hskip]
  | @obj text fields h ih =>
      intro fuel rest hfuel _
      obtain ⟨fuel, rfl⟩ := Nat.exists_eq_add_one_of_ne_zero (Nat.ne_zero_of_lt hfuel)
      simp only [List.length_cons, List.length_append, List.length_nil] at hfuel
      have hmembers := ih fuel rest (by omega)
      have hskip := h.skip_members ('\x7d' :: rest)
      simp [value, hskip, hmembers]
  | @element a b v text ha h hb ih =>
      intro fuel rest hfuel hrest
      simp only [List.length_append] at hfuel
      have hread := ih fuel (b ++ rest) (by omega) (hrest.follow hb)
      rw [element, List.append_assoc, skip_blank ha, List.append_assoc,
        (h.solid.1.append _).skip_eq, hread, Option.map_some, skip_blank hb, hrest.skip_eq]
  | @item v text h ih =>
      intro fuel rest hfuel
      obtain ⟨fuel, rfl⟩ := Nat.exists_eq_add_one_of_ne_zero (Nat.ne_zero_of_lt hfuel)
      have hread := ih fuel (']' :: rest) (by omega) (stop_cons (by simp) _)
      simp [items, hread]
  | @items v vs text rest h hs ih ihs =>
      intro fuel tail hfuel
      obtain ⟨fuel, rfl⟩ := Nat.exists_eq_add_one_of_ne_zero (Nat.ne_zero_of_lt hfuel)
      simp only [List.length_append, List.length_cons] at hfuel
      have hread := ih fuel (',' :: (rest ++ ']' :: tail)) (by omega) (stop_cons (by simp) _)
      have hrest := ihs fuel tail (by omega)
      simp [items, hread, hrest]
  | @member a b key k v text ha hk hb h ih =>
      intro fuel rest hfuel hrest
      simp only [List.length_append, List.length_cons] at hfuel
      have hread := ih fuel rest (by omega) hrest
      have hkey := stringBody_of_chars hk (b ++ ':' :: (text ++ rest))
        (show key.length < fuel by omega)
      have hquote : skip (a ++ '"' :: (key ++ '"' :: (b ++ ':' :: (text ++ rest)))) =
          '"' :: (key ++ '"' :: (b ++ ':' :: (text ++ rest))) := by
        rw [skip_blank ha, Solid.skip_eq ⟨'"', _, rfl, by decide⟩]
      have hcolon : skip (b ++ ':' :: (text ++ rest)) = ':' :: (text ++ rest) := by
        rw [skip_blank hb, Solid.skip_eq ⟨':', _, rfl, by decide⟩]
      simp [member, keyAndValue, hquote, hkey, hcolon, hread]
  | @single field text h ih =>
      intro fuel rest hfuel
      obtain ⟨fuel, rfl⟩ := Nat.exists_eq_add_one_of_ne_zero (Nat.ne_zero_of_lt hfuel)
      have hread := ih fuel ('\x7d' :: rest) (by omega) (stop_cons (by simp) _)
      simp [members, hread]
  | @members field fields text rest h hs ih ihs =>
      intro fuel tail hfuel
      obtain ⟨fuel, rfl⟩ := Nat.exists_eq_add_one_of_ne_zero (Nat.ne_zero_of_lt hfuel)
      simp only [List.length_append, List.length_cons] at hfuel
      have hread := ih fuel (',' :: (rest ++ '\x7d' :: tail)) (by omega) (stop_cons (by simp) _)
      have hrest := ihs fuel tail (by omega)
      simp [members, hread, hrest]

/-- What the grammar derives, the decoder returns. -/
theorem decode_of_document {text : List Char} {v : Value} (h : Document text v) :
    decode text = some v := by
  have hread := reads_of_spells h (text.length + 1) [] (Nat.lt_succ_self _) (fun c hc => by cases hc)
  rw [List.append_nil] at hread
  rw [decode, hread]

/-- A text has one value at most. -/
theorem Document.unique {text : List Char} {v w : Value} (hv : Document text v)
    (hw : Document text w) : v = w := by
  have h := (decode_of_document hv).symm.trans (decode_of_document hw)
  exact Option.some.inj h

end JsonText
