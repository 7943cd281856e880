import Mathlib

/-!
# OmarchyKids.Lib.ShellWords

POSIX shell word splitting without expansions: blanks separate words, quotes and
backslashes protect characters, and a `#` where a word could begin starts a comment
until the end of the line.

Every character of the text ends up in a word, separates two, or is dropped. So the
words and the separators between them are never longer than the text
(`weight_splitFrom_le`), and as long as it only if nothing was dropped, which means
that all words are plain (`plain_or_shorter`). This is why only plain words come out of
joined words without a loss (`split_join`), as they do (`split_join_of_plain`).
-/

namespace ShellWords

/-! ### Splitting -/

/-- What the splitter is in the middle of. -/
inductive Mode
  /-- Between two words. -/
  | between
  | comment
  | word
  /-- Behind a backslash outside quotes. -/
  | escaped
  | single
  | double
  /-- Behind a backslash between double quotes. -/
  | doubleEscaped
  deriving DecidableEq, Repr

def isBlank (c : Char) : Bool := c == ' ' || c == '\t' || c == '\n'

/-- How a character that is no blank changes the mode and the word so far. -/
def enter (cur : List Char) (c : Char) : Mode × List Char :=
  if c = '"' then (.double, cur)
  else if c = '\'' then (.single, cur)
  else if c = '\\' then (.escaped, cur)
  else (.word, cur ++ [c])

/-- What a backslash between double quotes does to the character behind it. -/
def unescape (c : Char) : List Char :=
  if c = '$' ∨ c = '`' ∨ c = '"' ∨ c = '\\' then [c]
  else if c = '\n' then []
  else ['\\', c]

/-- Splits the rest of a text, with the word so far. `none` is an unfinished quote or
backslash. -/
def splitFrom : Mode → List Char → List Char → Option (List (List Char))
  | .between, _, [] => some []
  | .comment, _, [] => some []
  | .word, cur, [] => some [cur]
  | _, _, [] => none
  | .between, _, c :: cs =>
      if isBlank c then splitFrom .between [] cs
      else if c = '#' then splitFrom .comment [] cs
      else splitFrom (enter [] c).1 (enter [] c).2 cs
  | .comment, _, c :: cs =>
      if c = '\n' then splitFrom .between [] cs else splitFrom .comment [] cs
  | .word, cur, c :: cs =>
      if isBlank c then (splitFrom .between [] cs).map (cur :: ·)
      else splitFrom (enter cur c).1 (enter cur c).2 cs
  | .escaped, cur, c :: cs => splitFrom .word (if c = '\n' then cur else cur ++ [c]) cs
  | .single, cur, c :: cs =>
      if c = '\'' then splitFrom .word cur cs else splitFrom .single (cur ++ [c]) cs
  | .double, cur, c :: cs =>
      if c = '"' then splitFrom .word cur cs
      else if c = '\\' then splitFrom .doubleEscaped cur cs
      else splitFrom .double (cur ++ [c]) cs
  | .doubleEscaped, cur, c :: cs => splitFrom .double (cur ++ unescape c) cs

/-- The words of a text. -/
def split (text : List Char) : Option (List (List Char)) := splitFrom .between [] text

example : split "a 'b c' \"d\\\"e\" f\\ g # h".toList =
    some ["a".toList, "b c".toList, "d\"e".toList, "f g".toList] := by decide

example : split "it's".toList = none := by decide

/-! ### Plain words -/

/-- A character that stands for itself wherever it is. -/
def Ordinary (c : Char) : Prop := isBlank c = false ∧ c ≠ '"' ∧ c ≠ '\'' ∧ c ≠ '\\'

instance (c : Char) : Decidable (Ordinary c) := inferInstanceAs (Decidable (_ ∧ _))

/-- A word that needs no quoting. -/
structure Plain (w : List Char) : Prop where
  ne_nil : w ≠ []
  /-- It does not begin a comment. -/
  head_ne : w.head? ≠ some '#'
  ordinary : ∀ c ∈ w, Ordinary c

theorem plain_iff (w : List Char) :
    Plain w ↔ w ≠ [] ∧ w.head? ≠ some '#' ∧ ∀ c ∈ w, Ordinary c :=
  ⟨fun h => ⟨h.ne_nil, h.head_ne, h.ordinary⟩, fun h => ⟨h.1, h.2.1, h.2.2⟩⟩

instance (w : List Char) : Decidable (Plain w) := decidable_of_iff' _ (plain_iff w)

theorem Plain.concat {w : List Char} (h : Plain w) {c : Char} (hc : Ordinary c) :
    Plain (w ++ [c]) where
  ne_nil := by simp
  head_ne := by
    rw [List.head?_append_of_ne_nil _ h.ne_nil]
    exact h.head_ne
  ordinary := by
    rw [List.forall_mem_append]
    exact ⟨h.ordinary, by simpa using hc⟩

theorem plain_singleton {c : Char} (hhash : c ≠ '#') (hc : Ordinary c) : Plain [c] where
  ne_nil := by simp
  head_ne := by simpa using hhash
  ordinary := by simpa using hc

theorem enter_of_ordinary (cur : List Char) {c : Char} (h : Ordinary c) :
    enter cur c = (.word, cur ++ [c]) := by
  obtain ⟨-, hdouble, hsingle, hbackslash⟩ := h
  rw [enter, if_neg hdouble, if_neg hsingle, if_neg hbackslash]

/-- Ordinary characters go on with the word. -/
theorem splitFrom_word_append (cur : List Char) {w : List Char} (h : ∀ c ∈ w, Ordinary c)
    (text : List Char) :
    splitFrom .word cur (w ++ text) = splitFrom .word (cur ++ w) text := by
  induction w generalizing cur with
  | nil => simp
  | cons c w ih =>
      rw [List.forall_mem_cons] at h
      rw [List.cons_append, splitFrom, h.1.1, enter_of_ordinary cur h.1]
      simpa using ih (cur ++ [c]) h.2

/-- A plain word is read as it stands. -/
theorem split_plain_append {w : List Char} (h : Plain w) (text : List Char) :
    split (w ++ text) = splitFrom .word w text := by
  cases w with
  | nil => exact absurd rfl h.ne_nil
  | cons c w =>
      have hhash : c ≠ '#' := by simpa using h.head_ne
      have hord := List.forall_mem_cons.mp h.ordinary
      rw [split, List.cons_append, splitFrom, hord.1.1, enter_of_ordinary [] hord.1, if_neg hhash]
      exact splitFrom_word_append [c] hord.2 text

/-- Words with single blanks between them. -/
def join (words : List (List Char)) : List Char := [' '].intercalate words

@[simp] theorem join_nil : join [] = [] := rfl

@[simp] theorem join_singleton (w : List Char) : join [w] = w := by simp [join]

@[simp] theorem join_cons_cons (w v : List Char) (ws : List (List Char)) :
    join (w :: v :: ws) = w ++ ' ' :: join (v :: ws) := by
  simp [join, List.intercalate]

theorem split_join_of_plain {words : List (List Char)} (h : ∀ w ∈ words, Plain w) :
    split (join words) = some words := by
  induction words with
  | nil => rfl
  | cons w words ih =>
      rw [List.forall_mem_cons] at h
      cases words with
      | nil =>
          have hw := split_plain_append h.1 []
          rw [List.append_nil] at hw
          rw [join_singleton, hw, splitFrom]
      | cons v words =>
          rw [join_cons_cons, split_plain_append h.1, splitFrom, if_pos (by decide)]
          show (split (join (v :: words))).map (w :: ·) = _
          rw [ih h.2]
          rfl

/-! ### What is dropped -/

/-- The characters of some words, each with a separator. -/
def weight (words : List (List Char)) : Nat := (words.map fun w => w.length + 1).sum

/-- What the word so far adds to the text that is left. -/
def pending : Mode → List Char → Nat
  | .between, _ => 1
  | .comment, _ => 1
  | .doubleEscaped, cur => cur.length + 2
  | _, cur => cur.length + 1

@[simp] theorem weight_nil : weight [] = 0 := rfl

@[simp] theorem weight_cons (w : List Char) (ws : List (List Char)) :
    weight (w :: ws) = w.length + 1 + weight ws := by
  simp [weight]

/-- Joined words lack the last separator. -/
theorem length_join {words : List (List Char)} (h : words ≠ []) :
    (join words).length + 1 = weight words := by
  induction words with
  | nil => exact absurd rfl h
  | cons w words ih =>
      cases words with
      | nil => simp
      | cons v words =>
          have ih := ih (List.cons_ne_nil v words)
          rw [join_cons_cons, weight_cons, ← ih, List.length_append, List.length_cons]
          omega

theorem pending_enter_le (cur : List Char) (c : Char) :
    pending (enter cur c).1 (enter cur c).2 ≤ cur.length + 2 := by
  unfold enter
  split
  · simp [pending]
  · split
    · simp [pending]
    · split <;> simp [pending]

/-- A quote or a backslash is not part of the word. -/
theorem pending_enter_lt {cur : List Char} {c : Char} (hblank : isBlank c = false)
    (h : ¬ Ordinary c) : pending (enter cur c).1 (enter cur c).2 = cur.length + 1 := by
  unfold enter
  split
  · rfl
  · split
    · rfl
    · split
      · rfl
      · next hdouble hsingle hbackslash =>
          exact absurd ⟨hblank, hdouble, hsingle, hbackslash⟩ h

theorem length_unescape_le (c : Char) : (unescape c).length ≤ 2 := by
  unfold unescape
  split
  · simp
  · split <;> simp

/-- Words and separators come out of the text. -/
theorem weight_splitFrom_le {mode : Mode} {cur text : List Char} {words : List (List Char)}
    (h : splitFrom mode cur text = some words) :
    weight words ≤ pending mode cur + text.length := by
  induction text generalizing mode cur words with
  | nil => cases mode <;> simp [splitFrom] at h <;> subst h <;> simp [pending]
  | cons c cs ih =>
      rw [List.length_cons]
      cases mode with
      | between =>
          rw [splitFrom] at h
          have henter := pending_enter_le [] c
          rw [List.length_nil] at henter
          split at h
          · have := ih h
            simp only [pending] at this ⊢
            omega
          · split at h
            · have := ih h
              simp only [pending] at this ⊢
              omega
            · have := ih h
              simp only [pending]
              omega
      | comment =>
          rw [splitFrom] at h
          split at h <;>
            · have := ih h
              simp only [pending] at this ⊢
              omega
      | word =>
          rw [splitFrom] at h
          split at h
          · obtain ⟨rest, hrest, rfl⟩ := Option.map_eq_some_iff.mp h
            have := ih hrest
            simp only [pending, weight_cons] at this ⊢
            omega
          · have := ih h
            have henter := pending_enter_le cur c
            simp only [pending]
            omega
      | escaped =>
          rw [splitFrom] at h
          have := ih h
          simp only [pending] at this ⊢
          split at this
          · omega
          · rw [List.length_append, List.length_singleton] at this
            omega
      | single =>
          rw [splitFrom] at h
          split at h
          · have := ih h
            simp only [pending] at this ⊢
            omega
          · have := ih h
            simp only [pending, List.length_append, List.length_singleton] at this ⊢
            omega
      | double =>
          rw [splitFrom] at h
          split at h
          · have := ih h
            simp only [pending] at this ⊢
            omega
          · split at h
            · have := ih h
              simp only [pending] at this ⊢
              omega
            · have := ih h
              simp only [pending, List.length_append, List.length_singleton] at this ⊢
              omega
      | doubleEscaped =>
          rw [splitFrom] at h
          have := ih h
          have hlen := length_unescape_le c
          simp only [pending, List.length_append] at this ⊢
          omega

/-- Either something was dropped, or all words are plain: both between words and
behind a plain beginning of one. -/
theorem plain_or_shorter (text : List Char) :
    (∀ words, splitFrom .between [] text = some words →
      weight words ≤ text.length ∨ ∀ w ∈ words, Plain w) ∧
    (∀ cur, Plain cur → ∀ words, splitFrom .word cur text = some words →
      weight words ≤ cur.length + text.length ∨ ∀ w ∈ words, Plain w) := by
  induction text with
  | nil =>
      constructor
      · intro words h
        rw [splitFrom] at h
        cases h
        simp
      · intro cur hcur words h
        rw [splitFrom] at h
        cases h
        exact .inr (by simpa using hcur)
  | cons c cs ih =>
      obtain ⟨ihbetween, ihword⟩ := ih
      rw [List.length_cons]
      constructor
      · intro words h
        rw [splitFrom] at h
        split at h
        · have := weight_splitFrom_le h
          simp only [pending] at this
          exact .inl (by omega)
        · next hblank =>
            rw [Bool.not_eq_true] at hblank
            split at h
            · have := weight_splitFrom_le h
              simp only [pending] at this
              exact .inl (by omega)
            · next hhash =>
                by_cases hord : Ordinary c
                · rw [enter_of_ordinary [] hord] at h
                  rcases ihword [c] (plain_singleton hhash hord) words h with hle | hplain
                  · rw [List.length_singleton] at hle
                    exact .inl (by omega)
                  · exact .inr hplain
                · have := weight_splitFrom_le h
                  rw [pending_enter_lt hblank hord, List.length_nil] at this
                  exact .inl (by omega)
      · intro cur hcur words h
        rw [splitFrom] at h
        split at h
        · obtain ⟨rest, hrest, rfl⟩ := Option.map_eq_some_iff.mp h
          rcases ihbetween rest hrest with hle | hplain
          · rw [weight_cons]
            exact .inl (by omega)
          · exact .inr (List.forall_mem_cons.mpr ⟨hcur, hplain⟩)
        · next hblank =>
            rw [Bool.not_eq_true] at hblank
            by_cases hord : Ordinary c
            · rw [enter_of_ordinary cur hord] at h
              rcases ihword _ (hcur.concat hord) words h with hle | hplain
              · rw [List.length_append, List.length_singleton] at hle
                exact .inl (by omega)
              · exact .inr hplain
            · have := weight_splitFrom_le h
              rw [pending_enter_lt hblank hord] at this
              exact .inl (by omega)

/-- No more comes out of joined pieces than went in; where as much does, only plain
words came out. -/
theorem split_join {pieces words : List (List Char)} (h : split (join pieces) = some words) :
    weight words ≤ weight pieces ∧ (weight words = weight pieces → ∀ w ∈ words, Plain w) := by
  by_cases hnil : pieces = []
  · subst hnil
    obtain rfl : words = [] := by simpa [split, splitFrom] using h.symm
    simp
  · have hlen := length_join hnil
    have hle := weight_splitFrom_le h
    simp only [pending] at hle
    refine ⟨by omega, fun heq => ?_⟩
    rcases (plain_or_shorter _).1 words h with hshort | hplain
    · omega
    · exact hplain

end ShellWords
