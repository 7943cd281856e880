import Mathlib

/-!
# OmarchyKids.Lib.Text

Text operations of a standard library, on lists of characters: the Unicode
white-space test, trimming, splitting into lines and words, and dropping a leading
string.
-/

namespace Text

/-- `char::is_whitespace`: the Unicode `White_Space` property. -/
def isWhitespace (c : Char) : Bool :=
  let n := c.toNat
  (9 ≤ n && n ≤ 13) || n == 0x20 || n == 0x85 || n == 0xA0 || n == 0x1680 ||
    (0x2000 ≤ n && n ≤ 0x200A) || n == 0x2028 || n == 0x2029 || n == 0x202F ||
    n == 0x205F || n == 0x3000

/-- `str::trim`. -/
def trim (cs : List Char) : List Char :=
  ((cs.dropWhile isWhitespace).reverse.dropWhile isWhitespace).reverse

/-- `splitLines` with the current line's characters so far, last one first. -/
def splitLinesFrom (line : List Char) : List Char → List (List Char)
  | [] => if line = [] then [] else [line.reverse]
  | c :: cs =>
      if c = '\n' then line.reverse :: splitLinesFrom [] cs else splitLinesFrom (c :: line) cs

/-- The pieces between line feeds; a final line feed opens no further piece. -/
def splitLines (cs : List Char) : List (List Char) := splitLinesFrom [] cs

/-- `str::split_whitespace`. -/
def splitWhitespace (cs : List Char) : List (List Char) :=
  (cs.splitOnP isWhitespace).filter fun w => !w.isEmpty

/-- `str::strip_prefix`. -/
def dropLeading (lead cs : List Char) : Option (List Char) :=
  if lead.isPrefixOf cs then some (cs.drop lead.length) else none

theorem dropLeading_eq_some_iff {lead cs rest : List Char} :
    dropLeading lead cs = some rest ↔ cs = lead ++ rest := by
  unfold dropLeading
  constructor
  · intro h
    split at h
    next hlead =>
      obtain ⟨tail, rfl⟩ := List.isPrefixOf_iff_prefix.mp hlead
      rw [List.drop_left, Option.some.injEq] at h
      rw [h]
    next => cases h
  · rintro rfl
    rw [if_pos (List.isPrefixOf_iff_prefix.mpr (List.prefix_append lead rest)), List.drop_left]

end Text
