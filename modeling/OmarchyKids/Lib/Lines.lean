import Mathlib

/-!
# OmarchyKids.Lib.Lines

Text as a sequence of lines that each end with a separator, and a rest that does
not. `split` takes the complete lines off the front; `split_append` says that it
does not matter in which pieces the text arrives, as long as the rest is kept and
put in front of the next piece. `lines` counts an unterminated rest as a line.
-/

namespace Lines

variable {α : Type*} [DecidableEq α]

/-- The complete lines, without their separators, and what follows the last. -/
def split (sep : α) : List α → List (List α) × List α
  | [] => ([], [])
  | x :: xs =>
      if x = sep then ([] :: (split sep xs).1, (split sep xs).2)
      else
        match (split sep xs).1 with
        | [] => ([], x :: (split sep xs).2)
        | line :: rest => ((x :: line) :: rest, (split sep xs).2)

/-- All lines; an unterminated rest is one too. -/
def lines (sep : α) (xs : List α) : List (List α) :=
  (split sep xs).1 ++ (if (split sep xs).2 = [] then [] else [(split sep xs).2])

variable {sep : α}

@[simp] theorem split_nil : split sep ([] : List α) = ([], []) := rfl

@[simp] theorem split_sep_cons (xs : List α) :
    split sep (sep :: xs) = ([] :: (split sep xs).1, (split sep xs).2) := by
  rw [split, if_pos rfl]

/-- Without a separator there is no complete line. -/
theorem split_of_notMem {xs : List α} (h : sep ∉ xs) : split sep xs = ([], xs) := by
  induction xs with
  | nil => rfl
  | cons x xs ih =>
      rw [List.mem_cons, not_or] at h
      rw [split, if_neg (Ne.symm h.1), ih h.2]

/-- A line and its separator come off the front. -/
theorem split_line {line : List α} (h : sep ∉ line) (xs : List α) :
    split sep (line ++ sep :: xs) = (line :: (split sep xs).1, (split sep xs).2) := by
  induction line with
  | nil => rw [List.nil_append, split_sep_cons]
  | cons x line ih =>
      rw [List.mem_cons, not_or] at h
      rw [List.cons_append, split, if_neg (Ne.symm h.1), ih h.2]

/-- The text is a list of lines with their separators, and an unterminated rest. -/
theorem exists_lines (xs : List α) :
    ∃ (ls : List (List α)) (rest : List α),
      xs = ls.flatMap (· ++ [sep]) ++ rest ∧ (∀ l ∈ ls, sep ∉ l) ∧ sep ∉ rest := by
  induction xs with
  | nil => exact ⟨[], [], rfl, by simp, by simp⟩
  | cons x xs ih =>
      obtain ⟨ls, rest, rfl, hls, hrest⟩ := ih
      by_cases hx : x = sep
      · subst hx
        exact ⟨[] :: ls, rest, rfl, by simpa using hls, hrest⟩
      · cases ls with
        | nil => exact ⟨[], x :: rest, rfl, hls, by simp [hrest, Ne.symm hx]⟩
        | cons l ls =>
            refine ⟨(x :: l) :: ls, rest, rfl, ?_, hrest⟩
            rw [List.forall_mem_cons] at hls ⊢
            rw [List.mem_cons, not_or]
            exact ⟨⟨Ne.symm hx, hls.1⟩, hls.2⟩

/-- Complete lines come off one by one. -/
theorem split_flatMap {ls : List (List α)} (h : ∀ l ∈ ls, sep ∉ l) (xs : List α) :
    split sep (ls.flatMap (· ++ [sep]) ++ xs) = (ls ++ (split sep xs).1, (split sep xs).2) := by
  induction ls with
  | nil => rfl
  | cons l ls ih =>
      rw [List.forall_mem_cons] at h
      rw [List.flatMap_cons, List.append_assoc, List.append_assoc, List.singleton_append,
        split_line h.1, ih h.2, List.cons_append]

/-- Reading in pieces: the rest is put in front of what comes next. -/
theorem split_append (xs ys : List α) :
    split sep (xs ++ ys) =
      ((split sep xs).1 ++ (split sep ((split sep xs).2 ++ ys)).1,
        (split sep ((split sep xs).2 ++ ys)).2) := by
  obtain ⟨ls, rest, rfl, hls, hrest⟩ := @exists_lines α _ sep xs
  rw [List.append_assoc, split_flatMap hls, split_flatMap hls, split_of_notMem hrest,
    List.append_nil]

theorem lines_append (xs ys : List α) :
    lines sep (xs ++ ys) = (split sep xs).1 ++ lines sep ((split sep xs).2 ++ ys) := by
  rw [lines, split_append, lines, List.append_assoc]

/-- Without a separator there is one line, or none. -/
theorem mem_lines_of_notMem {xs line : List α} (h : sep ∉ xs) (hne : line ≠ []) :
    line ∈ lines sep xs ↔ xs = line := by
  rw [lines, split_of_notMem h]
  by_cases hnil : xs = []
  · simp [hnil, hne.symm]
  · simp [hnil, eq_comm]

/-- The rest holds no separator. -/
theorem notMem_rest (xs : List α) : sep ∉ (split sep xs).2 := by
  obtain ⟨ls, rest, rfl, hls, hrest⟩ := @exists_lines α _ sep xs
  rw [split_flatMap hls, split_of_notMem hrest]
  exact hrest

/-- Nothing is lost. -/
theorem flatMap_split (xs : List α) :
    (split sep xs).1.flatMap (· ++ [sep]) ++ (split sep xs).2 = xs := by
  obtain ⟨ls, rest, rfl, hls, hrest⟩ := @exists_lines α _ sep xs
  simp [split_flatMap hls, split_of_notMem hrest]

/-- No line holds a separator. -/
theorem notMem_line {xs l : List α} (h : l ∈ (split sep xs).1) : sep ∉ l := by
  obtain ⟨ls, rest, rfl, hls, hrest⟩ := @exists_lines α _ sep xs
  rw [split_flatMap hls, split_of_notMem hrest, List.append_nil] at h
  exact hls l h

/-! ### The first line -/

/-- What comes before the first separator. -/
def first (sep : α) (xs : List α) : List α := xs.takeWhile (· ≠ sep)

/-- What comes behind the first separator. -/
def after (sep : α) (xs : List α) : List α := (xs.dropWhile (· ≠ sep)).drop 1

theorem notMem_first (xs : List α) : sep ∉ first sep xs := by
  intro h
  simpa using List.mem_takeWhile_imp h

theorem first_of_notMem {xs : List α} (h : sep ∉ xs) : first sep xs = xs := by
  rw [first, List.takeWhile_eq_self_iff]
  intro x hx
  simpa using fun heq : x = sep => h (heq ▸ hx)

theorem after_of_notMem {xs : List α} (h : sep ∉ xs) : after sep xs = [] := by
  have hdrop : xs.dropWhile (· ≠ sep) = [] := by
    rw [List.dropWhile_eq_nil_iff]
    intro x hx
    simpa using fun heq : x = sep => h (heq ▸ hx)
  rw [after, hdrop, List.drop_nil]

theorem first_line {line : List α} (h : sep ∉ line) (xs : List α) :
    first sep (line ++ sep :: xs) = line ∧ after sep (line ++ sep :: xs) = xs := by
  have hall : ∀ x ∈ line, decide (x ≠ sep) = true := by
    intro x hx
    simpa using fun heq : x = sep => h (heq ▸ hx)
  rw [first, after, List.takeWhile_append_of_pos hall, List.dropWhile_append_of_pos hall]
  simp

/-- Behind a beginning without separator, the first line goes on. -/
theorem lines_append_first {front : List α} (hfront : sep ∉ front) (hne : front ≠ [])
    (xs : List α) :
    lines sep (front ++ xs) = (front ++ first sep xs) :: lines sep (after sep xs) := by
  have hline : sep ∉ front ++ first sep xs := by
    rw [List.mem_append, not_or]
    exact ⟨hfront, notMem_first xs⟩
  have hxs : first sep xs ++ xs.dropWhile (· ≠ sep) = xs := List.takeWhile_append_dropWhile
  rw [after]
  cases hrest : xs.dropWhile (· ≠ sep) with
  | nil =>
      rw [hrest, List.append_nil] at hxs
      rw [hxs] at hline ⊢
      simp [lines, split_of_notMem hline, hne]
  | cons x rest =>
      have hx : x = sep := by
        have := List.head?_dropWhile_not (· ≠ sep) xs
        rw [hrest] at this
        simpa using this
      subst hx
      rw [hrest] at hxs
      conv_lhs => rw [← hxs, ← List.append_assoc, lines, split_line hline]
      simp [lines]

/-! ### Text that ends with a separator -/

/-- Nothing is left after the last separator. -/
def Terminated (sep : α) (xs : List α) : Prop := xs = [] ∨ xs.getLast? = some sep

instance (sep : α) (xs : List α) : Decidable (Terminated sep xs) :=
  inferInstanceAs (Decidable (_ ∨ _))

theorem terminated_iff {xs : List α} : Terminated sep xs ↔ (split sep xs).2 = [] := by
  obtain ⟨ls, rest, rfl, hls, hrest⟩ := @exists_lines α _ sep xs
  rw [split_flatMap hls, split_of_notMem hrest, Terminated]
  rcases List.eq_nil_or_concat rest with rfl | ⟨front, x, rfl⟩
  · rcases List.eq_nil_or_concat ls with rfl | ⟨front, l, rfl⟩
    · simp
    · simp [List.flatMap_append]
  · have hx : x ≠ sep := by
      rintro rfl
      exact hrest (by simp)
    simp [hx]

omit [DecidableEq α] in
theorem terminated_append (xs ys : List α) : Terminated sep (xs ++ (ys ++ [sep])) :=
  .inr (by simp)

theorem split_append_of_terminated {xs : List α} (h : Terminated sep xs) (ys : List α) :
    split sep (xs ++ ys) = ((split sep xs).1 ++ (split sep ys).1, (split sep ys).2) := by
  rw [split_append, terminated_iff.mp h, List.nil_append]

/-- What follows a terminated text begins a new line. -/
theorem lines_append_of_terminated {xs : List α} (h : Terminated sep xs) (ys : List α) :
    lines sep (xs ++ ys) = lines sep xs ++ lines sep ys := by
  rw [terminated_iff] at h
  simp only [lines, split_append, h, List.nil_append, if_true, List.append_nil, List.append_assoc]

/-- What follows an unterminated text continues its last line. -/
theorem lines_append_line {xs line : List α} (h : ¬ Terminated sep xs) (hline : sep ∉ line) :
    lines sep (xs ++ (line ++ [sep])) = (split sep xs).1 ++ [(split sep xs).2 ++ line] ∧
      lines sep xs = (split sep xs).1 ++ [(split sep xs).2] := by
  rw [terminated_iff] at h
  have hmerged : sep ∉ (split sep xs).2 ++ line := by
    rw [List.mem_append, not_or]
    exact ⟨notMem_rest xs, hline⟩
  have hsplit : split sep (xs ++ (line ++ [sep])) =
      ((split sep xs).1 ++ [(split sep xs).2 ++ line], []) := by
    rw [split_append, ← List.append_assoc, split_line hmerged, split_nil]
  constructor
  · rw [lines, hsplit]
    simp
  · rw [lines, if_neg h]

theorem lines_line {line : List α} (h : sep ∉ line) : lines sep (line ++ [sep]) = [line] := by
  rw [lines, split_line h, split_nil]
  rfl

end Lines
