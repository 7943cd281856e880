import Mathlib

/-!
# OmarchyKids.Lib.LastMatch

The update that touches only the *last* element of a list that satisfies a
predicate, and how it compares with the update of all of them: the two agree
exactly when no more than one element satisfies it (`map_eq_modifyLast_iff`).
-/

namespace LastMatch

variable {α M : Type*}

/-- Applies `f` to the last element that satisfies `p`. -/
def modifyLast (p : α → Bool) (f : α → α) : List α → List α
  | [] => []
  | x :: xs =>
      if xs.any p then x :: modifyLast p f xs
      else (if p x then f x else x) :: xs

variable {p : α → Bool} {f g : α → α}

/-- The last element that satisfies the predicate. -/
theorem getLast?_filter_cons (x : α) (xs : List α) :
    ((x :: xs).filter p).getLast? =
      if xs.any p then (xs.filter p).getLast? else if p x then some x else none := by
  by_cases hxs : xs.any p = true
  · have hne : xs.filter p ≠ [] := by
      rw [List.any_eq_true] at hxs
      obtain ⟨y, hy, hpy⟩ := hxs
      exact List.ne_nil_of_mem (List.mem_filter.mpr ⟨hy, hpy⟩)
    obtain ⟨y, ys, hys⟩ := List.exists_cons_of_ne_nil hne
    rw [if_pos hxs, List.filter_cons]
    split
    · rw [hys, List.getLast?_cons_cons]
    · rfl
  · have hnil : xs.filter p = [] := by
      rw [List.filter_eq_nil_iff]
      simpa using hxs
    rw [if_neg hxs, List.filter_cons, hnil]
    split <;> rfl

/-- Only what `f` does to that element matters. -/
theorem modifyLast_congr {xs : List α} (h : ∀ x ∈ (xs.filter p).getLast?, f x = g x) :
    modifyLast p f xs = modifyLast p g xs := by
  induction xs with
  | nil => rfl
  | cons x xs ih =>
      rw [getLast?_filter_cons] at h
      rw [modifyLast, modifyLast]
      split
      · next hxs => rw [ih (by rwa [if_pos hxs] at h)]
      · next hxs =>
          rw [if_neg hxs] at h
          split
          · next hx => rw [h x (by simp [hx])]
          · rfl

/-- Where nothing satisfies the predicate, no update does anything. -/
theorem map_eq_self_of_any_eq_false {xs : List α} (h : xs.any p = false) :
    xs.map (fun x => if p x then f x else x) = xs := by
  rw [List.any_eq_false] at h
  calc xs.map (fun x => if p x then f x else x) = xs.map id :=
        List.map_congr_left fun x hx => if_neg (h x hx)
    _ = xs := List.map_id xs

/-- To update every element that satisfies the predicate is to update the last one
exactly when there is at most one. -/
theorem map_eq_modifyLast_iff (hf : ∀ x, p x = true → f x ≠ x) (xs : List α) :
    xs.map (fun x => if p x then f x else x) = modifyLast p f xs ↔ (xs.filter p).length ≤ 1 := by
  induction xs with
  | nil => simp [modifyLast]
  | cons x xs ih =>
      rw [modifyLast, List.map_cons, List.filter_cons]
      cases hxs : xs.any p with
      | true =>
          have hpos : 0 < (xs.filter p).length := by
            rw [List.length_pos_iff_ne_nil, ne_eq, List.filter_eq_nil_iff]
            simpa using hxs
          cases hx : p x with
          | true =>
              rw [if_pos rfl, if_pos rfl, if_pos rfl, List.length_cons]
              refine iff_of_false (fun heq => hf x hx (List.cons.inj heq).1) (by omega)
          | false => simpa using ih
      | false =>
          have hnil : xs.filter p = [] := by
            rw [List.filter_eq_nil_iff]
            simpa using hxs
          rw [map_eq_self_of_any_eq_false hxs, hnil]
          cases p x <;> simp

/-- The weight of the whole changes by what the one element's weight does. -/
theorem sum_modifyLast [AddCommGroup M] (w : α → M) (xs : List α) :
    ((modifyLast p f xs).map w).sum =
      (xs.map w).sum + (((xs.filter p).getLast?).elim 0 fun x => w (f x) - w x) := by
  induction xs with
  | nil => simp [modifyLast]
  | cons x xs ih =>
      rw [getLast?_filter_cons, modifyLast]
      split
      · rw [List.map_cons, List.map_cons, List.sum_cons, List.sum_cons, ih, add_assoc]
      · split
        · simp only [List.map_cons, List.sum_cons, Option.elim_some]
          abel
        · simp

end LastMatch
