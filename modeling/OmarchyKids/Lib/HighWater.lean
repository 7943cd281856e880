import Mathlib
import OmarchyKids.Lib.Runs

/-!
# OmarchyKids.Lib.HighWater

Picking out what is new from overlapping batches with a single mark: the largest
key met so far. A batch delivers its elements above the mark and raises it; the
first batch only sets it.

Nothing is delivered twice (`nodup_delivered`), whatever the batches are. An
element is delivered by the first batch that holds it provided its key exceeds
those of every earlier batch (`mem_deliver_of_above`) — batches that are prefixes
of one sequence with increasing keys meet this in any order.
-/

namespace HighWater

variable {α κ : Type*} [LinearOrder κ] (key : α → κ)

/-- The mark after a batch. -/
def raise (mark : κ) (xs : List α) : κ := xs.foldl (fun m x => max m (key x)) mark

/-- The elements above the mark. -/
def fresh (mark : κ) (xs : List α) : List α := xs.filter fun x => decide (mark < key x)

variable {key}

theorem raise_lt_iff {mark k : κ} {xs : List α} :
    raise key mark xs < k ↔ mark < k ∧ ∀ x ∈ xs, key x < k := by
  induction xs generalizing mark with
  | nil => simp [raise]
  | cons x xs ih =>
      show raise key (max mark (key x)) xs < k ↔ _
      rw [ih, max_lt_iff, List.forall_mem_cons, and_assoc]

theorem fresh_cons_of_lt {mark : κ} {x : α} (h : mark < key x) (xs : List α) :
    fresh key mark (x :: xs) = x :: fresh key mark xs :=
  List.filter_cons_of_pos (decide_eq_true h)

theorem fresh_cons_of_le {mark : κ} {x : α} (h : key x ≤ mark) (xs : List α) :
    fresh key mark (x :: xs) = fresh key mark xs := by
  refine List.filter_cons_of_neg ?_
  rw [decide_eq_true_iff]
  exact not_lt.mpr h

/-! ### Batches -/

variable (bot : κ) (key)

/-- One batch raises the mark, which starts at `bot`. -/
def receive (mark : Option κ) (xs : List α) : Option κ := some (raise key (mark.getD bot) xs)

/-- What a batch delivers: nothing, if it is the first. -/
def deliver (mark : Option κ) (xs : List α) : List α :=
  match mark with
  | none => []
  | some mark => fresh key mark xs

variable {bot key}

theorem isSome_run_receive {mark : Option κ} {batches : List (List α)} (h : batches ≠ []) :
    (Runs.run (receive key bot) mark batches).isSome := by
  rcases List.eq_nil_or_concat batches with rfl | ⟨before, xs, rfl⟩
  · exact absurd rfl h
  · rw [List.concat_eq_append, Runs.run_concat]
    rfl

/-- The mark exceeds what it started from and what it has met, and nothing else. -/
theorem run_receive_lt_iff {mark : Option κ} {k : κ} {batches : List (List α)} :
    (Runs.run (receive key bot) mark batches).getD bot < k ↔
      mark.getD bot < k ∧ ∀ xs ∈ batches, ∀ x ∈ xs, key x < k := by
  induction batches generalizing mark with
  | nil => simp
  | cons xs batches ih =>
      rw [Runs.run_cons, ih, List.forall_mem_cons, ← and_assoc]
      refine and_congr_left' ?_
      exact raise_lt_iff

/-- The first batch that holds an element delivers it, if its key is new. -/
theorem mem_deliver_of_above {before : List (List α)} (hne : before ≠ []) {xs : List α} {x : α}
    (hx : x ∈ xs) (hbot : bot < key x) (habove : ∀ ys ∈ before, ∀ y ∈ ys, key y < key x) :
    x ∈ deliver key (Runs.run (receive key bot) none before) xs := by
  have hmark : (Runs.run (receive key bot) none before).getD bot < key x :=
    run_receive_lt_iff.mpr ⟨hbot, habove⟩
  obtain ⟨mark, hrun⟩ := Option.isSome_iff_exists.mp
    (@isSome_run_receive _ _ _ key bot none _ hne)
  rw [hrun, Option.getD_some] at hmark
  rw [hrun, deliver, fresh, List.mem_filter, decide_eq_true_iff]
  exact ⟨hx, hmark⟩

/-- Nothing is delivered twice. -/
theorem nodup_delivered {mark : Option κ} {batches : List (List α)}
    (hbatch : ∀ xs ∈ batches, (xs.map key).Nodup) :
    ((Runs.written (receive key bot) (deliver key) mark batches).map key).Nodup ∧
      ∀ x ∈ Runs.written (receive key bot) (deliver key) mark batches, mark.getD bot < key x := by
  induction batches generalizing mark with
  | nil => simp
  | cons xs batches ih =>
      rw [List.forall_mem_cons] at hbatch
      obtain ⟨hnodup, habove⟩ := @ih (receive key bot mark xs) hbatch.2
      have hnow : ∀ x ∈ deliver key mark xs, x ∈ xs ∧ mark.getD bot < key x := by
        intro x hx
        cases mark with
        | none => cases hx
        | some m =>
            rw [deliver, fresh, List.mem_filter, decide_eq_true_iff] at hx
            exact hx
      -- what comes later is above the mark this batch leaves
      have hlater : ∀ x ∈ Runs.written (receive key bot) (deliver key) (receive key bot mark xs)
          batches, mark.getD bot < key x ∧ ∀ y ∈ xs, key y < key x :=
        fun x hx => raise_lt_iff.mp (habove x hx)
      rw [Runs.written_cons, List.map_append]
      refine ⟨List.nodup_append.mpr ⟨?_, hnodup, ?_⟩, ?_⟩
      · cases mark with
        | none => exact List.nodup_nil
        | some m => exact hbatch.1.sublist (List.filter_sublist.map key)
      · rintro k hk _ hk' rfl
        obtain ⟨y, hy, rfl⟩ := List.mem_map.mp hk
        obtain ⟨x, hx, heq⟩ := List.mem_map.mp hk'
        exact absurd heq (ne_of_gt ((hlater x hx).2 y (hnow y hy).1))
      · intro x hx
        rcases List.mem_append.mp hx with hx | hx
        · exact (hnow x hx).2
        · exact (hlater x hx).1

end HighWater
