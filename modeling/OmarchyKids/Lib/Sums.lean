import Mathlib

/-!
# OmarchyKids.Lib.Sums

Weights of list elements and of the entries of a finite map, added up: what a sum
loses when an entry is erased (`total_erase`), when two maps have the same sum
although their entries differ in what is not weighed (`total_congr_lookup`), and
what one element gains makes the whole sum gain (`sum_add_le`).
-/

namespace Sums

section Lists

variable {α M : Type*}

/-- To add up only some elements is to weigh the others with nothing. -/
theorem sum_filter [AddCommMonoid M] (q : α → Bool) (f : α → M) (xs : List α) :
    ((xs.filter q).map f).sum = (xs.map fun x => if q x = true then f x else 0).sum := by
  have hsplit := List.sum_map_ite (fun x => q x = true) f (fun _ => 0) xs
  simpa using hsplit.symm

/-- If every element weighs at least as much as before and one of them `k` more,
so does the sum. -/
theorem sum_add_le [AddCommGroup M] [LinearOrder M] [IsOrderedAddMonoid M] {f g : α → M} {k : M}
    {x : α} {xs : List α} (hx : x ∈ xs) (hle : ∀ y ∈ xs, f y ≤ g y) (hgain : f x + k ≤ g x) :
    (xs.map f).sum + k ≤ (xs.map g).sum := by
  obtain ⟨before, after, rfl⟩ := List.append_of_mem hx
  have hbefore : (before.map f).sum ≤ (before.map g).sum :=
    List.sum_le_sum fun y hy => hle y (List.mem_append_left _ hy)
  have hafter : (after.map f).sum ≤ (after.map g).sum :=
    List.sum_le_sum fun y hy => hle y (List.mem_append_right _ (List.mem_cons_of_mem _ hy))
  simp only [List.map_append, List.map_cons, List.sum_append, List.sum_cons]
  calc (before.map f).sum + (f x + (after.map f).sum) + k
      = (before.map f).sum + ((f x + k) + (after.map f).sum) := by abel
    _ ≤ (before.map g).sum + (g x + (after.map g).sum) :=
        add_le_add hbefore (add_le_add hgain hafter)

theorem sum_nonpos [AddCommMonoid M] [PartialOrder M] [IsOrderedAddMonoid M] {xs : List M}
    (h : ∀ x ∈ xs, x ≤ 0) : xs.sum ≤ 0 := by
  simpa using List.sum_le_card_nsmul xs 0 h

/-- Grouping by a key does not change the sum, as long as every key has a group. -/
theorem sum_groups [AddCommMonoid M] {κ : Type*} [DecidableEq κ] (key : α → κ) (w : α → M)
    {keys : List κ} (hnodup : keys.Nodup) {xs : List α} (hkeys : ∀ x ∈ xs, key x ∈ keys) :
    (keys.map fun k => ((xs.filter fun x => key x == k).map w).sum).sum = (xs.map w).sum := by
  induction xs with
  | nil => simp
  | cons x xs ih =>
      rw [List.forall_mem_cons] at hkeys
      have hgroup : ∀ k, (((x :: xs).filter fun y => key y == k).map w).sum =
          (if key x = k then w x else 0) + ((xs.filter fun y => key y == k).map w).sum := by
        intro k
        by_cases hk : key x = k
        · simp [hk]
        · simp [hk]
      have hown : (keys.map fun k => if key x = k then w x else 0).sum = w x := by
        rw [← List.sum_toFinset _ hnodup]
        simp [hkeys.1]
      simp only [hgroup, List.sum_map_add, hown, ih hkeys.2, List.map_cons, List.sum_cons]

/-- Quotients and remainders of the terms. -/
theorem sum_eq_mul_add_sum_emod (k : Int) (xs : List Int) :
    xs.sum = k * (xs.map (· / k)).sum + (xs.map (· % k)).sum := by
  rw [← List.sum_map_mul_left, ← List.sum_map_add]
  simp only [Int.mul_ediv_add_emod, List.map_id']

theorem sum_emod_bounds {k : Int} (hk : 0 < k) (xs : List Int) :
    0 ≤ (xs.map (· % k)).sum ∧ (xs.map (· % k)).sum ≤ k * xs.length - xs.length := by
  induction xs with
  | nil => simp
  | cons x xs ih =>
      have hnonneg := Int.emod_nonneg x hk.ne'
      have hlt := Int.emod_lt_of_pos x hk
      simp only [List.map_cons, List.sum_cons, List.length_cons, Nat.cast_add, Nat.cast_one, mul_add]
      constructor <;> linarith

/-- Rounding down term by term loses less than one for every term but the last. -/
theorem sum_ediv_bounds {k : Int} (hk : 0 < k) (xs : List Int) :
    (xs.map (· / k)).sum ≤ xs.sum / k ∧
      xs.sum / k ≤ (xs.map (· / k)).sum + (xs.length - 1 : ℕ) := by
  obtain ⟨hnonneg, hle⟩ := sum_emod_bounds hk xs
  have hdiv : xs.sum / k = (xs.map (· / k)).sum + (xs.map (· % k)).sum / k := by
    conv_lhs => rw [sum_eq_mul_add_sum_emod k xs]
    rw [add_comm, Int.add_mul_ediv_left _ _ hk.ne', add_comm]
  have hlost : (xs.map (· % k)).sum / k ≤ (xs.length - 1 : ℕ) := by
    cases xs with
    | nil => simp
    | cons x xs =>
        have hlt : ((x :: xs).map (· % k)).sum / k < (x :: xs).length := by
          rw [Int.ediv_lt_iff_lt_mul hk, mul_comm]
          have hpos : (0 : Int) < (x :: xs).length := Int.natCast_pos.mpr (Nat.succ_pos _)
          linarith
        rw [List.length_cons] at hlt ⊢
        omega
  have hkept := Int.ediv_nonneg hnonneg hk.le
  constructor <;> linarith

end Lists

section Maps

variable {κ α M : Type*} [AddCommMonoid M]

/-- The weights of a map's entries, added up. -/
def total (w : κ → α → M) (m : AList fun _ : κ => α) : M := (m.entries.map fun e => w e.1 e.2).sum

variable (w : κ → α → M)

@[simp] theorem total_empty : total w (∅ : AList fun _ : κ => α) = 0 := rfl

variable [DecidableEq κ]

/-- Erasing a key takes away what its entry weighs. -/
theorem total_erase (m : AList fun _ : κ => α) (k : κ) :
    total w m = total w (m.erase k) + (m.lookup k).elim 0 (w k) := by
  have hentries : (m.erase k).entries = m.entries.kerase k := rfl
  cases hlookup : m.lookup k with
  | none =>
      have hkey : k ∉ m.entries.keys := AList.lookup_eq_none.mp hlookup
      rw [total, total, hentries, List.kerase_of_notMem_keys hkey, Option.elim_none, add_zero]
  | some v =>
      have hmem : k ∈ m := AList.lookup_isSome.mp (by rw [hlookup]; rfl)
      obtain ⟨v', before, after, hbefore, hsplit, herased⟩ := List.exists_of_kerase hmem
      -- the entry that is erased is the one that is looked up
      have hv : (⟨k, v⟩ : Sigma fun _ : κ => α) = ⟨k, v'⟩ := by
        refine List.NodupKeys.eq_of_fst_eq m.nodupKeys ?_ ?_ rfl
        · exact AList.mem_lookup_iff.mp hlookup
        · rw [hsplit]
          simp
      obtain rfl : v = v' := eq_of_heq (Sigma.mk.inj hv).2
      rw [total, total, hentries, herased, hsplit]
      simp only [List.map_append, List.map_cons, List.sum_append, List.sum_cons, Option.elim_some]
      rw [add_assoc, add_comm (w k v)]

theorem total_insert (m : AList fun _ : κ => α) (k : κ) (v : α) :
    total w (m.insert k v) = w k v + total w (m.erase k) := by
  rw [total, AList.entries_insert, List.map_cons, List.sum_cons]
  rfl

/-- The entries of a map, each reduced to a key and a weight, are determined by
the lookups. -/
theorem total_congr_lookup {m m' : AList fun _ : κ => α}
    (h : ∀ k, (m.lookup k).map (w k) = (m'.lookup k).map (w k)) : total w m = total w m' := by
  have hmem : ∀ {n : AList fun _ : κ => α} {k : κ} {x : M},
      (k, x) ∈ n.entries.map (fun e => (e.1, w e.1 e.2)) ↔ (n.lookup k).map (w k) = some x := by
    intro n k x
    rw [List.mem_map, Option.map_eq_some_iff]
    constructor
    · rintro ⟨⟨k', v⟩, hentry, hpair⟩
      obtain ⟨rfl, rfl⟩ := Prod.mk.inj hpair
      exact ⟨v, AList.mem_lookup_iff.mpr hentry, rfl⟩
    · rintro ⟨v, hlookup, rfl⟩
      exact ⟨⟨k, v⟩, AList.mem_lookup_iff.mp hlookup, rfl⟩
  have hnodup : ∀ n : AList fun _ : κ => α, (n.entries.map fun e => (e.1, w e.1 e.2)).Nodup := by
    intro n
    refine List.Nodup.of_map Prod.fst ?_
    rw [List.map_map]
    exact n.nodupKeys
  have hperm : (m.entries.map fun e => (e.1, w e.1 e.2)).Perm
      (m'.entries.map fun e => (e.1, w e.1 e.2)) := by
    refine (List.perm_ext_iff_of_nodup (hnodup m) (hnodup m')).mpr ?_
    rintro ⟨k, x⟩
    rw [hmem, hmem, h k]
  have hsum := (hperm.map Prod.snd).sum_eq
  rw [List.map_map, List.map_map] at hsum
  exact hsum

end Maps

end Sums
