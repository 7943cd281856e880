import Mathlib

/-!
# OmarchyKids.Lib.KeyedList

"Replace the first element with the same key, or append": the update that keeps
a list of records one per key and in the order their keys first appeared. And the
loop that keeps the first element of each key and drops the others.
-/

namespace KeyedList

variable {α β κ : Type*} [DecidableEq κ]

/-- Puts `x` in the place of the first element with its key, or at the end. -/
def put (key : α → κ) (x : α) : List α → List α
  | [] => [x]
  | y :: ys => if key y = key x then x :: ys else y :: put key x ys

variable {key : α → κ}

/-- The new element is there, and every element of another key. -/
theorem mem_put {x y : α} {xs : List α} :
    (y = x ∨ (y ∈ xs ∧ key y ≠ key x)) → y ∈ put key x xs := by
  induction xs with
  | nil => simp [put]
  | cons z zs ih =>
      intro h
      by_cases hz : key z = key x
      · rcases h with rfl | ⟨hy, hne⟩
        · simp [put, hz]
        · have : y ≠ z := fun heq => hne (heq ▸ hz)
          simp_all [put]
      · rcases h with rfl | ⟨hy, hne⟩
        · simp [put, hz, ih (.inl rfl)]
        · rcases List.mem_cons.mp hy with rfl | hy
          · simp [put, hz]
          · simp [put, hz, ih (.inr ⟨hy, hne⟩)]

/-- Nothing else is there, if the keys were distinct. -/
theorem mem_of_mem_put {x y : α} {xs : List α} (hnodup : (xs.map key).Nodup)
    (h : y ∈ put key x xs) : y = x ∨ (y ∈ xs ∧ key y ≠ key x) := by
  induction xs with
  | nil => simpa [put] using h
  | cons z zs ih =>
      rw [List.map_cons, List.nodup_cons] at hnodup
      by_cases hz : key z = key x
      · rw [put, if_pos hz] at h
        rcases List.mem_cons.mp h with rfl | hy
        · exact .inl rfl
        · -- a second element of the replaced key is excluded by distinctness
          refine .inr ⟨List.mem_cons_of_mem _ hy, fun heq => hnodup.1 ?_⟩
          exact List.mem_map.mpr ⟨y, hy, heq.trans hz.symm⟩
      · rw [put, if_neg hz] at h
        rcases List.mem_cons.mp h with rfl | hy
        · exact .inr ⟨List.mem_cons_self, hz⟩
        · rcases ih hnodup.2 hy with rfl | ⟨hmem, hne⟩
          · exact .inl rfl
          · exact .inr ⟨List.mem_cons_of_mem _ hmem, hne⟩

/-- The keys stay as they are, or the new one comes last. -/
theorem map_put_key (x : α) (xs : List α) :
    (put key x xs).map key =
      if key x ∈ xs.map key then xs.map key else xs.map key ++ [key x] := by
  induction xs with
  | nil => simp [put]
  | cons z zs ih =>
      by_cases hz : key z = key x
      · simp [put, hz]
      · have hz' : key x ≠ key z := fun h => hz h.symm
        by_cases hmem : key x ∈ zs.map key
        · simp only [put, hz, if_false, List.map_cons, ih, hmem, if_true, List.mem_cons,
            hz', false_or]
        · simp only [put, hz, if_false, List.map_cons, ih, hmem, List.mem_cons, hz', false_or,
            List.cons_append]

theorem nodup_put (x : α) {xs : List α} (h : (xs.map key).Nodup) :
    ((put key x xs).map key).Nodup := by
  rw [map_put_key]
  split
  · exact h
  · next hfresh =>
      rw [← List.concat_eq_append]
      exact h.concat hfresh

/-- A projection that keeps the key commutes with the update. -/
theorem map_put {key' : β → κ} {f : α → β} (hf : ∀ a, key' (f a) = key a) (x : α)
    (xs : List α) : (put key x xs).map f = put key' (f x) (xs.map f) := by
  induction xs with
  | nil => rfl
  | cons z zs ih =>
      simp only [put, List.map_cons, hf]
      split
      · rfl
      · rw [List.map_cons, ih]

/-- The list read as a map: the new element under its key, nothing else changed. -/
theorem find?_put (x : α) (xs : List α) (k : κ) :
    (put key x xs).find? (key · = k) = if key x = k then some x else xs.find? (key · = k) := by
  induction xs with
  | nil => rw [put, List.find?_singleton]; simp
  | cons z zs ih =>
      by_cases hz : key z = key x
      · rw [put, if_pos hz]
        by_cases hk : key x = k
        · rw [if_pos hk, List.find?_cons_of_pos (by simpa using hk)]
        · rw [if_neg hk, List.find?_cons_of_neg (by simpa using hk),
            List.find?_cons_of_neg (by simpa [hz] using hk)]
      · rw [put, if_neg hz]
        by_cases hk : key z = k
        · rw [List.find?_cons_of_pos (by simpa using hk),
            List.find?_cons_of_pos (by simpa using hk), if_neg fun h => hz (hk.trans h.symm)]
        · rw [List.find?_cons_of_neg (by simpa using hk),
            List.find?_cons_of_neg (by simpa using hk), ih]

/-- The elements of the other keys, and their order. -/
theorem filter_put (x : α) (xs : List α) :
    (put key x xs).filter (key · ≠ key x) = xs.filter (key · ≠ key x) := by
  induction xs with
  | nil => simp [put]
  | cons z zs ih =>
      by_cases hz : key z = key x
      · simp [put, hz]
      · rw [put, if_neg hz, List.filter_cons_of_pos (by simpa using hz),
          List.filter_cons_of_pos (by simpa using hz), ih]

/-! ### Several updates -/

/-- Puts the elements in one after the other. -/
def putAll (key : α → κ) (new xs : List α) : List α := new.foldl (fun xs x => put key x xs) xs

/-- The elements that no later one of the same key replaces. -/
def lasts (key : α → κ) : List α → List α
  | [] => []
  | x :: xs => if key x ∈ xs.map key then lasts key xs else x :: lasts key xs

theorem nodup_putAll (new : List α) {xs : List α} (h : (xs.map key).Nodup) :
    ((putAll key new xs).map key).Nodup := by
  induction new generalizing xs with
  | nil => exact h
  | cons x new ih => exact ih (nodup_put x h)

/-- What is there after several updates: the last new element of a key, or an old
one whose key no new element has. -/
theorem mem_of_mem_putAll {y : α} {new xs : List α} (hnodup : (xs.map key).Nodup)
    (h : y ∈ putAll key new xs) : y ∈ lasts key new ∨ (y ∈ xs ∧ key y ∉ new.map key) := by
  induction new generalizing xs with
  | nil => exact .inr ⟨h, by simp⟩
  | cons x new ih =>
      rcases ih (nodup_put x hnodup) h with hlast | ⟨hput, hfresh⟩
      · left
        rw [lasts]
        split
        · exact hlast
        · exact List.mem_cons_of_mem _ hlast
      · rcases mem_of_mem_put hnodup hput with rfl | ⟨hold, hne⟩
        · left
          rw [lasts, if_neg hfresh]
          exact List.mem_cons_self
        · right
          refine ⟨hold, ?_⟩
          rw [List.map_cons, List.mem_cons, not_or]
          exact ⟨hne, hfresh⟩

/-- Both kinds are there. -/
theorem mem_putAll {y : α} {new xs : List α}
    (h : y ∈ lasts key new ∨ (y ∈ xs ∧ key y ∉ new.map key)) : y ∈ putAll key new xs := by
  induction new generalizing xs with
  | nil =>
      rcases h with h | h
      · cases h
      · exact h.1
  | cons x new ih =>
      show y ∈ putAll key new (put key x xs)
      refine ih ?_
      rcases h with hlast | ⟨hold, hkey⟩
      · rw [lasts] at hlast
        split at hlast
        · exact .inl hlast
        · next hfresh =>
            rcases List.mem_cons.mp hlast with rfl | hlast
            · exact .inr ⟨mem_put (.inl rfl), hfresh⟩
            · exact .inl hlast
      · rw [List.map_cons, List.mem_cons, not_or] at hkey
        exact .inr ⟨mem_put (.inr ⟨hold, hkey.1⟩), hkey.2⟩

/-- The last new element of a key, or the old one. -/
theorem find?_putAll (new xs : List α) (k : κ) :
    (putAll key new xs).find? (key · = k) =
      (new.reverse.find? (key · = k)).or (xs.find? (key · = k)) := by
  induction new generalizing xs with
  | nil => rfl
  | cons x new ih =>
      show (putAll key new (put key x xs)).find? (key · = k) = _
      rw [ih, find?_put, List.reverse_cons, List.find?_append, Option.or_assoc]
      congr 1
      by_cases hk : key x = k
      · rw [if_pos hk, List.find?_cons_of_pos (by simpa using hk), Option.some_or]
      · rw [if_neg hk, List.find?_cons_of_neg (by simpa using hk), List.find?_nil, Option.none_or]

/-- The keys stand in the order in which they first appeared. -/
theorem map_putAll_key (new : List α) {xs : List α} (h : (xs.map key).Nodup) :
    (putAll key new xs).map key = (xs.map key ++ new.map key).eraseDups := by
  have hnodup : ∀ {ks : List κ}, ks.Nodup → ks.eraseDups = ks := by
    intro ks hks
    induction ks with
    | nil => rfl
    | cons k ks ih =>
        rw [List.nodup_cons] at hks
        rw [List.eraseDups_cons, List.filter_eq_self.mpr, ih hks.2]
        intro j hj
        have hne : j ≠ k := fun heq => hks.1 (heq ▸ hj)
        simpa using hne
  induction new generalizing xs with
  | nil => rw [List.map_nil, List.append_nil, hnodup h]; rfl
  | cons x new ih =>
      show (putAll key new (put key x xs)).map key = _
      rw [ih (nodup_put x h), map_put_key]
      by_cases hmem : key x ∈ xs.map key
      · rw [if_pos hmem, List.eraseDups_append, List.eraseDups_append, List.map_cons,
          List.cons_removeAll, if_neg (by simpa using hmem)]
      · rw [if_neg hmem, List.append_assoc, List.singleton_append, List.map_cons]

theorem map_putAll {key' : β → κ} {f : α → β} (hf : ∀ a, key' (f a) = key a) (new xs : List α) :
    (putAll key new xs).map f = putAll key' (new.map f) (xs.map f) := by
  induction new generalizing xs with
  | nil => rfl
  | cons x new ih =>
      show (putAll key new (put key x xs)).map f = _
      rw [ih, map_put hf]
      rfl

theorem lasts_map {key' : β → κ} {f : α → β} (hf : ∀ a, key' (f a) = key a) (xs : List α) :
    lasts key' (xs.map f) = (lasts key xs).map f := by
  induction xs with
  | nil => rfl
  | cons x xs ih =>
      have hkeys : (xs.map f).map key' = xs.map key := by
        simp [Function.comp_def, hf]
      simp only [lasts, List.map_cons, hf, hkeys, ih]
      split <;> rfl

/-! ### First occurrences -/

/-- One turn of the loop; beside its result it remembers the keys it has met. -/
def pushFirst (key : α → κ) (acc : List κ × List α) (x : α) : List κ × List α :=
  if key x ∈ acc.1 then acc else (key x :: acc.1, acc.2 ++ [x])

/-- The first element of each key. -/
def firsts (key : α → κ) (xs : List α) : List α := (xs.foldl (pushFirst key) ([], [])).2

/-- The loop remembers exactly the keys of its result. -/
theorem foldl_pushFirst (xs : List α) {acc : List κ × List α}
    (hseen : acc.1.reverse = acc.2.map key) (hnodup : (acc.2.map key).Nodup) :
    ((xs.foldl (pushFirst key) acc).2.map key).Nodup ∧
      ∀ k, k ∈ (xs.foldl (pushFirst key) acc).2.map key ↔ k ∈ acc.2.map key ∨ k ∈ xs.map key := by
  induction xs generalizing acc with
  | nil => exact ⟨hnodup, fun k => by simp⟩
  | cons x xs ih =>
      have hmem : key x ∈ acc.1 ↔ key x ∈ acc.2.map key := by rw [← hseen, List.mem_reverse]
      rw [List.foldl_cons]
      by_cases hx : key x ∈ acc.1
      · obtain ⟨hnodup', hkeys⟩ := ih hseen hnodup
        rw [pushFirst, if_pos hx]
        refine ⟨hnodup', fun k => ?_⟩
        rw [hkeys, List.map_cons, List.mem_cons]
        refine or_congr_right' fun hold => ⟨.inr, ?_⟩
        rintro (rfl | hk)
        · exact absurd (hmem.mp hx) hold
        · exact hk
      · rw [pushFirst, if_neg hx]
        have hfresh : ((acc.2 ++ [x]).map key).Nodup := by
          rw [List.map_append, List.map_singleton, ← List.concat_eq_append]
          exact hnodup.concat (mt hmem.mpr hx)
        obtain ⟨hnodup', hkeys⟩ := @ih (key x :: acc.1, acc.2 ++ [x]) (by simp [hseen]) hfresh
        refine ⟨hnodup', fun k => ?_⟩
        rw [hkeys]
        simp only [List.map_append, List.map_cons, List.map_nil, List.mem_append, List.mem_cons,
          List.not_mem_nil, or_false, or_assoc]

theorem nodup_firsts (xs : List α) : ((firsts key xs).map key).Nodup :=
  (@foldl_pushFirst _ _ _ key xs ([], []) rfl List.nodup_nil).1

theorem mem_map_firsts {xs : List α} {k : κ} : k ∈ (firsts key xs).map key ↔ k ∈ xs.map key := by
  rw [firsts, (@foldl_pushFirst _ _ _ key xs ([], []) rfl List.nodup_nil).2]
  simp

end KeyedList
