import Mathlib

/-!
# OmarchyKids.Lib.ByteStream

A byte stream as a buffered reader meets it: the chunks that are still to
arrive, and whether they are followed by the end of the input or by an I/O
error. `fill` is `Read::take(limit)` followed by `BufRead::read_until(delim)`:
it works chunk by chunk, so a line may arrive in any number of pieces.

Everything about `fill` is read off the unchunked reader `cut`, which takes one
byte at a time: `fill_fst` and `fill_rest` say that the split into chunks never
matters.
-/

namespace ByteStream

/-! ### The unchunked reader -/

/-- The bytes up to and including the first `delim`, at most `limit` of them. -/
def cut (delim : UInt8) : Nat → List UInt8 → List UInt8
  | 0, _ => []
  | _ + 1, [] => []
  | limit + 1, b :: bs => if b = delim then [b] else b :: cut delim limit bs

@[simp] theorem cut_zero (d : UInt8) (bs : List UInt8) : cut d 0 bs = [] := by
  cases bs <;> rfl

@[simp] theorem cut_nil (d : UInt8) (n : Nat) : cut d n [] = [] := by
  cases n <;> rfl

theorem cut_cons (d : UInt8) (n : Nat) (b : UInt8) (bs : List UInt8) :
    cut d (n + 1) (b :: bs) = if b = d then [b] else b :: cut d n bs := rfl

theorem length_cut_le (d : UInt8) (n : Nat) (bs : List UInt8) : (cut d n bs).length ≤ n := by
  induction bs generalizing n with
  | nil => simp
  | cons b bs ih =>
      cases n with
      | zero => simp
      | succ n =>
          rw [cut_cons]
          split
          · simp
          · simpa using ih n

/-- The cut is a prefix of the stream. -/
theorem cut_initial (d : UInt8) (n : Nat) (bs : List UInt8) : cut d n bs <+: bs := by
  induction bs generalizing n with
  | nil => simp
  | cons b bs ih =>
      cases n with
      | zero => simp
      | succ n =>
          rw [cut_cons]
          split
          · exact ⟨bs, rfl⟩
          · exact List.cons_prefix_cons.mpr ⟨rfl, ih n⟩

/-- Reading across a boundary: unless the first part already holds the
delimiter, the second part is read with what is left of the limit. -/
theorem cut_append (d : UInt8) (n : Nat) (as bs : List UInt8) :
    cut d n (as ++ bs) =
      if d ∈ cut d n as then cut d n as
      else cut d n as ++ cut d (n - (cut d n as).length) bs := by
  induction as generalizing n with
  | nil => simp
  | cons a as ih =>
      cases n with
      | zero => simp
      | succ n =>
          rw [List.cons_append, cut_cons, cut_cons]
          by_cases ha : a = d
          · simp [ha]
          · have hda : ¬ d = a := fun h => ha h.symm
            rw [if_neg ha, if_neg ha, ih n]
            simp only [List.mem_cons, hda, false_or, List.length_cons, Nat.add_sub_add_right]
            split
            · rfl
            · rw [List.cons_append]

/-- A first part that ends the reading is all that is read. -/
theorem cut_append_of_stop {d : UInt8} {n : Nat} {as : List UInt8}
    (h : d ∈ cut d n as ∨ (cut d n as).length = n) (bs : List UInt8) :
    cut d n (as ++ bs) = cut d n as := by
  rw [cut_append]
  split
  · rfl
  · next hd => rw [h.resolve_left hd, Nat.sub_self, cut_zero, List.append_nil]

/-- A line that ends with the delimiter is read whole if it fits, and is
truncated at the limit otherwise. -/
theorem cut_line {d : UInt8} {line : List UInt8} (h : d ∉ line) (n : Nat) (rest : List UInt8) :
    cut d n (line ++ d :: rest) = if line.length < n then line ++ [d] else line.take n := by
  induction line generalizing n with
  | nil => cases n <;> simp [cut_cons]
  | cons a as ih =>
      obtain ⟨ha, has⟩ : d ≠ a ∧ d ∉ as := by simpa using h
      cases n with
      | zero => simp
      | succ n =>
          rw [List.cons_append, cut_cons, if_neg (Ne.symm ha), ih has n]
          simp only [List.length_cons, Nat.add_lt_add_iff_right, List.take_succ_cons]
          split <;> simp

/-- Input without a delimiter is read up to the limit. -/
theorem cut_unterminated {d : UInt8} {bs : List UInt8} (h : d ∉ bs) (n : Nat) :
    cut d n bs = bs.take n := by
  induction bs generalizing n with
  | nil => simp
  | cons a as ih =>
      obtain ⟨ha, has⟩ : d ≠ a ∧ d ∉ as := by simpa using h
      cases n with
      | zero => simp
      | succ n => rw [cut_cons, if_neg (Ne.symm ha), ih has n, List.take_succ_cons]

/-- The delimiter is read if it stands within the limit. -/
theorem mem_cut_iff {d : UInt8} {n : Nat} {bs : List UInt8} : d ∈ cut d n bs ↔ d ∈ bs.take n := by
  induction bs generalizing n with
  | nil => simp
  | cons b bs ih =>
      cases n with
      | zero => simp
      | succ n =>
          rw [cut_cons, List.take_succ_cons, List.mem_cons]
          by_cases hb : b = d
          · simp [hb]
          · rw [if_neg hb, List.mem_cons, ih]

/-- Reading stops at the limit if there is that much before any delimiter. -/
theorem length_cut_iff {d : UInt8} {n : Nat} {bs : List UInt8} (h : d ∉ cut d n bs) :
    (cut d n bs).length = n ↔ n ≤ bs.length := by
  induction bs generalizing n with
  | nil => cases n <;> simp
  | cons b bs ih =>
      cases n with
      | zero => simp
      | succ n =>
          rw [cut_cons] at h ⊢
          by_cases hb : b = d
          · simp [hb] at h
          · rw [if_neg hb, List.mem_cons, not_or] at h
            rw [if_neg hb, List.length_cons, List.length_cons, Nat.add_right_cancel_iff, ih h.2,
              Nat.add_le_add_iff_right]

/-- What has been cut once is not cut any shorter. -/
theorem cut_cut (d : UInt8) (n : Nat) (bs : List UInt8) : cut d n (cut d n bs) = cut d n bs := by
  induction bs generalizing n with
  | nil => simp
  | cons b bs ih =>
      cases n with
      | zero => simp
      | succ n =>
          rw [cut_cons]
          by_cases hb : b = d
          · simp [hb, cut_cons]
          · rw [if_neg hb, cut_cons, if_neg hb, ih]

/-! ### Lines -/

/-- The bytes up to and including the first `delim`, or all of them. -/
def line (delim : UInt8) : List UInt8 → List UInt8
  | [] => []
  | b :: bs => if b = delim then [b] else b :: line delim bs

/-- A limit cuts the line short. -/
theorem cut_eq_take (d : UInt8) (n : Nat) (bs : List UInt8) : cut d n bs = (line d bs).take n := by
  induction bs generalizing n with
  | nil => simp [line]
  | cons b bs ih =>
      cases n with
      | zero => simp
      | succ n =>
          rw [cut_cons, line]
          split
          · simp
          · rw [ih, List.take_succ_cons]

theorem line_eq_nil_iff {d : UInt8} {bs : List UInt8} : line d bs = [] ↔ bs = [] := by
  cases bs with
  | nil => simp [line]
  | cons b bs =>
      rw [line]
      split <;> simp

/-- The first line of a stream that begins with a terminated one. -/
theorem line_append {d : UInt8} {bs : List UInt8} (h : d ∉ bs) (rest : List UInt8) :
    line d (bs ++ d :: rest) = bs ++ [d] := by
  induction bs with
  | nil => simp [line]
  | cons b bs ih =>
      rw [List.mem_cons, not_or] at h
      rw [List.cons_append, line, if_neg (Ne.symm h.1), ih h.2, List.cons_append]

/-- A line ends with its delimiter, or has none. -/
theorem line_spec (d : UInt8) (bs : List UInt8) :
    (∃ front, line d bs = front ++ [d] ∧ d ∉ front) ∨ d ∉ line d bs := by
  induction bs with
  | nil => exact .inr List.not_mem_nil
  | cons b bs ih =>
      rw [line]
      by_cases hb : b = d
      · subst hb
        rw [if_pos rfl]
        exact .inl ⟨[], rfl, List.not_mem_nil⟩
      · rw [if_neg hb]
        rcases ih with ⟨front, hfront, hd⟩ | hd
        · refine .inl ⟨b :: front, by rw [hfront, List.cons_append], ?_⟩
          rw [List.mem_cons, not_or]
          exact ⟨Ne.symm hb, hd⟩
        · refine .inr ?_
          rw [List.mem_cons, not_or]
          exact ⟨Ne.symm hb, hd⟩

/-! ### The chunked reader -/

/-- `take(limit).read_until(delim)` over the chunks of a stream: the bytes read,
the chunks left, and whether the reader ran out of chunks while it still wanted
more. -/
def fill (delim : UInt8) : Nat → List (List UInt8) → List UInt8 × List (List UInt8) × Bool
  | 0, chunks => ([], chunks, false)
  | _ + 1, [] => ([], [], true)
  | limit + 1, chunk :: chunks =>
      let got := cut delim (limit + 1) chunk
      if delim ∈ got ∨ got.length = limit + 1 then
        (got, chunk.drop got.length :: chunks, false)
      else
        let more := fill delim (limit + 1 - got.length) chunks
        (got ++ more.1, more.2)

/-- How a stream is split into chunks does not change what is read. -/
theorem fill_fst (d : UInt8) (n : Nat) (chunks : List (List UInt8)) :
    (fill d n chunks).1 = cut d n chunks.flatten := by
  fun_induction fill d n chunks with
  | case1 chunks => simp
  | case2 n => simp
  | case3 n chunk chunks got hgot => exact (cut_append_of_stop hgot _).symm
  | case4 n chunk chunks got hgot more ih =>
      rw [List.flatten_cons, cut_append, if_neg (not_or.mp hgot).1, ← ih]

/-- A chunk that was read without meeting the delimiter or the limit was read to
its end. -/
theorem cut_eq_self {d : UInt8} {n : Nat} {bs : List UInt8} (hd : d ∉ cut d n bs)
    (hl : (cut d n bs).length ≠ n) : cut d n bs = bs := by
  induction bs generalizing n with
  | nil => simp
  | cons b bs ih =>
      cases n with
      | zero => simp at hl
      | succ n =>
          rw [cut_cons] at hd hl ⊢
          by_cases hb : b = d
          · simp [hb] at hd
          · simp only [if_neg hb, List.mem_cons, not_or, List.length_cons] at hd hl ⊢
            rw [ih hd.2 (by omega)]

/-- What is left on the stream is what follows the bytes read. -/
theorem fill_rest (d : UInt8) (n : Nat) (chunks : List (List UInt8)) :
    (fill d n chunks).2.1.flatten = chunks.flatten.drop (cut d n chunks.flatten).length := by
  fun_induction fill d n chunks with
  | case1 chunks => simp
  | case2 n => simp
  | case3 n chunk chunks got hgot =>
      have hle : got.length ≤ chunk.length := (cut_initial d (n + 1) chunk).length_le
      rw [List.flatten_cons, List.flatten_cons, cut_append_of_stop hgot,
        List.drop_append_of_le_length hle]
  | case4 n chunk chunks got hgot more ih =>
      obtain ⟨hd, hl⟩ := not_or.mp hgot
      have hself : cut d (n + 1) chunk = chunk := cut_eq_self hd hl
      rw [ih, List.flatten_cons, cut_append, if_neg hd, List.length_append, ← List.drop_drop,
        hself, List.drop_left, show got = chunk from hself]

/-- The reader runs out of chunks exactly when it has read everything there is
without meeting the delimiter or the limit. -/
theorem fill_end (d : UInt8) (n : Nat) (chunks : List (List UInt8)) :
    (fill d n chunks).2.2 = true ↔
      d ∉ cut d n chunks.flatten ∧ (cut d n chunks.flatten).length ≠ n := by
  fun_induction fill d n chunks with
  | case1 chunks => simp
  | case2 n => simp
  | case3 n chunk chunks got hgot =>
      rw [List.flatten_cons, cut_append_of_stop hgot]
      refine iff_of_false Bool.false_ne_true fun hgoes => ?_
      exact hgot.elim hgoes.1 hgoes.2
  | case4 n chunk chunks got hgot more ih =>
      obtain ⟨hd, hl⟩ := not_or.mp hgot
      have hle : got.length ≤ n + 1 := length_cut_le d (n + 1) chunk
      rw [ih, List.flatten_cons, cut_append, if_neg hd, List.mem_append, or_iff_right hd,
        List.length_append]
      refine and_congr_right fun _ => not_congr ?_
      show _ = n + 1 - got.length ↔ got.length + (cut d (n + 1 - got.length) _).length = n + 1
      omega

end ByteStream
