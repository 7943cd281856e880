import Mathlib

/-!
# OmarchyKids.Lib.Digits

Decimal numbers on a fixed number of digits, and the order of texts made of
them. Texts are compared character by character, as lists.

`pad_append_lt_iff` is the reason why timestamps are written with leading zeros:
where two texts begin with numbers on equally many digits, the texts are ordered
as the numbers are, and what follows decides only between equal numbers.
-/

namespace Digits

/-- A number in decimal, on `width` digits. -/
def pad : Nat → Nat → List Char
  | 0, _ => []
  | width + 1, n => pad width (n / 10) ++ [Nat.digitChar (n % 10)]

@[simp] theorem length_pad (width n : Nat) : (pad width n).length = width := by
  induction width generalizing n with
  | zero => rfl
  | succ width ih => simp [pad, ih]

/-- A long number is its leading digits followed by the others. -/
theorem pad_add (v w n : Nat) : pad (v + w) n = pad v (n / 10 ^ w) ++ pad w (n % 10 ^ w) := by
  induction w generalizing n with
  | zero => simp [pad]
  | succ w ih =>
      have hlead : n / 10 ^ (w + 1) = n / 10 / 10 ^ w := by
        rw [Nat.pow_succ, Nat.mul_comm, Nat.div_div_eq_div_mul]
      have hrest : n % 10 ^ (w + 1) / 10 = n / 10 % 10 ^ w := by
        rw [Nat.pow_succ, Nat.mul_comm, Nat.mod_mul_right_div_self]
      have hlast : n % 10 ^ (w + 1) % 10 = n % 10 :=
        Nat.mod_mod_of_dvd n (Nat.dvd_trans (Nat.dvd_refl 10) ⟨10 ^ w, by rw [Nat.pow_succ, Nat.mul_comm]⟩)
      rw [← Nat.add_assoc, pad, ih, hlead, pad, hrest, hlast, List.append_assoc]

/-! ### Lexicographic order -/

/-- Texts that begin with equally long parts. -/
theorem append_lt_append_iff {p q x y : List Char} (h : p.length = q.length) :
    p ++ x < q ++ y ↔ p < q ∨ p = q ∧ x < y := by
  induction p generalizing q with
  | nil =>
      obtain rfl : q = [] := List.eq_nil_of_length_eq_zero h.symm
      simp
  | cons a p ih =>
      cases q with
      | nil => simp at h
      | cons b q =>
          have hlen : p.length = q.length := by simpa using h
          simp only [List.cons_append, List.cons_lt_cons_iff, ih hlen, List.cons.injEq]
          constructor
          · rintro (hab | ⟨rfl, hpq | ⟨rfl, hxy⟩⟩)
            · exact .inl (.inl hab)
            · exact .inl (.inr ⟨rfl, hpq⟩)
            · exact .inr ⟨⟨rfl, rfl⟩, hxy⟩
          · rintro ((hab | ⟨rfl, hpq⟩) | ⟨⟨rfl, rfl⟩, hxy⟩)
            · exact .inl hab
            · exact .inr ⟨rfl, .inl hpq⟩
            · exact .inr ⟨rfl, .inr ⟨rfl, hxy⟩⟩

/-- Texts that begin with the same character. -/
theorem cons_lt_cons_self_iff {c : Char} {x y : List Char} : c :: x < c :: y ↔ x < y := by
  simp

theorem digitChar_lt_iff : ∀ a < 10, ∀ b < 10, Nat.digitChar a < Nat.digitChar b ↔ a < b := by
  decide

theorem digitChar_eq_iff : ∀ a < 10, ∀ b < 10, Nat.digitChar a = Nat.digitChar b ↔ a = b := by
  decide

theorem pad_eq_iff {width m n : Nat} (hm : m < 10 ^ width) (hn : n < 10 ^ width) :
    pad width m = pad width n ↔ m = n := by
  induction width generalizing m n with
  | zero =>
      rw [Nat.pow_zero] at hm hn
      simp only [pad, true_iff]
      omega
  | succ width ih =>
      rw [Nat.pow_succ] at hm hn
      have hdiv := ih (m := m / 10) (n := n / 10) (by omega) (by omega)
      have hmod := digitChar_eq_iff (m % 10) (by omega) (n % 10) (by omega)
      rw [pad, pad]
      constructor
      · intro h
        obtain ⟨hinit, hlast⟩ := List.append_inj h (by simp)
        have h1 := hdiv.mp hinit
        have h2 := hmod.mp (by simpa using hlast)
        omega
      · rintro rfl
        rfl

/-- The order of two padded numbers is that of the numbers. -/
theorem pad_lt_iff {width m n : Nat} (hm : m < 10 ^ width) (hn : n < 10 ^ width) :
    pad width m < pad width n ↔ m < n := by
  induction width generalizing m n with
  | zero =>
      rw [Nat.pow_zero] at hm hn
      simp only [pad, List.not_lt_nil, false_iff]
      omega
  | succ width ih =>
      rw [Nat.pow_succ] at hm hn
      have hlt := ih (m := m / 10) (n := n / 10) (by omega) (by omega)
      have heq : pad width (m / 10) = pad width (n / 10) ↔ m / 10 = n / 10 :=
        pad_eq_iff (by omega) (by omega)
      have hmod := digitChar_lt_iff (m % 10) (by omega) (n % 10) (by omega)
      rw [pad, pad, append_lt_append_iff (by simp), hlt, heq, List.cons_lt_cons_iff, hmod]
      simp only [List.not_lt_nil, and_false, or_false]
      omega

/-- Texts that begin with numbers on equally many digits. -/
theorem pad_append_lt_iff {width m n : Nat} {x y : List Char} (hm : m < 10 ^ width)
    (hn : n < 10 ^ width) : pad width m ++ x < pad width n ++ y ↔ m < n ∨ m = n ∧ x < y := by
  rw [append_lt_append_iff (by simp), pad_lt_iff hm hn, pad_eq_iff hm hn]

/-- A digit comes after every character that comes before `'0'`. -/
theorem lt_pad_append {c : Char} (hc : c < '0') (width n : Nat) (x y : List Char) :
    c :: x < pad (width + 1) n ++ y := by
  have hdigit : ∀ d < 10, '0' ≤ Nat.digitChar d := by decide
  induction width generalizing n y with
  | zero =>
      simp only [pad, List.nil_append, List.cons_append, List.cons_lt_cons_iff]
      exact .inl (Nat.lt_of_lt_of_le hc (hdigit _ (Nat.mod_lt _ (by decide))))
  | succ width ih =>
      rw [pad, List.append_assoc]
      exact ih _ _

/-- Texts that may stop early: one that stops comes before one that goes on. -/
theorem optional_lt_iff {stop x y : List Char} {a b : Prop} [Decidable a] [Decidable b]
    (hx : stop < x) (hy : stop < y) :
    (if a then stop else x) < (if b then stop else y) ↔ a ∧ ¬ b ∨ ¬ a ∧ ¬ b ∧ x < y := by
  by_cases ha : a <;> by_cases hb : b
  · have hirrefl : ¬ stop < stop := List.lt_irrefl stop
    simp only [ha, hb, if_true, hirrefl, not_true_eq_false, and_false, false_and, or_false]
  · simp [ha, hb, hy]
  · have hasymm : ¬ x < stop := List.lt_asymm hx
    simp [ha, hb, hasymm]
  · simp [ha, hb]

end Digits
