import Mathlib

/-!
# OmarchyKids.Lib.Circle

Half-open arcs on a circle of whole numbers, such as the times of a week.
Positions are integers modulo the period. An arc is given by where it begins and
how long it is: a position lies in it if going forward from its beginning one
comes to the position within the length.

The circle may be cut into equal units, such as weekdays. An arc is then often
written as two offsets, with the second one in the next unit when it is the
smaller one. `inArc_units_iff` is the reading of such an arc unit by unit.
-/

namespace Circle

variable {period start length x : Int}

/-- How far it is from `start` forward to `x`. -/
def ahead (period start x : Int) : Int := (x - start) % period

/-- The position `x` lies in the arc of the given length that begins at `start`. -/
def InArc (period start length x : Int) : Prop := ahead period start x < length

instance (period start length x : Int) : Decidable (InArc period start length x) :=
  inferInstanceAs (Decidable (_ < _))

theorem ahead_eq {distance laps : Int} (h : x - start = distance + period * laps)
    (hnonneg : 0 ≤ distance) (hlt : distance < period) : ahead period start x = distance := by
  rw [ahead, h, Int.add_mul_emod_self_left, Int.emod_eq_of_lt hnonneg hlt]

/-- Only the position on the circle counts. -/
theorem inArc_add_laps (laps : Int) :
    InArc period start length (x + period * laps) ↔ InArc period start length x := by
  unfold InArc ahead
  rw [show x + period * laps - start = x - start + period * laps by ring,
    Int.add_mul_emod_self_left]

/-! ### Circles cut into units -/

section Units

variable {n unit : Int} {a b t : Int}

/-- How long an arc is that ends at the offset `b` next after its beginning `a`. -/
theorem offset_length (ha : 0 ≤ a ∧ a < unit) (hb : 0 ≤ b ∧ b < unit) :
    (b - a) % unit = if a ≤ b then b - a else b - a + unit := by
  split
  · exact Int.emod_eq_of_lt (by omega) (by omega)
  · rw [← Int.add_emod_right, Int.emod_eq_of_lt (by omega) (by omega)]

/-- From an offset in one unit forward to another offset, `k` units on. -/
theorem ahead_units {d e k laps : Int} (hd : d = e + k + n * laps) (hk : 0 ≤ k ∧ k < n)
    (ha : 0 ≤ a ∧ a < unit) (ht : 0 ≤ t ∧ t < unit) (h0 : k = 0 → a ≤ t) :
    ahead (n * unit) (e * unit + a) (d * unit + t) = k * unit + (t - a) := by
  have hlaps : d * unit + t - (e * unit + a) = k * unit + (t - a) + n * unit * laps := by
    rw [hd]
    ring
  refine ahead_eq hlaps ?_ ?_
  · rcases hk.1.eq_or_lt with hzero | hpos
    · have := h0 hzero.symm
      rw [← hzero]
      omega
    · have : 1 * unit ≤ k * unit := Int.mul_le_mul_of_nonneg_right hpos (by omega)
      omega
  · have : (k + 1) * unit ≤ n * unit := Int.mul_le_mul_of_nonneg_right hk.2 (by omega)
    rw [add_mul] at this
    omega

/-- An arc from the offset `a` of unit `e` to the next offset `b` holds an offset
`t` of unit `d` if `d` is the arc's own unit and `t` comes after `a`, and before
`b` unless the arc runs over the unit's end; or if `d` is the next unit, the arc
runs into it, and `t` comes before `b`. -/
theorem inArc_units_iff {d e : Int} (hn : 2 ≤ n) (hd : 0 ≤ d ∧ d < n) (he : 0 ≤ e ∧ e < n)
    (ha : 0 ≤ a ∧ a < unit) (hb : 0 ≤ b ∧ b < unit) (ht : 0 ≤ t ∧ t < unit) :
    InArc (n * unit) (e * unit + a) ((b - a) % unit) (d * unit + t) ↔
      (d = e ∧ a ≤ t ∧ (a ≤ b → t < b)) ∨ (d = (e + 1) % n ∧ b < a ∧ t < b) := by
  have hnext : (e + 1) % n = if e + 1 = n then 0 else e + 1 := by
    split
    · rename_i hlast
      rw [hlast, Int.emod_self]
    · exact Int.emod_eq_of_lt (by omega) (by omega)
  have hlong : 2 * unit ≤ n * unit := Int.mul_le_mul_of_nonneg_right hn (by omega)
  -- `d` is `k` units after `e`, around the circle
  obtain ⟨k, laps, hk, hdk, hcase⟩ : ∃ k laps, (0 ≤ k ∧ k < n) ∧ d = e + k + n * laps ∧
      (k = 0 ↔ d = e) ∧ (k = 1 ↔ d = (e + 1) % n) := by
    by_cases hle : e ≤ d
    · refine ⟨d - e, 0, by omega, by ring, by omega, ?_⟩
      rw [hnext]
      split <;> omega
    · refine ⟨d - e + n, -1, by omega, by ring, by omega, ?_⟩
      rw [hnext]
      split <;> omega
  rw [← hcase.1, ← hcase.2, InArc, offset_length ha hb]
  by_cases hbefore : k = 0 ∧ t < a
  · -- behind the beginning: almost all the way around
    have hlaps : d * unit + t - (e * unit + a) = t - a + n * unit + n * unit * (laps - 1) := by
      rw [hdk, hbefore.1]
      ring
    rw [ahead_eq hlaps (by omega) (by omega)]
    split <;> omega
  · rw [ahead_units hdk hk ha ht (by omega)]
    have hfar : 2 ≤ k → 2 * unit ≤ k * unit := fun h =>
      Int.mul_le_mul_of_nonneg_right h (by omega)
    obtain rfl | rfl | htwo : k = 0 ∨ k = 1 ∨ 2 ≤ k := by omega
    · split <;> omega
    · split <;> omega
    · have := hfar htwo
      split <;> omega

end Units

end Circle
