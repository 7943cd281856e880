import Mathlib

/-!
# OmarchyKids.Lib.Spans

Spans of time, closed or still running, over any ordered group of instants: how
long a span has lasted as seen at an instant, and how much of it falls into a
period. Amounts are summed over lists of spans through an arbitrary measure of
durations, so that rounding is left to the user of the library.

`sum_halves` is the bookkeeping fact: a sum over all spans is the sum over the
stopped ones plus the sum over the running ones.
-/

namespace Spans

variable {τ : Type*}

/-- A span: where it starts, and where it stops if it has. -/
structure Span (τ : Type*) where
  start : τ
  stop : Option τ := none
  deriving DecidableEq

namespace Span

/-- Still running. -/
def running (x : Span τ) : Bool := x.stop.isNone

section Ordered

variable [LinearOrder τ]

/-- Where the span ends as seen at `now`. -/
def endBy (x : Span τ) (now : τ) : τ := x.stop.elim now fun stop => min stop now

/-- Nothing of the span lies after `now`. -/
def SettledBy (x : Span τ) (now : τ) : Prop := x.start ≤ now ∧ ∀ stop ∈ x.stop, x.start ≤ stop ∧ stop ≤ now

theorem SettledBy.mono {x : Span τ} {now later : τ} (h : x.SettledBy now) (hle : now ≤ later) :
    x.SettledBy later :=
  ⟨h.1.trans hle, fun stop hstop => ⟨(h.2 stop hstop).1, (h.2 stop hstop).2.trans hle⟩⟩

theorem endBy_of_running {x : Span τ} (h : x.stop = none) (now : τ) : x.endBy now = now := by
  simp [endBy, h]

theorem endBy_of_stopped {x : Span τ} {stop now : τ} (h : x.stop = some stop) (hle : stop ≤ now) :
    x.endBy now = stop := by
  simp [endBy, h, hle]

theorem SettledBy.start_le_endBy {x : Span τ} {now : τ} (h : x.SettledBy now) :
    x.start ≤ x.endBy now := by
  cases hstop : x.stop with
  | none => simpa [endBy, hstop] using h.1
  | some stop => simpa [endBy, hstop] using ⟨(h.2 stop hstop).1, h.1⟩

end Ordered

section Measured

variable [AddCommGroup τ] [LinearOrder τ]

/-- How long the span has lasted at `now`. -/
def elapsed (x : Span τ) (now : τ) : τ := x.endBy now - x.start

/-- How much of the span lies between `since` and `now`. -/
def overlap (x : Span τ) (since now : τ) : τ := max (x.endBy now - max x.start since) 0

variable [IsOrderedAddMonoid τ]

/-- A span that starts within the period lies in it with all it has lasted. -/
theorem overlap_eq_elapsed {x : Span τ} {since now : τ} (hsince : since ≤ x.start)
    (h : x.SettledBy now) : x.overlap since now = x.elapsed now := by
  rw [overlap, max_eq_left hsince, max_eq_left (sub_nonneg.mpr h.start_le_endBy), elapsed]

theorem elapsed_nonneg {x : Span τ} {now : τ} (h : x.SettledBy now) : 0 ≤ x.elapsed now :=
  sub_nonneg.mpr h.start_le_endBy

end Measured

end Span

/-- A sum over all items is that over the ones that satisfy `q` plus that over
the others. -/
theorem sum_halves {α M : Type*} [AddCommMonoid M] (q : α → Bool) (f : α → M) (xs : List α) :
    (xs.map f).sum =
      ((xs.filter fun x => !q x).map f).sum + ((xs.filter q).map f).sum := by
  induction xs with
  | nil => simp
  | cons x xs ih =>
      cases hq : q x with
      | false => simp [hq, ih, add_assoc]
      | true =>
          simp only [List.map_cons, List.sum_cons, ih, hq, Bool.not_true, Bool.false_eq_true,
            not_false_eq_true, List.filter_cons_of_neg, List.filter_cons_of_pos]
          rw [add_left_comm]

end Spans
