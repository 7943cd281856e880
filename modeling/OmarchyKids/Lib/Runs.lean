import Mathlib

/-!
# OmarchyKids.Lib.Runs

Runs of a deterministic system. A system is a step function `σ → ε → σ`; a run
feeds it a list of events. The two induction rules every safety argument needs
are packaged once:

* `run_invariant` — a property that each step preserves holds at the end of
  every run (and, since a prefix of a run is a run, at every point of it);
* `run_history` — the same for a property that also mentions the events that
  have already happened.

`Along` restricts a run to steps that satisfy a side condition on the state
*before* the step and on the event; `run_invariant_along` is the invariant rule
for such runs, `run_simulation_along` the one for a relation between two
systems fed the same events, and `potential_along` the one for an amount that
each step lowers by at most its `cost`.
-/

namespace Runs

variable {σ ε : Type*} {step : σ → ε → σ}

/-- The state after feeding `es` to the system. -/
def run (step : σ → ε → σ) (s : σ) (es : List ε) : σ := es.foldl step s

@[simp] theorem run_nil (s : σ) : run step s [] = s := rfl

@[simp] theorem run_cons (s : σ) (e : ε) (es : List ε) :
    run step s (e :: es) = run step (step s e) es := rfl

@[simp] theorem run_append (s : σ) (es fs : List ε) :
    run step s (es ++ fs) = run step (run step s es) fs := by
  simp [run, List.foldl_append]

theorem run_concat (s : σ) (es : List ε) (e : ε) :
    run step s (es ++ [e]) = step (run step s es) e := by
  rw [run_append, run_cons, run_nil]

/-! ### Invariants -/

/-- A property of states and of the events already consumed, preserved by every
step, holds at the end of every run. -/
theorem run_history {I : List ε → σ → Prop} {s : σ} (h0 : I [] s)
    (hstep : ∀ past s e, I past s → I (past ++ [e]) (step s e)) (es : List ε) :
    I es (run step s es) := by
  induction es using List.reverseRecOn with
  | nil => exact h0
  | append_singleton es e ih =>
      rw [run_concat]
      exact hstep es _ e ih

/-- A property preserved by every step holds at the end of every run. -/
theorem run_invariant {I : σ → Prop} {s : σ} (h0 : I s)
    (hstep : ∀ s e, I s → I (step s e)) (es : List ε) : I (run step s es) :=
  run_history (I := fun _ s => I s) h0 (fun _ s e => hstep s e) es

/-! ### The first time -/

/-- If a property holds at the end of a run, there is a first time it holds. -/
theorem run_first {P : σ → Prop} {s : σ} {es : List ε} (h : P (run step s es)) :
    ∃ before after, es = before ++ after ∧ P (run step s before) ∧
      ∀ earlier rest, before = earlier ++ rest → rest ≠ [] → ¬ P (run step s earlier) := by
  induction es generalizing s with
  | nil =>
      refine ⟨[], [], rfl, h, fun earlier rest hsplit hrest => ?_⟩
      exact absurd (List.append_eq_nil_iff.mp hsplit.symm).2 hrest
  | cons e es ih =>
      by_cases hnow : P s
      · refine ⟨[], e :: es, rfl, hnow, fun earlier rest hsplit hrest => ?_⟩
        exact absurd (List.append_eq_nil_iff.mp hsplit.symm).2 hrest
      · obtain ⟨before, after, rfl, hlater, hfirst⟩ := ih h
        refine ⟨e :: before, after, rfl, hlater, fun earlier rest hsplit hrest => ?_⟩
        cases earlier with
        | nil => exact hnow
        | cons e' earlier =>
            obtain ⟨rfl, htail⟩ := List.cons.inj hsplit
            exact hfirst earlier rest htail hrest

/-! ### A part of the state -/

/-- A part of the state that a step changes by itself, from what it reads off
the event, runs by itself. -/
theorem run_part {σ' ε' : Type*} {step' : σ' → ε' → σ'} (part : σ → σ') (read : ε → ε')
    (h : ∀ s e, part (step s e) = step' (part s) (read e)) (s : σ) (es : List ε) :
    part (run step s es) = run step' (part s) (es.map read) := by
  induction es generalizing s with
  | nil => rfl
  | cons e es ih => rw [run_cons, ih, h, List.map_cons, run_cons]

/-- A value that some events overwrite is what the last of them wrote. -/
theorem run_overwrite {α : Type*} (a : α) (os : List (Option α)) :
    run (fun a o => o.getD a) a os = os.reduceOption.getLast?.getD a := by
  induction os using List.reverseRecOn with
  | nil => rfl
  | append_singleton os o ih =>
      rw [run_concat, ih, List.reduceOption_append]
      cases o with
      | none => simp
      | some b => simp

/-! ### Runs whose steps meet a condition -/

/-- Every step of the run from `s` meets `C`, a condition on the state before
the step and on the event. -/
def Along (step : σ → ε → σ) (C : σ → ε → Prop) : σ → List ε → Prop
  | _, [] => True
  | s, e :: es => C s e ∧ Along step C (step s e) es

@[simp] theorem along_nil {C : σ → ε → Prop} (s : σ) : Along step C s [] := trivial

@[simp] theorem along_cons {C : σ → ε → Prop} (s : σ) (e : ε) (es : List ε) :
    Along step C s (e :: es) ↔ C s e ∧ Along step C (step s e) es := Iff.rfl

theorem along_append {C : σ → ε → Prop} (s : σ) (es fs : List ε) :
    Along step C s (es ++ fs) ↔ Along step C s es ∧ Along step C (run step s es) fs := by
  induction es generalizing s with
  | nil => simp
  | cons e es ih => simp only [List.cons_append, along_cons, run_cons, ih, and_assoc]

theorem along_concat {C : σ → ε → Prop} (s : σ) (es : List ε) (e : ε) :
    Along step C s (es ++ [e]) ↔ Along step C s es ∧ C (run step s es) e := by
  simp [along_append]

theorem along_of_forall_mem {C : σ → ε → Prop} {es : List ε} (h : ∀ e ∈ es, ∀ s, C s e) (s : σ) :
    Along step C s es := by
  induction es generalizing s with
  | nil => trivial
  | cons e es ih =>
      exact ⟨h e List.mem_cons_self s, ih (fun e' he' => h e' (List.mem_cons_of_mem _ he')) _⟩

theorem along_mono {C D : σ → ε → Prop} (h : ∀ s e, C s e → D s e) {s : σ} {es : List ε}
    (hes : Along step C s es) : Along step D s es := by
  induction es generalizing s with
  | nil => trivial
  | cons e es ih => exact ⟨h s e hes.1, ih hes.2⟩

instance decidableAlong {C : σ → ε → Prop} [∀ s e, Decidable (C s e)] :
    ∀ (s : σ) (es : List ε), Decidable (Along step C s es)
  | _, [] => instDecidableTrue
  | s, e :: es =>
      have := decidableAlong (C := C) (step s e) es
      inferInstanceAs (Decidable (C s e ∧ Along step C (step s e) es))

/-- The history rule for runs whose steps all meet `C`. -/
theorem run_history_along {C : σ → ε → Prop} {I : List ε → σ → Prop} {s : σ} (h0 : I [] s)
    (hstep : ∀ past s e, C s e → I past s → I (past ++ [e]) (step s e)) {es : List ε}
    (hes : Along step C s es) : I es (run step s es) := by
  induction es using List.reverseRecOn with
  | nil => exact h0
  | append_singleton es e ih =>
      obtain ⟨hpre, he⟩ := (along_concat s es e).mp hes
      rw [run_concat]
      exact hstep es _ e he (ih hpre)

/-- The invariant rule for runs whose steps all meet `C`. -/
theorem run_invariant_along {C : σ → ε → Prop} {I : σ → Prop} {s : σ} (h0 : I s)
    (hstep : ∀ s e, C s e → I s → I (step s e)) {es : List ε} (hes : Along step C s es) :
    I (run step s es) :=
  run_history_along (I := fun _ s => I s) h0 (fun _ s e => hstep s e) hes

/-! ### Since -/

section Since

variable {C Sets Clears F : σ → ε → Prop} {P : σ → Prop}

/-- What some steps set and others clear holds after a run exactly if a step has set it and
none since has cleared it, or if it held before and none has cleared it. -/
theorem holds_iff_since
    (hstep : ∀ s e, C s e → (P (step s e) ↔ Sets s e ∨ (P s ∧ ¬ Clears s e))) {s : σ}
    {es : List ε} (hes : Along step C s es) :
    P (run step s es) ↔
      (∃ before e after, es = before ++ e :: after ∧ Sets (run step s before) e ∧
          Along step (fun s e => ¬ Clears s e) (run step s (before ++ [e])) after) ∨
        (P s ∧ Along step (fun s e => ¬ Clears s e) s es) := by
  induction es generalizing s with
  | nil => simp
  | cons e es ih =>
      rw [run_cons, ih hes.2, hstep s e hes.1]
      constructor
      · rintro (⟨before, e', after, rfl, hsets, hafter⟩ | ⟨hsets | ⟨hP, hspared⟩, hafter⟩)
        · exact .inl ⟨e :: before, e', after, rfl, hsets, hafter⟩
        · exact .inl ⟨[], e, es, rfl, hsets, hafter⟩
        · exact .inr ⟨hP, hspared, hafter⟩
      · rintro (⟨before, e', after, heq, hsets, hafter⟩ | ⟨hP, hspared, hafter⟩)
        · cases before with
          | nil =>
              obtain ⟨rfl, rfl⟩ := List.cons.inj heq
              exact .inr ⟨.inl hsets, hafter⟩
          | cons e'' before =>
              obtain ⟨rfl, rfl⟩ := List.cons.inj heq
              exact .inl ⟨before, e', after, rfl, hsets, hafter⟩
        · exact .inr ⟨.inr ⟨hP, hspared⟩, hafter⟩

/-- What every step keeps, unless it is of a certain kind, holds until there is such a step. -/
theorem holds_or_exists (hstep : ∀ s e, C s e → P s → P (step s e) ∨ F s e) {s : σ}
    {es : List ε} (hes : Along step C s es) (h : P s) :
    P (run step s es) ∨
      ∃ before e after, es = before ++ e :: after ∧ F (run step s before) e := by
  induction es generalizing s with
  | nil => exact .inl h
  | cons e es ih =>
      rcases hstep s e hes.1 h with hnext | hF
      · rcases ih hes.2 hnext with hrun | ⟨before, e', after, rfl, hF⟩
        · exact .inl hrun
        · exact .inr ⟨e :: before, e', after, rfl, hF⟩
      · exact .inr ⟨[], e, es, rfl, hF⟩

end Since

/-! ### What a run costs -/

section Cost

variable {M : Type*} [AddCommMonoid M]

/-- What the steps of a run cost together. -/
def cost (step : σ → ε → σ) (c : σ → ε → M) : σ → List ε → M
  | _, [] => 0
  | s, e :: es => c s e + cost step c (step s e) es

@[simp] theorem cost_nil (c : σ → ε → M) (s : σ) : cost step c s [] = 0 := rfl

@[simp] theorem cost_cons (c : σ → ε → M) (s : σ) (e : ε) (es : List ε) :
    cost step c s (e :: es) = c s e + cost step c (step s e) es := rfl

theorem cost_append (c : σ → ε → M) (s : σ) (es fs : List ε) :
    cost step c s (es ++ fs) = cost step c s es + cost step c (run step s es) fs := by
  induction es generalizing s with
  | nil => simp
  | cons e es ih => simp only [List.cons_append, cost_cons, run_cons, ih, add_assoc]

theorem cost_nonneg [PartialOrder M] [IsOrderedAddMonoid M] {c : σ → ε → M}
    (h : ∀ s e, 0 ≤ c s e) (s : σ) (es : List ε) : 0 ≤ cost step c s es := by
  induction es generalizing s with
  | nil => exact le_refl _
  | cons e es ih => exact add_nonneg (h s e) (ih _)

/-- The potential rule: if no step lowers `φ` by more than it costs, no run does. -/
theorem potential_along [PartialOrder M] [IsOrderedAddMonoid M] {C : σ → ε → Prop} {I : σ → Prop}
    {φ : σ → M} {c : σ → ε → M} {s : σ} (h0 : I s) (hstep : ∀ s e, C s e → I s → I (step s e))
    (hcost : ∀ s e, C s e → I s → φ s ≤ φ (step s e) + c s e) {es : List ε}
    (hes : Along step C s es) : φ s ≤ φ (run step s es) + cost step c s es := by
  induction es generalizing s with
  | nil => simp
  | cons e es ih =>
      obtain ⟨he, hrest⟩ := hes
      calc φ s ≤ φ (step s e) + c s e := hcost s e he h0
        _ ≤ φ (run step (step s e) es) + cost step c (step s e) es + c s e :=
            add_le_add_left (ih (hstep s e he h0) hrest) _
        _ = φ (run step s (e :: es)) + cost step c s (e :: es) := by
            rw [run_cons, cost_cons, add_assoc, add_comm (c s e)]

end Cost

/-! ### What a run writes -/

section Written

variable {ω : Type*} {out : σ → ε → List ω}

/-- What the steps of a run write, one after the other. -/
def written (step : σ → ε → σ) (out : σ → ε → List ω) : σ → List ε → List ω
  | _, [] => []
  | s, e :: es => out s e ++ written step out (step s e) es

@[simp] theorem written_nil (s : σ) : written step out s [] = [] := rfl

@[simp] theorem written_cons (s : σ) (e : ε) (es : List ε) :
    written step out s (e :: es) = out s e ++ written step out (step s e) es := rfl

/-- A log that each step appends to holds what the run writes. -/
theorem run_written (log : σ → List ω) (hstep : ∀ s e, log (step s e) = log s ++ out s e) (s : σ)
    (es : List ε) : log (run step s es) = log s ++ written step out s es := by
  induction es generalizing s with
  | nil => simp
  | cons e es ih => rw [run_cons, ih, hstep, written_cons, List.append_assoc]

theorem written_append (s : σ) (es fs : List ε) :
    written step out s (es ++ fs) = written step out s es ++ written step out (run step s es) fs := by
  induction es generalizing s with
  | nil => rfl
  | cons e es ih => simp only [List.cons_append, written_cons, run_cons, ih, List.append_assoc]

theorem written_concat (s : σ) (es : List ε) (e : ε) :
    written step out s (es ++ [e]) = written step out s es ++ out (run step s es) e := by
  rw [written_append, written_cons, written_nil, List.append_nil]

/-- What is written from a part of the state that runs by itself. -/
theorem written_part {σ' ε' : Type*} {step' : σ' → ε' → σ'} {out' : σ' → ε' → List ω}
    (part : σ → σ') (read : ε → ε') (hstep : ∀ s e, part (step s e) = step' (part s) (read e))
    (hout : ∀ s e, out s e = out' (part s) (read e)) (s : σ) (es : List ε) :
    written step out s es = written step' out' (part s) (es.map read) := by
  induction es generalizing s with
  | nil => rfl
  | cons e es ih => rw [written_cons, hout, ih, hstep, List.map_cons, written_cons]

/-- What a run writes, where no step looks at the state. -/
theorem written_eq_flatMap {f : ε → List ω} (h : ∀ s e, out s e = f e) (s : σ) (es : List ε) :
    written step out s es = es.flatMap f := by
  induction es generalizing s with
  | nil => rfl
  | cons e es ih => rw [written_cons, h, ih, List.flatMap_cons]

/-- Whatever a run writes, one of its steps wrote. -/
theorem mem_written {s : σ} {es : List ε} {w : ω} (h : w ∈ written step out s es) :
    ∃ s', ∃ e ∈ es, w ∈ out s' e := by
  induction es generalizing s with
  | nil => cases h
  | cons e es ih =>
      rcases List.mem_append.mp h with hnow | hlater
      · exact ⟨s, e, List.mem_cons_self, hnow⟩
      · obtain ⟨s', e', he', hw⟩ := ih hlater
        exact ⟨s', e', List.mem_cons_of_mem _ he', hw⟩

/-- Each entry was written by one step, after everything before it. -/
theorem written_split {s : σ} {es : List ε} {before after : List ω} {w : ω}
    (h : written step out s es = before ++ w :: after) :
    ∃ es₁ e es₂ out₁ out₂, es = es₁ ++ e :: es₂ ∧
      out (run step s es₁) e = out₁ ++ w :: out₂ ∧
      before = written step out s es₁ ++ out₁ ∧
      after = out₂ ++ written step out (run step s (es₁ ++ [e])) es₂ := by
  induction es generalizing s before with
  | nil => simp at h
  | cons e es ih =>
      rw [written_cons, List.append_eq_append_iff] at h
      rcases h with ⟨rest, rfl, hrest⟩ | ⟨rest, hout, hrest⟩
      · obtain ⟨es₁, e', es₂, out₁, out₂, rfl, hout, rfl, hafter⟩ := ih hrest
        exact ⟨e :: es₁, e', es₂, out₁, out₂, rfl, hout, by simp, hafter⟩
      · cases rest with
        | nil =>
            obtain ⟨es₁, e', es₂, out₁, out₂, rfl, hout', hbefore, hafter⟩ :=
              @ih (step s e) [] hrest.symm
            refine ⟨e :: es₁, e', es₂, out₁, out₂, rfl, hout', ?_, hafter⟩
            rw [List.append_nil] at hout
            rw [written_cons, List.append_assoc, ← hbefore, List.append_nil, hout]
        | cons w' rest =>
            obtain ⟨rfl, hafter⟩ := List.cons.inj hrest
            exact ⟨[], e, es, before, rest, rfl, hout, rfl, hafter⟩

end Written

/-! ### What happens once -/

/-- Some step of the run from `s` meets `P`, a condition on the state before the
step and on the event. -/
def Once (step : σ → ε → σ) (P : σ → ε → Prop) : σ → List ε → Prop
  | _, [] => False
  | s, e :: es => P s e ∨ Once step P (step s e) es

theorem once_concat {P : σ → ε → Prop} (s : σ) (es : List ε) (e : ε) :
    Once step P s (es ++ [e]) ↔ Once step P s es ∨ P (run step s es) e := by
  induction es generalizing s with
  | nil => simp [Once]
  | cons e' es ih => rw [List.cons_append, Once, Once, ih, run_cons, or_assoc]

/-! ### Simulation -/

/-- Two systems fed the same events stay related, if one step keeps them so.
The side condition is on the first system. -/
theorem run_simulation_along {σ' : Type*} {step' : σ' → ε → σ'} {C : σ → ε → Prop}
    {R : σ → σ' → Prop} {s : σ} {t : σ'} (h0 : R s t)
    (hstep : ∀ s t e, C s e → R s t → R (step s e) (step' t e)) {es : List ε}
    (hes : Along step C s es) : R (run step s es) (run step' t es) := by
  induction es generalizing s t with
  | nil => exact h0
  | cons e es ih =>
      obtain ⟨he, hrest⟩ := hes
      exact ih (hstep s t e he h0) hrest

end Runs
