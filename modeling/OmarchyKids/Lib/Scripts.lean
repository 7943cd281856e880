import Mathlib

/-!
# OmarchyKids.Lib.Scripts

Scripts that change a state step by step. A script is given by the states it goes
through: from a state, the list of the states after each of its changes. So a script
that stops in the middle leaves one of these states, or the one it started from
(`cut`), and one that comes to its end leaves the last (`final`).

What every change keeps, holds wherever a script stops (`Keeps.cut`, `Keeps.final`).
-/

/-- The states after each change, in their order. -/
abbrev Script (σ : Type*) := σ → List σ

namespace Script

variable {σ : Type*}

/-- One change. -/
def step (f : σ → σ) : Script σ := fun s => [f s]

/-- The state in the end. -/
def final (p : Script σ) (s : σ) : σ := (p s).getLastD s

/-- The state after the first `k` changes. -/
def cut (p : Script σ) (k : Nat) (s : σ) : σ := ((p s).take k).getLastD s

/-- One script after the other. -/
def andThen (p q : Script σ) : Script σ := fun s => p s ++ q (p.final s)

/-- A choice by the state at that moment. -/
def choose (c : σ → Bool) (p q : Script σ) : Script σ := fun s => if c s then p s else q s

/-- Nothing to do. -/
def skip : Script σ := fun _ => []

/-- Several scripts in a row. -/
def block : List (Script σ) → Script σ
  | [] => skip
  | p :: ps => p.andThen (block ps)

/-! ### The end of a script -/

@[simp] theorem final_step (f : σ → σ) (s : σ) : (step f).final s = f s := rfl

@[simp] theorem final_skip (s : σ) : (skip : Script σ).final s = s := rfl

theorem getLastD_append (xs ys : List σ) (s : σ) :
    (xs ++ ys).getLastD s = ys.getLastD (xs.getLastD s) := by
  cases ys with
  | nil => rw [List.append_nil]; rfl
  | cons y ys => simp [List.getLastD_eq_getLast?, List.getLast?_append]

@[simp] theorem final_andThen (p q : Script σ) (s : σ) :
    (p.andThen q).final s = q.final (p.final s) :=
  getLastD_append _ _ s

@[simp] theorem final_choose (c : σ → Bool) (p q : Script σ) (s : σ) :
    (choose c p q).final s = if c s then p.final s else q.final s := by
  rw [final, choose]
  split <;> rfl

@[simp] theorem final_block_nil (s : σ) : (block []).final s = s := rfl

@[simp] theorem final_block_cons (p : Script σ) (ps : List (Script σ)) (s : σ) :
    (block (p :: ps)).final s = (block ps).final (p.final s) :=
  final_andThen p (block ps) s

theorem andThen_skip (p : Script σ) : p.andThen skip = p :=
  funext fun s => List.append_nil (p s)

theorem andThen_assoc (p q r : Script σ) : (p.andThen q).andThen r = p.andThen (q.andThen r) := by
  funext s
  show p s ++ q (p.final s) ++ r ((p.andThen q).final s) = _
  rw [final_andThen, List.append_assoc]
  rfl

/-! ### Wherever a script stops -/

theorem cut_zero (p : Script σ) (s : σ) : p.cut 0 s = s := rfl

/-- It stops in a state that it went through, or where it began. -/
theorem cut_eq_or_mem (p : Script σ) (k : Nat) (s : σ) : p.cut k s = s ∨ p.cut k s ∈ p s := by
  have htake : ∀ t ∈ (p s).take k, t ∈ p s := fun t ht => List.mem_of_mem_take ht
  rw [cut]
  cases h : (p s).take k with
  | nil => exact .inl rfl
  | cons t ts =>
      rw [h] at htake
      rw [List.getLastD_cons]
      exact .inr (htake _ List.getLastD_mem_cons)

/-- Every change keeps the property. -/
def Keeps (I : σ → Prop) (p : Script σ) : Prop := ∀ s, I s → ∀ t ∈ p s, I t

variable {I : σ → Prop} {p q : Script σ}

theorem Keeps.cut (h : Keeps I p) {s : σ} (hs : I s) (k : Nat) : I (p.cut k s) := by
  rcases cut_eq_or_mem p k s with heq | hmem
  · rw [heq]
    exact hs
  · exact h s hs _ hmem

theorem cut_length (p : Script σ) (s : σ) : p.cut (p s).length s = p.final s := by
  rw [cut, List.take_length]
  rfl

theorem Keeps.final (h : Keeps I p) {s : σ} (hs : I s) : I (p.final s) :=
  cut_length p s ▸ h.cut hs _

theorem keeps_step {f : σ → σ} (h : ∀ s, I s → I (f s)) : Keeps I (step f) := by
  intro s hs t ht
  rw [List.mem_singleton.mp ht]
  exact h s hs

theorem keeps_skip : Keeps I (skip : Script σ) := fun _ _ _ ht => absurd ht List.not_mem_nil

theorem keeps_andThen (hp : Keeps I p) (hq : Keeps I q) : Keeps I (p.andThen q) := by
  intro s hs t ht
  rcases List.mem_append.mp ht with ht | ht
  · exact hp s hs t ht
  · exact hq _ (hp.final hs) t ht

theorem keeps_choose {c : σ → Bool} (hp : ∀ s, I s → c s = true → ∀ t ∈ p s, I t)
    (hq : ∀ s, I s → c s = false → ∀ t ∈ q s, I t) : Keeps I (choose c p q) := by
  intro s hs t ht
  rw [choose] at ht
  split at ht
  next hc => exact hp s hs hc t ht
  next hc => exact hq s hs (Bool.eq_false_iff.mpr hc) t ht

/-- Whichever script is chosen. -/
theorem keeps_either {c : σ → Bool} (hp : Keeps I p) (hq : Keeps I q) : Keeps I (choose c p q) :=
  keeps_choose (fun s hs _ => hp s hs) fun s hs _ => hq s hs

/-- A script that may be left out. -/
theorem keeps_optional {c : σ → Bool} (hp : Keeps I p) : Keeps I (choose c p skip) :=
  keeps_either hp keeps_skip

theorem keeps_block {ps : List (Script σ)} (h : ∀ p ∈ ps, Keeps I p) : Keeps I (block ps) := by
  induction ps with
  | nil => exact keeps_skip
  | cons p ps ih =>
      exact keeps_andThen (h p List.mem_cons_self) (ih fun q hq => h q (List.mem_cons_of_mem _ hq))

/-- The first change brings the property about, and the later ones keep it. -/
def Enters (I : σ → Prop) (p : Script σ) (s : σ) : Prop := p s ≠ [] ∧ ∀ t ∈ p s, I t

theorem enters_step {f : σ → σ} {s : σ} (h : I (f s)) : Enters I (step f) s :=
  ⟨List.cons_ne_nil _ _, fun _ ht => List.mem_singleton.mp ht ▸ h⟩

theorem Enters.cut {s : σ} (h : Enters I p s) {k : Nat} (hk : k ≠ 0) : I (p.cut k s) := by
  have hne : (p s).take k ≠ [] := by simp [h.1, hk]
  rw [Script.cut, List.getLastD_eq_getLast?, List.getLast?_eq_some_getLast hne, Option.getD_some]
  exact h.2 _ (List.mem_of_mem_take (List.getLast_mem hne))

theorem Enters.final {s : σ} (h : Enters I p s) : I (p.final s) :=
  cut_length p s ▸ h.cut (fun hlen => h.1 (List.eq_nil_of_length_eq_zero hlen))

theorem enters_andThen {s : σ} (hp : Enters I p s) (hq : Keeps I q) : Enters I (p.andThen q) s := by
  refine ⟨fun hnil => hp.1 (List.append_eq_nil_iff.mp hnil).1, fun t ht => ?_⟩
  rcases List.mem_append.mp ht with ht | ht
  · exact hp.2 t ht
  · exact hq _ hp.final t ht

theorem enters_block {s : σ} {ps : List (Script σ)} (hp : Enters I p s)
    (hps : ∀ q ∈ ps, Keeps I q) : Enters I (block (p :: ps)) s :=
  enters_andThen hp (keeps_block hps)

theorem enters_choose {c : σ → Bool} {s : σ} (hc : c s = true) (hp : Enters I p s) :
    Enters I (choose c p q) s := by
  have hchoose : choose c p q s = p s := if_pos hc
  rw [Enters, hchoose]
  exact hp

end Script
