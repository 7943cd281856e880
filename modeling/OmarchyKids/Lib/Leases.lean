import Mathlib
import OmarchyKids.Lib.Runs

/-!
# OmarchyKids.Lib.Leases

Leases by key: granted, replaced by a later grant for the same key, and dropped
by sweeps that look at each lease. The list of current leases is what a program
keeps; `mem_run` says what it means in terms of the history: a lease is in the
list exactly if nothing since its grant has ended it.
-/

namespace Leases

open Runs

variable {α κ : Type*} [DecidableEq κ] (key : α → κ)

/-- What one event does to the leases. -/
inductive Op (α : Type*)
  /-- In place of an earlier lease with the same key, if there is one. -/
  | grant (a : α)
  /-- Drops the leases that are not alive. -/
  | sweep (alive : α → Bool)
  | pass

def apply (xs : List α) : Op α → List α
  | .grant a => xs.filter (fun b => key b ≠ key a) ++ [a]
  | .sweep alive => xs.filter alive
  | .pass => xs

/-- The event does not end the lease. -/
def Op.Spares (a : α) : Op α → Prop
  | .grant b => key a ≠ key b
  | .sweep alive => alive a = true
  | .pass => True

theorem mem_apply {xs : List α} {op : Op α} {a : α} :
    a ∈ apply key xs op ↔ op = .grant a ∨ (a ∈ xs ∧ op.Spares key a) := by
  cases op with
  | grant b =>
      rw [apply, List.mem_append, List.mem_filter, List.mem_singleton, decide_eq_true_iff,
        Op.grant.injEq, or_comm, eq_comm, Op.Spares]
  | sweep alive => simp [apply, Op.Spares]
  | pass => simp [apply, Op.Spares]

theorem nodup_apply {xs : List α} (h : (xs.map key).Nodup) (op : Op α) :
    ((apply key xs op).map key).Nodup := by
  cases op with
  | grant a =>
      rw [apply, List.map_append, List.map_singleton]
      refine List.Nodup.append (h.sublist (List.filter_sublist.map key)) (List.nodup_singleton _) ?_
      rw [List.disjoint_singleton]
      rintro hmem
      obtain ⟨b, hb, heq⟩ := List.mem_map.mp hmem
      simp [heq] at hb
  | sweep alive => exact h.sublist (List.filter_sublist.map key)
  | pass => exact h

theorem nodup_run {xs : List α} (h : (xs.map key).Nodup) (ops : List (Op α)) :
    ((run (apply key) xs ops).map key).Nodup :=
  run_invariant (I := fun xs : List α => (xs.map key).Nodup) h (fun _ op ih => nodup_apply key ih op) ops

/-- A current lease was granted and spared by everything since, or was there from
the start and spared by everything. -/
theorem mem_run {xs : List α} {ops : List (Op α)} {a : α} :
    a ∈ run (apply key) xs ops ↔
      (∃ before after, ops = before ++ .grant a :: after ∧ ∀ op ∈ after, op.Spares key a) ∨
        (a ∈ xs ∧ ∀ op ∈ ops, op.Spares key a) := by
  induction ops generalizing xs with
  | nil => simp
  | cons op ops ih =>
      rw [run_cons, ih, mem_apply]
      constructor
      · rintro (⟨before, after, rfl, hspared⟩ | ⟨rfl | ⟨ha, hop⟩, hops⟩)
        · exact .inl ⟨op :: before, after, rfl, hspared⟩
        · exact .inl ⟨[], ops, rfl, hops⟩
        · exact .inr ⟨ha, List.forall_mem_cons.mpr ⟨hop, hops⟩⟩
      · rintro (⟨before, after, heq, hspared⟩ | ⟨ha, hall⟩)
        · rcases List.cons_eq_append_iff.mp heq with ⟨rfl, hcons⟩ | ⟨before', rfl, rfl⟩
          · obtain ⟨rfl, rfl⟩ := List.cons.inj hcons
            exact .inr ⟨.inl rfl, hspared⟩
          · exact .inl ⟨before', after, rfl, hspared⟩
        · obtain ⟨hop, hops⟩ := List.forall_mem_cons.mp hall
          exact .inr ⟨.inr ⟨ha, hop⟩, hops⟩

end Leases
