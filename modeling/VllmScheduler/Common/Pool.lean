import Mathlib.Algebra.BigOperators.Group.List.Basic
import Mathlib.Algebra.Order.BigOperators.Group.List
import Mathlib.Algebra.Order.Group.Nat
/-!
# Pools of tasks

A pool is the list of the places its tasks stand at, and a step moves one
task. What the tasks have between them (permits, items, steps still to go)
is a total over the pool, and a step changes it by what the one task gains
and loses.
-/

namespace VllmScheduler

section

variable {α M : Type*} {f : α → M} {tasks : List α} {i n : ℕ} {a b : α}

/-- What the tasks of a pool have between them. -/
def total [AddCommMonoid M] (f : α → M) (tasks : List α) : M := (tasks.map f).sum

/-- **One task moves**: the total loses what it had and gains what it has. -/
theorem total_set [AddCommMonoid M] (h : tasks[i]? = some a) :
    total f (tasks.set i b) + f a = total f tasks + f b := by
  induction tasks generalizing i with
  | nil => cases h
  | cons c tasks ih =>
    cases i with
    | zero =>
      obtain rfl := Option.some.inj h
      simp only [total, List.set_cons_zero, List.map_cons, List.sum_cons]
      rw [add_comm (f b), add_right_comm, add_comm (f c)]
    | succ i =>
      have ih' := ih h
      simp only [total, List.set_cons_succ, List.map_cons, List.sum_cons] at ih' ⊢
      rw [add_assoc, ih', add_assoc]

theorem total_replicate [AddCommMonoid M] : total f (List.replicate n a) = n • f a := by
  rw [total, List.map_replicate, List.sum_replicate]

theorem total_eq_nsmul [AddCommMonoid M] {m : M} (h : ∀ a ∈ tasks, f a = m) :
    total f tasks = tasks.length • m := by
  rw [total, List.map_congr_left h, List.map_const', List.sum_replicate]

/-- A task's part is within the total. -/
theorem le_total {f : α → ℕ} (h : tasks[i]? = some a) : f a ≤ total f tasks :=
  List.single_le_sum (fun _ _ => Nat.zero_le _) _
    (List.mem_map_of_mem (List.mem_of_getElem? h))

/-- Where the total is positive, some task has a part in it. -/
theorem exists_of_total_pos {f : α → ℕ} (h : 0 < total f tasks) :
    ∃ (i : ℕ) (a : α), tasks[i]? = some a ∧ 0 < f a := by
  by_contra hnone
  push Not at hnone
  have hzero : ∀ a ∈ tasks, f a = 0 := by
    intro a ha
    obtain ⟨i, hi⟩ := List.mem_iff_getElem?.mp ha
    exact Nat.le_zero.mp (hnone i a hi)
  rw [total_eq_nsmul hzero, nsmul_zero] at h
  exact lt_irrefl 0 h

end

end VllmScheduler
