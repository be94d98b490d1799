import Mathlib.Algebra.BigOperators.Group.List.Basic
import Mathlib.Algebra.Order.BigOperators.Group.List
import Mathlib.Tactic.Abel
/-!
# Waiting for one server

Jobs served one after the other, each for its own time. A job waits until
those before it are done, and the total of the waits depends on the order
alone. It is least where the jobs come shortest first: a job that is moved
in front of longer ones saves each of them less than it costs it, and so a
batch can be sorted one job at a time without the total going up.
-/

namespace VllmScheduler

section

variable {K : Type*} [AddCommMonoid K]

/-- The waits of jobs with the given service times, from time `t` on. -/
def waits (t : K) : List K → List K
  | [] => []
  | s :: services => t :: waits (t + s) services

/-- The total wait of a batch served in order. -/
def totalWait (services : List K) : K := (waits 0 services).sum

theorem sum_waits (t : K) (services : List K) :
    (waits t services).sum = services.length • t + totalWait services := by
  induction services generalizing t with
  | nil => simp [waits, totalWait]
  | cons s services ih =>
    rw [totalWait, waits, waits, List.sum_cons, List.sum_cons, ih, ih (0 + s), List.length_cons,
      succ_nsmul, nsmul_add, zero_add, zero_add]
    abel

/-- Everyone behind a job waits for it. -/
theorem totalWait_cons (s : K) (services : List K) :
    totalWait (s :: services) = services.length • s + totalWait services := by
  rw [totalWait, waits, List.sum_cons, sum_waits, zero_add, zero_add]

variable [PartialOrder K] [IsOrderedAddMonoid K] {s : K} {services services' : List K}

/-- A job that goes ahead of longer ones. -/
theorem totalWait_move_front {front : List K} (h : ∀ y ∈ front, s ≤ y) (back : List K) :
    totalWait (s :: (front ++ back)) ≤ totalWait (front ++ s :: back) := by
  induction front with
  | nil => exact le_rfl
  | cons y front ih =>
    have hy : s ≤ y := h y List.mem_cons_self
    have ih' := ih fun z hz => h z (List.mem_cons_of_mem _ hz)
    rw [totalWait_cons] at ih'
    have hlength : (front ++ s :: back).length = (front ++ back).length + 1 := by
      simp [Nat.add_assoc]
    rw [List.cons_append, List.cons_append, totalWait_cons, totalWait_cons, totalWait_cons]
    calc (y :: (front ++ back)).length • s +
          ((front ++ back).length • y + totalWait (front ++ back))
        = s + ((front ++ back).length • y +
            ((front ++ back).length • s + totalWait (front ++ back))) := by
          rw [List.length_cons, succ_nsmul]
          abel
      _ ≤ y + ((front ++ back).length • y + totalWait (front ++ s :: back)) := by
          gcongr
      _ = (front ++ s :: back).length • y + totalWait (front ++ s :: back) := by
          rw [hlength, succ_nsmul]
          abel

/-- **Shortest first is best.** -/
theorem totalWait_le_of_perm (hsorted : services.Pairwise (· ≤ ·))
    (hperm : services.Perm services') : totalWait services ≤ totalWait services' := by
  induction services generalizing services' with
  | nil => rw [List.nil_perm.mp hperm]
  | cons s services ih =>
    obtain ⟨hleast, hsorted⟩ := List.pairwise_cons.mp hsorted
    obtain ⟨front, back, rfl⟩ := List.append_of_mem (hperm.subset List.mem_cons_self)
    have hrest : services.Perm (front ++ back) :=
      (hperm.trans List.perm_middle).cons_inv
    have hfront : ∀ y ∈ front, s ≤ y := fun y hy =>
      hleast y (hrest.symm.subset (List.mem_append_left _ hy))
    refine le_trans ?_ (totalWait_move_front hfront back)
    rw [totalWait_cons, totalWait_cons, hrest.length_eq]
    gcongr
    exact ih hsorted hrest

end

end VllmScheduler
