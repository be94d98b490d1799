import Mathlib.Data.List.Basic
/-!
# Batches

A sequence cut into batches of one size, the last of which may be shorter.
-/

namespace VllmScheduler

universe u

variable {α : Type u} {size : ℕ} {l b : List α}

/-- The batches of a sequence, in order. -/
def batches (size : ℕ) (l : List α) : List (List α) :=
  (List.range ((l.length + size - 1) / size)).map fun i => (l.drop (i * size)).take size

/-- The first of them. -/
theorem flatten_range_batches (n : ℕ) :
    ((List.range n).map fun i => (l.drop (i * size)).take size).flatten = l.take (n * size) := by
  induction n with
  | zero => simp
  | succ n ih =>
    rw [List.range_succ, List.map_append, List.flatten_append, ih, Nat.succ_mul, List.take_add]
    simp

/-- **Nothing is lost or repeated.** -/
theorem flatten_batches (h : 0 < size) : (batches size l).flatten = l := by
  rw [batches, flatten_range_batches]
  refine List.take_of_length_le ?_
  have hdiv := Nat.lt_div_mul_add (a := l.length + size - 1) h
  omega

/-- No batch is empty. -/
theorem ne_nil_of_mem_batches (h : 0 < size) (hb : b ∈ batches size l) : b ≠ [] := by
  obtain ⟨i, hi, rfl⟩ := List.mem_map.mp hb
  have hlt : i < (l.length + size - 1) / size := List.mem_range.mp hi
  have hle : (i + 1) * size ≤ l.length + size - 1 := (Nat.le_div_iff_mul_le h).mp hlt
  rw [Nat.succ_mul] at hle
  refine List.ne_nil_of_length_pos ?_
  rw [List.length_take, List.length_drop]
  omega

theorem mem_of_mem_batches {a : α} (h : 0 < size) (hb : b ∈ batches size l) (ha : a ∈ b) :
    a ∈ l := by
  rw [← flatten_batches (l := l) h]
  exact List.mem_flatten.mpr ⟨b, hb, ha⟩

end VllmScheduler
