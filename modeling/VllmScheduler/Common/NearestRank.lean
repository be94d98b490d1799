import Mathlib.Algebra.Order.Field.Basic
import Mathlib.Algebra.Order.Floor.Semiring
import Mathlib.Data.List.Basic
import Mathlib.Tactic.Linarith
/-!
# Percentiles by nearest rank

The nearest-rank percentile of a list of numbers is an element that enough of
the list reaches up to and that too little of it stays below. In a sorted list
counting is comparing with an index (`lt_countP_iff`), so whether the element
at an index is a percentile depends on the index alone, up to ties.
-/

namespace VllmScheduler

section Sorted

variable {α : Type} [LinearOrder α] {s : List α}

/-- **Ranks in a sorted list.** Of a condition that holds of everything below
what it holds of, the elements at the first indices are those that satisfy
it. -/
theorem lt_countP_iff {q : α → Bool} (hq : ∀ x y, x ≤ y → q y = true → q x = true)
    (hs : s.Pairwise (· ≤ ·)) {k : ℕ} (hk : k < s.length) :
    k < s.countP q ↔ q s[k] = true := by
  induction s generalizing k with
  | nil => cases hk
  | cons a s ih =>
    obtain ⟨hle, hs⟩ := List.pairwise_cons.mp hs
    by_cases ha : q a = true
    · rw [List.countP_cons_of_pos ha]
      cases k with
      | zero => simp [ha]
      | succ k =>
        rw [List.getElem_cons_succ, ← ih hs (Nat.lt_of_succ_lt_succ hk)]
        exact Nat.succ_lt_succ_iff
    · -- nothing in the list satisfies it
      have hnone : ∀ x ∈ a :: s, ¬ q x = true := by
        rintro x (_ | ⟨_, hx⟩) hqx
        · exact ha hqx
        · exact ha (hq a x (hle x hx) hqx)
      rw [List.countP_eq_zero.mpr hnone]
      exact iff_of_false (Nat.not_lt_zero k) (hnone _ (List.getElem_mem hk))

theorem lt_countP_le_iff (hs : s.Pairwise (· ≤ ·)) (x : α) {k : ℕ} (hk : k < s.length) :
    k < s.countP (· ≤ x) ↔ s[k] ≤ x := by
  rw [lt_countP_iff (fun a b hab hb => by simpa using hab.trans (by simpa using hb)) hs hk,
    decide_eq_true_eq]

theorem lt_countP_lt_iff (hs : s.Pairwise (· ≤ ·)) (x : α) {k : ℕ} (hk : k < s.length) :
    k < s.countP (· < x) ↔ s[k] < x := by
  rw [lt_countP_iff (fun a b hab hb => by simpa using hab.trans_lt (by simpa using hb)) hs hk,
    decide_eq_true_eq]

/-- No more elements are smaller than one than come before it. -/
theorem countP_lt_getElem_le (hs : s.Pairwise (· ≤ ·)) {i : ℕ} (hi : i < s.length) :
    s.countP (· < s[i]) ≤ i :=
  not_lt.mp fun h => lt_irrefl _ ((lt_countP_lt_iff hs s[i] hi).mp h)

end Sorted

section NearestRank

variable {K : Type} [Field K] [LinearOrder K] {data : List K} {p v : K}

/-- An element such that a fraction `p` of the data at least is not above it,
and less than that is below it. -/
structure NearestRank (data : List K) (p v : K) : Prop where
  mem : v ∈ data
  enough : p * data.length ≤ (data.countP (· ≤ v) : K)
  below : (data.countP (· < v) : K) < p * data.length

variable [IsStrictOrderedRing K]

/-- What is above an element and what is not make up the data. -/
theorem countP_gt_le_iff :
    (data.countP (v < ·) : K) ≤ (1 - p) * data.length ↔
      p * data.length ≤ (data.countP (· ≤ v) : K) := by
  have hsum : data.countP (v < ·) + data.countP (· ≤ v) = data.length := by
    rw [List.length_eq_countP_add_countP (fun x => decide (v < x))]
    simp
  have hcast : (data.countP (v < ·) : K) + data.countP (· ≤ v) = data.length := by
    exact_mod_cast hsum
  constructor <;> intro h <;> linarith

variable {s : List K}

omit [IsStrictOrderedRing K] in
/-- **Enough elements are not above a value** exactly where the one of the
rank rounded up is not. -/
theorem le_countP_iff_getElem_ceil [FloorSemiring K] (hs : s.Pairwise (· ≤ ·)) {x : K}
    (hx : 0 < x) (hlt : ⌈x⌉₊ - 1 < s.length) (v : K) :
    x ≤ (s.countP (· ≤ v) : K) ↔ s[⌈x⌉₊ - 1] ≤ v := by
  have hpos : 0 < ⌈x⌉₊ := Nat.ceil_pos.mpr hx
  rw [← lt_countP_le_iff hs v hlt, ← Nat.ceil_le]
  omega

/-- **When enough elements are not above one.** Where `f` is the whole part of
`x` and not all of it, `x` elements are not above the one of rank `f` only if
the next one is as small. -/
theorem le_countP_getElem_iff (hs : s.Pairwise (· ≤ ·)) {f : ℕ} (hf : 0 < f) (hlt : f < s.length)
    {x : K} (hle : (f : K) < x) (hge : x < f + 1) :
    x ≤ (s.countP (· ≤ s[f - 1]) : K) ↔ s[f] = s[f - 1] := by
  have hmono : s[f - 1] ≤ s[f] := List.pairwise_iff_getElem.mp hs _ _ _ _ (by omega)
  rw [← (hmono.ge_iff_eq' : _ ↔ s[f] = s[f - 1]), ← lt_countP_le_iff hs s[f - 1] hlt]
  constructor
  · intro h
    exact_mod_cast hle.trans_le h
  · intro h
    have hcast : ((f + 1 : ℕ) : K) ≤ s.countP (· ≤ s[f - 1]) := Nat.cast_le.mpr h
    push_cast at hcast
    linarith

end NearestRank

end VllmScheduler
