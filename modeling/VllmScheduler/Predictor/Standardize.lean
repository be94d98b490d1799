import Mathlib.Algebra.BigOperators.Ring.List
import Mathlib.Algebra.Order.BigOperators.Group.List
import Mathlib.Analysis.Real.Sqrt
import Mathlib.Tactic.Linarith
import Mathlib.Tactic.Ring
import VllmScheduler.Common.Columns
import VllmScheduler.Common.Lists
import VllmScheduler.Predictor.Normalize
import VllmScheduler.Predictor.Splits
/-!
# The features a training run sees

`split` of `python/predictor/dataset.py` measures the training samples,
column by column, and `to_tensors` shifts and scales every sample by these
measures. A column that hardly varies is not scaled. So the columns of the
training table have mean 0, and a mean square of 1 or, where they are not
scaled, of next to nothing. No entry is divided by zero. This is about exact
numbers; the source casts the features to `float32` and measures those.
-/

namespace VllmScheduler

variable {V K : Type} [Field K] [LinearOrder K]

/-- `OutputLengthDataset.to_tensors`: the table of features and the targets,
or nothing where numpy refuses the shapes. Without samples the table has one
axis. The numbers are exact, where the source casts them to `float32`. -/
def toTensors (samples : List (Sample V K)) (mean std : List K) :
    Option (List (List K) × List K) :=
  let y := samples.map Sample.actualOutputTokens
  let stdSafe := guardStd std
  match samples with
  | [] => (normalise [] mean stdSafe).map fun _ => ([], y)
  | s :: _ =>
    -- `np.array` refuses rows of different lengths
    if ∀ t ∈ samples, t.features.length = s.features.length then
      (samples.mapM fun t => normalise t.features mean stdSafe).map fun x => (x, y)
    else none

/-- A square root as far as it matters. -/
structure IsSqrt (sqrt : K → K) : Prop where
  nonneg : ∀ {v}, 0 ≤ v → 0 ≤ sqrt v
  mul_self : ∀ {v}, 0 ≤ v → sqrt v * sqrt v = v

section Statistics

variable {rows : List (List K)} {n : ℕ} {sqrt : K → K}

omit [LinearOrder K] in
/-- The statistics of a table, column by column. -/
theorem columnMeans_eq (hne : rows ≠ []) (h : ∀ row ∈ rows, row.length = n) :
    columnMeans rows = some ((List.range n).map fun j => meanOf (column 0 rows j)) := by
  rw [columnMeans, if_neg hne, transpose_eq_map_column 0 hne h, List.map_map]
  rfl

omit [LinearOrder K] in
theorem columnStds_eq (hne : rows ≠ []) (h : ∀ row ∈ rows, row.length = n) :
    columnStds sqrt rows =
      some ((List.range n).map fun j => sqrt (varianceOf (column 0 rows j))) := by
  rw [columnStds, if_neg hne, transpose_eq_map_column 0 hne h, List.map_map]
  rfl

omit [Field K] [LinearOrder K] in
theorem broadcast_of_length {op : K → K → K} {xs ys : List K} (h : xs.length = ys.length) :
    broadcast op xs ys = some (List.zipWith op xs ys) := if_pos h

/-- A row as long as the statistics is normalised entry by entry. -/
theorem normalise_eq {row : List K} {μ σ : ℕ → K} (h : row.length = n) :
    normalise row ((List.range n).map μ) (guardStd ((List.range n).map σ)) =
      some ((List.range n).map fun j => (row.getD j 0 - μ j) / safeDivisor (σ j)) := by
  rw [normalise, broadcast_of_length (by simp [h]), Option.bind_some,
    broadcast_of_length (by simp [guardStd, h])]
  refine congrArg some (List.ext_getElem (by simp [guardStd, h]) fun j hj hj' => ?_)
  have hlt : j < row.length := by
    rw [List.length_map, List.length_range] at hj'
    omega
  simp [guardStd, safeDivisor, hlt]

variable [IsStrictOrderedRing K] {col : List K}

theorem safeDivisor_pos (σ : K) : 0 < safeDivisor σ := by
  rw [safeDivisor]
  split
  · exact one_pos
  · rename_i h
    exact lt_of_lt_of_le (by positivity) (not_lt.mp h)

theorem varianceOf_nonneg : 0 ≤ varianceOf col := by
  refine div_nonneg (List.sum_nonneg ?_) (Nat.cast_nonneg _)
  intro x hx
  obtain ⟨y, -, rfl⟩ := List.mem_map.mp hx
  exact mul_self_nonneg _

omit [LinearOrder K] [IsStrictOrderedRing K] in
theorem sum_map_sub_div (μ g : K) :
    (col.map fun x => (x - μ) / g).sum = (col.sum - col.length * μ) / g := by
  induction col with
  | nil => simp
  | cons x col ih =>
    rw [List.map_cons, List.sum_cons, ih, List.sum_cons, List.length_cons]
    push_cast
    ring

/-- A shifted and scaled column sums to zero. -/
theorem sum_standardised (hne : col ≠ []) (g : K) :
    (col.map fun x => (x - meanOf col) / g).sum = 0 := by
  have hlen : (col.length : K) ≠ 0 := by
    exact_mod_cast (List.length_pos_iff.mpr hne).ne'
  rw [sum_map_sub_div, meanOf, mul_div_cancel₀ _ hlen, sub_self, zero_div]

omit [LinearOrder K] [IsStrictOrderedRing K] in
/-- The mean square of such a column. -/
theorem sum_sq_standardised (g : K) :
    (col.map fun x => (x - meanOf col) / g * ((x - meanOf col) / g)).sum / col.length =
      varianceOf col / (g * g) := by
  have hterm : (fun x => (x - meanOf col) / g * ((x - meanOf col) / g)) =
      fun x => (x - meanOf col) * (x - meanOf col) / (g * g) := by
    funext x
    rw [div_mul_div_comm]
  have hsum : (col.map fun x => (x - meanOf col) * (x - meanOf col) / (g * g)).sum =
      (col.map fun x => (x - meanOf col) * (x - meanOf col)).sum / (g * g) := by
    simp only [div_eq_mul_inv, List.sum_map_mul_right]
  rw [hterm, hsum, varianceOf, div_right_comm]

end Statistics

/-! ## The table of the training samples -/

/-- **A standardised column**: its mean is 0, and its mean square is 1 or,
where it was not scaled, the small variance it has. -/
structure Standardised (col : List K) (std : K) : Prop where
  sum_eq : col.sum = 0
  scaled : 1 / 100000000 ≤ std → (col.map fun x => x * x).sum / col.length = 1
  unscaled : std < 1 / 100000000 →
    (col.map fun x => x * x).sum / col.length < 1 / 100000000 * (1 / 100000000)

/-- A column of the training table before it is standardised. -/
def DatasetSplits.featureColumn (splits : DatasetSplits V K) (j : ℕ) : List K :=
  column 0 (splits.train.map Sample.features) j

section Table

variable {sqrt : K → K} {samples : List (Sample V K)} {n : ℕ}

/-- The row `to_tensors` makes of features. -/
def standardRow (n : ℕ) (μ σ : ℕ → K) (features : List K) : List K :=
  (List.range n).map fun j => (features.getD j 0 - μ j) / safeDivisor (σ j)

theorem toTensors_eq (μ σ : ℕ → K) (hne : samples ≠ [])
    (hlen : ∀ s ∈ samples, s.features.length = n) :
    toTensors samples ((List.range n).map μ) ((List.range n).map σ) =
      some (samples.map fun s => standardRow n μ σ s.features,
        samples.map Sample.actualOutputTokens) := by
  obtain ⟨s, rest, rfl⟩ := List.exists_cons_of_ne_nil hne
  have heven : ∀ t ∈ s :: rest, t.features.length = s.features.length := fun t ht =>
    (hlen t ht).trans (hlen s List.mem_cons_self).symm
  rw [toTensors, if_pos heven, mapM_eq_some_map fun t ht => normalise_eq (hlen t ht)]
  rfl

variable [IsStrictOrderedRing K]

theorem standardised_map (hsqrt : IsSqrt sqrt) {col : List K} (hne : col ≠ []) :
    Standardised (col.map fun x => (x - meanOf col) / safeDivisor (sqrt (varianceOf col)))
      (sqrt (varianceOf col)) := by
  have hvar : 0 ≤ varianceOf col := varianceOf_nonneg
  have hroot := hsqrt.mul_self hvar
  have hroot_nonneg := hsqrt.nonneg hvar
  set std := sqrt (varianceOf col)
  have hsquare : ((col.map fun x => (x - meanOf col) / safeDivisor std).map fun x => x * x).sum /
      (col.map fun x => (x - meanOf col) / safeDivisor std).length =
        varianceOf col / (safeDivisor std * safeDivisor std) := by
    rw [List.map_map, List.length_map]
    exact sum_sq_standardised _
  refine ⟨sum_standardised hne _, fun hle => ?_, fun hlt => ?_⟩
  · have hpos : 0 < std := lt_of_lt_of_le (by positivity) hle
    rw [hsquare, safeDivisor, if_neg (not_lt.mpr hle), ← hroot]
    exact div_self (mul_pos hpos hpos).ne'
  · rw [hsquare, safeDivisor, if_pos hlt, mul_one, div_one, ← hroot]
    exact mul_lt_mul'' hlt hlt hroot_nonneg hroot_nonneg

/-- Rows determine the features. -/
theorem standardRow_inj {μ σ : ℕ → K} {xs ys : List K} (hx : xs.length = n) (hy : ys.length = n)
    (h : standardRow n μ σ xs = standardRow n μ σ ys) : xs = ys := by
  refine List.ext_getElem (hx.trans hy.symm) fun j hj hj' => ?_
  have hentry := List.map_inj_left.mp h j (List.mem_range.mpr (hx ▸ hj))
  rw [div_left_inj' (safeDivisor_pos (σ j)).ne', sub_left_inj] at hentry
  simpa [hj, hj'] using hentry

variable [FloorRing K] {shuffle : Shuffle} {trainRatio valRatio : K} {seed : ℕ}

omit [IsStrictOrderedRing K] in
/-- The three splits are made of the samples. -/
theorem mem_of_mem_split {s : Sample V K}
    (hs : s ∈ (split shuffle sqrt samples trainRatio valRatio seed).train ∨
      s ∈ (split shuffle sqrt samples trainRatio valRatio seed).val ∨
      s ∈ (split shuffle sqrt samples trainRatio valRatio seed).test) : s ∈ samples := by
  rcases hs with hs | hs | hs
  all_goals
    obtain ⟨i, -, rfl⟩ := List.mem_map.mp hs
    exact List.get_mem _ _

omit [IsStrictOrderedRing K] in
/-- The statistics of a split: those of the columns of its training table. -/
theorem split_statistics (hlen : ∀ s ∈ samples, s.features.length = n)
    (hne : (split shuffle sqrt samples trainRatio valRatio seed).train ≠ []) :
    (split shuffle sqrt samples trainRatio valRatio seed).featureMean =
        some ((List.range n).map fun j => meanOf
          ((split shuffle sqrt samples trainRatio valRatio seed).featureColumn j)) ∧
      (split shuffle sqrt samples trainRatio valRatio seed).featureStd =
        some ((List.range n).map fun j => sqrt (varianceOf
          ((split shuffle sqrt samples trainRatio valRatio seed).featureColumn j))) := by
  have hrows : ∀ row ∈ (split shuffle sqrt samples trainRatio valRatio seed).train.map
      Sample.features, row.length = n := by
    intro row hrow
    obtain ⟨s, hs, rfl⟩ := List.mem_map.mp hrow
    exact hlen s (mem_of_mem_split (Or.inl hs))
  have hrows_ne : (split shuffle sqrt samples trainRatio valRatio seed).train.map
      Sample.features ≠ [] := by simpa using hne
  exact ⟨columnMeans_eq hrows_ne hrows, columnStds_eq hrows_ne hrows⟩

/-- **What a training run sees.** Every column of the training table is
standardised, and no two samples of different features share a row. -/
theorem training_standardised (hsqrt : IsSqrt sqrt)
    (hlen : ∀ s ∈ samples, s.features.length = n)
    (hne : (split shuffle sqrt samples trainRatio valRatio seed).train ≠ []) :
    ∃ mean std x, mean.length = n ∧ std.length = n ∧
      (split shuffle sqrt samples trainRatio valRatio seed).featureMean = some mean ∧
      (split shuffle sqrt samples trainRatio valRatio seed).featureStd = some std ∧
      toTensors (split shuffle sqrt samples trainRatio valRatio seed).train mean std =
        some (x, (split shuffle sqrt samples trainRatio valRatio seed).train.map
          Sample.actualOutputTokens) ∧
      (∀ j < n, Standardised (column 0 x j) (std.getD j 0)) ∧
      ∀ s ∈ samples, ∀ t ∈ samples, normalise s.features mean (guardStd std) =
        normalise t.features mean (guardStd std) ↔ s.features = t.features := by
  obtain ⟨hmean, hstd⟩ := split_statistics hlen hne
  have htrain : ∀ s ∈ (split shuffle sqrt samples trainRatio valRatio seed).train,
      s.features.length = n := fun s hs => hlen s (mem_of_mem_split (Or.inl hs))
  set splits := split shuffle sqrt samples trainRatio valRatio seed
  set μ : ℕ → K := fun j => meanOf (splits.featureColumn j)
  set σ : ℕ → K := fun j => sqrt (varianceOf (splits.featureColumn j))
  refine ⟨(List.range n).map μ, (List.range n).map σ,
    splits.train.map fun s => standardRow n μ σ s.features, by simp, by simp, hmean, hstd,
    toTensors_eq μ σ hne htrain, fun j hj => ?_, fun s hs t ht => ?_⟩
  · have hcol : column 0 (splits.train.map fun s => standardRow n μ σ s.features) j =
        (splits.featureColumn j).map fun x => (x - μ j) / safeDivisor (σ j) := by
      simp [DatasetSplits.featureColumn, column, standardRow, hj]
    have hentry : ((List.range n).map σ).getD j 0 = σ j := by simp [hj]
    rw [hcol, hentry]
    exact standardised_map hsqrt (by simpa [DatasetSplits.featureColumn, column] using hne)
  · rw [normalise_eq (hlen s hs), normalise_eq (hlen t ht), Option.some_inj]
    exact ⟨standardRow_inj (hlen s hs) (hlen t ht), congrArg (standardRow n μ σ)⟩

end Table

theorem isSqrt_sqrt : IsSqrt Real.sqrt :=
  ⟨fun _ => Real.sqrt_nonneg _, fun h => Real.mul_self_sqrt h⟩

/-- Two prompts with features of two kinds: the second does not vary. -/
def twoPrompts : List (Sample Unit ℝ) :=
  [⟨"Hi", [1, 1], 5, []⟩, ⟨"Explain recursion", [2, 1], 80, []⟩]

/-- All of them train. -/
theorem twoPrompts_train :
    (split (fun _ n => Equiv.refl (Fin n)) Real.sqrt twoPrompts 1 0 42).train = twoPrompts := by
  simp [split, sliceTo, sliceIndex, truncate, twoPrompts]
  exact ⟨rfl, rfl⟩

theorem twoPrompts_standardised :
    ∃ mean std x, toTensors twoPrompts mean std = some (x, [5, 80]) ∧
      ∀ j < 2, Standardised (column 0 x j) (std.getD j 0) := by
  have hne : (split (fun _ n => Equiv.refl (Fin n)) Real.sqrt twoPrompts 1 0 42).train ≠ [] := by
    rw [twoPrompts_train]
    exact List.cons_ne_nil _ _
  obtain ⟨mean, std, x, -, -, -, -, htable, hcols, -⟩ :=
    training_standardised (n := 2) isSqrt_sqrt (by simp [twoPrompts]) hne
  rw [twoPrompts_train] at htable
  exact ⟨mean, std, x, htable, hcols⟩

end VllmScheduler
