import Mathlib.Tactic.FieldSimp
import VllmScheduler.Common.Batches
import VllmScheduler.Predictor.Network
/-!
# What an epoch measures

`_eval_epoch` and `_regression_metrics` of `python/predictor/trainer.py`. The
validation table is scored batch by batch, the losses of the batches weighted
by their sizes, so the result is that of the whole table at once: the batch
size does not matter (`evalLoop_eq`). Of the scores themselves, the loss is
at most the mean error, which is at most its root mean square.
-/

namespace VllmScheduler

variable {K : Type} [Field K] [LinearOrder K]

/-! ## Scores -/

/-- `np.mean(np.abs(y - preds))`. -/
def meanAbsoluteError (y preds : List K) : K := meanOf (List.zipWith (fun a b => |a - b|) y preds)

/-- `(y - preds) ** 2`. -/
def squaredErrors (y preds : List K) : List K :=
  List.zipWith (fun a b => (a - b) * (a - b)) y preds

/-- `np.sqrt(np.mean((y - preds) ** 2))`. -/
def rootMeanSquareError (sqrt : K → K) (y preds : List K) : K :=
  sqrt (meanOf (squaredErrors y preds))

/-- `r2` of `_regression_metrics` and of `evaluate.py`. -/
def rSquared (y preds : List K) : K :=
  let ssRes := (squaredErrors y preds).sum
  let ssTot := (y.map fun a => (a - meanOf y) * (a - meanOf y)).sum
  if 0 < ssTot then 1 - ssRes / ssTot else 0

/-- The Huber loss of one error. -/
def huber (delta z : K) : K := if |z| < delta then z * z / 2 else delta * (|z| - delta / 2)

/-- `huber_loss`: the mean over a batch. -/
def huberLoss (pred target : List K) (delta : K) : K :=
  meanOf (List.zipWith (fun p t => huber delta (p - t)) pred target)

/-! ## An epoch -/

/-- The variables of the loop of `_eval_epoch`. -/
structure EvalState (K : Type) where
  totalLoss : K
  n : ℕ
  preds : List K
  targets : List K

/-- What `_eval_epoch` returns. -/
structure EvalScores (K : Type) where
  loss : K
  mae : K
  rmse : K
  r2 : K

variable {config : ModelConfig K}

/-- The body of the loop. -/
def evalBatch (sqrt : K → K) (m : OutputLengthMLP config) (s : EvalState K)
    (batch : List (List K × K)) : Option (EvalState K) := do
  let xb := batch.map Prod.fst
  let yb := batch.map Prod.snd
  let pred ← m.forward sqrt .eval xb
  let loss := huberLoss pred yb 1
  pure ⟨s.totalLoss + loss * xb.length, s.n + xb.length, s.preds ++ pred, s.targets ++ yb⟩

/-- `_eval_epoch`; the loader gives batches of rows and targets. -/
def evalEpoch (sqrt : K → K) (m : OutputLengthMLP config) (loader : List (List (List K × K))) :
    Option (EvalScores K) := do
  let s ← loader.foldlM (evalBatch sqrt m) ⟨0, 0, [], []⟩
  pure ⟨s.totalLoss / max s.n 1, meanAbsoluteError s.targets s.preds,
    rootMeanSquareError sqrt s.targets s.preds, rSquared s.targets s.preds⟩

section Loop

variable {loader : List (List (List K × K))} {data : List (List K × K)} {size : ℕ}

/-- The losses of a batch, added up. -/
def huberSum (preds targets : List K) : K :=
  (List.zipWith (fun p t => huber 1 (p - t)) preds targets).sum

theorem huberLoss_mul [IsStrictOrderedRing K] {preds targets : List K}
    (hlen : preds.length = targets.length) (hne : targets ≠ []) :
    huberLoss preds targets 1 * targets.length = huberSum preds targets := by
  have hpos : (targets.length : K) ≠ 0 := by
    exact_mod_cast (List.length_pos_iff.mpr hne).ne'
  rw [huberLoss, meanOf, List.length_zipWith, hlen, Nat.min_self, div_mul_cancel₀ _ hpos, huberSum]

theorem huberSum_append {preds preds' targets targets' : List K}
    (h : preds.length = targets.length) :
    huberSum (preds ++ preds') (targets ++ targets') =
      huberSum preds targets + huberSum preds' targets' := by
  rw [huberSum, List.zipWith_append h, List.sum_append]
  rfl

/-- **The loop over batches** does what one pass over all of them does. -/
theorem evalLoop_eq [IsStrictOrderedRing K] (sqrt : K → K) (m : OutputLengthMLP config)
    (s : EvalState K) (hbounds : config.outputMin ≤ config.outputMax)
    (hne : ∀ b ∈ loader, b ≠ []) (hrows : ∀ b ∈ loader, ∀ e ∈ b, e.1.length = config.inputDim) :
    ∃ preds, m.forward sqrt .eval (loader.flatten.map Prod.fst) = some preds ∧
      preds.length = loader.flatten.length ∧
      loader.foldlM (evalBatch sqrt m) s =
        some ⟨s.totalLoss + huberSum preds (loader.flatten.map Prod.snd),
          s.n + loader.flatten.length, s.preds ++ preds,
          s.targets ++ loader.flatten.map Prod.snd⟩ := by
  induction loader generalizing s with
  | nil => exact ⟨[], rfl, rfl, by simp [huberSum]⟩
  | cons batch loader ih =>
    have hbatch : ∀ x ∈ batch.map Prod.fst, x.length = config.inputDim := by
      intro x hx
      obtain ⟨e, he, rfl⟩ := List.mem_map.mp hx
      exact hrows batch List.mem_cons_self e he
    obtain ⟨pred, hpred, hpred_len, -⟩ := m.forward_total sqrt .eval hbatch hbounds
    rw [List.length_map] at hpred_len
    obtain ⟨preds, hpreds, hpreds_len, hloop⟩ := ih
      ⟨s.totalLoss + huberLoss pred (batch.map Prod.snd) 1 * (batch.map Prod.fst).length,
        s.n + (batch.map Prod.fst).length, s.preds ++ pred, s.targets ++ batch.map Prod.snd⟩
      (fun b hb => hne b (List.mem_cons_of_mem _ hb))
      (fun b hb => hrows b (List.mem_cons_of_mem _ hb))
    refine ⟨pred ++ preds, ?_, by simp [hpred_len, hpreds_len], ?_⟩
    · rw [List.flatten_cons, List.map_append, OutputLengthMLP.forward_eval, List.mapM_append,
        ← OutputLengthMLP.forward_eval, ← OutputLengthMLP.forward_eval, hpred, hpreds]
      rfl
    · have htargets : pred.length = (batch.map Prod.snd).length := by
        rw [hpred_len, List.length_map]
      have hloss := huberLoss_mul htargets
        (mt List.map_eq_nil_iff.mp (hne batch List.mem_cons_self))
      rw [List.length_map] at hloss
      have hstep : evalBatch sqrt m s batch =
          some ⟨s.totalLoss + huberLoss pred (batch.map Prod.snd) 1 * (batch.map Prod.fst).length,
            s.n + (batch.map Prod.fst).length, s.preds ++ pred,
            s.targets ++ batch.map Prod.snd⟩ := by
        simp only [evalBatch, hpred]
        rfl
      rw [List.foldlM_cons, hstep]
      refine hloop.trans ?_
      rw [Option.some_inj, EvalState.mk.injEq, List.length_map, hloss, List.flatten_cons,
        List.map_append, huberSum_append htargets, List.length_append, List.append_assoc,
        List.append_assoc, Nat.add_assoc, add_assoc]
      exact ⟨rfl, rfl, rfl, rfl⟩

/-- The scores of a table, whatever the size of its batches. -/
theorem evalEpoch_batches [IsStrictOrderedRing K] (sqrt : K → K) (m : OutputLengthMLP config)
    (hbounds : config.outputMin ≤ config.outputMax)
    (hrows : ∀ e ∈ data, e.1.length = config.inputDim) (hsize : 0 < size) :
    ∃ preds, m.forward sqrt .eval (data.map Prod.fst) = some preds ∧
      preds.length = data.length ∧
      evalEpoch sqrt m (batches size data) =
        some ⟨huberSum preds (data.map Prod.snd) / max data.length 1,
          meanAbsoluteError (data.map Prod.snd) preds,
          rootMeanSquareError sqrt (data.map Prod.snd) preds,
          rSquared (data.map Prod.snd) preds⟩ := by
  obtain ⟨preds, hpreds, hlen, hloop⟩ := evalLoop_eq sqrt m ⟨0, 0, [], []⟩ hbounds
    (fun b hb => ne_nil_of_mem_batches hsize hb)
    fun b hb e he => hrows e (mem_of_mem_batches hsize hb he)
  rw [flatten_batches hsize] at hpreds hlen hloop
  refine ⟨preds, hpreds, hlen, ?_⟩
  rw [evalEpoch, hloop]
  simp

end Loop

/-! ## How the scores compare -/

section Compare

variable [IsStrictOrderedRing K] {sqrt : K → K} {y preds : List K}

omit [LinearOrder K] [IsStrictOrderedRing K] in
theorem sum_sq_sub (l : List K) (μ : K) :
    (l.map fun x => (x - μ) * (x - μ)).sum =
      (l.map fun x => x * x).sum - 2 * μ * l.sum + l.length * (μ * μ) := by
  induction l with
  | nil => simp
  | cons x l ih =>
    simp only [List.map_cons, List.sum_cons, ih, List.length_cons]
    push_cast
    ring

/-- The square of a mean is at most the mean of the squares: they differ by
the variance. -/
theorem meanOf_mul_self_le (l : List K) :
    meanOf l * meanOf l ≤ meanOf (l.map fun x => x * x) := by
  rcases eq_or_ne l [] with rfl | hne
  · simp [meanOf]
  · have hlen : (l.length : K) ≠ 0 := by
      exact_mod_cast (List.length_pos_iff.mpr hne).ne'
    have hsum : l.sum = l.length * meanOf l := (mul_div_cancel₀ _ hlen).symm
    have hmean : meanOf (l.map fun x => x * x) = (l.map fun x => x * x).sum / l.length := by
      rw [meanOf, List.length_map]
    have hvar : varianceOf l = meanOf (l.map fun x => x * x) - meanOf l * meanOf l := by
      rw [varianceOf, sum_sq_sub, hsum, hmean]
      field_simp
      ring
    have hnonneg : 0 ≤ varianceOf l := varianceOf_nonneg
    rw [hvar] at hnonneg
    exact sub_nonneg.mp hnonneg

omit [IsStrictOrderedRing K] in
theorem squaredErrors_eq (y preds : List K) : squaredErrors y preds =
    (List.zipWith (fun a b => |a - b|) y preds).map fun x => x * x := by
  simp [squaredErrors, List.map_zipWith]

theorem meanAbsoluteError_le (hsqrt : IsSqrt sqrt) :
    meanAbsoluteError y preds ≤ rootMeanSquareError sqrt y preds := by
  have hle := meanOf_mul_self_le (List.zipWith (fun a b => |a - b|) y preds)
  rw [← squaredErrors_eq] at hle
  have hmean : 0 ≤ meanOf (squaredErrors y preds) := (mul_self_nonneg _).trans hle
  rw [rootMeanSquareError]
  refine nonneg_le_nonneg_of_sq_le_sq (hsqrt.nonneg hmean) ?_
  rw [hsqrt.mul_self hmean]
  exact hle

theorem huber_nonneg (z : K) : 0 ≤ huber 1 z := by
  rw [huber]
  split
  · exact div_nonneg (mul_self_nonneg z) zero_le_two
  · linarith

theorem huber_eq_zero_iff {z : K} : huber 1 z = 0 ↔ z = 0 := by
  rw [huber]
  split
  · rw [div_eq_zero_iff, mul_self_eq_zero, or_iff_left two_ne_zero]
  · rename_i h
    refine iff_of_false (fun heq => ?_) fun hz => h (by rw [hz, abs_zero]; exact one_pos)
    linarith

theorem huber_le_abs (z : K) : huber 1 z ≤ |z| := by
  rw [huber]
  split
  · rename_i h
    have hsq : z * z ≤ |z| := by
      rw [← abs_mul_abs_self]
      exact mul_le_of_le_one_left (abs_nonneg z) h.le
    linarith [abs_nonneg z]
  · linarith

/-- The losses of a batch add up to zero where every prediction is right. -/
theorem huberSum_eq_zero_iff (hlen : preds.length = y.length) :
    0 ≤ huberSum preds y ∧ (huberSum preds y = 0 ↔ preds = y) := by
  induction preds generalizing y with
  | nil =>
    obtain rfl := List.length_eq_zero_iff.mp hlen.symm
    simp [huberSum]
  | cons p preds ih =>
    obtain ⟨t, y, rfl⟩ := List.exists_cons_of_length_eq_add_one hlen.symm
    obtain ⟨hnonneg, hzero⟩ := ih (Nat.succ.inj hlen)
    have hcons : huberSum (p :: preds) (t :: y) = huber 1 (p - t) + huberSum preds y := rfl
    rw [hcons, List.cons.injEq, add_eq_zero_iff_of_nonneg (huber_nonneg _) hnonneg, hzero,
      huber_eq_zero_iff, sub_eq_zero]
    exact ⟨add_nonneg (huber_nonneg _) hnonneg, Iff.rfl⟩

theorem huberSum_le (preds y : List K) :
    huberSum preds y ≤ (List.zipWith (fun a b => |a - b|) y preds).sum := by
  induction preds generalizing y with
  | nil => simp [huberSum]
  | cons p preds ih =>
    rcases y with - | ⟨t, y⟩
    · simp [huberSum]
    · have hterm : huber 1 (p - t) ≤ |t - p| := abs_sub_comm t p ▸ huber_le_abs _
      simpa [huberSum] using add_le_add hterm (ih y)

theorem rSquared_le_one : rSquared y preds ≤ 1 := by
  have hres : 0 ≤ (squaredErrors y preds).sum := by
    rw [squaredErrors_eq]
    refine List.sum_nonneg fun e he => ?_
    obtain ⟨x, -, rfl⟩ := List.mem_map.mp he
    exact mul_self_nonneg x
  simp only [rSquared]
  split
  · rename_i htot
    exact sub_le_self 1 (div_nonneg hres htot.le)
  · exact zero_le_one

end Compare

section Epoch

variable [IsStrictOrderedRing K] {sqrt : K → K} {m : OutputLengthMLP config}
variable {data : List (List K × K)} {size : ℕ}

/-- **What `_eval_epoch` measures**, of a validation table of at least one
row and for every batch size: the mean loss and the errors of the network's
predictions on the whole table. The loss is 0 exactly where every prediction
is right, and at most the mean absolute error, which is at most the root mean
square one. -/
theorem epoch_scores (hsqrt : IsSqrt sqrt) (hbounds : config.outputMin ≤ config.outputMax)
    (hrows : ∀ e ∈ data, e.1.length = config.inputDim) (hne : data ≠ []) (hsize : 0 < size) :
    ∃ preds scores, m.forward sqrt .eval (data.map Prod.fst) = some preds ∧
      evalEpoch sqrt m (batches size data) = some scores ∧
      scores = ⟨huberLoss preds (data.map Prod.snd) 1,
        meanAbsoluteError (data.map Prod.snd) preds,
        rootMeanSquareError sqrt (data.map Prod.snd) preds,
        rSquared (data.map Prod.snd) preds⟩ ∧
      0 ≤ scores.loss ∧ scores.loss ≤ scores.mae ∧ scores.mae ≤ scores.rmse ∧ scores.r2 ≤ 1 ∧
      (scores.loss = 0 ↔ preds = data.map Prod.snd) := by
  obtain ⟨preds, hpreds, hlen, hepoch⟩ := evalEpoch_batches sqrt m hbounds hrows hsize
  have htargets : preds.length = (data.map Prod.snd).length := by rw [hlen, List.length_map]
  have hone : 1 ≤ data.length := List.length_pos_iff.mpr hne
  have hpos : (0 : K) < data.length := by exact_mod_cast hone
  have hloss : huberLoss preds (data.map Prod.snd) 1 =
      huberSum preds (data.map Prod.snd) / data.length := by
    rw [huberLoss, meanOf, List.length_zipWith, htargets, Nat.min_self, List.length_map]
    rfl
  have hmae : meanAbsoluteError (data.map Prod.snd) preds =
      (List.zipWith (fun a b => |a - b|) (data.map Prod.snd) preds).sum / data.length := by
    rw [meanAbsoluteError, meanOf, List.length_zipWith, htargets, Nat.min_self, List.length_map]
  rw [max_eq_left hone, ← hloss] at hepoch
  obtain ⟨hnonneg, hzero⟩ := huberSum_eq_zero_iff htargets
  refine ⟨preds, _, hpreds, hepoch, rfl, ?_, ?_, meanAbsoluteError_le hsqrt, rSquared_le_one, ?_⟩
  · show 0 ≤ huberLoss _ _ _
    rw [hloss]
    exact div_nonneg hnonneg hpos.le
  · show huberLoss _ _ _ ≤ meanAbsoluteError _ _
    rw [hloss, hmae]
    exact div_le_div_of_nonneg_right (huberSum_le _ _) hpos.le
  · show huberLoss _ _ _ = 0 ↔ _
    rw [hloss, div_eq_zero_iff, or_iff_left hpos.ne', hzero]

end Epoch

/-- Three rows of zeros in batches of two. -/
theorem zeroRows_scores :
    ∃ preds scores, (OutputLengthMLP.filled 0 (ModelConfig.default ℝ)).forward Real.sqrt .eval
        (List.replicate 3 (List.replicate 40 0)) = some preds ∧
      evalEpoch Real.sqrt (OutputLengthMLP.filled 0 (ModelConfig.default ℝ))
        (batches 2 (List.replicate 3 (List.replicate 40 0, 7))) = some scores ∧
      scores.loss ≤ scores.mae := by
  have hrows : ∀ e ∈ List.replicate 3 (List.replicate 40 (0 : ℝ), (7 : ℝ)),
      e.1.length = (ModelConfig.default ℝ).inputDim := by
    intro e he
    rw [List.eq_of_mem_replicate he]
    rfl
  obtain ⟨preds, scores, hpreds, hscores, -, -, hle, -⟩ := epoch_scores
    (m := OutputLengthMLP.filled 0 (ModelConfig.default ℝ)) isSqrt_sqrt
    (show (1 : ℝ) ≤ 4096 by norm_num) hrows (List.cons_ne_nil _ _) (Nat.zero_lt_two : 0 < 2)
  exact ⟨preds, scores, hpreds, hscores, hle⟩

end VllmScheduler
