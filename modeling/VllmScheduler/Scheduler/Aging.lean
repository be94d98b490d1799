import Mathlib.Algebra.Order.Field.Basic
import Mathlib.Analysis.SpecialFunctions.Log.Basic
import VllmScheduler.Common.Numerals
/-!
# Aging policies

`python/scheduler/aging.py`. A policy turns the time a request has waited
into a deduction from its priority, capped at `max_boost`; the three of
them differ in the curve alone. The curves of two use `math.log1p` and
`math.exp`, which `MathFns` carries with the facts about them that
matter, so that the policies compute over any ordered field that has
them; `MathFns.real` is the pair the reals have.
-/

namespace VllmScheduler

variable {K : Type}

/-- The two functions of Python's `math` the policies call. -/
structure MathFns (K : Type) [Field K] [LinearOrder K] where
  log1p : K → K
  exp : K → K
  log1p_zero : log1p 0 = 0
  exp_zero : exp 0 = 1
  log1p_mono : ∀ {x y}, 0 ≤ x → x ≤ y → log1p x ≤ log1p y
  exp_mono : ∀ {x y}, x ≤ y → exp x ≤ exp y

/-- `math.log1p` and `math.exp` over the reals. -/
noncomputable def MathFns.real : MathFns ℝ where
  log1p := fun x => Real.log (1 + x)
  exp := Real.exp
  log1p_zero := by simp
  exp_zero := Real.exp_zero
  log1p_mono := fun hx hxy => Real.log_le_log (by linarith) (by linarith)
  exp_mono := fun hxy => Real.exp_le_exp.mpr hxy

/-- First-order stand-ins over the rationals, to compute with; the linear
policy calls neither. -/
def MathFns.firstOrder : MathFns ℚ where
  log1p := fun x => x
  exp := fun x => 1 + x
  log1p_zero := rfl
  exp_zero := by norm_num
  log1p_mono := fun _ hxy => hxy
  exp_mono := fun hxy => by linarith

/-- The `AgingPolicy` enumeration. -/
inductive AgingPolicy
  | linear
  | logarithmic
  | exponential
deriving DecidableEq, Repr

/-- The `AgingConfig` dataclass. -/
structure AgingConfig (K : Type) where
  policy : AgingPolicy
  factor : K
  maxBoost : K
  basePriority : K
deriving DecidableEq

/-- `AgingConfig()`: every field at its default. -/
def AgingConfig.default (K : Type) [Field K] : AgingConfig K :=
  ⟨.linear, 1 / 1000, 500, 0⟩

/-- The objects that implement the `AgingFunction` protocol. -/
inductive AgingFunction (K : Type)
  | linearAging (config : AgingConfig K)
  | logarithmicAging (config : AgingConfig K)
  | exponentialAging (config : AgingConfig K)
deriving DecidableEq

/-- The configuration an aging object keeps. -/
def AgingFunction.config : AgingFunction K → AgingConfig K
  | linearAging config => config
  | logarithmicAging config => config
  | exponentialAging config => config

/-- `create_aging`. -/
def createAging (config : AgingConfig K) : AgingFunction K :=
  match config.policy with
  | .linear => .linearAging config
  | .logarithmic => .logarithmicAging config
  | .exponential => .exponentialAging config

@[simp] theorem createAging_config (config : AgingConfig K) :
    (createAging config).config = config := by
  unfold createAging
  split <;> rfl

section Boost

variable [Field K] [LinearOrder K] (M : MathFns K)

/-- The last line of every `boost` method: the rise of the policy's curve,
capped, comes off the priority. -/
def AgingConfig.deduct (config : AgingConfig K) (rise basePriority : K) : K :=
  basePriority - min rise config.maxBoost

/-- `LinearAging.boost`. -/
def LinearAging.boost (config : AgingConfig K) (waitTimeSec basePriority : K) : K :=
  config.deduct (config.factor * waitTimeSec) basePriority

/-- `LogarithmicAging.boost`. -/
def LogarithmicAging.boost (config : AgingConfig K) (waitTimeSec basePriority : K) : K :=
  config.deduct (config.factor * M.log1p waitTimeSec * 100) basePriority

/-- `ExponentialAging.boost`. -/
def ExponentialAging.boost (config : AgingConfig K) (waitTimeSec basePriority : K) : K :=
  config.deduct (config.factor * (M.exp (min waitTimeSec 10 / 5) - 1) * 50) basePriority

/-- The `boost` method of an aging object. -/
def AgingFunction.boost : AgingFunction K → K → K → K
  | linearAging config => LinearAging.boost config
  | logarithmicAging config => LogarithmicAging.boost M config
  | exponentialAging config => ExponentialAging.boost M config

/-- What a policy takes off after a wait. -/
def AgingFunction.rise : AgingFunction K → K → K
  | linearAging config, w => config.factor * w
  | logarithmicAging config, w => config.factor * M.log1p w * 100
  | exponentialAging config, w => config.factor * (M.exp (min w 10 / 5) - 1) * 50

variable {M} {f : AgingFunction K} {w w' p : K}

/-- Every policy deducts its capped rise, whatever the priority. -/
theorem AgingFunction.boost_eq : f.boost M w p = p - min (f.rise M w) f.config.maxBoost := by
  cases f <;> rfl

variable [IsStrictOrderedRing K]

/-- **A longer wait rises further**, for a nonnegative factor. -/
theorem AgingFunction.rise_mono (hf : 0 ≤ f.config.factor) (hw : 0 ≤ w) (hww : w ≤ w') :
    f.rise M w ≤ f.rise M w' := by
  cases f with
  | linearAging config => exact mul_le_mul_of_nonneg_left hww hf
  | logarithmicAging config =>
    have hlog : M.log1p w ≤ M.log1p w' := M.log1p_mono hw hww
    exact mul_le_mul_of_nonneg_right (mul_le_mul_of_nonneg_left hlog hf) (by norm_num)
  | exponentialAging config =>
    have hcap : min w 10 / 5 ≤ min w' 10 / 5 :=
      div_le_div_of_nonneg_right (min_le_min_right 10 hww) (by norm_num)
    have hexp : M.exp (min w 10 / 5) - 1 ≤ M.exp (min w' 10 / 5) - 1 :=
      sub_le_sub_right (M.exp_mono hcap) 1
    exact mul_le_mul_of_nonneg_right (mul_le_mul_of_nonneg_left hexp hf) (by norm_num)

/-- And so takes at least as much off. -/
theorem AgingFunction.min_rise_mono (hf : 0 ≤ f.config.factor) (hw : 0 ≤ w) (hww : w ≤ w') :
    min (f.rise M w) f.config.maxBoost ≤ min (f.rise M w') f.config.maxBoost :=
  min_le_min_right _ (f.rise_mono hf hw hww)

end Boost

end VllmScheduler
