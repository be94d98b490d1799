import Mathlib.Algebra.Field.Rat
import Mathlib.Algebra.Order.Field.Basic
import Mathlib.Algebra.Order.Ring.Rat
import VllmScheduler.Common.Numerals
/-!
# What the inference backends feed the network

`predictor/predictor.py` and `predictor/inference.py` normalise the features
three times over. They mean the same by it where there are statistics, and
different things where there are none: the PyTorch backend turns an empty
mean into `None` and feeds the features as they are, while the ONNX and
TorchScript backends keep the empty array, which numpy then refuses to
subtract. Arrays are lists over an ordered field; a result of `none` is an
exception.
-/

namespace VllmScheduler

variable {K : Type} [Field K] [LinearOrder K]

/-- The statistics of `metadata.json`; a key may be missing. -/
structure NormMetadata (K : Type) where
  featureMean : Option (List K)
  featureStd : Option (List K)

/-- The arrays a backend has kept, `None` where it has none. -/
structure NormArrays (K : Type) where
  mean : Option (List K)
  std : Option (List K)

/-- The backends of `load_predictor`. -/
inductive Backend where
  | pytorch
  | onnx
  | torchscript
deriving DecidableEq

/-- The backend `load_predictor` builds for its argument. -/
def loadPredictor (backend : String) : Backend :=
  if backend = "onnx" then .onnx else if backend = "torchscript" then .torchscript else .pytorch

/-- An arithmetic operation of numpy on two arrays of one dimension: a
length of 1 is stretched, and lengths that do not fit raise. -/
def broadcast {α : Type} (op : α → α → α) (xs ys : List α) : Option (List α) :=
  if xs.length = ys.length then some (List.zipWith op xs ys)
  else
    match xs, ys with
    | xs, [y] => some (xs.map fun x => op x y)
    | [x], ys => some (ys.map fun y => op x y)
    | _, _ => none

/-- What `np.where(std < 1e-8, 1.0, std)` makes of one entry. -/
def safeDivisor (std : K) : K := if std < 1 / 100000000 then 1 else std

/-- `np.where(std < 1e-8, 1.0, std)`. -/
def guardStd (std : List K) : List K := std.map safeDivisor

/-- `(arr - mean) / std`. -/
def normalise (arr mean std : List K) : Option (List K) :=
  (broadcast (· - ·) arr mean).bind fun centred => broadcast (· / ·) centred std

/-- The arrays `from_checkpoint` keeps; `metadata` is missing where there is
no file. -/
def checkpointArrays (metadata : Option (NormMetadata K)) : NormArrays K :=
  match metadata with
  | none => ⟨none, none⟩
  | some m =>
    let mean := m.featureMean.getD []
    let std := m.featureStd.getD []
    if mean.length = 0 then ⟨none, none⟩ else ⟨some mean, some std⟩

/-- `_load_norm_arrays`. -/
def loadNormArrays (metadata : Option (NormMetadata K)) : NormArrays K :=
  match metadata with
  | none => ⟨none, none⟩
  | some m => ⟨some (m.featureMean.getD []), some (m.featureStd.getD [])⟩

/-- `OutputLengthPredictor._to_tensor`. -/
def toTensor (a : NormArrays K) (features : List K) : Option (List K) :=
  match a.mean, a.std with
  | some mean, some std => normalise features mean (guardStd std)
  | _, _ => some features

/-- The array `ONNXPredictor.predict` runs the session on. It only looks
whether there is a mean. -/
def onnxInput (a : NormArrays K) (features : List K) : Option (List K) :=
  match a.mean with
  | some mean => a.std.bind fun std => normalise features mean (guardStd std)
  | none => some features

/-- The array `TorchScriptPredictor.predict` runs the model on. -/
def torchScriptInput (a : NormArrays K) (features : List K) : Option (List K) :=
  match a.mean, a.std with
  | some mean, some std => normalise features mean (guardStd std)
  | _, _ => some features

/-- What a backend built on a directory with this `metadata.json` feeds its
network. -/
def networkInput (backend : Backend) (metadata : Option (NormMetadata K)) (features : List K) :
    Option (List K) :=
  match backend with
  | .pytorch => toTensor (checkpointArrays metadata) features
  | .onnx => onnxInput (loadNormArrays metadata) features
  | .torchscript => torchScriptInput (loadNormArrays metadata) features

/-- A list of statistics: missing, empty, or one for each feature. -/
def StatsForm (stats : Option (List K)) : Prop :=
  stats = none ∨ stats = some [] ∨ ∃ l, stats = some l ∧ l.length = 40

section Agreement

variable {features mean std : List K} {metadata : Option (NormMetadata K)} {m : NormMetadata K}

omit [Field K] [LinearOrder K] in
theorem length_getD (h : StatsForm m.featureMean) :
    (m.featureMean.getD []).length = 0 ∨ (m.featureMean.getD []).length = 40 := by
  rcases h with h | h | ⟨l, h, hl⟩
  · exact Or.inl (by rw [h]; rfl)
  · exact Or.inl (by rw [h]; rfl)
  · exact Or.inr (by rw [h]; exact hl)

omit [Field K] [LinearOrder K] in
/-- An empty array does not stretch. -/
theorem broadcast_nil {op : K → K → K} {xs : List K} (h : 2 ≤ xs.length) :
    broadcast op xs [] = none := by
  rcases xs with - | ⟨x, - | ⟨y, xs⟩⟩
  · simp at h
  · simp at h
  · simp [broadcast]

omit [LinearOrder K] in
/-- An empty mean cannot be subtracted. -/
theorem normalise_nil (hf : features.length = 40) : normalise features [] std = none := by
  rw [normalise, broadcast_nil (by omega)]
  rfl

/-- The two exported backends never differ. -/
theorem onnx_eq_torchscript :
    networkInput .onnx metadata features = networkInput .torchscript metadata features := by
  cases metadata <;> rfl

/-- With a mean, all three do the same. -/
theorem pytorch_eq_onnx (hm : (m.featureMean.getD []).length ≠ 0) :
    networkInput .pytorch (some m) features = networkInput .onnx (some m) features := by
  simp only [networkInput, checkpointArrays, loadNormArrays, if_neg hm, toTensor, onnxInput,
    Option.bind_some]

/-- With an empty one, PyTorch feeds the features as they are and ONNX
fails. -/
theorem empty_mean (hf : features.length = 40) (hm : (m.featureMean.getD []).length = 0) :
    networkInput .pytorch (some m) features = some features ∧
      networkInput .onnx (some m) features = none := by
  have hnil : m.featureMean.getD [] = [] := List.length_eq_zero_iff.mp hm
  constructor
  · simp only [networkInput, checkpointArrays, if_pos hm, toTensor]
  · simp only [networkInput, loadNormArrays, onnxInput, Option.bind_some, hnil]
    exact normalise_nil hf

end Agreement

/-- **When the backends feed the network the same input.** For statistics
that are missing, empty or complete, and any 40 features, whatever
`load_predictor` builds agrees (or fails alike) exactly where there is no
`metadata.json` or it has a mean. -/
theorem backends_agree_iff {metadata : Option (NormMetadata K)} {features : List K}
    (hf : features.length = 40)
    (hmeta : ∀ m ∈ metadata, StatsForm m.featureMean ∧ StatsForm m.featureStd) :
    (∀ b b' : String, networkInput (loadPredictor b) metadata features =
        networkInput (loadPredictor b') metadata features) ↔
      ∀ m ∈ metadata, (m.featureMean.getD []).length = 40 := by
  rcases metadata with - | m
  · refine iff_of_true (fun b b' => ?_) fun m hm => absurd hm (Option.not_mem_none m)
    cases loadPredictor b <;> cases loadPredictor b' <;> rfl
  · obtain ⟨hmean, -⟩ := hmeta m rfl
    rcases length_getD hmean with hzero | hforty
    · obtain ⟨hpytorch, honnx⟩ := empty_mean hf hzero
      refine iff_of_false (fun h => ?_) fun h => ?_
      · have heq : networkInput .pytorch (some m) features =
            networkInput .onnx (some m) features := h "pytorch" "onnx"
        rw [hpytorch, honnx] at heq
        cases heq
      · have hlen := h m rfl
        omega
    · have hne : (m.featureMean.getD []).length ≠ 0 := by omega
      refine iff_of_true (fun b b' => ?_) fun m' hm' => ?_
      · have hall : ∀ b : Backend,
            networkInput b (some m) features = networkInput .onnx (some m) features := by
          intro b
          cases b with
          | pytorch => exact pytorch_eq_onnx hne
          | onnx => rfl
          | torchscript => exact onnx_eq_torchscript.symm
        rw [hall (loadPredictor b), hall (loadPredictor b')]
      · rw [← Option.some.inj hm']
        exact hforty

/-- `metadata.json` with empty statistics, as a test of the source has it:
the PyTorch backend feeds the features, the others raise. -/
theorem empty_statistics_differ :
    networkInput (loadPredictor "pytorch") (some ⟨some [], some []⟩) (List.replicate 40 (3 : ℚ)) =
      some (List.replicate 40 3) ∧
    networkInput (loadPredictor "onnx") (some ⟨some [], some []⟩) (List.replicate 40 (3 : ℚ)) =
      none ∧
    networkInput (loadPredictor "torchscript") (some ⟨some [], some []⟩)
      (List.replicate 40 (3 : ℚ)) = none := by
  decide +kernel

/-- With 40 means and 40 deviations all of them feed the same. -/
theorem full_statistics_agree :
    networkInput .pytorch (some ⟨some (List.replicate 40 1), some (List.replicate 40 2)⟩)
        (List.replicate 40 (3 : ℚ)) = some (List.replicate 40 1) ∧
    ∀ b b' : String,
      networkInput (loadPredictor b)
          (some ⟨some (List.replicate 40 1), some (List.replicate 40 2)⟩)
          (List.replicate 40 (3 : ℚ)) =
        networkInput (loadPredictor b')
          (some ⟨some (List.replicate 40 1), some (List.replicate 40 2)⟩)
          (List.replicate 40 (3 : ℚ)) := by
  refine ⟨by decide +kernel, (backends_agree_iff List.length_replicate ?_).mpr ?_⟩
  · intro m hm
    rw [← Option.some.inj hm]
    exact ⟨Or.inr (Or.inr ⟨_, rfl, List.length_replicate⟩),
      Or.inr (Or.inr ⟨_, rfl, List.length_replicate⟩)⟩
  · intro m hm
    rw [← Option.some.inj hm]
    exact List.length_replicate

end VllmScheduler
