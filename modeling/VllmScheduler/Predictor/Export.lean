import Mathlib.Algebra.Field.Rat
import VllmScheduler.Predictor.Mlp
import VllmScheduler.Predictor.Normalize
/-!
# Exporting a model and loading it again

`export_model` of `python/predictor/export.py` builds a module of the given
size, loads the checkpoint into it and writes what it has loaded, with a
`metadata.json` that says the size. `OutputLengthPredictor.from_checkpoint`
reads the normalisation arrays from that file and not the size: it loads the
weights into a module of the default one. So a model comes back only where
its hidden layer has 128 units.

A file is what it holds. JSON gives back the numbers it was given.
-/

namespace VllmScheduler

/-- `metadata.json` of an export. -/
structure ExportMetadata (K : Type) where
  modelVersion : String
  featureNames : List String
  numFeatures : ℕ
  featureMean : List K
  featureStd : List K
  hiddenDim : ℕ
  dropout : K
  trainingDate : String
  gitSha : String
  metrics : Dict String K

/-- A module of some configuration: what the traced artifacts compute. -/
abbrev AnyMLP (K : Type) : Type := (config : ModelConfig K) × OutputLengthMLP config

/-- The files an export writes. -/
structure ExportDir (K : Type) where
  /-- `output_length_mlp.pt`. -/
  outputLengthMlpPt : StateDict K
  /-- `output_length.ts`. -/
  outputLengthTs : AnyMLP K
  /-- `output_length.onnx`. -/
  outputLengthOnnx : AnyMLP K
  /-- `metadata.json`. -/
  metadata : ExportMetadata K

section Model

variable {K : Type} [Field K]

/-- `export_model`; nothing where the checkpoint does not load. The date
and the commit are the environment's. -/
def exportModel (new : Initializer K) (checkpoint : StateDict K) (featureMean featureStd : List K)
    (metrics : Option (Dict String K)) (modelVersion : String) (hiddenDim : ℕ) (dropout : K)
    (trainingDate gitSha : String) : Option (ExportDir K) := do
  let config := ModelConfig.ofDims hiddenDim dropout
  let model ← (new config).loadStateDict checkpoint
  pure
    { outputLengthMlpPt := model.stateDict
      outputLengthTs := ⟨config, model⟩
      outputLengthOnnx := ⟨config, model⟩
      metadata :=
        { modelVersion := modelVersion
          featureNames := featureNames
          numFeatures := numFeatures
          featureMean := featureMean
          featureStd := featureStd
          hiddenDim := hiddenDim
          dropout := dropout
          trainingDate := trainingDate
          gitSha := gitSha
          metrics := metrics.getD Dict.empty } }

/-- What the loaders read of `metadata.json`. -/
def ExportMetadata.norm (m : ExportMetadata K) : NormMetadata K :=
  ⟨some m.featureMean, some m.featureStd⟩

/-- The fields of `OutputLengthPredictor` a checkpoint decides. -/
structure OutputLengthPredictor (K : Type) [Field K] where
  model : OutputLengthMLP (ModelConfig.default K)
  arrays : NormArrays K

/-- `OutputLengthPredictor.from_checkpoint`, given what the two files hold;
nothing where the state does not load. -/
def fromCheckpoint (new : Initializer K) (path : StateDict K)
    (metadata : Option (ExportMetadata K)) : Option (OutputLengthPredictor K) := do
  let model ← (new (ModelConfig.default K)).loadStateDict path
  pure ⟨model, checkpointArrays (metadata.map ExportMetadata.norm)⟩

/-- What `load_predictor` returns. -/
inductive LoadedPredictor (K : Type) [Field K] where
  | pytorch (predictor : OutputLengthPredictor K)
  | onnx (session : AnyMLP K) (arrays : NormArrays K)
  | torchscript (model : AnyMLP K) (arrays : NormArrays K)

/-- `load_predictor` on a directory an export has written. -/
def loadPredictorFrom (new : Initializer K) (dir : ExportDir K) (backend : String) :
    Option (LoadedPredictor K) :=
  match loadPredictor backend with
  | .onnx => some (.onnx dir.outputLengthOnnx (loadNormArrays (some dir.metadata.norm)))
  | .torchscript =>
    some (.torchscript dir.outputLengthTs (loadNormArrays (some dir.metadata.norm)))
  | .pytorch => (fromCheckpoint new dir.outputLengthMlpPt (some dir.metadata)).map .pytorch

end Model

section RoundTrip

variable {K : Type} [Field K] {hiddenDim : ℕ} {dropout : K} {featureMean featureStd : List K}

/-- The loaded predictor is the exported model with its statistics. -/
def GivesBack (p : OutputLengthPredictor K) (weights : StateDict K) (mean std : List K) : Prop :=
  p.model.stateDict = weights ∧ p.arrays = ⟨some mean, some std⟩

/-- An export of a model under its own size succeeds, and keeps weights,
size and statistics. -/
theorem exportModel_eq_some (new : Initializer K)
    (m : OutputLengthMLP (ModelConfig.ofDims hiddenDim dropout)) (featureMean featureStd : List K)
    (metrics : Option (Dict String K)) (modelVersion trainingDate gitSha : String) :
    ∃ dir, exportModel new m.stateDict featureMean featureStd metrics modelVersion hiddenDim
        dropout trainingDate gitSha = some dir ∧
      dir.outputLengthMlpPt = m.stateDict ∧ dir.metadata.hiddenDim = hiddenDim ∧
      dir.metadata.norm = ⟨some featureMean, some featureStd⟩ := by
  have hfits := (OutputLengthMLP.fits_iff rfl (new (ModelConfig.ofDims hiddenDim dropout)) m).mpr
    rfl
  obtain ⟨model, hload, hstate⟩ := OutputLengthMLP.loadStateDict_of_fits hfits
  rw [OutputLengthMLP.copied_eq] at hstate
  simp only [exportModel, hload]
  exact ⟨_, rfl, hstate, rfl, rfl⟩

/-- A checkpoint of 128 hidden units loads, with its weights. -/
theorem fromCheckpoint_eq_some (new : Initializer K) {config : ModelConfig K}
    (hin : config.inputDim = numFeatures) (m : OutputLengthMLP config)
    (hdim : config.hiddenDim = 128) (metadata : Option (ExportMetadata K)) :
    ∃ p, fromCheckpoint new m.stateDict metadata = some p ∧ p.model.stateDict = m.stateDict ∧
      p.arrays = checkpointArrays (metadata.map ExportMetadata.norm) := by
  have hfits := (OutputLengthMLP.fits_iff hin.symm (new (ModelConfig.default K)) m).mpr hdim.symm
  obtain ⟨model, hload, hstate⟩ := OutputLengthMLP.loadStateDict_of_fits hfits
  rw [OutputLengthMLP.copied_eq] at hstate
  simp only [fromCheckpoint, hload]
  exact ⟨_, rfl, hstate, rfl⟩

/-- One of any other size does not. -/
theorem fromCheckpoint_eq_none (new : Initializer K) {config : ModelConfig K}
    (hin : config.inputDim = numFeatures) (m : OutputLengthMLP config)
    (hdim : config.hiddenDim ≠ 128) (metadata : Option (ExportMetadata K)) :
    fromCheckpoint new m.stateDict metadata = none := by
  have hfits : ¬ (new (ModelConfig.default K)).Fits m.stateDict := fun h =>
    hdim ((OutputLengthMLP.fits_iff hin.symm _ m).mp h).symm
  simp only [fromCheckpoint, OutputLengthMLP.loadStateDict_of_not_fits hfits]
  rfl

omit [Field K] in
/-- `from_checkpoint` keeps statistics that have a mean. -/
theorem checkpointArrays_eq_iff :
    checkpointArrays (some ⟨some featureMean, some featureStd⟩) =
      ⟨some featureMean, some featureStd⟩ ↔ featureMean ≠ [] := by
  rcases featureMean with - | ⟨x, mean⟩ <;> simp [checkpointArrays]

/-- With the `pytorch` backend `load_predictor` is `from_checkpoint`. -/
theorem loadPredictorFrom_pytorch (new : Initializer K) (dir : ExportDir K) :
    loadPredictorFrom new dir "pytorch" =
      (fromCheckpoint new dir.outputLengthMlpPt (some dir.metadata)).map .pytorch := rfl

/-- **When an export comes back.** For every size, every dropout, every
trained model of them and all statistics: the export succeeds, and
`from_checkpoint` and `load_predictor` with the `pytorch` backend both load
it with its weights and statistics exactly where the hidden layer has 128
units and the exported mean is not empty. -/
theorem export_round_trip_iff (new : Initializer K)
    (m : OutputLengthMLP (ModelConfig.ofDims hiddenDim dropout)) (featureMean featureStd : List K)
    (metrics : Option (Dict String K)) (modelVersion trainingDate gitSha : String) :
    ∃ dir, exportModel new m.stateDict featureMean featureStd metrics modelVersion hiddenDim
        dropout trainingDate gitSha = some dir ∧
      ((∃ p, fromCheckpoint new dir.outputLengthMlpPt (some dir.metadata) = some p ∧
          GivesBack p m.stateDict featureMean featureStd) ∧
        (∃ p, loadPredictorFrom new dir "pytorch" = some (.pytorch p) ∧
          GivesBack p m.stateDict featureMean featureStd) ↔
        hiddenDim = 128 ∧ featureMean ≠ []) := by
  obtain ⟨dir, hexport, hpt, -, hnorm⟩ := exportModel_eq_some new m featureMean featureStd metrics
    modelVersion trainingDate gitSha
  refine ⟨dir, hexport, ?_⟩
  rw [loadPredictorFrom_pytorch, hpt]
  by_cases hdim : hiddenDim = 128
  · obtain ⟨p, hp, hweights, harrays⟩ := fromCheckpoint_eq_some new rfl m hdim (some dir.metadata)
    have hback : GivesBack p m.stateDict featureMean featureStd ↔ featureMean ≠ [] := by
      rw [GivesBack, hweights, harrays, Option.map_some, hnorm, checkpointArrays_eq_iff]
      exact and_iff_right rfl
    simp [hp, hback, hdim]
  · have hnone := fromCheckpoint_eq_none new rfl m hdim (some dir.metadata)
    simp [hnone, hdim]

end RoundTrip

/-- A model of 64 hidden units, exported as one, does not load. -/
theorem narrow_model_lost :
    ∃ dir, exportModel (OutputLengthMLP.filled 0)
        (OutputLengthMLP.filled 0 (ModelConfig.ofDims 64 (1 / 10 : ℚ))).stateDict [1] [1] none
        "1.0.0" 64 (1 / 10) "" "" = some dir ∧
      dir.metadata.hiddenDim = 64 ∧
      fromCheckpoint (OutputLengthMLP.filled 0) dir.outputLengthMlpPt (some dir.metadata) = none ∧
      loadPredictorFrom (OutputLengthMLP.filled 0) dir "pytorch" = none := by
  set m := OutputLengthMLP.filled 0 (ModelConfig.ofDims 64 (1 / 10 : ℚ))
  obtain ⟨dir, hexport, hpt, hdim, -⟩ := exportModel_eq_some (OutputLengthMLP.filled 0) m [1] [1]
    none "1.0.0" "" ""
  have hnone := fromCheckpoint_eq_none (OutputLengthMLP.filled 0) rfl m (by decide)
    (some dir.metadata)
  refine ⟨dir, hexport, hdim, by rw [hpt, hnone], ?_⟩
  rw [loadPredictorFrom_pytorch, hpt, hnone]
  rfl

end VllmScheduler
