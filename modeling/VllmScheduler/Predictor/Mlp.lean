import Mathlib.Algebra.BigOperators.Group.List.Basic
import Mathlib.Algebra.Field.Defs
import VllmScheduler.Common.Dict
import VllmScheduler.Common.Numerals
/-!
# The output-length network and its state dict

`OutputLengthMLP` of `python/predictor/model.py` as far as saving and loading
it goes: its layers, the parameters they have, and `load_state_dict`. A
module of a configuration is a state dict that has the parameters of the
configuration's layers, so a module of the wrong size cannot be built; what
a new module is initialised with is the environment's.

`load_state_dict` fails where a parameter is missing, where there is one too
many, or where a shape differs.
-/

namespace VllmScheduler

/-- A tensor: its shape and its entries. -/
structure Tensor (K : Type) where
  shape : List ℕ
  data : List K
  size : data.length = shape.prod
deriving DecidableEq

/-- A parameter of a layer. -/
inductive ParamField where
  | weight
  | bias
deriving DecidableEq

/-- The key `net.<index>.<field>` of a state dict, under an `_orig_mod.` for
each time the module was compiled. -/
structure ParamKey where
  origMod : ℕ
  index : ℕ
  field : ParamField
deriving DecidableEq

abbrev StateDict (K : Type) : Type := Dict ParamKey (Tensor K)

/-- A layer of `nn.Sequential`. -/
inductive Layer (K : Type) where
  | linear (inFeatures outFeatures : ℕ)
  | layerNorm (normalizedShape : ℕ)
  | relu
  | dropout (p : K)

/-- The parameters of a layer and their shapes. -/
def Layer.parameters {K : Type} : Layer K → List (ParamField × List ℕ)
  | .linear inFeatures outFeatures =>
    [(.weight, [outFeatures, inFeatures]), (.bias, [outFeatures])]
  | .layerNorm normalizedShape => [(.weight, [normalizedShape]), (.bias, [normalizedShape])]
  | .relu => []
  | .dropout _ => []

/-- `FEATURE_NAMES`. -/
def featureNames : List String :=
  ["prompt_token_count", "prompt_char_count", "word_count", "avg_token_length",
    "avg_word_length", "vocabulary_size", "unique_word_ratio", "prompt_entropy",
    "information_density", "punctuation_count", "question_mark_count", "exclamation_count",
    "period_count", "comma_count", "digit_count", "uppercase_ratio", "lowercase_ratio",
    "whitespace_ratio", "has_markdown", "has_code_fence", "has_python", "has_sql", "has_json",
    "has_xml", "has_yaml", "url_count", "newline_count", "conversation_turn_count",
    "has_system_prompt", "has_assistant_prompt", "has_user_prompt", "language_code",
    "unicode_ratio", "reasoning_score", "coding_probability", "stopword_ratio",
    "sentence_count", "avg_sentence_length", "named_entity_count", "embedding_norm"]

/-- `NUM_FEATURES`. -/
def numFeatures : ℕ := featureNames.length

/-- The hyperparameters of the network. -/
structure ModelConfig (K : Type) where
  inputDim : ℕ
  hiddenDim : ℕ
  dropout : K
  outputMin : K
  outputMax : K

namespace ModelConfig

variable {K : Type}

/-- `ModelConfig(hidden_dim, dropout)`. -/
def ofDims [Field K] (hiddenDim : ℕ) (dropout : K) : ModelConfig K :=
  ⟨numFeatures, hiddenDim, dropout, 1, 4096⟩

/-- `ModelConfig()`. -/
def default (K : Type) [Field K] : ModelConfig K := ofDims 128 (1 / 10)

/-- The layers of `net`. -/
def net (config : ModelConfig K) : List (Layer K) :=
  [.linear config.inputDim config.hiddenDim,
    .layerNorm config.hiddenDim,
    .relu,
    .dropout config.dropout,
    .linear config.hiddenDim (config.hiddenDim / 2),
    .layerNorm (config.hiddenDim / 2),
    .relu,
    .dropout config.dropout,
    .linear (config.hiddenDim / 2) 1]

/-- The keys of the state dict and the shapes of the parameters, in order. -/
def parameterShapes (config : ModelConfig K) : List (ParamKey × List ℕ) :=
  config.net.zipIdx.flatMap fun layer =>
    layer.1.parameters.map fun p => (⟨0, layer.2, p.1⟩, p.2)

/-- The keys do not depend on the configuration. -/
theorem map_fst_parameterShapes (config config' : ModelConfig K) :
    config.parameterShapes.map Prod.fst = config'.parameterShapes.map Prod.fst := rfl

theorem nodup_keys (config : ModelConfig K) : (config.parameterShapes.map Prod.fst).Nodup := by
  simp [parameterShapes, net, Layer.parameters]

end ModelConfig

/-- **A module of a configuration**: a state dict with its parameters. -/
structure OutputLengthMLP {K : Type} (config : ModelConfig K) where
  stateDict : StateDict K
  shapes : stateDict.entries.map (fun e => (e.1, e.2.shape)) = config.parameterShapes

/-- A tensor with all entries equal. -/
def Tensor.filled {K : Type} (x : K) (shape : List ℕ) : Tensor K :=
  ⟨shape, List.replicate shape.prod x, List.length_replicate⟩

/-- A module with all weights equal. -/
def OutputLengthMLP.filled {K : Type} (x : K) (config : ModelConfig K) :
    OutputLengthMLP config where
  stateDict :=
    { entries := config.parameterShapes.map fun p => (p.1, Tensor.filled x p.2)
      nodup := by
        rw [List.map_map]
        exact config.nodup_keys }
  shapes := by
    rw [List.map_map]
    exact List.map_id _

/-- What new modules are initialised with. -/
abbrev Initializer (K : Type) : Type := ∀ config : ModelConfig K, OutputLengthMLP config

namespace OutputLengthMLP

variable {K : Type} {config : ModelConfig K}

/-- The parameters a state dict lacks. -/
def missingKeys (m : OutputLengthMLP config) (state : StateDict K) : List ParamKey :=
  m.stateDict.keys.filter fun k => k ∉ state

/-- The entries that are no parameters. -/
def unexpectedKeys (m : OutputLengthMLP config) (state : StateDict K) : List ParamKey :=
  state.keys.filter fun k => k ∉ m.stateDict

/-- The parameters for which there is an entry of another shape. -/
def mismatchedKeys (m : OutputLengthMLP config) (state : StateDict K) : List ParamKey :=
  (m.stateDict.entries.filter fun e =>
    (state.get? e.1).any fun t => t.shape ≠ e.2.shape).map Prod.fst

/-- The state dict has the parameters of the module. -/
structure Fits (m : OutputLengthMLP config) (state : StateDict K) : Prop where
  missing : m.missingKeys state = []
  unexpected : m.unexpectedKeys state = []
  mismatched : m.mismatchedKeys state = []

instance (m : OutputLengthMLP config) (state : StateDict K) : Decidable (m.Fits state) :=
  decidable_of_iff (m.missingKeys state = [] ∧ m.unexpectedKeys state = [] ∧
      m.mismatchedKeys state = [])
    ⟨fun h => ⟨h.1, h.2.1, h.2.2⟩, fun h => ⟨h.missing, h.unexpected, h.mismatched⟩⟩

/-- What `load_state_dict` copies into the parameters. -/
def copied (m : OutputLengthMLP config) (state : StateDict K) : StateDict K :=
  m.stateDict.refill state

variable {m : OutputLengthMLP config} {state : StateDict K}

/-- Where the state dict fits, it has every parameter in its shape. -/
theorem Fits.shape_eq (h : m.Fits state) {e : ParamKey × Tensor K} (he : e ∈ m.stateDict.entries) :
    ∃ t, state.get? e.1 = some t ∧ t.shape = e.2.shape := by
  have hmem : e.1 ∈ state := by
    have hkey : e.1 ∈ m.stateDict.keys := List.mem_map_of_mem he
    have := List.filter_eq_nil_iff.mp h.missing e.1 hkey
    simpa using this
  obtain ⟨t, ht⟩ := Dict.mem_iff_exists.mp hmem
  refine ⟨t, ht, ?_⟩
  have := List.filter_eq_nil_iff.mp (List.map_eq_nil_iff.mp h.mismatched) e he
  simpa [ht] using this

theorem shapes_copied (h : m.Fits state) :
    (m.copied state).entries.map (fun e => (e.1, e.2.shape)) = config.parameterShapes := by
  rw [← m.shapes, copied, Dict.refill, List.map_map]
  refine List.map_congr_left fun e he => ?_
  obtain ⟨t, ht, hshape⟩ := h.shape_eq he
  simp [ht, hshape]

/-- `load_state_dict`. -/
def loadStateDict (m : OutputLengthMLP config) (state : StateDict K) :
    Option (OutputLengthMLP config) :=
  if h : m.Fits state then some ⟨m.copied state, shapes_copied h⟩ else none

/-! ## Loading the state of another module -/

/-- Every parameter is there, in its shape. -/
theorem get?_of_mem (m : OutputLengthMLP config) {k : ParamKey} {shape : List ℕ}
    (h : (k, shape) ∈ config.parameterShapes) :
    ∃ t, m.stateDict.get? k = some t ∧ t.shape = shape := by
  rw [← m.shapes, List.mem_map] at h
  obtain ⟨⟨k', t⟩, he, heq⟩ := h
  rw [Prod.mk.injEq] at heq
  obtain ⟨rfl, rfl⟩ := heq
  exact ⟨t, Dict.mem_entries_iff.mp he, rfl⟩

/-- All modules have the same keys. -/
theorem keys_eq (m : OutputLengthMLP config) {config' : ModelConfig K}
    (m' : OutputLengthMLP config') : m.stateDict.keys = m'.stateDict.keys := by
  have hkeys : ∀ {c : ModelConfig K} (m : OutputLengthMLP c),
      m.stateDict.keys = c.parameterShapes.map Prod.fst := by
    intro c m
    rw [← m.shapes, List.map_map]
    rfl
  rw [hkeys m, hkeys m', ModelConfig.map_fst_parameterShapes]

/-- **When one module loads the state of another**: where the hidden layers
have one size. -/
theorem fits_iff {config' : ModelConfig K} (hin : config.inputDim = config'.inputDim)
    (m : OutputLengthMLP config) (m' : OutputLengthMLP config') :
    m.Fits m'.stateDict ↔ config.hiddenDim = config'.hiddenDim := by
  constructor
  · -- the first bias tells the size
    intro h
    obtain ⟨t, ht, hshape⟩ := m.get?_of_mem
      (show (⟨0, 0, .bias⟩, [config.hiddenDim]) ∈ config.parameterShapes by
        simp [ModelConfig.parameterShapes, ModelConfig.net, Layer.parameters])
    obtain ⟨t', ht', hshape'⟩ := m'.get?_of_mem
      (show (⟨0, 0, .bias⟩, [config'.hiddenDim]) ∈ config'.parameterShapes by
        simp [ModelConfig.parameterShapes, ModelConfig.net, Layer.parameters])
    obtain ⟨u, hu, heq⟩ := h.shape_eq (Dict.mem_entries_iff.mpr ht)
    rw [ht', Option.some.injEq] at hu
    rw [← hu, hshape, hshape'] at heq
    exact (List.cons.inj heq).1.symm
  · intro hdim
    have hparams : config.parameterShapes = config'.parameterShapes := by
      simp [ModelConfig.parameterShapes, ModelConfig.net, Layer.parameters, hin, hdim]
    refine ⟨?_, ?_, ?_⟩
    · refine List.filter_eq_nil_iff.mpr fun k hk => ?_
      rw [m.keys_eq m'] at hk
      simpa using Dict.mem_iff.mpr hk
    · refine List.filter_eq_nil_iff.mpr fun k hk => ?_
      rw [← m.keys_eq m'] at hk
      simpa using Dict.mem_iff.mpr hk
    · refine List.map_eq_nil_iff.mpr (List.filter_eq_nil_iff.mpr fun e he => ?_)
      have hmem : (e.1, e.2.shape) ∈ config'.parameterShapes := by
        rw [← hparams, ← m.shapes]
        exact List.mem_map_of_mem (f := fun e => (e.1, e.2.shape)) he
      obtain ⟨t, ht, hshape⟩ := m'.get?_of_mem hmem
      simp [ht, hshape]

/-- What is loaded is the other module's state. -/
theorem copied_eq (m : OutputLengthMLP config) {config' : ModelConfig K}
    (m' : OutputLengthMLP config') : m.copied m'.stateDict = m'.stateDict :=
  Dict.refill_eq (m.keys_eq m')

theorem loadStateDict_of_fits (h : m.Fits state) :
    ∃ m', m.loadStateDict state = some m' ∧ m'.stateDict = m.copied state :=
  ⟨_, dif_pos h, rfl⟩

theorem loadStateDict_of_not_fits (h : ¬ m.Fits state) : m.loadStateDict state = none := dif_neg h

end OutputLengthMLP

end VllmScheduler
