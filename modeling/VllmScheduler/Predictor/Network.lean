import VllmScheduler.Predictor.Export
import VllmScheduler.Predictor.Standardize
/-!
# What the output-length network computes

`OutputLengthMLP.forward` of `python/predictor/model.py`, layer by layer over
the state dict, and the `predict` methods of the three backends on top of it.
A layer raises where a parameter is missing or a size does not fit; sizes are
checked through the layers as types are through a program
(`Layer.outDim`, `sequential_total`), so a module raises on no row of its
input size. Square roots are a parameter, and a training pass is given the
entries its dropout layers keep.
-/

namespace VllmScheduler

variable {K : Type} [Field K] [LinearOrder K]

/-! ## Layers -/

/-- `model.train()` or `model.eval()`. In training a dropout layer keeps an
entry or not, by the layer, the row and the place in it. -/
inductive Mode where
  | eval
  | train (keeps : ℕ → ℕ → ℕ → Bool)

/-- Row `i` of a matrix of some width. -/
def Tensor.row (t : Tensor K) (width i : ℕ) : List K := (t.data.drop (i * width)).take width

/-- `F.linear` on one row. -/
def linearRow (weight bias : Tensor K) (x : List K) : Option (List K) :=
  match weight.shape with
  | [outFeatures, inFeatures] =>
    if x.length = inFeatures ∧ bias.shape = [outFeatures] then
      some <| (List.range outFeatures).map fun i =>
        (List.zipWith (· * ·) (weight.row inFeatures i) x).sum + bias.data.getD i 0
    else none
  | _ => none

/-- The `eps` of `nn.LayerNorm`. -/
def layerNormEps (K : Type) [Field K] : K := 1 / 100000

/-- `F.layer_norm` on one row. -/
def layerNormRow (sqrt : K → K) (normalizedShape : ℕ) (weight bias : Tensor K) (x : List K) :
    Option (List K) :=
  if x.length = normalizedShape ∧ weight.shape = [normalizedShape] ∧
      bias.shape = [normalizedShape] then
    let scale := sqrt (varianceOf x + layerNormEps K)
    some <| (List.range normalizedShape).map fun i =>
      (x.getD i 0 - meanOf x) / scale * weight.data.getD i 0 + bias.data.getD i 0
  else none

/-- `nn.Dropout` on one row of a layer. -/
def dropoutRow (mode : Mode) (p : K) (index row : ℕ) (x : List K) : List K :=
  match mode with
  | .eval => x
  | .train keeps => x.zipIdx.map fun e => if keeps index row e.2 then e.1 / (1 - p) else 0

/-- Layer number `index` of a module, on one row of a batch. -/
def Layer.apply (sqrt : K → K) (mode : Mode) (row : ℕ) (state : StateDict K) (index : ℕ)
    (layer : Layer K) (x : List K) : Option (List K) :=
  match layer with
  | .linear _ _ => do
    let weight ← state.get? ⟨0, index, .weight⟩
    let bias ← state.get? ⟨0, index, .bias⟩
    linearRow weight bias x
  | .layerNorm normalizedShape => do
    let weight ← state.get? ⟨0, index, .weight⟩
    let bias ← state.get? ⟨0, index, .bias⟩
    layerNormRow sqrt normalizedShape weight bias x
  | .relu => some (x.map fun v => max v 0)
  | .dropout p => some (dropoutRow mode p index row x)

/-- `nn.Sequential` on one row. -/
def sequential (sqrt : K → K) (mode : Mode) (row : ℕ) (state : StateDict K)
    (layers : List (Layer K × ℕ)) (x : List K) : Option (List K) :=
  layers.foldlM (fun x layer => layer.1.apply sqrt mode row state layer.2 x) x

/-- `torch.clamp`. -/
def clamp (lo hi x : K) : K := min (max x lo) hi

namespace OutputLengthMLP

variable {config : ModelConfig K}

/-- `OutputLengthMLP.forward` on one row. The last layer has one output,
whose axis `squeeze` drops. -/
def forwardRow (sqrt : K → K) (mode : Mode) (m : OutputLengthMLP config) (row : ℕ) (x : List K) :
    Option K := do
  match ← sequential sqrt mode row m.stateDict config.net.zipIdx x with
  | [out] => some (clamp config.outputMin config.outputMax out)
  | _ => none

/-- `OutputLengthMLP.forward`. -/
def forward (sqrt : K → K) (mode : Mode) (m : OutputLengthMLP config) (x : List (List K)) :
    Option (List K) :=
  x.zipIdx.mapM fun row => m.forwardRow sqrt mode row.2 row.1

/-- `OutputLengthMLP.predict`. -/
def predict (sqrt : K → K) (m : OutputLengthMLP config) (features : List (List K)) :
    Option (List K) :=
  m.forward sqrt .eval features

end OutputLengthMLP

/-! ## Backends -/

/-- `.item()`: of an array with one entry. -/
def item (out : List K) : Option K :=
  match out with
  | [y] => some y
  | _ => none

/-- `OutputLengthPredictor.predict`, after the features are extracted. -/
def OutputLengthPredictor.predict (sqrt : K → K) (p : OutputLengthPredictor K)
    (features : List K) : Option K := do
  let tensor ← toTensor p.arrays features
  let out ← p.model.predict sqrt [tensor]
  item out

/-- `ONNXPredictor.predict`. -/
def onnxPredict (sqrt : K → K) (session : AnyMLP K) (a : NormArrays K) (features : List K) :
    Option K := do
  let arr ← onnxInput a features
  let out ← session.2.forward sqrt .eval [arr]
  item out

/-- `TorchScriptPredictor.predict`. -/
def torchScriptPredict (sqrt : K → K) (model : AnyMLP K) (a : NormArrays K) (features : List K) :
    Option K := do
  let tensor ← torchScriptInput a features
  let out ← model.2.forward sqrt .eval [tensor]
  item out

/-- `predict` of what `load_predictor` returns. -/
def LoadedPredictor.predict (sqrt : K → K) (p : LoadedPredictor K) (features : List K) :
    Option K :=
  match p with
  | .pytorch predictor => predictor.predict sqrt features
  | .onnx session arrays => onnxPredict sqrt session arrays features
  | .torchscript model arrays => torchScriptPredict sqrt model arrays features

/-! ## Sizes -/

/-- The size a layer makes of a size; nothing where it does not take it. -/
def Layer.outDim (layer : Layer K) (n : ℕ) : Option ℕ :=
  match layer with
  | .linear inFeatures outFeatures => if n = inFeatures then some outFeatures else none
  | .layerNorm normalizedShape => if n = normalizedShape then some n else none
  | .relu => some n
  | .dropout _ => some n

/-- The state dict has the parameters of layer number `index`. -/
def Layer.Has (state : StateDict K) (index : ℕ) (layer : Layer K) : Prop :=
  ∀ p ∈ layer.parameters, ∃ t, state.get? ⟨0, index, p.1⟩ = some t ∧ t.shape = p.2

section Sizes

variable {index n : ℕ} {state : StateDict K} {x : List K}

omit [LinearOrder K] in
theorem length_dropoutRow {mode : Mode} {p : K} {row : ℕ} :
    (dropoutRow mode p index row x).length = x.length := by
  cases mode <;> simp [dropoutRow]

/-- One layer raises on no row of a size it takes. -/
theorem Layer.apply_total (sqrt : K → K) (mode : Mode) (row : ℕ) {layer : Layer K}
    (hhas : layer.Has state index) (hdim : layer.outDim x.length = some n) :
    ∃ y, layer.apply sqrt mode row state index x = some y ∧ y.length = n := by
  cases layer with
  | linear inFeatures outFeatures =>
    obtain ⟨w, hw, hwshape⟩ := hhas (.weight, [outFeatures, inFeatures]) List.mem_cons_self
    obtain ⟨b, hb, hbshape⟩ :=
      hhas (.bias, [outFeatures]) (List.mem_cons_of_mem _ List.mem_cons_self)
    obtain ⟨hin, rfl⟩ : x.length = inFeatures ∧ outFeatures = n := by
      simpa [Layer.outDim] using hdim
    have hrow : linearRow w b x = some ((List.range outFeatures).map fun i =>
        (List.zipWith (· * ·) (w.row inFeatures i) x).sum + b.data.getD i 0) := by
      rw [linearRow, hwshape]
      exact if_pos ⟨hin, hbshape⟩
    exact ⟨_, by simp only [Layer.apply, hw, hb]; exact hrow, by simp⟩
  | layerNorm normalizedShape =>
    obtain ⟨w, hw, hwshape⟩ := hhas (.weight, [normalizedShape]) List.mem_cons_self
    obtain ⟨b, hb, hbshape⟩ :=
      hhas (.bias, [normalizedShape]) (List.mem_cons_of_mem _ List.mem_cons_self)
    obtain ⟨hin, hout⟩ : x.length = normalizedShape ∧ x.length = n := by
      simpa [Layer.outDim] using hdim
    exact ⟨_, by simp only [Layer.apply, hw, hb]; exact if_pos ⟨hin, hwshape, hbshape⟩,
      by simp [← hin, hout]⟩
  | relu => exact ⟨_, rfl, by simpa [Layer.outDim] using hdim⟩
  | dropout p => exact ⟨_, rfl, by simpa [Layer.outDim, length_dropoutRow] using hdim⟩

/-- **And layers in a row raise on none whose size fits through them.** -/
theorem sequential_total (sqrt : K → K) (mode : Mode) (row : ℕ) {layers : List (Layer K × ℕ)}
    (hhas : ∀ l ∈ layers, l.1.Has state l.2)
    (hdim : layers.foldlM (fun n l => l.1.outDim n) x.length = some n) :
    ∃ y, sequential sqrt mode row state layers x = some y ∧ y.length = n := by
  induction layers generalizing x with
  | nil => exact ⟨x, rfl, Option.some_inj.mp hdim⟩
  | cons l layers ih =>
    rw [List.foldlM_cons] at hdim
    obtain ⟨m, hm, hrest⟩ := Option.bind_eq_some_iff.mp hdim
    obtain ⟨y, hy, hlen⟩ := Layer.apply_total sqrt mode row (hhas l List.mem_cons_self) hm
    obtain ⟨z, hz, hzlen⟩ := ih (fun l' hl' => hhas l' (List.mem_cons_of_mem _ hl'))
      (hlen ▸ hrest)
    refine ⟨z, ?_, hzlen⟩
    rw [sequential, List.foldlM_cons, hy]
    exact hz

end Sizes

namespace OutputLengthMLP

variable {config : ModelConfig K} {sqrt : K → K} {row : ℕ} {x : List K}

omit [LinearOrder K] [Field K] in
theorem has_net (m : OutputLengthMLP config) :
    ∀ l ∈ config.net.zipIdx, l.1.Has m.stateDict l.2 := by
  intro l hl p hp
  refine m.get?_of_mem (List.mem_flatMap.mpr ⟨l, hl, ?_⟩)
  exact List.mem_map.mpr ⟨p, hp, rfl⟩

/-- **A module raises on no row of its input size**, in either mode, and what
it returns is between the bounds of its configuration. -/
theorem forwardRow_total (m : OutputLengthMLP config) (sqrt : K → K) (mode : Mode) (row : ℕ)
    (hx : x.length = config.inputDim) (hbounds : config.outputMin ≤ config.outputMax) :
    ∃ y, m.forwardRow sqrt mode row x = some y ∧ config.outputMin ≤ y ∧ y ≤ config.outputMax := by
  have hdim : config.net.zipIdx.foldlM (fun n l => l.1.outDim n) x.length = some 1 := by
    simp [ModelConfig.net, Layer.outDim, hx]
  obtain ⟨out, hout, hlen⟩ := sequential_total sqrt mode row m.has_net hdim
  obtain ⟨y, rfl⟩ := List.length_eq_one_iff.mp hlen
  refine ⟨clamp config.outputMin config.outputMax y, ?_, le_min (le_max_right _ _) hbounds,
    min_le_right _ _⟩
  rw [forwardRow, hout]
  rfl

/-- **Nor on a batch of them.** -/
theorem forward_total (m : OutputLengthMLP config) (sqrt : K → K) (mode : Mode)
    {rows : List (List K)} (hrows : ∀ x ∈ rows, x.length = config.inputDim)
    (hbounds : config.outputMin ≤ config.outputMax) :
    ∃ out, m.forward sqrt mode rows = some out ∧ out.length = rows.length ∧
      ∀ y ∈ out, config.outputMin ≤ y ∧ y ≤ config.outputMax := by
  have hrow : ∀ r ∈ rows.zipIdx, ∃ y, m.forwardRow sqrt mode r.2 r.1 = some y ∧
      config.outputMin ≤ y ∧ y ≤ config.outputMax := fun r hr =>
    m.forwardRow_total sqrt mode r.2 (hrows r.1 (List.fst_mem_of_mem_zipIdx hr)) hbounds
  obtain ⟨out, hout, hlen, hmem⟩ := exists_mapM hrow
  exact ⟨out, hout, by simpa using hlen, hmem⟩

/-- Without dropout, what is computed of a row does not depend on its place
in the batch, and of the configuration only the sizes matter. -/
theorem forwardRow_eval {config' : ModelConfig K} (m : OutputLengthMLP config)
    (m' : OutputLengthMLP config') (hstate : m.stateDict = m'.stateDict)
    (hdim : config.hiddenDim = config'.hiddenDim) (hmin : config.outputMin = config'.outputMin)
    (hmax : config.outputMax = config'.outputMax) :
    m.forwardRow sqrt .eval row x = m'.forwardRow sqrt .eval 0 x := by
  have hseq : sequential sqrt .eval row m.stateDict config.net.zipIdx x =
      sequential sqrt .eval 0 m'.stateDict config'.net.zipIdx x := by
    rw [hstate]
    simp [sequential, ModelConfig.net, hdim, Layer.apply, dropoutRow]
  rw [forwardRow, forwardRow, hseq, hmin, hmax]

theorem forward_eval (m : OutputLengthMLP config) (rows : List (List K)) :
    m.forward sqrt .eval rows = rows.mapM (m.forwardRow sqrt .eval 0) := by
  have hrow : ∀ (i : ℕ) (x : List K),
      m.forwardRow sqrt .eval i x = m.forwardRow sqrt .eval 0 x := fun i x =>
    forwardRow_eval m m rfl rfl rfl rfl
  have hfst : (rows.zipIdx.map Prod.fst).mapM (m.forwardRow sqrt .eval 0) =
      rows.zipIdx.mapM fun r => m.forwardRow sqrt .eval 0 r.1 := List.mapM_map
  rw [List.zipIdx_map_fst] at hfst
  rw [hfst, forward]
  simp only [hrow]

theorem item_forward (m : OutputLengthMLP config) (x : List K) :
    (m.forward sqrt .eval [x]).bind item = m.forwardRow sqrt .eval 0 x := by
  rw [forward_eval, List.mapM_cons, List.mapM_nil]
  cases m.forwardRow sqrt .eval 0 x <;> rfl

end OutputLengthMLP

/-! ## Serving an export -/

/-- The directory holds an export of a module with statistics. -/
structure ExportDir.Of {config : ModelConfig K} (dir : ExportDir K) (m : OutputLengthMLP config)
    (mean std : List K) : Prop where
  pt : dir.outputLengthMlpPt = m.stateDict
  ts : dir.outputLengthTs = ⟨config, m⟩
  onnx : dir.outputLengthOnnx = ⟨config, m⟩
  norm : dir.metadata.norm = ⟨some mean, some std⟩

section Serving

variable {new : Initializer K} {checkpoint : StateDict K} {mean std : List K} {hiddenDim : ℕ}
variable {dropout : K} {metrics : Option (Dict String K)} {version date sha backend : String}
variable {dir : ExportDir K} {p : LoadedPredictor K} {sqrt : K → K}
variable {m : OutputLengthMLP (ModelConfig.ofDims hiddenDim dropout)}

omit [LinearOrder K] in
/-- What an export writes. -/
theorem of_exportModel (h : exportModel new checkpoint mean std metrics version hiddenDim dropout
      date sha = some dir) :
    ∃ m, (new (ModelConfig.ofDims hiddenDim dropout)).loadStateDict checkpoint = some m ∧
      dir.Of m mean std ∧ dir.metadata.metrics = metrics.getD Dict.empty := by
  obtain ⟨m, hm, hdir⟩ := Option.bind_eq_some_iff.mp h
  cases hdir
  exact ⟨m, hm, ⟨rfl, rfl, rfl, rfl⟩, rfl⟩

omit [LinearOrder K] in
/-- The exported backends always load, and PyTorch where the hidden layer has
the default size. -/
theorem ExportDir.Of.isSome_load_iff (hdir : dir.Of m mean std) :
    (loadPredictorFrom new dir backend).isSome ↔
      (loadPredictor backend = .pytorch → hiddenDim = 128) := by
  rw [loadPredictorFrom]
  cases loadPredictor backend with
  | onnx => simp
  | torchscript => simp
  | pytorch =>
    rw [hdir.pt]
    by_cases hdim : hiddenDim = 128
    · obtain ⟨p, hp, -⟩ := fromCheckpoint_eq_some new rfl m hdim (some dir.metadata)
      simp [hp, hdim]
    · have hnone := fromCheckpoint_eq_none new rfl m hdim (some dir.metadata)
      simp [hnone, hdim]

/-- **Every backend that loads computes the exported network**, on the
features normalised by the exported statistics. -/
theorem ExportDir.Of.predict (hdir : dir.Of m mean std) (hne : mean ≠ [])
    (hload : loadPredictorFrom new dir backend = some p) (features : List K) :
    p.predict sqrt features =
      (normalise features mean (guardStd std)).bind (m.forwardRow sqrt .eval 0) := by
  have hserve : (fun arr => (m.forward sqrt .eval [arr]).bind item) = m.forwardRow sqrt .eval 0 :=
    funext m.item_forward
  have hdim : loadPredictor backend = .pytorch → hiddenDim = 128 :=
    hdir.isSome_load_iff.mp (Option.isSome_iff_exists.mpr ⟨p, hload⟩)
  rw [loadPredictorFrom] at hload
  cases hbackend : loadPredictor backend with
  | onnx =>
    simp only [hbackend, Option.some_inj] at hload
    subst hload
    rw [LoadedPredictor.predict, hdir.onnx, hdir.norm, ← hserve]
    rfl
  | torchscript =>
    simp only [hbackend, Option.some_inj] at hload
    subst hload
    rw [LoadedPredictor.predict, hdir.ts, hdir.norm, ← hserve]
    rfl
  | pytorch =>
    obtain ⟨q, hq, hstate, harrays⟩ :=
      fromCheckpoint_eq_some new rfl m (hdim hbackend) (some dir.metadata)
    simp only [hbackend, hdir.pt, hq, Option.map_some, Option.some_inj] at hload
    subst hload
    have hmodel : m.forwardRow sqrt .eval 0 = q.model.forwardRow sqrt .eval 0 :=
      funext fun x => OutputLengthMLP.forwardRow_eval m q.model hstate.symm (hdim hbackend) rfl rfl
    rw [Option.map_some, hdir.norm, checkpointArrays_eq_iff.mpr hne] at harrays
    rw [LoadedPredictor.predict, hmodel, ← funext q.model.item_forward,
      OutputLengthPredictor.predict, harrays]
    rfl

end Serving

end VllmScheduler
