import VllmScheduler.Predictor.EarlyStopping
import VllmScheduler.Predictor.Scores
/-!
# From the dataset to what is served

`main` of `training/train.py` splits the dataset, trains, scores the best
checkpoint on the test split and exports it with the scores; `main` of
`training/evaluate.py` scores a checkpoint again. What is exported is then
loaded by `load_predictor`. Here these steps meet: the scores in
`metadata.json` are the scores of what is served, whatever the backend, and
where the splits agree the evaluation finds the same.

A script returns nothing where it raises, or where there is no training
sample, whose statistics are `nan`. The constructors a run goes through refuse
some settings (`Settings.Accepted`).
-/

namespace VllmScheduler

variable {V K Digest : Type} [Field K] [LinearOrder K]

/-! ## The scripts -/

/-- What the scripts run with: the hash, the permutations and the
correlations of the libraries, the new modules, what training does with them,
and the environment. -/
structure ScriptEnv (V K Digest : Type) [Field K] (cfg : TrainConfig K) where
  hash : String → Digest
  shuffle : Shuffle
  sqrt : K → K
  new : Initializer K
  dynamics : DatasetSplits V K → Dynamics cfg.modelConfig
  /-- `hasattr(torch, "compile")`. -/
  hasCompile : Bool
  /-- `pearson_spearman`. -/
  pearsonSpearman : List K → List K → Option (K × K)
  /-- `math.inf`. -/
  inf : K
  trainingDate : String
  gitSha : String

/-- The settings of `TrainConfig` that constructors check. What training does
with them is in `dynamics`. -/
structure Settings (K : Type) where
  seed : ℤ
  batchSize : ℤ
  lr : K
  weightDecay : K

/-- What `np.random.seed`, `nn.Dropout`, `DataLoader` and `AdamW` accept. -/
structure Settings.Accepted (settings : Settings K) (dropout : K) : Prop where
  seed : 0 ≤ settings.seed ∧ settings.seed < 2 ^ 32
  dropout : 0 ≤ dropout ∧ dropout ≤ 1
  batchSize : 0 < settings.batchSize
  adamW : 0 ≤ settings.lr ∧ 0 ≤ settings.weightDecay

/-- The `metrics` of `train.py`. -/
def testMetrics (mae rmse pearson spearman bestValLoss bestEpoch : K) : Dict String K where
  entries :=
    [("test_mae", mae), ("test_rmse", rmse), ("test_pearson", pearson),
      ("test_spearman", spearman), ("best_val_loss", bestValLoss), ("best_epoch", bestEpoch)]
  nodup := by simp

/-- The `results` of `evaluate.py`. -/
structure EvaluationReport (K : Type) where
  mae : K
  rmse : K
  r2 : K
  pearson : K
  spearman : K
  nTest : ℕ

variable {cfg : TrainConfig K} [FloorRing K] [DecidableEq Digest]

/-- The splits of `train.py`. -/
abbrev ScriptEnv.splits (env : ScriptEnv V K Digest cfg) (ds : DatasetConfig K)
    (samples : List (Sample V K)) : DatasetSplits V K :=
  trainSplits env.hash env.shuffle env.sqrt ds samples

/-- `main` of `train.py`; `dir` is `checkpoint_dir` before it runs. -/
def trainMain (env : ScriptEnv V K Digest cfg) (settings : Settings K) (ds : DatasetConfig K)
    (dir : Option (CheckpointDir K)) (modelVersion : Option String)
    (samples : List (Sample V K)) : Option (ExportDir K) := do
  let splits := env.splits ds samples
  let mean ← splits.featureMean
  let std ← splits.featureStd
  -- `_setup_seed`
  guard (0 ≤ settings.seed ∧ settings.seed < 2 ^ 32)
  -- `nn.Dropout` in `OutputLengthMLP`
  guard (0 ≤ cfg.dropout ∧ cfg.dropout ≤ 1)
  -- `_make_loaders`
  let _ ← toTensors splits.train mean std
  let _ ← toTensors splits.val mean std
  guard (0 < settings.batchSize)
  -- `AdamW`
  guard (0 ≤ settings.lr ∧ 0 ≤ settings.weightDecay)
  let run := train cfg env.new (env.dynamics splits) env.hasCompile splits dir
  let best ← run.dir.best
  let model ← (env.new (ModelConfig.default K)).loadStateDict best.state
  let test ← toTensors splits.test mean std
  let preds ← model.forward env.sqrt .eval test.1
  let correlations ← env.pearsonSpearman test.2 preds
  let metrics := testMetrics (meanAbsoluteError test.2 preds)
    (rootMeanSquareError env.sqrt test.2 preds) correlations.1 correlations.2
    (run.result.bestValLoss.untopD env.inf) run.result.bestEpoch
  exportModel env.new best.state mean std (some metrics) (modelVersion.getD "1.0.0")
    cfg.hiddenDim cfg.dropout env.trainingDate env.gitSha

/-- `main` of `evaluate.py` on a checkpoint. -/
def evaluateMain (env : ScriptEnv V K Digest cfg) (ds : DatasetConfig K)
    (checkpoint : StateDict K) (samples : List (Sample V K)) : Option (EvaluationReport K) := do
  let splits := evaluateSplits env.shuffle env.sqrt ds samples
  let mean ← splits.featureMean
  let std ← splits.featureStd
  let model ← (env.new (ModelConfig.default K)).loadStateDict checkpoint
  let test ← toTensors splits.test mean std
  let preds ← model.forward env.sqrt .eval test.1
  let correlations ← env.pearsonSpearman test.2 preds
  pure ⟨meanAbsoluteError test.2 preds, rootMeanSquareError env.sqrt test.2 preds,
    rSquared test.2 preds, correlations.1, correlations.2, test.2.length⟩

/-! ## Steps of the scripts -/

section Steps

variable {samples : List (Sample V K)} {mean std y : List K} {x : List (List K)} {n : ℕ}

omit [FloorRing K] in
/-- A table is made of its samples' rows, and there is none without samples. -/
theorem toTensors_eq_some (hmean : 2 ≤ mean.length) (h : toTensors samples mean std = some (x, y)) :
    samples ≠ [] ∧ y = samples.map Sample.actualOutputTokens ∧
      (samples.mapM fun s => normalise s.features mean (guardStd std)) = some x := by
  rcases samples with - | ⟨s, samples⟩
  · have hnil : broadcast (· - ·) [] mean = none := by
      rcases mean with - | ⟨a, - | ⟨b, mean⟩⟩
      · simp at hmean
      · simp at hmean
      · simp [broadcast]
    simp [toTensors, normalise, hnil] at h
  · rw [toTensors] at h
    split at h
    · obtain ⟨x', hx, heq⟩ := Option.map_eq_some_iff.mp h
      cases heq
      exact ⟨List.cons_ne_nil _ _, rfl, hx⟩
    · cases h

omit [FloorRing K] in
theorem exists_normalise {features : List K} (hmean : mean.length = n) (hstd : std.length = n)
    (hlen : features.length = n) :
    ∃ row, normalise features mean (guardStd std) = some row ∧ row.length = n := by
  rw [eq_map_range 0 hmean, eq_map_range 0 hstd]
  exact ⟨_, normalise_eq hlen, by simp⟩

omit [FloorRing K] in
/-- With samples there is one. -/
theorem exists_toTensors (hmean : mean.length = n) (hstd : std.length = n) (hne : samples ≠ [])
    (hlen : ∀ s ∈ samples, s.features.length = n) : ∃ x, toTensors samples mean std =
      some (x, samples.map Sample.actualOutputTokens) ∧ x.length = samples.length ∧
        ∀ row ∈ x, row.length = n := by
  rw [eq_map_range 0 hmean, eq_map_range 0 hstd]
  refine ⟨_, toTensors_eq _ _ hne hlen, List.length_map _, fun row hrow => ?_⟩
  obtain ⟨s, -, rfl⟩ := List.mem_map.mp hrow
  simp [standardRow]

omit [LinearOrder K] [FloorRing K] in
theorem ne_nil_of_columnMeans {rows : List (List K)} (h : columnMeans rows = some mean) :
    rows ≠ [] := by
  rintro rfl
  cases h

/-- The statistics a training set of at least one sample has. -/
theorem length_statistics {sqrt : K → K} {shuffle : Shuffle} {trainRatio valRatio : K} {seed : ℕ}
    (hlen : ∀ s ∈ samples, s.features.length = n)
    (hmean : (split shuffle sqrt samples trainRatio valRatio seed).featureMean = some mean)
    (hstd : (split shuffle sqrt samples trainRatio valRatio seed).featureStd = some std) :
    mean.length = n ∧ std.length = n := by
  have hne : (split shuffle sqrt samples trainRatio valRatio seed).train ≠ [] := fun hnil =>
    ne_nil_of_columnMeans hmean (List.map_eq_nil_iff.mpr hnil)
  obtain ⟨hmean', hstd'⟩ := split_statistics hlen hne
  rw [hmean', Option.some_inj] at hmean
  rw [hstd', Option.some_inj] at hstd
  subst hmean hstd
  simp

end Steps

/-! ## Checkpoints -/

section Checkpoints

variable {config config' : ModelConfig K} {m l : OutputLengthMLP config}
variable {m' l' : OutputLengthMLP config'} {state : StateDict K}

omit [LinearOrder K] [FloorRing K] [Field K] in
theorem loadStateDict_eq_some (h : m.loadStateDict state = some l) :
    m.Fits state ∧ l.stateDict = m.copied state := by
  rw [OutputLengthMLP.loadStateDict] at h
  split at h
  · cases h
    exact ⟨by assumption, rfl⟩
  · cases h

omit [LinearOrder K] [FloorRing K] [Field K] in
/-- A module takes the place of another of its configuration. -/
theorem loadStateDict_stateDict (m l : OutputLengthMLP config) :
    m.loadStateDict l.stateDict = some l := by
  have hfits := (OutputLengthMLP.fits_iff rfl m l).mpr rfl
  obtain ⟨l', hload, hstate⟩ := OutputLengthMLP.loadStateDict_of_fits hfits
  rw [OutputLengthMLP.copied_eq] at hstate
  rw [hload]
  cases l
  cases l'
  cases hstate
  rfl

omit [LinearOrder K] [FloorRing K] [Field K] in
/-- The first bias tells the size. -/
theorem exists_bias (h : m.Fits state) :
    ∃ t, state.get? ⟨0, 0, .bias⟩ = some t ∧ t.shape = [config.hiddenDim] := by
  obtain ⟨t, ht, hshape⟩ := m.get?_of_mem
    (show (⟨0, 0, .bias⟩, [config.hiddenDim]) ∈ config.parameterShapes by
      simp [ModelConfig.parameterShapes, ModelConfig.net, Layer.parameters])
  obtain ⟨u, hu, heq⟩ := h.shape_eq (Dict.mem_entries_iff.mpr ht)
  exact ⟨u, hu, heq.trans hshape⟩

omit [LinearOrder K] [FloorRing K] [Field K] in
/-- **Two modules that load one state** have one hidden size, and hold the
same afterwards. -/
theorem loaded_alike (h : m.loadStateDict state = some l) (h' : m'.loadStateDict state = some l') :
    config.hiddenDim = config'.hiddenDim ∧ l.stateDict = l'.stateDict := by
  obtain ⟨hfits, hl⟩ := loadStateDict_eq_some h
  obtain ⟨hfits', hl'⟩ := loadStateDict_eq_some h'
  constructor
  · obtain ⟨t, ht, hshape⟩ := exists_bias hfits
    obtain ⟨t', ht', hshape'⟩ := exists_bias hfits'
    rw [ht, Option.some_inj] at ht'
    rw [← ht', hshape] at hshape'
    exact (List.cons.inj hshape').1
  · rw [hl, hl']
    refine Dict.refill_congr (m.keys_eq m') fun k hk => ?_
    simpa using List.filter_eq_nil_iff.mp hfits.missing k hk

omit [LinearOrder K] [FloorRing K] [Field K] in
/-- What a trainer saves of a module loads into one of its sizes, unless it
was compiled. -/
theorem fits_saved_iff (hin : config.inputDim = config'.inputDim) (compiled : Bool) :
    m.Fits (m'.saved compiled) ↔ compiled = false ∧ config.hiddenDim = config'.hiddenDim := by
  cases compiled with
  | false => exact (OutputLengthMLP.fits_iff hin m m').trans (and_iff_right rfl).symm
  | true =>
    refine iff_of_false (fun hfits => ?_) fun h => Bool.noConfusion h.1
    obtain ⟨t, ht, -⟩ := exists_bias hfits
    have hmem := Dict.mem_entries_iff.mpr ht
    rw [OutputLengthMLP.saved, if_pos rfl] at hmem
    obtain ⟨e, -, heq⟩ := List.mem_map.mp hmem
    have hkey := congrArg (fun e => e.1.origMod) heq
    exact Nat.succ_ne_zero _ hkey

/-- `best.pt` is a module the trainer saved. -/
def TrainState.Saved (config : ModelConfig K) (compiled : Bool) (s : TrainState K) : Prop :=
  ∀ b, s.best = some b → ∃ w : OutputLengthMLP config, b.state = w.saved compiled

variable {dyn : Dynamics config} {compiled : Bool} {start : OutputLengthMLP config}

omit [FloorRing K] [Field K] in
theorem TrainState.Saved.epoch {s : TrainState K} (h : s.Saved config compiled) (n : ℕ) :
    (trainEpoch dyn compiled start n s).Saved config compiled := by
  intro b hb
  by_cases hlt : (dyn.measure start n).valLoss < s.bestVal
  · rw [trainEpoch, if_pos hlt] at hb
    cases hb
    exact ⟨_, rfl⟩
  · rw [trainEpoch, if_neg hlt] at hb
    exact h b hb

omit [FloorRing K] [Field K] in
theorem TrainState.Saved.loop {s : TrainState K} (h : s.Saved config compiled)
    (patience n epoch : ℕ) :
    (trainLoop dyn compiled patience start n epoch s).Saved config compiled := by
  induction n generalizing epoch s with
  | zero => exact h
  | succ n ih =>
    rw [trainLoop]
    split
    · exact h.epoch epoch
    · exact ih (h.epoch epoch) (epoch + 1)

end Checkpoints

/-! ## What is reported and what is served -/

section Reported

variable {env : ScriptEnv V K Digest cfg} {settings : Settings K} {ds : DatasetConfig K}
variable {dir : Option (CheckpointDir K)} {modelVersion : Option String}
variable {samples : List (Sample V K)} {out : ExportDir K}

omit [FloorRing K] in
/-- What training leaves in a new directory is a module it has saved. -/
theorem saved_trainNew (new : Initializer K) (dyn : Dynamics cfg.modelConfig) (hasCompile : Bool) :
    (trainNew cfg new dyn hasCompile none).Saved cfg.modelConfig (cfg.useCompile && hasCompile) :=
  TrainState.Saved.loop (fun b hb => by cases hb) _ _ _

omit [FloorRing K] in
/-- And it leaves one where some epoch measured a finite loss. -/
theorem finite_iff_best (new : Initializer K) (dyn : Dynamics cfg.modelConfig)
    (hasCompile : Bool) :
    (∃ m ∈ (trainNew cfg new dyn hasCompile none).history, m.valLoss < ⊤) ↔
      ∃ best, (trainNew cfg new dyn hasCompile none).best = some best := by
  have htracks : (trainNew cfg new dyn hasCompile none).Tracks none := tracks_trainNew none
  constructor
  · rintro ⟨m, hm, hlt⟩
    rcases htracks.kept with ⟨htop, -⟩ | ⟨-, -, b, hb, -⟩
    · have hle := htracks.least m hm
      rw [htop] at hle
      exact absurd hlt (not_lt.mpr hle)
    · exact ⟨b, hb⟩
  · rintro ⟨best, hbest⟩
    rcases htracks.kept with ⟨-, hnone⟩ | ⟨⟨m, hm, heq⟩, hlt, -⟩
    · rw [hnone] at hbest
      cases hbest
    · exact ⟨m, hm, heq ▸ hlt⟩

/-- What a run needs to export: settings that are accepted, three splits with
samples, two of them in the last, a network of the default size that was not
compiled, and an epoch of finite loss. -/
structure Exportable (env : ScriptEnv V K Digest cfg) (settings : Settings K) (ds : DatasetConfig K)
    (samples : List (Sample V K)) : Prop where
  accepted : settings.Accepted cfg.dropout
  hiddenDim : cfg.hiddenDim = 128
  compiled : (cfg.useCompile && env.hasCompile) = false
  train : (env.splits ds samples).train ≠ []
  val : (env.splits ds samples).val ≠ []
  test : 2 ≤ (env.splits ds samples).test.length
  finite : ∃ m ∈ (trainNew cfg env.new (env.dynamics (env.splits ds samples)) env.hasCompile
    none).history, m.valLoss < ⊤

/-- `scipy.stats` refuses fewer than two points. -/
def ScriptEnv.Correlates (env : ScriptEnv V K Digest cfg) : Prop :=
  ∀ y preds, y.length = preds.length → ((env.pearsonSpearman y preds).isSome ↔ 2 ≤ y.length)

/-- The samples of a split have the features of all. -/
theorem length_features_of_mem {s : Sample V K}
    (hlen : ∀ s ∈ samples, s.features.length = numFeatures)
    (hs : s ∈ (env.splits ds samples).train ∨
      s ∈ (env.splits ds samples).val ∨
      s ∈ (env.splits ds samples).test) :
    s.features.length = numFeatures :=
  hlen s (deduplicateLoop_sublist.mem (mem_of_mem_split hs))

/-- With training samples there are statistics. -/
theorem exists_statistics (env : ScriptEnv V K Digest cfg) (ds : DatasetConfig K)
    (hlen : ∀ s ∈ samples, s.features.length = numFeatures)
    (hne : (env.splits ds samples).train ≠ []) :
    ∃ mean std, (env.splits ds samples).featureMean = some mean ∧
      (env.splits ds samples).featureStd = some std ∧
      mean.length = numFeatures ∧ std.length = numFeatures := by
  have hlen' : ∀ s ∈ deduplicate env.hash samples, s.features.length = numFeatures := fun s hs =>
    hlen s (deduplicateLoop_sublist.mem hs)
  obtain ⟨hmean, hstd⟩ := split_statistics hlen' hne
  exact ⟨_, _, hmean, hstd, by simp, by simp⟩

/-- Such a run exports. -/
theorem exists_trainMain [IsStrictOrderedRing K]
    (hlen : ∀ s ∈ samples, s.features.length = numFeatures) (hcorr : env.Correlates)
    (hfresh : (dir.getD ⟨none, none⟩).best = none) (h : Exportable env settings ds samples) :
    ∃ out, trainMain env settings ds dir modelVersion samples = some out := by
  obtain ⟨mean, std, hmean, hstd, hmean_len, hstd_len⟩ :=
    exists_statistics env ds hlen h.train
  have htest_ne : (env.splits ds samples).test ≠ [] :=
    List.length_pos_iff.mp (Nat.lt_of_lt_of_le Nat.zero_lt_two h.test)
  obtain ⟨xTrain, hxTrain, -⟩ := exists_toTensors hmean_len hstd_len h.train
    fun s hs => length_features_of_mem hlen (Or.inl hs)
  obtain ⟨xVal, hxVal, -⟩ := exists_toTensors hmean_len hstd_len h.val
    fun s hs => length_features_of_mem hlen (Or.inr (Or.inl hs))
  obtain ⟨x, hx, hx_len, hrows⟩ := exists_toTensors hmean_len hstd_len htest_ne
    fun s hs => length_features_of_mem hlen (Or.inr (Or.inr hs))
  obtain ⟨best, hbest⟩ := (finite_iff_best _ _ _).mp h.finite
  obtain ⟨w, hw⟩ := saved_trainNew _ _ _ best hbest
  have hfits : ∀ config : ModelConfig K, config.inputDim = numFeatures →
      config.hiddenDim = 128 → (env.new config).Fits best.state := by
    intro config hin hdim
    rw [hw]
    exact (fits_saved_iff hin _).mpr ⟨h.compiled, hdim.trans h.hiddenDim.symm⟩
  obtain ⟨model, hmodel, -⟩ := OutputLengthMLP.loadStateDict_of_fits
    (hfits (ModelConfig.default K) rfl rfl)
  obtain ⟨m, hm, -⟩ := OutputLengthMLP.loadStateDict_of_fits
    (hfits (ModelConfig.ofDims cfg.hiddenDim cfg.dropout) rfl h.hiddenDim)
  obtain ⟨preds, hpreds, hpreds_len, -⟩ := model.forward_total env.sqrt .eval hrows
    (show (1 : K) ≤ 4096 by norm_num)
  obtain ⟨corr, hcorr'⟩ := Option.isSome_iff_exists.mp <|
    (hcorr ((env.splits ds samples).test.map
      Sample.actualOutputTokens) preds (by rw [List.length_map, hpreds_len, hx_len])).mpr
        (by rw [List.length_map]; exact h.test)
  have hfile : (train cfg env.new (env.dynamics (env.splits ds samples)) env.hasCompile
      (env.splits ds samples) dir).dir.best = some best := by
    show (trainNew cfg env.new _ env.hasCompile (dir.getD ⟨none, none⟩).best).best = _
    rw [hfresh]
    exact hbest
  simp only [trainMain, guard, if_pos h.accepted.seed, if_pos h.accepted.dropout,
    if_pos h.accepted.batchSize, if_pos h.accepted.adamW, hmean, hstd, hxTrain, hxVal, hfile,
    hmodel, hx, hpreds, hcorr', exportModel, hm, bind, pure, Option.bind_some]
  exact ⟨_, rfl⟩

/-- **When `train.py` exports**, in a directory without a `best.pt`. -/
theorem exports_iff [IsStrictOrderedRing K]
    (hlen : ∀ s ∈ samples, s.features.length = numFeatures) (hcorr : env.Correlates)
    (hfresh : (dir.getD ⟨none, none⟩).best = none) :
    (trainMain env settings ds dir modelVersion samples).isSome ↔
      Exportable env settings ds samples := by
  rw [Option.isSome_iff_exists]
  refine ⟨?_, exists_trainMain hlen hcorr hfresh⟩
  rintro ⟨out, h⟩
  simp only [trainMain, bind, Option.bind_eq_some_iff, Option.guard_eq_some'] at h
  obtain ⟨mean, hmean, std, hstd, -, hseed, -, hdropout, -, -, ⟨xVal, yVal⟩, hval, -, hbatch, -,
    hadam, best, hfile, model, hmodel, ⟨x, y⟩, htest, preds, hpreds, corr, hcorr', -⟩ := h
  have htrain : (env.splits ds samples).train ≠ [] := fun hnil =>
    ne_nil_of_columnMeans hmean (List.map_eq_nil_iff.mpr hnil)
  obtain ⟨mean', std', hmean', hstd', hmean_len, hstd_len⟩ := exists_statistics env ds hlen htrain
  obtain rfl := Option.some_inj.mp (hmean.symm.trans hmean')
  obtain rfl := Option.some_inj.mp (hstd.symm.trans hstd')
  have htwo : 2 ≤ mean.length := by
    rw [hmean_len]
    decide
  have hbest : (trainNew cfg env.new (env.dynamics (env.splits ds samples)) env.hasCompile
      none).best = some best := by
    rw [← hfresh]
    exact hfile
  obtain ⟨w, hw⟩ := saved_trainNew _ _ _ best hbest
  have hfits := (loadStateDict_eq_some hmodel).1
  rw [hw] at hfits
  have hin : (ModelConfig.default K).inputDim = cfg.modelConfig.inputDim := rfl
  obtain ⟨hcompiled, hdim⟩ := (fits_saved_iff hin _).mp hfits
  obtain ⟨htest_ne, rfl, -⟩ := toTensors_eq_some htwo htest
  -- the test table and its predictions are as long as the test split
  obtain ⟨x', hx', hx_len, hrows⟩ := exists_toTensors hmean_len hstd_len htest_ne
    fun s hs => length_features_of_mem hlen (Or.inr (Or.inr hs))
  obtain rfl : x = x' := congrArg Prod.fst (Option.some_inj.mp (htest.symm.trans hx'))
  obtain ⟨preds', hpreds', hpreds_len, -⟩ := model.forward_total env.sqrt .eval hrows
    (show (1 : K) ≤ 4096 by norm_num)
  obtain rfl := Option.some_inj.mp (hpreds.symm.trans hpreds')
  have htest_len := (hcorr _ preds (by rw [List.length_map, hpreds_len, hx_len])).mp
    (Option.isSome_iff_exists.mpr ⟨corr, hcorr'⟩)
  rw [List.length_map] at htest_len
  exact ⟨⟨hseed, hdropout, hbatch, hadam⟩, hdim.symm, hcompiled, htrain,
    (toTensors_eq_some htwo hval).1, htest_len, (finite_iff_best _ _ _).mpr ⟨best, hbest⟩⟩

/-- **The scores in `metadata.json` are those of what is served.** -/
theorem reported_as_served [IsStrictOrderedRing K]
    (hlen : ∀ s ∈ samples, s.features.length = numFeatures)
    (h : trainMain env settings ds dir modelVersion samples = some out) (new : Initializer K)
    (backend : String) :
    ∃ p preds, loadPredictorFrom new out backend = some p ∧
      ((env.splits ds samples).test.mapM fun s =>
        p.predict env.sqrt s.features) = some preds ∧
      out.metadata.metrics.get? "test_mae" = some (meanAbsoluteError
        ((env.splits ds samples).test.map
          Sample.actualOutputTokens) preds) ∧
      out.metadata.metrics.get? "test_rmse" = some (rootMeanSquareError env.sqrt
        ((env.splits ds samples).test.map
          Sample.actualOutputTokens) preds) ∧
      ∀ features, features.length = numFeatures →
        ∃ y, p.predict env.sqrt features = some y ∧ 1 ≤ y ∧ y ≤ 4096 := by
  simp only [trainMain, bind, Option.bind_eq_some_iff] at h
  obtain ⟨mean, hmean, std, hstd, -, -, -, -, -, -, -, -, -, -, -, -, best, -, model, hmodel,
    ⟨x, y⟩, htest, preds, hpreds, corr, -, hexport⟩ := h
  obtain ⟨m, hm, hdir, hmetrics⟩ := of_exportModel hexport
  obtain ⟨hdim, hstate⟩ := loaded_alike hm hmodel
  have hlen' : ∀ s ∈ deduplicate env.hash samples, s.features.length = numFeatures := fun s hs =>
    hlen s (deduplicateLoop_sublist.mem hs)
  obtain ⟨hmean_len, hstd_len⟩ := length_statistics hlen' hmean hstd
  have hne : mean ≠ [] := by
    rintro rfl
    cases hmean_len
  have hload : (loadPredictorFrom new out backend).isSome :=
    hdir.isSome_load_iff.mpr fun _ => hdim
  obtain ⟨p, hp⟩ := Option.isSome_iff_exists.mp hload
  have hserved : ∀ features, p.predict env.sqrt features =
      (normalise features mean (guardStd std)).bind (m.forwardRow env.sqrt .eval 0) :=
    hdir.predict hne hp
  have hrow : model.forwardRow env.sqrt .eval 0 = m.forwardRow env.sqrt .eval 0 :=
    funext fun x => OutputLengthMLP.forwardRow_eval model m hstate.symm hdim.symm rfl rfl
  obtain ⟨-, rfl, hrows⟩ := toTensors_eq_some (by rw [hmean_len]; decide) htest
  rw [OutputLengthMLP.forward_eval, hrow] at hpreds
  refine ⟨p, preds, hp, ?_, by rw [hmetrics]; rfl, by rw [hmetrics]; rfl, fun features hf => ?_⟩
  · simp only [hserved]
    exact mapM_bind_eq_some hrows hpreds
  · obtain ⟨row, hnorm, hrow_len⟩ := exists_normalise hmean_len hstd_len hf
    have hbounds : (1 : K) ≤ 4096 := by norm_num
    obtain ⟨y, hy, hle, hle'⟩ := m.forwardRow_total env.sqrt .eval 0 hrow_len hbounds
    exact ⟨y, by rw [hserved, hnorm]; exact hy, hle, hle'⟩

/-- **Where the splits agree, `evaluate.py` reports what `train.py` has
written**: no two prompts share a hash, and the ratios are the defaults. -/
theorem evaluate_reports_exported (hnodup : (samples.map fun s => env.hash s.prompt).Nodup)
    (htrain : ds.trainRatio = 8 / 10) (hval : ds.valRatio = 1 / 10)
    (h : trainMain env settings ds dir modelVersion samples = some out) :
    ∃ report, evaluateMain env ds out.outputLengthMlpPt samples = some report ∧
      out.metadata.metrics.get? "test_mae" = some report.mae ∧
      out.metadata.metrics.get? "test_rmse" = some report.rmse ∧
      out.metadata.metrics.get? "test_pearson" = some report.pearson ∧
      out.metadata.metrics.get? "test_spearman" = some report.spearman := by
  have hdedup : deduplicate env.hash samples = samples :=
    deduplicateLoop_eq_self_iff.mpr ⟨hnodup, fun s _ => Finset.notMem_empty _⟩
  have hsplits : env.splits ds samples =
      evaluateSplits env.shuffle env.sqrt ds samples := by
    rw [ScriptEnv.splits, trainSplits, evaluateSplits, hdedup, htrain, hval]
  simp only [trainMain, hsplits, bind, Option.bind_eq_some_iff] at h
  obtain ⟨mean, hmean, std, hstd, -, -, -, -, -, -, -, -, -, -, -, -, best, -, model, hmodel, test,
    htest, preds, hpreds, corr, hcorr, hexport⟩ := h
  obtain ⟨m, hm, hdir, hmetrics⟩ := of_exportModel hexport
  obtain ⟨-, hstate⟩ := loaded_alike hm hmodel
  -- the exported weights load, and give the module the scores are of
  have hreload : (env.new (ModelConfig.default K)).loadStateDict out.outputLengthMlpPt =
      some model := by
    rw [hdir.pt, hstate]
    exact loadStateDict_stateDict _ model
  refine ⟨⟨meanAbsoluteError test.2 preds, rootMeanSquareError env.sqrt test.2 preds,
    rSquared test.2 preds, corr.1, corr.2, test.2.length⟩, ?_, ?_⟩
  · simp only [evaluateMain, hmean, hstd, hreload, htest, hpreds, hcorr, bind, Option.bind_some]
    rfl
  · rw [hmetrics]
    exact ⟨rfl, rfl, rfl, rfl⟩

end Reported

/-! ## A run that exports -/

/-- One epoch of the default network on twenty samples. -/
def oneEpochEnv : ScriptEnv Unit ℚ String oneEpoch where
  hash := id
  shuffle := fun _ n => Equiv.refl (Fin n)
  sqrt := id
  new := OutputLengthMLP.filled 0
  dynamics := fun _ => flatDynamics
  hasCompile := true
  pearsonSpearman := fun y _ => if 2 ≤ y.length then some (0, 0) else none
  inf := 0
  trainingDate := ""
  gitSha := "unknown"

/-- The settings of `configs/training.yaml`. -/
def yamlSettings : Settings ℚ := ⟨42, 256, 1 / 1000, 1 / 10000⟩

def twentySamples : List (Sample Unit ℚ) :=
  (List.range 20).map fun i => ⟨toString i, List.replicate numFeatures (i : ℚ), i, []⟩

theorem length_twentySamples : ∀ s ∈ twentySamples, s.features.length = numFeatures := by
  intro s hs
  obtain ⟨i, -, rfl⟩ := List.mem_map.mp hs
  exact List.length_replicate

theorem oneEpochEnv_correlates : oneEpochEnv.Correlates := by
  intro y preds _
  show (if 2 ≤ y.length then some (0, 0) else none : Option (ℚ × ℚ)).isSome ↔ _
  by_cases h : 2 ≤ y.length
  · rw [if_pos h]
    exact iff_of_true rfl h
  · rw [if_neg h]
    exact iff_of_false Bool.false_ne_true h

theorem twentySamples_exportable :
    Exportable oneEpochEnv yamlSettings ⟨8 / 10, 1 / 10, none⟩ twentySamples where
  accepted := ⟨by decide, by decide +kernel, by decide, by decide +kernel⟩
  hiddenDim := rfl
  compiled := rfl
  train := by decide +kernel
  val := by decide +kernel
  test := by decide +kernel
  finite := ⟨_, List.mem_cons_self, WithTop.coe_lt_top _⟩

theorem exists_twentySamples :
    ∃ out, trainMain oneEpochEnv yamlSettings ⟨8 / 10, 1 / 10, none⟩ none none twentySamples =
      some out :=
  exists_trainMain length_twentySamples oneEpochEnv_correlates rfl twentySamples_exportable

theorem twentySamples_exports :
    (trainMain oneEpochEnv yamlSettings ⟨8 / 10, 1 / 10, none⟩ none none twentySamples).isSome :=
  (exports_iff length_twentySamples oneEpochEnv_correlates rfl).mpr twentySamples_exportable

theorem twentySamples_served :
    ∃ out p preds,
      trainMain oneEpochEnv yamlSettings ⟨8 / 10, 1 / 10, none⟩ none none twentySamples = some out ∧
      loadPredictorFrom (OutputLengthMLP.filled 0) out "pytorch" = some p ∧
      out.metadata.metrics.get? "test_mae" = some (meanAbsoluteError
        ((oneEpochEnv.splits ⟨8 / 10, 1 / 10, none⟩ twentySamples).test.map
          Sample.actualOutputTokens) preds) := by
  obtain ⟨out, hout⟩ := exists_twentySamples
  obtain ⟨p, preds, hp, -, hmae, -⟩ := reported_as_served length_twentySamples hout
    (OutputLengthMLP.filled 0) "pytorch"
  exact ⟨out, p, preds, hout, hp, hmae⟩

theorem twentySamples_evaluated :
    ∃ out report,
      trainMain oneEpochEnv yamlSettings ⟨8 / 10, 1 / 10, none⟩ none none twentySamples = some out ∧
      evaluateMain oneEpochEnv ⟨8 / 10, 1 / 10, none⟩ out.outputLengthMlpPt twentySamples =
        some report ∧
      out.metadata.metrics.get? "test_mae" = some report.mae := by
  obtain ⟨out, hout⟩ := exists_twentySamples
  obtain ⟨report, hreport, hmae, -⟩ := evaluate_reports_exported (by decide +kernel) rfl rfl hout
  exact ⟨out, report, hout, hreport, hmae⟩

end VllmScheduler
