import Mathlib.Algebra.Field.Rat
import Mathlib.Order.WithBot
import VllmScheduler.Predictor.Dataset
import VllmScheduler.Predictor.Mlp
/-!
# Training, and what resuming it keeps

`Trainer.train` and `Trainer.resume` of `python/predictor/trainer.py`. What
an epoch makes of the weights and what it measures are arbitrary functions
of the weights the run starts from and of the epoch's number; the loop, its
running best, its patience and the files it writes are the source's.

`resume` loads the checkpoint into a module it then drops, copies it to
`resume_base.pt` and calls `train`. So a resumed run is a new one: it starts
from newly initialised weights, and its running best starts at infinity, so
that its first epoch with a finite loss overwrites `best.pt`. Which epochs
it has depends on the losses alone (`Reached`).
-/

namespace VllmScheduler

/-- The fields of `TrainConfig` the loop and the module depend on. What the
others do is part of the dynamics. -/
structure TrainConfig (K : Type) where
  hiddenDim : ℕ
  dropout : K
  epochs : ℕ
  patience : ℕ
  useCompile : Bool

/-- The configuration of the module a trainer trains. -/
def TrainConfig.modelConfig {K : Type} [Field K] (cfg : TrainConfig K) : ModelConfig K :=
  ModelConfig.ofDims cfg.hiddenDim cfg.dropout

/-- What an epoch measures; a validation loss may be infinite. -/
structure EpochMeasures (K : Type) where
  trainLoss : WithTop K
  valLoss : WithTop K
  valMae : K
  valRmse : K
  valR2 : K
  lr : K

/-- `TrainMetrics`. -/
structure TrainMetrics (K : Type) extends EpochMeasures K where
  epoch : ℕ

/-- **The dynamics of training**: the weights after so many epochs and what
the epoch measures, as functions of the weights at the start. -/
structure Dynamics {K : Type} (config : ModelConfig K) where
  weights : OutputLengthMLP config → ℕ → OutputLengthMLP config
  measure : OutputLengthMLP config → ℕ → EpochMeasures K

/-- A file written by `torch.save`, with the validation loss of the weights
in it. The file does not hold the loss. -/
structure Checkpoint (K : Type) where
  state : StateDict K
  valLoss : WithTop K

/-- The files of `checkpoint_dir`. -/
structure CheckpointDir (K : Type) where
  best : Option (Checkpoint K)
  resumeBase : Option (Checkpoint K)

/-- The `checkpoint` argument of `resume`. -/
inductive CheckpointPath (K : Type) where
  /-- `best.pt` in `checkpoint_dir`. -/
  | best
  /-- `resume_base.pt` in `checkpoint_dir`. -/
  | resumeBase
  /-- A path elsewhere, and the file there. -/
  | elsewhere (file : Option (Checkpoint K))

/-- The file at a path. -/
def CheckpointPath.read {K : Type} (dir : Option (CheckpointDir K)) :
    CheckpointPath K → Option (Checkpoint K)
  | .best => dir.bind CheckpointDir.best
  | .resumeBase => dir.bind CheckpointDir.resumeBase
  | .elsewhere file => file

/-- The variables of the training loop, and `best.pt`. -/
structure TrainState (K : Type) where
  bestVal : WithTop K
  bestEpoch : ℕ
  patienceCounter : ℕ
  history : List (TrainMetrics K)
  best : Option (Checkpoint K)

/-- `TrainResult`; its `checkpoint_path` is that of `best.pt`. -/
structure TrainResult (K : Type) where
  bestEpoch : ℕ
  bestValLoss : WithTop K
  metricsHistory : List (TrainMetrics K)
  featureMean : Option (List K)
  featureStd : Option (List K)

/-- A run of `train`: the weights its first epoch starts from, the files it
leaves, and what it returns. -/
structure TrainRun (K : Type) where
  start : StateDict K
  dir : CheckpointDir K
  result : TrainResult K

/-- `model.state_dict()`, of a module that may have been compiled. -/
def OutputLengthMLP.saved {K : Type} {config : ModelConfig K} (m : OutputLengthMLP config)
    (compiled : Bool) : StateDict K :=
  if compiled then
    { entries := m.stateDict.entries.map fun e => ({ e.1 with origMod := e.1.origMod + 1 }, e.2)
      nodup := by
        have hinj : Function.Injective fun k : ParamKey => { k with origMod := k.origMod + 1 } := by
          rintro ⟨n, i, f⟩ ⟨n', i', f'⟩ h
          simpa using h
        have := m.stateDict.nodup.map hinj
        rwa [List.map_map] at this ⊢ }
  else m.stateDict

section Train

variable {K V : Type} [LinearOrder K] {config : ModelConfig K}

/-- The body of the loop up to the patience test: the metrics are logged, and
an improvement is saved. -/
def trainEpoch (dyn : Dynamics config) (compiled : Bool) (start : OutputLengthMLP config)
    (epoch : ℕ) (s : TrainState K) : TrainState K :=
  let measures := dyn.measure start epoch
  let metrics : TrainMetrics K := { measures with epoch := epoch }
  let s := { s with history := s.history ++ [metrics] }
  if measures.valLoss < s.bestVal then
    { s with
      bestVal := measures.valLoss
      bestEpoch := epoch
      patienceCounter := 0
      best := some ⟨(dyn.weights start epoch).saved compiled, measures.valLoss⟩ }
  else { s with patienceCounter := s.patienceCounter + 1 }

/-- The loop over the epochs that are left. It stops early where an epoch
was not an improvement and the patience is used up. -/
def trainLoop (dyn : Dynamics config) (compiled : Bool) (patience : ℕ)
    (start : OutputLengthMLP config) : ℕ → ℕ → TrainState K → TrainState K
  | 0, _, s => s
  | n + 1, epoch, s =>
    let s' := trainEpoch dyn compiled start epoch s
    if ¬ (dyn.measure start epoch).valLoss < s.bestVal ∧ patience ≤ s'.patienceCounter then s'
    else trainLoop dyn compiled patience start n (epoch + 1) s'

variable [Field K]

/-- The loop of `train` on a new module; `best` is the `best.pt` it finds and
`hasCompile` is `hasattr(torch, "compile")`. -/
def trainNew (cfg : TrainConfig K) (new : Initializer K) (dyn : Dynamics cfg.modelConfig)
    (hasCompile : Bool) (best : Option (Checkpoint K)) : TrainState K :=
  trainLoop dyn (cfg.useCompile && hasCompile) cfg.patience (new cfg.modelConfig) cfg.epochs 1
    ⟨⊤, 0, 0, [], best⟩

/-- `Trainer.train`. -/
def train (cfg : TrainConfig K) (new : Initializer K) (dyn : Dynamics cfg.modelConfig)
    (hasCompile : Bool) (splits : DatasetSplits V K) (dir : Option (CheckpointDir K)) :
    TrainRun K :=
  let dir := dir.getD ⟨none, none⟩
  let s := trainNew cfg new dyn hasCompile dir.best
  { start := (new cfg.modelConfig).stateDict
    dir := { dir with best := s.best }
    result := ⟨s.bestEpoch, s.bestVal, s.history, splits.featureMean, splits.featureStd⟩ }

/-- `Trainer.resume`; nothing where it raises: the file is missing, its state
does not fit a module of the default size, or there is no `checkpoint_dir`
to write to. -/
def resume (cfg : TrainConfig K) (new : Initializer K) (dyn : Dynamics cfg.modelConfig)
    (hasCompile : Bool) (splits : DatasetSplits V K) (dir : Option (CheckpointDir K))
    (path : CheckpointPath K) : Option (TrainRun K) := do
  let checkpoint ← path.read dir
  let _ ← (new (ModelConfig.default K)).loadStateDict checkpoint.state
  let files ← dir
  pure (train cfg new dyn hasCompile splits (some { files with resumeBase := some checkpoint }))

end Train

/-! ## What the loop keeps -/

section Loop

variable {K : Type} [LinearOrder K] {config : ModelConfig K} {dyn : Dynamics config}
variable {compiled : Bool} {start : OutputLengthMLP config} {old : Option (Checkpoint K)}
variable {s : TrainState K}

/-- The running best is the least loss measured so far, and `best.pt` holds
weights of that loss; before the first finite one it is the old file. -/
structure TrainState.Tracks (s : TrainState K) (old : Option (Checkpoint K)) : Prop where
  least : ∀ m ∈ s.history, s.bestVal ≤ m.valLoss
  kept : s.bestVal = ⊤ ∧ s.best = old ∨
    (∃ m ∈ s.history, m.valLoss = s.bestVal) ∧ s.bestVal < ⊤ ∧
      ∃ b, s.best = some b ∧ b.valLoss = s.bestVal

theorem TrainState.Tracks.epoch (h : s.Tracks old) (n : ℕ) :
    (trainEpoch dyn compiled start n s).Tracks old := by
  by_cases hlt : (dyn.measure start n).valLoss < s.bestVal
  · rw [trainEpoch, if_pos hlt]
    refine ⟨fun m hm => ?_, Or.inr ⟨⟨_, List.mem_append_right _ List.mem_cons_self, rfl⟩,
      hlt.trans_le le_top, _, rfl, rfl⟩⟩
    rcases List.mem_append.mp hm with hm | hm
    · exact hlt.le.trans (h.least m hm)
    · rw [List.mem_singleton.mp hm]
  · rw [trainEpoch, if_neg hlt]
    refine ⟨fun m hm => ?_, h.kept.imp_right fun ⟨⟨m, hm, heq⟩, hrest⟩ =>
      ⟨⟨m, List.mem_append_left _ hm, heq⟩, hrest⟩⟩
    rcases List.mem_append.mp hm with hm | hm
    · exact h.least m hm
    · rw [List.mem_singleton.mp hm]
      exact not_lt.mp hlt

theorem TrainState.Tracks.loop (h : s.Tracks old) (patience n epoch : ℕ) :
    (trainLoop dyn compiled patience start n epoch s).Tracks old := by
  induction n generalizing epoch s with
  | zero => exact h
  | succ n ih =>
    rw [trainLoop]
    split
    · exact h.epoch epoch
    · exact ih (h.epoch epoch) (epoch + 1)

/-- What the new `best.pt` may be worse than: an old one of loss `l` is
matched exactly where no epoch was finite or one measured `l` or less. -/
theorem TrainState.Tracks.best_le_iff {c : Checkpoint K} (h : s.Tracks (some c)) :
    (∀ b, s.best = some b → b.valLoss ≤ c.valLoss) ↔
      (∀ m ∈ s.history, m.valLoss = ⊤) ∨ ∃ m ∈ s.history, m.valLoss ≤ c.valLoss := by
  rcases h.kept with ⟨htop, hbest⟩ | ⟨⟨m, hm, heq⟩, hfin, b, hb, hloss⟩
  · refine iff_of_true (fun b hb => ?_) (Or.inl fun m hm => ?_)
    · rw [hbest, Option.some.injEq] at hb
      rw [hb]
    · exact top_le_iff.mp (htop ▸ h.least m hm)
  · constructor
    · intro hall
      exact Or.inr ⟨m, hm, heq ▸ hloss ▸ hall b hb⟩
    · rintro (htop | ⟨m', hm', hle⟩) b' hb'
      · rw [← heq, htop m hm] at hfin
        exact absurd hfin (lt_irrefl _)
      · rw [hb, Option.some.injEq] at hb'
        rw [← hb', hloss]
        exact (h.least m' hm').trans hle

end Loop

/-! ## Which epochs are run -/

section Epochs

variable {K : Type} [LinearOrder K] {f : ℕ → WithTop K} {epochs patience e : ℕ}

/-- Epoch `e` measures a finite loss below all those before it. -/
def Improves (f : ℕ → WithTop K) (e : ℕ) : Prop := f e < ⊤ ∧ ∀ j, 1 ≤ j → j < e → f e < f j

/-- Epoch `e` uses the patience up: none of the last `patience` epochs, it
being one of them, was an improvement. -/
def UsesUp (f : ℕ → WithTop K) (patience e : ℕ) : Prop :=
  max 1 patience ≤ e ∧ ∀ j, e < j + max 1 patience → j ≤ e → ¬ Improves f j

/-- Epoch `n` is asked for and no epoch before it uses the patience up. -/
def Reached (f : ℕ → WithTop K) (epochs patience n : ℕ) : Prop :=
  1 ≤ n ∧ n ≤ epochs ∧ ∀ e, e < n → ¬ UsesUp f patience e

variable {config : ModelConfig K} {dyn : Dynamics config} {compiled : Bool}
variable {start : OutputLengthMLP config} {s : TrainState K}

/-- The validation loss of an epoch. -/
def Dynamics.loss (dyn : Dynamics config) (start : OutputLengthMLP config) (epoch : ℕ) :
    WithTop K :=
  (dyn.measure start epoch).valLoss

/-- What an epoch appends to the history. -/
def Dynamics.metrics (dyn : Dynamics config) (start : OutputLengthMLP config) (epoch : ℕ) :
    TrainMetrics K :=
  { dyn.measure start epoch with epoch := epoch }

omit [LinearOrder K] in
theorem map_metrics_succ (dyn : Dynamics config) (start : OutputLengthMLP config) (e : ℕ) :
    (List.range' 1 (e + 1)).map (dyn.metrics start) =
      (List.range' 1 e).map (dyn.metrics start) ++ [dyn.metrics start (e + 1)] := by
  rw [List.range'_concat, List.map_append, Nat.one_mul, Nat.add_comm 1 e]
  rfl

/-- The counter after an epoch starts again or goes on. -/
theorem patienceCounter_trainEpoch (dyn : Dynamics config) (compiled : Bool)
    (start : OutputLengthMLP config) (epoch : ℕ) (s : TrainState K) :
    (trainEpoch dyn compiled start epoch s).patienceCounter =
      if (dyn.measure start epoch).valLoss < s.bestVal then 0 else s.patienceCounter + 1 := by
  rw [trainEpoch]
  split <;> rfl

/-- **The loop after `e` epochs.** The history holds them all, the running
best is the least of their losses, and the counter says for how many of them
there was no improvement. -/
structure TrainState.Ran (dyn : Dynamics config) (start : OutputLengthMLP config) (e : ℕ)
    (s : TrainState K) : Prop where
  history : s.history = (List.range' 1 e).map (dyn.metrics start)
  bestVal : ∀ x, x < s.bestVal ↔ x < ⊤ ∧ ∀ j, 1 ≤ j → j ≤ e → x < dyn.loss start j
  counter : ∀ k, k ≤ s.patienceCounter ↔
    k ≤ e ∧ ∀ j, e < j + k → j ≤ e → ¬ Improves (dyn.loss start) j

namespace TrainState.Ran

theorem init {best : Option (Checkpoint K)} : TrainState.Ran dyn start 0 ⟨⊤, 0, 0, [], best⟩ where
  history := rfl
  bestVal := fun x => (and_iff_left fun j hj hj' => by omega).symm
  counter := fun k => by
    constructor
    · intro hk
      obtain rfl := Nat.le_zero.mp hk
      exact ⟨le_rfl, fun j hj hj' => by omega⟩
    · exact fun hk => hk.1

/-- The test of the loop body asks whether the next epoch improves. -/
theorem improves_iff (h : s.Ran dyn start e) :
    (dyn.measure start (e + 1)).valLoss < s.bestVal ↔ Improves (dyn.loss start) (e + 1) := by
  rw [h.bestVal]
  exact and_congr_right fun _ => forall₂_congr fun j _ => by rw [Nat.lt_succ_iff]; rfl

theorem epoch (h : s.Ran dyn start e) :
    (trainEpoch dyn compiled start (e + 1) s).Ran dyn start (e + 1) := by
  have hhistory : s.history ++ [dyn.metrics start (e + 1)] =
      (List.range' 1 (e + 1)).map (dyn.metrics start) := by
    rw [h.history, map_metrics_succ]
  by_cases hlt : (dyn.measure start (e + 1)).valLoss < s.bestVal
  · have himp := h.improves_iff.mp hlt
    rw [trainEpoch, if_pos hlt]
    refine ⟨hhistory, fun x => ⟨fun hx => ⟨hx.trans_le le_top, fun j hj hj' => ?_⟩, fun hx => ?_⟩,
      fun k => ⟨fun hk => ⟨?_, fun j hj hj' => ?_⟩, fun hk => ?_⟩⟩
    · rcases Nat.lt_or_eq_of_le hj' with hj' | rfl
      · exact hx.trans (himp.2 j hj hj')
      · exact hx
    · exact hx.2 (e + 1) (Nat.le_add_left 1 e) le_rfl
    · exact (Nat.le_zero.mp hk).le.trans (Nat.zero_le _)
    · rw [Nat.le_zero.mp hk] at hj
      omega
    · by_contra hpos
      have hpos : 0 < k := not_le.mp hpos
      exact hk.2 (e + 1) (by omega) le_rfl himp
  · have hnot : ¬ Improves (dyn.loss start) (e + 1) := fun himp => hlt (h.improves_iff.mpr himp)
    rw [trainEpoch, if_neg hlt]
    refine ⟨hhistory, fun x => ?_, fun k => ?_⟩
    · show x < s.bestVal ↔ _
      rw [h.bestVal]
      refine and_congr_right fun hx => ⟨fun hall j hj hj' => ?_, fun hall j hj hj' => ?_⟩
      · rcases Nat.lt_or_eq_of_le hj' with hj' | rfl
        · exact hall j hj (Nat.lt_succ_iff.mp hj')
        · exact ((h.bestVal x).mpr ⟨hx, hall⟩).trans_le (not_lt.mp hlt)
      · exact hall j hj (hj'.trans (Nat.le_succ e))
    · show k ≤ s.patienceCounter + 1 ↔ _
      cases k with
      | zero => exact iff_of_true (Nat.zero_le _) ⟨Nat.zero_le _, fun j hj hj' => by omega⟩
      | succ k =>
        rw [Nat.succ_le_succ_iff, h.counter k, Nat.succ_le_succ_iff]
        refine and_congr_right fun _ => ⟨fun hall j hj hj' => ?_, fun hall j hj hj' => ?_⟩
        · rcases Nat.lt_or_eq_of_le hj' with hj' | rfl
          · exact hall j (by omega) (by omega)
          · exact hnot
        · exact hall j (by omega) (by omega)

/-- The loop ends after an epoch exactly where it uses the patience up. -/
theorem stops_iff (h : s.Ran dyn start e) :
    (¬ (dyn.measure start (e + 1)).valLoss < s.bestVal ∧
        patience ≤ (trainEpoch dyn compiled start (e + 1) s).patienceCounter) ↔
      UsesUp (dyn.loss start) patience (e + 1) := by
  have hcounter := patienceCounter_trainEpoch dyn compiled start (e + 1) s
  have hnext : (trainEpoch dyn compiled start (e + 1) s).Ran dyn start (e + 1) := h.epoch
  rw [UsesUp, ← hnext.counter, hcounter]
  split
  · rename_i hlt
    refine iff_of_false (fun hn => hn.1 hlt) fun hle => ?_
    exact absurd ((le_max_left 1 patience).trans hle) (by decide)
  · rename_i hlt
    rw [max_le_iff]
    exact ⟨fun hn => ⟨Nat.le_add_left 1 _, hn.2⟩, fun hn => ⟨hlt, hn.2⟩⟩

/-- **When the loop ends**: at the first epoch that uses the patience up, or
with the last one. -/
theorem loop (h : s.Ran dyn start e) (hgo : ∀ j, j ≤ e → ¬ UsesUp (dyn.loss start) patience j)
    (compiled : Bool) (n : ℕ) :
    ∃ last, (trainLoop dyn compiled patience start n (e + 1) s).Ran dyn start last ∧
      last ≤ e + n ∧ (∀ j, j < last → ¬ UsesUp (dyn.loss start) patience j) ∧
      (last = e + n ∨ UsesUp (dyn.loss start) patience last) := by
  induction n generalizing e s with
  | zero => exact ⟨e, h, le_rfl, fun j hj => hgo j hj.le, Or.inl rfl⟩
  | succ n ih =>
    rw [trainLoop]
    split
    · rename_i hstop
      exact ⟨e + 1, h.epoch, by omega, fun j hj => hgo j (Nat.lt_succ_iff.mp hj),
        Or.inr (h.stops_iff.mp hstop)⟩
    · rename_i hnot
      have hgo' : ∀ j, j ≤ e + 1 → ¬ UsesUp (dyn.loss start) patience j := by
        intro j hj
        rcases Nat.lt_or_eq_of_le hj with hj | rfl
        · exact hgo j (Nat.lt_succ_iff.mp hj)
        · exact fun hstop => hnot (h.stops_iff.mpr hstop)
      obtain ⟨last, hran, hle, hbefore, hend⟩ := ih h.epoch hgo'
      exact ⟨last, hran, by omega, hbefore, hend.imp_left (by omega)⟩

end TrainState.Ran

/-- **The epochs of a run are those the losses let it reach.** -/
theorem mem_history_trainLoop_iff {best : Option (Checkpoint K)} {m : TrainMetrics K} :
    m ∈ (trainLoop dyn compiled patience start epochs 1 ⟨⊤, 0, 0, [], best⟩).history ↔
      ∃ n, Reached (dyn.loss start) epochs patience n ∧ dyn.metrics start n = m := by
  have hgo : ∀ j, j ≤ 0 → ¬ UsesUp (dyn.loss start) patience j := by
    rintro j hj ⟨hle, -⟩
    have := (le_max_left 1 patience).trans hle
    omega
  have hinit : TrainState.Ran dyn start 0 ⟨⊤, 0, 0, [], best⟩ := TrainState.Ran.init
  obtain ⟨last, hran, hle, hbefore, hend⟩ := hinit.loop hgo compiled epochs
  rw [hran.history, List.mem_map]
  refine exists_congr fun n => and_congr_left fun _ => ?_
  rw [List.mem_range'_1]
  constructor
  · rintro ⟨hpos, hlt⟩
    exact ⟨hpos, by omega, fun j hj => hbefore j (by omega)⟩
  · rintro ⟨hpos, hn, hreach⟩
    refine ⟨hpos, not_le.mp fun hlast => ?_⟩
    rcases hend with rfl | hstop
    · omega
    · exact hreach last (by omega) hstop

end Epochs

/-! ## What resuming keeps -/

section Resume

variable {K V : Type} [LinearOrder K] [Field K] {cfg : TrainConfig K} {new : Initializer K}
variable {dyn : Dynamics cfg.modelConfig} {hasCompile : Bool} {splits : DatasetSplits V K}
variable {dir : Option (CheckpointDir K)} {path : CheckpointPath K} {run : TrainRun K}

/-- **Progress is kept**: the first epoch starts from the weights in the
checkpoint, and a checkpoint that was `best.pt` is not replaced by one of
larger loss. -/
structure KeepsProgress (cfg : TrainConfig K) (path : CheckpointPath K) (c : Checkpoint K)
    (run : TrainRun K) : Prop where
  start : 0 < cfg.epochs → ∀ k, run.start.get? k = c.state.get? k
  best : path = .best → ∀ b, run.dir.best = some b → b.valLoss ≤ c.valLoss

theorem tracks_trainNew (best : Option (Checkpoint K)) :
    (trainNew cfg new dyn hasCompile best).Tracks best := by
  refine TrainState.Tracks.loop ?_ _ _ _
  exact ⟨fun m hm => absurd hm List.not_mem_nil, Or.inl ⟨rfl, rfl⟩⟩

/-- **A resumed run is a new one.** Nothing in it depends on the checkpoint
but whether it loads. -/
theorem resume_eq_some_iff :
    resume cfg new dyn hasCompile splits dir path = some run ↔
      ∃ c files, path.read dir = some c ∧ dir = some files ∧
        (new (ModelConfig.default K)).Fits c.state ∧
        train cfg new dyn hasCompile splits (some { files with resumeBase := some c }) = run := by
  rw [resume]
  rcases path.read dir with - | c
  · simp
  · by_cases hfits : (new (ModelConfig.default K)).Fits c.state
    · obtain ⟨m, hload, -⟩ := OutputLengthMLP.loadStateDict_of_fits hfits
      rcases dir with - | files
      · simp
      · simp [hload, hfits]
    · simp [OutputLengthMLP.loadStateDict_of_not_fits hfits, hfits]

/-- **When resuming keeps progress.** It does exactly where the checkpoint
loads, the newly initialised weights are those of the checkpoint (or there
is no epoch to run), and, for a checkpoint that was `best.pt`, training from
the new weights measures no larger loss in some epoch it reaches (or no
finite one in any). -/
theorem resume_keeps_iff :
    (∃ c run, path.read dir = some c ∧
        resume cfg new dyn hasCompile splits dir path = some run ∧
        KeepsProgress cfg path c run) ↔
      ∃ c files, path.read dir = some c ∧ dir = some files ∧
        (new (ModelConfig.default K)).Fits c.state ∧
        (cfg.epochs = 0 ∨
          ∀ k, (new cfg.modelConfig).stateDict.get? k = c.state.get? k) ∧
        (path = .best →
          let loss := dyn.loss (new cfg.modelConfig)
          (∀ n, Reached loss cfg.epochs cfg.patience n → loss n = ⊤) ∨
            ∃ n, Reached loss cfg.epochs cfg.patience n ∧ loss n ≤ c.valLoss) := by
  have hbest : ∀ {c files}, path.read dir = some c → dir = some files → path = .best →
      ((∀ b, (trainNew cfg new dyn hasCompile files.best).best = some b →
          b.valLoss ≤ c.valLoss) ↔
        (∀ n, Reached (dyn.loss (new cfg.modelConfig)) cfg.epochs cfg.patience n →
            dyn.loss (new cfg.modelConfig) n = ⊤) ∨
          ∃ n, Reached (dyn.loss (new cfg.modelConfig)) cfg.epochs cfg.patience n ∧
            dyn.loss (new cfg.modelConfig) n ≤ c.valLoss) := by
    rintro c files hread rfl rfl
    have hold : files.best = some c := hread
    rw [hold, (tracks_trainNew (some c)).best_le_iff, trainNew]
    simp only [mem_history_trainLoop_iff, forall_exists_index, and_imp, forall_apply_eq_imp_iff₂,
      exists_exists_and_eq_and]
    rfl
  constructor
  · rintro ⟨c, run, hread, hrun, hkeeps⟩
    obtain ⟨c', files, hread', hdir, hfits, rfl⟩ := resume_eq_some_iff.mp hrun
    obtain rfl : c = c' := Option.some.inj (hread.symm.trans hread')
    refine ⟨c, files, hread, hdir, hfits, ?_, fun hp => ?_⟩
    · exact (Nat.eq_zero_or_pos cfg.epochs).imp_right hkeeps.start
    · exact (hbest hread hdir hp).mp (hkeeps.best hp)
  · rintro ⟨c, files, hread, hdir, hfits, hstart, hloss⟩
    refine ⟨c, _, hread, resume_eq_some_iff.mpr ⟨c, files, hread, hdir, hfits, rfl⟩, ?_, ?_⟩
    · intro hpos
      exact hstart.resolve_left hpos.ne'
    · intro hp
      exact (hbest hread hdir hp).mpr (hloss hp)

end Resume

/-! ## A run that loses its best weights -/

/-- One epoch of the default network. -/
def oneEpoch : TrainConfig ℚ := ⟨128, 1 / 10, 1, 8, false⟩

/-- Every epoch measures a loss of 5. -/
def flatDynamics : Dynamics oneEpoch.modelConfig where
  weights := fun start _ => start
  measure := fun _ _ => ⟨5, 5, 1, 1, 0, 1 / 1000⟩

/-- A `best.pt` of loss 1, all of whose weights are 1. -/
def goodCheckpoint : Checkpoint ℚ :=
  ⟨(OutputLengthMLP.filled 1 oneEpoch.modelConfig).stateDict, 1⟩

/-- Resumed from it, the run starts from other weights and replaces it by
weights of loss 5. -/
theorem resume_loses_best :
    ∃ run, resume oneEpoch (OutputLengthMLP.filled 0) flatDynamics false
        (⟨[], [], [], none, none⟩ : DatasetSplits Unit ℚ) (some ⟨some goodCheckpoint, none⟩)
        .best = some run ∧
      run.start.get? ⟨0, 0, .bias⟩ ≠ goodCheckpoint.state.get? ⟨0, 0, .bias⟩ ∧
      ∃ b, run.dir.best = some b ∧ goodCheckpoint.valLoss < b.valLoss := by
  have hfits : (OutputLengthMLP.filled 0 (ModelConfig.default ℚ)).Fits goodCheckpoint.state :=
    (OutputLengthMLP.fits_iff rfl _ (OutputLengthMLP.filled 1 oneEpoch.modelConfig)).mpr rfl
  refine ⟨_, resume_eq_some_iff.mpr ⟨goodCheckpoint, _, rfl, rfl, hfits, rfl⟩, ?_, _, rfl, ?_⟩
  · decide +kernel
  · decide +kernel

end VllmScheduler
