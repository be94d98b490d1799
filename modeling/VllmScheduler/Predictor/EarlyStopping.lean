import Mathlib.Order.Bounds.Basic
import VllmScheduler.Predictor.Trainer
/-!
# Early stopping

What `Trainer.train` of `python/predictor/trainer.py` returns, where every
epoch measures a finite validation loss. The loop keeps a running best, the
epoch it was measured in, a counter that starts again with every improvement,
and a file. Between two epochs they all speak of one epoch: the first with the
least loss so far (`TrainState.After`), and the counter is how long ago that
was.
-/

namespace VllmScheduler

/-! ## The first best -/

section FirstBest

variable {α : Type} [LinearOrder α] {f : ℕ → α} {n b b' : ℕ}

/-- Of the epochs from 1 to `n`, the first with the least loss is `b`. -/
structure FirstBest (f : ℕ → α) (n b : ℕ) : Prop where
  pos : 1 ≤ b
  le : b ≤ n
  least : ∀ k, 1 ≤ k → k ≤ n → f b ≤ f k
  first : ∀ k, 1 ≤ k → k < b → f b < f k

theorem FirstBest.one (f : ℕ → α) : FirstBest f 1 1 where
  pos := le_rfl
  le := le_rfl
  least := fun k hk hk' => by rw [le_antisymm hk' hk]
  first := fun k hk hk' => absurd hk (Nat.not_le.mpr hk')

theorem FirstBest.improve (h : FirstBest f n b) (hlt : f (n + 1) < f b) :
    FirstBest f (n + 1) (n + 1) where
  pos := Nat.le_add_left 1 n
  le := le_rfl
  least := fun k hk hk' => by
    rcases Nat.le_succ_iff.mp hk' with hle | rfl
    · exact hlt.le.trans (h.least k hk hle)
    · exact le_rfl
  first := fun k hk hk' => hlt.trans_le (h.least k hk (Nat.le_of_lt_succ hk'))

theorem FirstBest.keep (h : FirstBest f n b) (hle : f b ≤ f (n + 1)) :
    FirstBest f (n + 1) b where
  pos := h.pos
  le := h.le.trans (Nat.le_succ n)
  least := fun k hk hk' => by
    rcases Nat.le_succ_iff.mp hk' with hk' | rfl
    · exact h.least k hk hk'
    · exact hle
  first := h.first

theorem FirstBest.unique (h : FirstBest f n b) (h' : FirstBest f n b') : b = b' := by
  rcases lt_trichotomy b b' with hlt | heq | hlt
  · exact absurd (h'.first b h.pos hlt) (not_lt.mpr (h.least b' h'.pos h'.le))
  · exact heq
  · exact absurd (h.first b' h'.pos hlt) (not_lt.mpr (h'.least b h.pos h.le))

/-- At epoch `e` the best one was `patience` epochs ago. -/
def StopsAt (f : ℕ → α) (patience e : ℕ) : Prop := ∃ b, FirstBest f e b ∧ e = b + patience

theorem FirstBest.stopsAt_iff (h : FirstBest f n b) {patience : ℕ} :
    StopsAt f patience n ↔ n = b + patience :=
  ⟨fun ⟨_, hb, heq⟩ => h.unique hb ▸ heq, fun heq => ⟨b, h, heq⟩⟩

end FirstBest

/-! ## The loop -/

section Loop

variable {K : Type} [LinearOrder K] {config : ModelConfig K} {dyn : Dynamics config}
variable {compiled : Bool} {start : OutputLengthMLP config} {old : Option (Checkpoint K)}
variable {s : TrainState K} {n patience : ℕ}

/-- **The loop after `n` epochs.** The history holds them all, and everything
else is about the first best of them. -/
structure TrainState.After (dyn : Dynamics config) (compiled : Bool)
    (start : OutputLengthMLP config) (n : ℕ) (s : TrainState K) : Prop where
  history : s.history = (List.range' 1 n).map (dyn.metrics start)
  best : FirstBest (dyn.loss start) n s.bestEpoch
  bestVal : s.bestVal = dyn.loss start s.bestEpoch
  counter : n = s.bestEpoch + s.patienceCounter
  file : s.best = some ⟨(dyn.weights start s.bestEpoch).saved compiled, s.bestVal⟩

/-- The first epoch is an improvement, its loss being finite. -/
theorem TrainState.After.first (hfin : dyn.loss start 1 < ⊤) :
    TrainState.After dyn compiled start 1
      (trainEpoch dyn compiled start 1 ⟨⊤, 0, 0, [], old⟩) := by
  have hlt : (dyn.measure start 1).valLoss < ⊤ := hfin
  rw [trainEpoch, if_pos hlt]
  exact ⟨rfl, FirstBest.one _, rfl, rfl, rfl⟩

theorem TrainState.After.epoch (h : s.After dyn compiled start n) :
    (trainEpoch dyn compiled start (n + 1) s).After dyn compiled start (n + 1) := by
  have hhistory : s.history ++ [dyn.metrics start (n + 1)] =
      (List.range' 1 (n + 1)).map (dyn.metrics start) := by
    rw [h.history, map_metrics_succ]
  by_cases hlt : (dyn.measure start (n + 1)).valLoss < s.bestVal
  · rw [trainEpoch, if_pos hlt]
    exact ⟨hhistory, h.best.improve (h.bestVal ▸ hlt), rfl, rfl, rfl⟩
  · rw [trainEpoch, if_neg hlt]
    refine ⟨hhistory, h.best.keep (h.bestVal ▸ not_lt.mp hlt), h.bestVal, ?_, h.file⟩
    show n + 1 = s.bestEpoch + (s.patienceCounter + 1)
    rw [← Nat.add_assoc, ← h.counter]

/-- **When the loop ends**, with patience left after `n` epochs and `k` more to
go: at the first epoch that the patience runs out at, or at the last one. -/
theorem TrainState.After.loop (hpatience : 1 ≤ patience) (h : s.After dyn compiled start n)
    (hleft : s.patienceCounter < patience) (k : ℕ) :
    ∃ n', (trainLoop dyn compiled patience start k (n + 1) s).After dyn compiled start n' ∧
      IsLeast ({n + k} ∪ {e | n < e ∧ StopsAt (dyn.loss start) patience e}) n' := by
  induction k generalizing n s with
  | zero =>
    refine ⟨n, h, Or.inl rfl, ?_⟩
    rintro e (rfl | ⟨hlt, -⟩)
    · exact le_rfl
    · exact hlt.le
  | succ k ih =>
    have hnext := h.epoch
    have hcounter := patienceCounter_trainEpoch dyn compiled start (n + 1) s
    rw [trainLoop]
    split
    · rename_i hstop
      rw [if_neg hstop.1] at hcounter
      refine ⟨n + 1, hnext, Or.inr ⟨Nat.lt_succ_self n, ?_⟩, ?_⟩
      · have hused := hstop.2
        have := hnext.counter
        exact hnext.best.stopsAt_iff.mpr (by omega)
      · rintro e (rfl | ⟨hlt, -⟩)
        · exact Nat.add_le_add_left (Nat.le_add_left 1 k) n
        · exact hlt
    · rename_i hgo
      have hleft' : (trainEpoch dyn compiled start (n + 1) s).patienceCounter < patience := by
        by_cases hlt : (dyn.measure start (n + 1)).valLoss < s.bestVal
        · rw [hcounter, if_pos hlt]
          exact hpatience
        · exact not_le.mp fun hle => hgo ⟨hlt, hle⟩
      -- so the patience does not run out at the next epoch
      have hnot : ¬ StopsAt (dyn.loss start) patience (n + 1) := by
        rw [hnext.best.stopsAt_iff]
        have := hnext.counter
        omega
      obtain ⟨n', hafter, hmem, hlower⟩ := ih hnext hleft'
      refine ⟨n', hafter, ?_, ?_⟩
      · rcases hmem with rfl | ⟨hlt, hstop⟩
        · exact Or.inl (by rw [Set.mem_singleton_iff]; omega)
        · exact Or.inr ⟨(Nat.lt_succ_self n).trans hlt, hstop⟩
      · rintro e (rfl | ⟨hlt, hstop⟩)
        · exact hlower (Or.inl (by rw [Set.mem_singleton_iff]; omega))
        · refine hlower (Or.inr ⟨lt_of_le_of_ne hlt ?_, hstop⟩)
          rintro rfl
          exact hnot hstop

end Loop

/-! ## What `train` returns -/

section Train

variable {K V : Type} [LinearOrder K]

theorem isLeast_valLoss {config : ModelConfig K} {dyn : Dynamics config} {compiled : Bool}
    {start : OutputLengthMLP config} {n : ℕ} {s : TrainState K}
    (h : s.After dyn compiled start n) :
    IsLeast {l | ∃ m ∈ s.history, m.valLoss = l} s.bestVal ∧
      IsLeast {e | ∃ m ∈ s.history, m.valLoss = s.bestVal ∧ m.epoch = e} s.bestEpoch := by
  have hmem : ∀ m, m ∈ s.history ↔ ∃ e, (1 ≤ e ∧ e ≤ n) ∧ dyn.metrics start e = m := by
    intro m
    rw [h.history, List.mem_map]
    refine exists_congr fun e => and_congr_left fun _ => ?_
    rw [List.mem_range'_1]
    omega
  have hbest : dyn.metrics start s.bestEpoch ∈ s.history :=
    (hmem _).mpr ⟨_, ⟨h.best.pos, h.best.le⟩, rfl⟩
  refine ⟨⟨⟨_, hbest, h.bestVal.symm⟩, ?_⟩, ⟨_, hbest, h.bestVal.symm, rfl⟩, ?_⟩
  · rintro _ ⟨m, hm, rfl⟩
    obtain ⟨e, ⟨hpos, hle⟩, rfl⟩ := (hmem m).mp hm
    exact h.bestVal ▸ h.best.least e hpos hle
  · rintro _ ⟨m, hm, hval, rfl⟩
    obtain ⟨e, ⟨hpos, -⟩, rfl⟩ := (hmem m).mp hm
    refine not_lt.mp fun hlt => ?_
    have hless := h.best.first e hpos hlt
    rw [← h.bestVal, ← hval] at hless
    exact lt_irrefl _ hless

/-- The patience does not run out at the first epoch. -/
theorem one_lt_of_stopsAt {f : ℕ → WithTop K} {patience e : ℕ} (hpatience : 1 ≤ patience)
    (h : StopsAt f patience e) : 1 < e := by
  obtain ⟨b, hb, heq⟩ := h
  have := hb.pos
  omega

variable [Field K] {cfg : TrainConfig K} {new : Initializer K} {dyn : Dynamics cfg.modelConfig}

theorem after_trainNew (hfin : dyn.loss (new cfg.modelConfig) 1 ≠ ⊤) (hepochs : 1 ≤ cfg.epochs)
    (hpatience : 1 ≤ cfg.patience) (hasCompile : Bool) (best : Option (Checkpoint K)) :
    ∃ n, (trainNew cfg new dyn hasCompile best).After dyn (cfg.useCompile && hasCompile)
        (new cfg.modelConfig) n ∧
      IsLeast ({cfg.epochs} ∪ {e | StopsAt (dyn.loss (new cfg.modelConfig)) cfg.patience e}) n := by
  obtain ⟨k, hk⟩ : ∃ k, cfg.epochs = k + 1 := ⟨cfg.epochs - 1, by omega⟩
  have hlt : (dyn.measure (new cfg.modelConfig) 1).valLoss < ⊤ := lt_top_iff_ne_top.mpr hfin
  rw [trainNew, hk, trainLoop, if_neg fun h => h.1 hlt]
  -- the first epoch sets the counter to zero, and the loop goes on from there
  have hcounter := patienceCounter_trainEpoch dyn (cfg.useCompile && hasCompile)
    (new cfg.modelConfig) 1 ⟨⊤, 0, 0, [], best⟩
  rw [if_pos hlt] at hcounter
  obtain ⟨n, hafter, hmem, hlower⟩ :=
    (TrainState.After.first hlt).loop hpatience (hcounter.trans_lt hpatience) k
  refine ⟨n, hafter, ?_, ?_⟩
  · rcases hmem with rfl | ⟨-, hstop⟩
    · exact Or.inl (Nat.add_comm 1 k)
    · exact Or.inr hstop
  · rintro e (rfl | hstop)
    · exact hlower (Or.inl (Nat.add_comm k 1))
    · exact hlower (Or.inr ⟨one_lt_of_stopsAt hpatience hstop, hstop⟩)

/-- **Early stopping keeps the best epoch.** The best loss is the least in the
history and the best epoch the first to attain it, `best.pt` holds the weights
of that epoch, and the run has as many epochs as are asked for or, where the
patience runs out before, as many as it took for that. -/
theorem train_keeps_best (cfg : TrainConfig K) (new : Initializer K)
    (dyn : Dynamics cfg.modelConfig) (hasCompile : Bool) (splits : DatasetSplits V K)
    (dir : Option (CheckpointDir K))
    (hfin : ∀ epoch, dyn.loss (new cfg.modelConfig) epoch ≠ ⊤) (hepochs : 1 ≤ cfg.epochs)
    (hpatience : 1 ≤ cfg.patience) :
    let start := new cfg.modelConfig
    let run := train cfg new dyn hasCompile splits dir
    let history := run.result.metricsHistory
    history = (List.range' 1 history.length).map (dyn.metrics start) ∧
      IsLeast {l | ∃ m ∈ history, m.valLoss = l} run.result.bestValLoss ∧
      IsLeast {e | ∃ m ∈ history, m.valLoss = run.result.bestValLoss ∧ m.epoch = e}
        run.result.bestEpoch ∧
      run.dir.best = some
        ⟨(dyn.weights start run.result.bestEpoch).saved (cfg.useCompile && hasCompile),
          run.result.bestValLoss⟩ ∧
      IsLeast ({cfg.epochs} ∪ {e | StopsAt (dyn.loss start) cfg.patience e})
        history.length := by
  intro start run history
  obtain ⟨n, hafter, hleast⟩ := after_trainNew (hfin 1) hepochs hpatience hasCompile
    (dir.getD ⟨none, none⟩).best
  have hlength : history.length = n := by
    refine (congrArg List.length hafter.history).trans ?_
    rw [List.length_map, List.length_range']
  obtain ⟨hval, hepoch⟩ := isLeast_valLoss hafter
  rw [hlength]
  exact ⟨hafter.history, hval, hepoch, hafter.file, hleast⟩

end Train

/-- Five epochs at most, and a patience of two. -/
def fiveEpochs : TrainConfig ℚ := ⟨128, 1 / 10, 5, 2, false⟩

/-- The loss falls once and stays. -/
def plateauDynamics : Dynamics fiveEpochs.modelConfig where
  weights := fun start _ => start
  measure := fun _ epoch => ⟨5, if epoch = 1 then 3 else 2, 1, 1, 0, 1 / 1000⟩

/-- On a plateau from the second epoch on, the run ends with the fourth. -/
theorem plateau_stops :
    (∀ epoch, plateauDynamics.loss (OutputLengthMLP.filled 0 fiveEpochs.modelConfig) epoch ≠ ⊤) ∧
      let run := train fiveEpochs (OutputLengthMLP.filled 0) plateauDynamics false
        (⟨[], [], [], none, none⟩ : DatasetSplits Unit ℚ) none
      IsLeast ({5} ∪ {e | StopsAt (plateauDynamics.loss
        (OutputLengthMLP.filled 0 fiveEpochs.modelConfig)) 2 e}) run.result.metricsHistory.length ∧
      run.result.metricsHistory.length = 4 := by
  have hfin : ∀ epoch,
      plateauDynamics.loss (OutputLengthMLP.filled 0 fiveEpochs.modelConfig) epoch ≠ ⊤ := by
    intro epoch
    simp only [Dynamics.loss, plateauDynamics]
    split <;> exact WithTop.coe_ne_top
  obtain ⟨-, -, -, -, hleast⟩ := train_keeps_best fiveEpochs (OutputLengthMLP.filled 0)
    plateauDynamics false (⟨[], [], [], none, none⟩ : DatasetSplits Unit ℚ) none hfin (by decide)
    (by decide)
  exact ⟨hfin, hleast, by decide +kernel⟩

end VllmScheduler
