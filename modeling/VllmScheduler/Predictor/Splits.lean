import Mathlib.Algebra.Order.Floor.Semiring
import Mathlib.Data.Fintype.Perm
import Mathlib.Data.Rat.Floor
import Mathlib.Tactic.Linarith
import VllmScheduler.Predictor.Dataset
/-!
# What training and evaluation split

`training/train.py` and `training/evaluate.py` each rebuild the splits from
the configuration. The first deduplicates and passes the configured ratios;
the second does neither. The test split of the second is then disjoint from
the training split of the first only where both happen to make no
difference: no two prompts have one hash, and the training split ends before
the default test split starts. One split of deduplicated samples, on the other
hand, never leaks (`split_deduplicate_partition`).
-/

namespace VllmScheduler

variable {V K Digest : Type} [DecidableEq Digest] [Field K] [LinearOrder K] [FloorRing K]

/-- What the scripts read of `cfg["dataset"]` besides the preset. -/
structure DatasetConfig (K : Type) where
  trainRatio : K
  valRatio : K
  seed : Option ℕ

/-- The splits `main` of `train.py` trains on. -/
def trainSplits (hash : String → Digest) (shuffle : Shuffle) (sqrt : K → K) (cfg : DatasetConfig K)
    (samples : List (Sample V K)) : DatasetSplits V K :=
  split shuffle sqrt (deduplicate hash samples) cfg.trainRatio cfg.valRatio (cfg.seed.getD 42)

/-- The splits `main` of `evaluate.py` scores on; the ratios are the
defaults of `split`. -/
def evaluateSplits (shuffle : Shuffle) (sqrt : K → K) (cfg : DatasetConfig K)
    (samples : List (Sample V K)) : DatasetSplits V K :=
  split shuffle sqrt samples (8 / 10) (1 / 10) (cfg.seed.getD 42)

/-- A prompt is scored that was trained on. -/
def Leaks (hash : String → Digest) (shuffle : Shuffle) (sqrt : K → K) (cfg : DatasetConfig K)
    (samples : List (Sample V K)) : Prop :=
  ∃ s ∈ (evaluateSplits shuffle sqrt cfg samples).test,
    ∃ t ∈ (trainSplits hash shuffle sqrt cfg samples).train, s.prompt = t.prompt

instance (hash : String → Digest) (shuffle : Shuffle) (sqrt : K → K) (cfg : DatasetConfig K)
    (samples : List (Sample V K)) : Decidable (Leaks hash shuffle sqrt cfg samples) :=
  inferInstanceAs (Decidable (∃ s ∈ (evaluateSplits shuffle sqrt cfg samples).test,
    ∃ t ∈ (trainSplits hash shuffle sqrt cfg samples).train, s.prompt = t.prompt))

/-- How many of `n` samples train. -/
def trainCount (trainRatio : K) (n : ℕ) : ℕ := sliceIndex n (truncate (n * trainRatio))

/-- Where the default test split of `n` samples starts. -/
def testStart (K : Type) [Field K] [LinearOrder K] [FloorRing K] (n : ℕ) : ℕ :=
  sliceIndex n (truncate (n * (8 / 10) : K) + truncate (n * (1 / 10) : K))

variable {hash : String → Digest} {shuffle : Shuffle} {sqrt : K → K} {cfg : DatasetConfig K}
variable {samples : List (Sample V K)}

section Positions

omit [DecidableEq Digest]

/-- The training split holds what the shuffle has put at the first
positions. -/
theorem mem_train_split {trainRatio valRatio : K} {seed : ℕ} {t : Sample V K} :
    t ∈ (split shuffle sqrt samples trainRatio valRatio seed).train ↔
      ∃ i : Fin samples.length, i.val < trainCount trainRatio samples.length ∧
        samples.get (shuffle seed samples.length i) = t := by
  simp only [split, sliceTo, List.mem_map, List.mem_take_iff_getElem, List.length_ofFn,
    List.getElem_ofFn]
  constructor
  · rintro ⟨_, ⟨j, hj, rfl⟩, rfl⟩
    exact ⟨⟨j, (lt_min_iff.mp hj).2⟩, (lt_min_iff.mp hj).1, rfl⟩
  · rintro ⟨i, hi, rfl⟩
    exact ⟨_, ⟨i, lt_min hi i.isLt, rfl⟩, rfl⟩

/-- The test split of the evaluation holds what it has put at the last
ones. -/
theorem mem_test_evaluate {s : Sample V K} :
    s ∈ (evaluateSplits shuffle sqrt cfg samples).test ↔
      ∃ i : Fin samples.length, testStart K samples.length ≤ i.val ∧
        samples.get (shuffle (cfg.seed.getD 42) samples.length i) = s := by
  have hstart : sliceIndex samples.length (truncate (samples.length * (8 / 10) : K) +
    truncate (samples.length * (1 / 10) : K)) = testStart K samples.length := rfl
  simp only [evaluateSplits, split, sliceFrom, List.mem_map, List.mem_drop_iff_getElem,
    List.length_ofFn, List.getElem_ofFn, hstart]
  constructor
  · rintro ⟨_, ⟨j, hj, rfl⟩, rfl⟩
    exact ⟨⟨testStart K samples.length + j, by omega⟩, Nat.le_add_right _ _, rfl⟩
  · rintro ⟨i, hi, rfl⟩
    refine ⟨_, ⟨i.val - testStart K samples.length, by omega, rfl⟩, ?_⟩
    exact congrArg (fun k => samples.get (shuffle _ _ k)) (Fin.ext (Nat.add_sub_cancel' hi))

/-- The default test split is empty only where there are no samples. -/
theorem testStart_lt [IsStrictOrderedRing K] {n : ℕ} (hn : 0 < n) : testStart K n < n := by
  have hpos : (0 : K) < n := Nat.cast_pos.mpr hn
  have hpart : ∀ r : K, 0 ≤ r → 0 ≤ truncate (n * r) ∧ (truncate (n * r) : K) ≤ n * r := by
    intro r hr
    have hnr : 0 ≤ n * r := mul_nonneg hpos.le hr
    rw [truncate, if_neg (not_lt.mpr hnr)]
    exact ⟨Int.floor_nonneg.mpr hnr, Int.floor_le _⟩
  obtain ⟨h8, h8'⟩ := hpart (8 / 10) (by norm_num)
  obtain ⟨h1, h1'⟩ := hpart (1 / 10) (by norm_num)
  have hlt : truncate (n * (8 / 10) : K) + truncate (n * (1 / 10) : K) < (n : ℤ) := by
    have hsum : ((truncate (n * (8 / 10) : K) + truncate (n * (1 / 10) : K) : ℤ) : K) <
        ((n : ℤ) : K) := by
      push_cast
      linarith
    exact_mod_cast hsum
  rw [testStart, sliceIndex, if_neg (by omega)]
  omega

end Positions

/-- Where the hashes are distinct, training and evaluation shuffle the same
list, and the splits overlap exactly where the positions do. -/
theorem leaks_iff_of_nodup [IsStrictOrderedRing K]
    (hnodup : (samples.map fun s => hash s.prompt).Nodup) :
    Leaks hash shuffle sqrt cfg samples ↔
      testStart K samples.length < trainCount cfg.trainRatio samples.length := by
  have hself : deduplicate hash samples = samples :=
    deduplicateLoop_sublist.eq_of_length (length_deduplicate_eq_iff.mpr hnodup)
  have hinj : ∀ i j : Fin samples.length,
      (samples.get i).prompt = (samples.get j).prompt → i = j := by
    intro i j heq
    have hget := List.nodup_iff_injective_get.mp hnodup
    have := @hget ⟨i, by simp⟩ ⟨j, by simp⟩ (by simpa using congrArg hash heq)
    exact Fin.ext (by simpa using this)
  rw [Leaks, trainSplits, hself]
  constructor
  · rintro ⟨s, hs, t, ht, heq⟩
    obtain ⟨i, hi, rfl⟩ := mem_test_evaluate.mp hs
    obtain ⟨j, hj, rfl⟩ := mem_train_split.mp ht
    -- one prompt has one index, and the shuffle one position for it
    have hij : i = j := (shuffle _ _).injective (hinj _ _ heq)
    rw [← hij] at hj
    exact lt_of_le_of_lt hi hj
  · intro hlt
    have hle : trainCount cfg.trainRatio samples.length ≤ samples.length := by
      rw [trainCount, sliceIndex]
      split <;> omega
    let i : Fin samples.length := ⟨testStart K samples.length, hlt.trans_le hle⟩
    exact ⟨_, mem_test_evaluate.mpr ⟨i, le_rfl, rfl⟩, _, mem_train_split.mpr ⟨i, hlt, rfl⟩, rfl⟩

/-- Where two prompts have one hash, training shuffles a shorter list, and
the two shuffles have nothing to do with each other. -/
theorem exists_leaks_of_not_nodup [IsStrictOrderedRing K] (sqrt : K → K)
    (hdup : ¬ (samples.map fun s => hash s.prompt).Nodup)
    (htrain : 0 < trainCount cfg.trainRatio (deduplicate hash samples).length) :
    ∃ shuffle, Leaks hash shuffle sqrt cfg samples := by
  rcases samples with - | ⟨s, samples⟩
  · exact absurd List.nodup_nil hdup
  have hlen : (deduplicate hash (s :: samples)).length ≠ (s :: samples).length := fun heq =>
    hdup (length_deduplicate_eq_iff.mp heq)
  have hhead : (deduplicate hash (s :: samples)) =
      s :: deduplicateLoop hash (insert (hash s.prompt) ∅) samples := by
    simp [deduplicate, deduplicateLoop]
  -- the shorter list stays as it is and the longer one is turned round
  let shuffle : Shuffle := fun _ n => if n = (s :: samples).length then Fin.revPerm else 1
  refine ⟨shuffle, s, mem_test_evaluate.mpr ?_, s, mem_train_split.mpr ?_, rfl⟩
  · refine ⟨Fin.last samples.length, ?_, ?_⟩
    · exact Nat.le_of_lt_succ (testStart_lt (Nat.succ_pos _))
    · simp [shuffle]
  · generalize deduplicate hash (s :: samples) = kept at hhead htrain hlen ⊢
    subst hhead
    refine ⟨⟨0, Nat.succ_pos _⟩, htrain, ?_⟩
    simp only [shuffle, if_neg hlen]
    rfl

/-- **When evaluation never scores on training data.** Whatever the shuffle,
no prompt of the test split of `evaluate.py` occurs in the training split of
`train.py` exactly where there is no training split, or no two prompts have
one hash and the training split ends before the default test split
starts. -/
theorem no_leak_iff [IsStrictOrderedRing K] (hash : String → Digest) (sqrt : K → K)
    (cfg : DatasetConfig K) (samples : List (Sample V K)) :
    (∀ shuffle, ¬ Leaks hash shuffle sqrt cfg samples) ↔
      trainCount cfg.trainRatio (deduplicate hash samples).length = 0 ∨
        (samples.map fun s => hash s.prompt).Nodup ∧
          trainCount cfg.trainRatio samples.length ≤ testStart K samples.length := by
  by_cases hnodup : (samples.map fun s => hash s.prompt).Nodup
  · have hlen := length_deduplicate_eq_iff.mpr hnodup
    have hiff : ∀ shuffle, ¬ Leaks hash shuffle sqrt cfg samples ↔
        trainCount cfg.trainRatio samples.length ≤ testStart K samples.length := fun shuffle => by
      rw [leaks_iff_of_nodup hnodup, not_lt]
    rw [hlen]
    constructor
    · exact fun h => Or.inr ⟨hnodup, (hiff fun _ _ => 1).mp (h _)⟩
    · rintro (h | h) shuffle
      · exact (hiff shuffle).mpr (h ▸ Nat.zero_le _)
      · exact (hiff shuffle).mpr h.2
  · constructor
    · intro h
      refine Or.inl ?_
      by_contra htrain
      obtain ⟨shuffle, hleak⟩ := exists_leaks_of_not_nodup sqrt hnodup (Nat.pos_of_ne_zero htrain)
      exact h shuffle hleak
    · rintro (h | h) shuffle
      · rintro ⟨s, -, t, ht, -⟩
        obtain ⟨i, hi, -⟩ := mem_train_split.mp ht
        rw [h] at hi
        exact Nat.not_lt_zero _ hi
      · exact absurd h.1 hnodup

/-- Samples with the given prompts. -/
def promptSamples (prompts : List String) : List (Sample Unit ℚ) :=
  prompts.map fun prompt => ⟨prompt, [], 1, []⟩

/-- With the shipped ratios and one prompt twice, the copy that training
drops is scored; with distinct prompts and a training ratio of 1, so is
what was trained on last. -/
theorem evaluation_leaks :
    Leaks id (fun _ _ => 1) id ⟨8 / 10, 1 / 10, some 42⟩
      (promptSamples ["a", "b", "c", "d", "e", "f", "g", "h", "i", "a"]) ∧
    Leaks id (fun _ _ => 1) id ⟨1, 0, some 42⟩ (promptSamples ["a", "b"]) := by
  decide +kernel

/-- With the shipped ratios and distinct prompts nothing leaks. -/
theorem shipped_ratios_no_leak :
    ((promptSamples ["a", "b", "c", "d"]).map fun s => s.prompt).Nodup ∧
    ∀ shuffle, ¬ Leaks id shuffle id ⟨8 / 10, 1 / 10, some 42⟩
      (promptSamples ["a", "b", "c", "d"]) :=
  ⟨by decide +kernel, (no_leak_iff id id _ _).mpr (Or.inr (by decide +kernel))⟩

/-! ## One split -/

section Partition

omit [DecidableEq Digest] in
theorem truncate_nonneg [IsStrictOrderedRing K] {x : K} (hx : 0 ≤ x) : 0 ≤ truncate x := by
  rw [truncate, if_neg (not_lt.mpr hx)]
  exact Int.floor_nonneg.mpr hx

/-- Three slices with two bounds make up the list. -/
theorem slices_append {α : Type} (l : List α) {a b : ℤ} (ha : 0 ≤ a) (hb : 0 ≤ b) :
    sliceTo l a ++ slice l a (a + b) ++ sliceFrom l (a + b) = l := by
  have hle : sliceIndex l.length a ≤ sliceIndex l.length (a + b) := by
    rw [sliceIndex, sliceIndex, if_neg (by omega), if_neg (by omega)]
    omega
  rw [sliceTo, slice, sliceFrom]
  conv_lhs => rw [← min_eq_left hle, ← List.take_take, min_eq_left hle, List.take_append_drop]
  exact List.take_append_drop _ l

/-- **A split loses no sample and repeats none**, whatever the ratios. -/
theorem split_perm [IsStrictOrderedRing K] (shuffle : Shuffle) (sqrt : K → K)
    (samples : List (Sample V K)) {trainRatio valRatio : K} (htrain : 0 ≤ trainRatio)
    (hval : 0 ≤ valRatio) (seed : ℕ) :
    let d := split shuffle sqrt samples trainRatio valRatio seed
    (d.train ++ d.val ++ d.test).Perm samples := by
  have hn : (0 : K) ≤ samples.length := Nat.cast_nonneg _
  have ha := truncate_nonneg (mul_nonneg hn htrain)
  have hb := truncate_nonneg (mul_nonneg hn hval)
  simp only [split, ← List.map_append]
  rw [slices_append _ ha hb, List.map_ofFn]
  have hperm := (shuffle seed samples.length).ofFn_comp_perm samples.get
  rwa [List.ofFn_get] at hperm

/-- Of every prompt, the splits hold the first sample. -/
theorem filter_split_deduplicate [IsStrictOrderedRing K] {hash : String → Digest}
    (hinj : Function.Injective hash) (shuffle : Shuffle) (sqrt : K → K)
    (samples : List (Sample V K)) {trainRatio valRatio : K} (htrain : 0 ≤ trainRatio)
    (hval : 0 ≤ valRatio) (seed : ℕ) (prompt : String) :
    let d := split shuffle sqrt (deduplicate hash samples) trainRatio valRatio seed
    ((d.train ++ d.val ++ d.test).filter fun s => s.prompt = prompt) =
      (samples.find? fun s => s.prompt = prompt).toList := by
  intro d
  have hperm := (split_perm shuffle sqrt (deduplicate hash samples) htrain hval seed).filter
    fun s => s.prompt = prompt
  rw [filter_deduplicate hinj] at hperm
  generalize (samples.find? fun s => s.prompt = prompt) = first at hperm ⊢
  cases first with
  | none => exact hperm.eq_nil
  | some s => exact hperm.eq_singleton

omit [Field K] [LinearOrder K] [FloorRing K] in
/-- Where no prompt is there twice, none is in two of the lists. -/
theorem pairwise_prompt_ne {a b c : List (Sample V K)}
    (hnodup : ((a ++ b ++ c).map Sample.prompt).Nodup) :
    [a, b, c].Pairwise fun a b => ∀ s ∈ a, ∀ t ∈ b, s.prompt ≠ t.prompt := by
  have hapart : ∀ {a b : List (Sample V K)},
      (a.map Sample.prompt).Disjoint (b.map Sample.prompt) →
        ∀ s ∈ a, ∀ t ∈ b, s.prompt ≠ t.prompt :=
    fun hab s hs t ht heq =>
      hab (List.mem_map_of_mem hs) (heq ▸ List.mem_map_of_mem (f := Sample.prompt) ht)
  rw [List.map_append, List.map_append] at hnodup
  have hlast := List.disjoint_of_nodup_append hnodup
  rw [List.disjoint_append_left] at hlast
  have hfirst := List.disjoint_of_nodup_append (List.Nodup.of_append_left hnodup)
  simpa using ⟨⟨hapart hfirst, hapart hlast.1⟩, hapart hlast.2⟩

/-- **Training splits do not leak.** Of every prompt, the three splits of the
deduplicated samples hold together the first sample and no other; and no two
of them share a prompt. -/
theorem split_deduplicate_partition [IsStrictOrderedRing K] (hash : String → Digest)
    (hinj : Function.Injective hash) (shuffle : Shuffle) (sqrt : K → K)
    (samples : List (Sample V K)) (trainRatio valRatio : K) (htrain : 0 ≤ trainRatio)
    (hval : 0 ≤ valRatio) (seed : ℕ) :
    let d := split shuffle sqrt (deduplicate hash samples) trainRatio valRatio seed
    (∀ prompt, ((d.train ++ d.val ++ d.test).filter fun s => s.prompt = prompt) =
      (samples.find? fun s => s.prompt = prompt).toList) ∧
    [d.train, d.val, d.test].Pairwise fun a b => ∀ s ∈ a, ∀ t ∈ b, s.prompt ≠ t.prompt := by
  intro d
  have hone := filter_split_deduplicate hinj shuffle sqrt samples htrain hval seed
  refine ⟨hone, pairwise_prompt_ne ?_⟩
  rw [List.nodup_iff_count_le_one]
  intro prompt
  rw [List.count, List.countP_map, List.countP_eq_length_filter]
  have hlen : ((samples.find? fun s => s.prompt = prompt).toList).length ≤ 1 := by
    cases samples.find? fun s => s.prompt = prompt <;> simp
  rw [← hone prompt] at hlen
  simpa [Function.comp_def, beq_eq_decide] using hlen

/-- With ratios that add up to more than one, the only sample of a prompt is
the first of it. -/
theorem large_ratios_partition :
    Function.Injective (id : String → String) ∧
      let d := split (fun _ _ => 1) id (deduplicate id (promptSamples ["a", "b", "a"])) (9 / 10)
        (8 / 10) 42
      ((d.train ++ d.val ++ d.test).filter fun s => s.prompt = "a") =
        [⟨"a", [], 1, []⟩] := by
  refine ⟨Function.injective_id, ?_⟩
  have hpart := split_deduplicate_partition id Function.injective_id (fun _ _ => 1) id
    (promptSamples ["a", "b", "a"]) (9 / 10) (8 / 10) (by norm_num) (by norm_num) 42
  exact (hpart.1 "a").trans rfl

end Partition

end VllmScheduler
