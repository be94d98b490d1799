import Mathlib.Data.List.GetD
import Mathlib.Data.List.Sort
import Mathlib.Data.Rat.Floor
import VllmScheduler.Benchmark.Simulate
import VllmScheduler.Common.NearestRank
import VllmScheduler.Predictor.Dataset
/-!
# The benchmark's percentiles

`percentile` and `aggregate_metrics` of `python/benchmark/metrics.py`, and
`pct` of `benchmarks/run_benchmark.py`. The rank is the whole part of `n * p`,
where the nearest rank would be rounded up. So the value is never too large,
and it is too small exactly where `n * p` is not a whole number and the next
value is larger (`percentile_nearestRank_iff`). What is reported is that value
rounded to two places, which may lie below all the data.

Floats are elements of an ordered field; `round` is to the nearest multiple of
a power of ten, ties to even.
-/

namespace VllmScheduler

variable {K : Type} [Field K] [LinearOrder K] [FloorRing K]

/-- `percentile`. -/
def percentile (data : List K) (p : K) : K :=
  if data = [] then 0
  else
    let sortedData := data.insertionSort (· ≤ ·)
    let idx := max 0 (truncate (sortedData.length * p) - 1)
    sortedData.getD (min idx (sortedData.length - 1)).toNat 0

/-- `pct`, of sorted data; nothing where the index is out of range. -/
def pct (data : List K) (p : K) : Option K :=
  if data = [] then some 0 else data[(max 0 (truncate (data.length * p) - 1)).toNat]?

/-- The nearest whole number, the even one of two. -/
def roundHalfEven (x : K) : ℤ :=
  let rest := x - ⌊x⌋
  if rest < 1 / 2 then ⌊x⌋
  else if 1 / 2 < rest then ⌊x⌋ + 1
  else if Even ⌊x⌋ then ⌊x⌋ else ⌊x⌋ + 1

/-- `round(x, ndigits)`. -/
def pyRound (x : K) (ndigits : ℕ) : K := roundHalfEven (x * 10 ^ ndigits) / 10 ^ ndigits

/-- `BenchmarkResult`, up to the resource metrics, which nothing sets. -/
structure BenchmarkResult (K : Type) where
  scheduler : String
  concurrency : ℕ
  nRequests : ℕ
  nSuccess : ℕ
  throughputRps : K
  tokensPerSec : K
  e2eP50Ms : K
  e2eP95Ms : K
  e2eP99Ms : K
  queueWaitP50Ms : K
  queueWaitP99Ms : K
  featureP50Ms : K
  predictP50Ms : K
  scheduleP50Ms : K
  errorRate : K
  elapsedSec : K

/-- `aggregate_metrics`. -/
def aggregateMetrics (scheduler : String) (concurrency : ℕ) (metrics : List (RequestMetric K))
    (elapsedSec : K) : BenchmarkResult K :=
  let successes := metrics.filter RequestMetric.success
  let e2es := metrics.map RequestMetric.e2eMs
  let waits := metrics.map RequestMetric.queueWaitMs
  let features := metrics.map RequestMetric.featureMs
  let predicts := metrics.map RequestMetric.predictMs
  let schedules := metrics.map RequestMetric.scheduleMs
  let totalTokens := (successes.map RequestMetric.tokens).sum
  let elapsed := max elapsedSec (1 / 1000000)
  { scheduler := scheduler
    concurrency := concurrency
    nRequests := metrics.length
    nSuccess := successes.length
    throughputRps := pyRound (successes.length / elapsed) 3
    tokensPerSec := pyRound (totalTokens / elapsed) 1
    e2eP50Ms := pyRound (percentile e2es (50 / 100)) 2
    e2eP95Ms := pyRound (percentile e2es (95 / 100)) 2
    e2eP99Ms := pyRound (percentile e2es (99 / 100)) 2
    queueWaitP50Ms := pyRound (percentile waits (50 / 100)) 2
    queueWaitP99Ms := pyRound (percentile waits (99 / 100)) 2
    featureP50Ms := pyRound (percentile features (50 / 100)) 3
    predictP50Ms := pyRound (percentile predicts (50 / 100)) 3
    scheduleP50Ms := pyRound (percentile schedules (50 / 100)) 3
    errorRate :=
      pyRound ((metrics.length - successes.length : ℕ) / (max metrics.length 1 : ℕ) * 100) 2
    elapsedSec := pyRound elapsedSec 2 }

/-! ## The rank -/

section Rank

variable [IsStrictOrderedRing K] {data : List K} {p : K}

/-- The index both functions read at. -/
theorem toNat_index {n : ℕ} (hp : 0 < p) :
    (max 0 (truncate (n * p) - 1)).toNat = ⌊n * p⌋₊ - 1 := by
  have hnonneg : 0 ≤ (n : K) * p := mul_nonneg (Nat.cast_nonneg n) hp.le
  rw [truncate, if_neg (not_lt.mpr hnonneg), ← Int.floor_toNat]
  have := Int.floor_nonneg.mpr hnonneg
  omega

theorem floor_le_length {n : ℕ} (hp1 : p ≤ 1) : ⌊n * p⌋₊ ≤ n := by
  refine Nat.floor_le_of_le ?_
  exact mul_le_of_le_one_right (Nat.cast_nonneg n) hp1

/-- The percentile is an entry of the sorted data. -/
theorem percentile_eq (hne : data ≠ []) (hp : 0 < p) (hp1 : p ≤ 1) :
    ∃ h : ⌊data.length * p⌋₊ - 1 < (data.insertionSort (· ≤ ·)).length,
      percentile data p = (data.insertionSort (· ≤ ·))[⌊data.length * p⌋₊ - 1] := by
  have hlen : (data.insertionSort (· ≤ ·)).length = data.length := List.length_insertionSort _ _
  have hpos : 0 < data.length := List.length_pos_iff.mpr hne
  have hfloor : ⌊data.length * p⌋₊ ≤ data.length := floor_le_length hp1
  have hlt : ⌊data.length * p⌋₊ - 1 < (data.insertionSort (· ≤ ·)).length := by omega
  refine ⟨hlt, ?_⟩
  have hidx := toNat_index (n := data.length) hp
  rw [percentile, if_neg hne]
  simp only [hlen]
  have hmin : (min (max 0 (truncate (data.length * p) - 1)) ((data.length : ℤ) - 1)).toNat =
      ⌊data.length * p⌋₊ - 1 := by omega
  rw [hmin, List.getD_eq_getElem _ _ hlt]

/-- On sorted data the two functions agree. -/
theorem pct_eq (hs : data.Pairwise (· ≤ ·)) (hp : 0 < p) (hp1 : p ≤ 1) :
    pct data p = some (percentile data p) := by
  by_cases hne : data = []
  · rw [pct, percentile, if_pos hne, if_pos hne]
  · obtain ⟨h, heq⟩ := percentile_eq hne hp hp1
    rw [pct, if_neg hne, toNat_index hp, heq]
    simp only [hs.insertionSort_eq] at h ⊢
    exact List.getElem?_eq_getElem h

end Rank

/-! ## Whether it is the nearest one -/

section Nearest

variable [IsStrictOrderedRing K] {data : List K} {p : K}

/-- Rounding down makes no difference: there is nothing to round, or the rank
is the first one anyway, or the next value is the same. -/
def OnRank (data : List K) (p : K) : Prop :=
  let sortedData := data.insertionSort (· ≤ ·)
  let n : K := data.length
  n * p < 1 ∨ (⌊n * p⌋₊ : K) = n * p ∨ sortedData[⌊n * p⌋₊]? = sortedData[⌊n * p⌋₊ - 1]?

theorem percentile_mem (hne : data ≠ []) (hp : 0 < p) (hp1 : p ≤ 1) :
    percentile data p ∈ data := by
  obtain ⟨hi, heq⟩ := percentile_eq hne hp hp1
  rw [heq]
  exact (List.perm_insertionSort _ data).mem_iff.mp (List.getElem_mem hi)

/-- Fewer values are below the percentile than its rank. -/
theorem countP_lt_percentile_le (hne : data ≠ []) (hp : 0 < p) (hp1 : p ≤ 1) :
    data.countP (· < percentile data p) ≤ ⌊data.length * p⌋₊ - 1 := by
  obtain ⟨hi, heq⟩ := percentile_eq hne hp hp1
  have hle := countP_lt_getElem_le (List.pairwise_insertionSort _ data) hi
  rwa [← heq, (List.perm_insertionSort _ data).countP_eq] at hle

/-- And no fewer than its rank are not above it. -/
theorem lt_countP_le_percentile (hne : data ≠ []) (hp : 0 < p) (hp1 : p ≤ 1) :
    ⌊data.length * p⌋₊ - 1 < data.countP (· ≤ percentile data p) := by
  obtain ⟨hi, heq⟩ := percentile_eq hne hp hp1
  have hlt := (lt_countP_le_iff (List.pairwise_insertionSort _ data) _ hi).mpr le_rfl
  rwa [← heq, (List.perm_insertionSort _ data).countP_eq] at hlt

theorem countP_lt_percentile_lt (hne : data ≠ []) (hp : 0 < p) (hp1 : p ≤ 1) :
    (data.countP (· < percentile data p) : K) < p * data.length := by
  have hle := countP_lt_percentile_le hne hp hp1
  have hpos : 0 < (data.length : K) * p :=
    mul_pos (Nat.cast_pos.mpr (List.length_pos_iff.mpr hne)) hp
  refine (Nat.cast_le.mpr hle).trans_lt ?_
  rw [mul_comm p]
  rcases Nat.eq_zero_or_pos ⌊data.length * p⌋₊ with hzero | hfloor
  · rw [hzero, Nat.zero_sub, Nat.cast_zero]
    exact hpos
  · refine lt_of_lt_of_le (Nat.cast_lt.mpr ?_) (Nat.floor_le hpos.le)
    omega

/-- Whether enough of the data is not above the percentile. -/
theorem le_countP_percentile_iff (hne : data ≠ []) (hp : 0 < p) (hp1 : p ≤ 1) :
    p * data.length ≤ (data.countP (· ≤ percentile data p) : K) ↔ OnRank data p := by
  have hown := lt_countP_le_percentile hne hp hp1
  have hnonneg : 0 ≤ (data.length : K) * p := mul_nonneg (Nat.cast_nonneg _) hp.le
  have hfloor := Nat.floor_le hnonneg
  rw [mul_comm p]
  rcases Nat.eq_zero_or_pos ⌊data.length * p⌋₊ with hzero | hpos
  · -- the first rank
    have hlt : data.length * p < 1 := Nat.floor_eq_zero.mp hzero
    refine iff_of_true (hlt.le.trans ?_) (Or.inl hlt)
    exact_mod_cast Nat.one_le_iff_ne_zero.mpr (Nat.ne_zero_of_lt hown)
  rcases hfloor.eq_or_lt with hwhole | hlt
  · -- nothing to round
    refine iff_of_true ?_ (Or.inr (Or.inl hwhole))
    rw [← hwhole]
    exact_mod_cast (by omega : ⌊data.length * p⌋₊ ≤ data.countP (· ≤ percentile data p))
  · -- the next value decides
    obtain ⟨hi, heq⟩ := percentile_eq hne hp hp1
    have hnext : ⌊data.length * p⌋₊ < (data.insertionSort (· ≤ ·)).length := by
      have hle : data.length * p ≤ data.length := mul_le_of_le_one_right (Nat.cast_nonneg _) hp1
      rw [List.length_insertionSort]
      exact_mod_cast hlt.trans_le hle
    have hone : 1 ≤ (data.length : K) * p := Nat.floor_pos.mp hpos
    have hiff := le_countP_getElem_iff (List.pairwise_insertionSort _ data) hpos hnext hlt
      (Nat.lt_floor_add_one _)
    rw [(List.perm_insertionSort _ data).countP_eq, ← heq] at hiff
    rw [hiff, OnRank, or_iff_right (not_lt.mpr hone), or_iff_right hlt.ne,
      List.getElem?_eq_getElem hnext, List.getElem?_eq_getElem hi, Option.some_inj, heq]

/-- Whether enough of the data is not above a value. -/
theorem le_countP_iff_ceil (hne : data ≠ []) (hp : 0 < p) (hp1 : p ≤ 1) (v : K) :
    p * data.length ≤ (data.countP (· ≤ v) : K) ↔
      (data.insertionSort (· ≤ ·)).getD (⌈data.length * p⌉₊ - 1) 0 ≤ v := by
  have hpos : 0 < (data.length : K) := Nat.cast_pos.mpr (List.length_pos_iff.mpr hne)
  have hceil : ⌈data.length * p⌉₊ ≤ data.length :=
    Nat.ceil_le.mpr (mul_le_of_le_one_right hpos.le hp1)
  have hlt : ⌈data.length * p⌉₊ - 1 < (data.insertionSort (· ≤ ·)).length := by
    have := List.length_pos_iff.mpr hne
    rw [List.length_insertionSort]
    omega
  have hiff := le_countP_iff_getElem_ceil (List.pairwise_insertionSort _ data) (mul_pos hpos hp)
    hlt v
  rw [(List.perm_insertionSort _ data).countP_eq, ← List.getD_eq_getElem _ 0 hlt] at hiff
  rwa [mul_comm p]

/-- The value whose rank is that of the 99th percentile rounded up is no larger
than the one whose rank is rounded down, after that is rounded to two
places. -/
def ReportCovers (data : List K) : Prop :=
  let sortedData := data.insertionSort (· ≤ ·)
  let rank : K := data.length * (99 / 100)
  sortedData.getD (⌈rank⌉₊ - 1) 0 ≤ pyRound (sortedData.getD (⌊rank⌋₊ - 1) 0) 2

instance (data : List K) : Decidable (ReportCovers data) := inferInstanceAs (Decidable (_ ≤ _))

/-- The reported 99th percentile is the rounded value of the rank rounded
down. -/
theorem e2eP99Ms_aggregateMetrics {scheduler : String} {concurrency : ℕ}
    {metrics : List (RequestMetric K)} {elapsedSec : K}
    (hdata : metrics.map RequestMetric.e2eMs = data) (hne : data ≠ []) :
    (aggregateMetrics scheduler concurrency metrics elapsedSec).e2eP99Ms =
      pyRound ((data.insertionSort (· ≤ ·)).getD (⌊data.length * (99 / 100 : K)⌋₊ - 1) 0) 2 := by
  obtain ⟨hi, heq⟩ := percentile_eq (p := (99 / 100 : K)) hne (by norm_num) (by norm_num)
  show pyRound (percentile (metrics.map RequestMetric.e2eMs) (99 / 100)) 2 = _
  rw [hdata, heq, List.getD_eq_getElem _ 0 hi]

/-- **When a percentile is one.** The value is always in the data and never has
a fraction `p` of the data below it. It is the nearest-rank percentile, and no
more than the rest of the data is above it, exactly where rounding down makes
no difference. The 99th percentile that is reported is exceeded by no more than
one percent of the requests exactly where the value at the rank rounded up is
covered by the one at the rank rounded down, as it is reported. -/
theorem percentile_nearestRank_iff (data : List K) (p : K) (hne : data ≠ []) (hp : 0 < p)
    (hp1 : p ≤ 1) :
    percentile data p ∈ data ∧
      (data.countP (· < percentile data p) : K) < p * data.length ∧
      (NearestRank data p (percentile data p) ↔ OnRank data p) ∧
      ((data.countP (percentile data p < ·) : K) ≤ (1 - p) * data.length ↔ OnRank data p) ∧
      ∀ scheduler concurrency metrics elapsedSec, metrics.map RequestMetric.e2eMs = data →
        ((data.countP
            ((aggregateMetrics scheduler concurrency metrics elapsedSec).e2eP99Ms < ·) : K) ≤
            (1 - 99 / 100) * data.length ↔ ReportCovers data) := by
  have hmem := percentile_mem hne hp hp1
  have hbelow := countP_lt_percentile_lt hne hp hp1
  have hiff := le_countP_percentile_iff hne hp hp1
  refine ⟨hmem, hbelow, ⟨fun h => hiff.mp h.enough, fun h => ⟨hmem, hiff.mpr h, hbelow⟩⟩,
    by rw [countP_gt_le_iff, hiff], fun scheduler concurrency metrics elapsedSec hdata => ?_⟩
  rw [countP_gt_le_iff, e2eP99Ms_aggregateMetrics hdata hne,
    le_countP_iff_ceil hne (by norm_num) (by norm_num)]
  rfl

end Nearest

/-- The metrics of `n` requests, the `i`-th of which takes `i` milliseconds. -/
def steppedMetrics (n : ℕ) : List (RequestMetric ℚ) :=
  (List.range' 1 n).map fun i => ⟨true, i, 0, 0, 0, 0, 1, 4⟩

/-- The metrics of `n` requests that take 1.004 milliseconds each. -/
def evenMetrics (n : ℕ) : List (RequestMetric ℚ) :=
  List.replicate n ⟨true, 1004 / 1000, 0, 0, 0, 0, 1, 4⟩

/-- Of twenty requests, one takes longer than the reported 99th percentile:
five percent. Where all take 1.004 milliseconds, all take longer than the
reported one. -/
theorem p99_exceeded :
    let latencies := (steppedMetrics 20).map RequestMetric.e2eMs
    percentile latencies (99 / 100) = 19 ∧
      (aggregateMetrics "fcfs" 4 (steppedMetrics 20) 1).e2eP99Ms = 19 ∧
      pct latencies (99 / 100) = some 19 ∧
      latencies.countP (19 < ·) = 1 ∧ ¬ (1 : ℚ) ≤ (1 - 99 / 100) * latencies.length ∧
      ¬ NearestRank latencies (99 / 100) 19 ∧
      (aggregateMetrics "fcfs" 4 (evenMetrics 100) 1).e2eP99Ms = 1 ∧
      ((evenMetrics 100).map RequestMetric.e2eMs).countP (1 < ·) = 100 := by
  refine ⟨by decide +kernel, by decide +kernel, by decide +kernel, by decide +kernel,
    by decide +kernel, fun h => ?_, by decide +kernel, by decide +kernel⟩
  exact absurd h.enough (by decide +kernel)

/-- Of a hundred, the 99th percentile is the one that it should be. -/
theorem p99_of_hundred :
    let latencies := (steppedMetrics 100).map RequestMetric.e2eMs
    latencies ≠ [] ∧ NearestRank latencies (99 / 100) (percentile latencies (99 / 100)) ∧
      (latencies.countP ((aggregateMetrics "fcfs" 4 (steppedMetrics 100) 1).e2eP99Ms < ·) : ℚ) ≤
        (1 - 99 / 100) * latencies.length := by
  have hne : (steppedMetrics 100).map RequestMetric.e2eMs ≠ [] := by decide +kernel
  obtain ⟨-, -, hiff, -, hreport⟩ :=
    percentile_nearestRank_iff _ (99 / 100) hne (by norm_num) (by norm_num)
  refine ⟨hne, hiff.mpr (Or.inr (Or.inl ?_)), (hreport "fcfs" 4 _ 1 rfl).mpr ?_⟩
  · decide +kernel
  · decide +kernel

end VllmScheduler
