import Mathlib.Algebra.Order.Floor.Ring
import Mathlib.Data.List.OfFn
import Mathlib.Logic.Equiv.Defs
import VllmScheduler.Common.Dict
import VllmScheduler.Common.Numerals
/-!
# The dataset builder

`OutputLengthDataset` of `python/predictor/dataset.py`: how records become
samples, how samples are deduplicated, and how they are split. Floats are
elements of an ordered field, which no cast to `float32` rounds, and the values
of records are a type `V` with what Python's `str` makes of them. The feature
extractor, the number of words of a text, the prompt hash, the square root and
the random permutation are parameters.
-/

namespace VllmScheduler

variable {V K Digest : Type}

/-- The values of records: `str(v)`, and the texts among them. -/
structure PyValues (V : Type) where
  str : V → String
  text : String → V
  str_text : ∀ s, str (text s) = s

/-- What the builder reads off a text: `extractor.extract(text).features`
and `len(text.split())`. -/
structure Extraction (K : Type) where
  features : String → List K
  wordCount : String → ℕ

/-- `Sample`. -/
structure Sample (V K : Type) where
  prompt : String
  features : List K
  actualOutputTokens : K
  metadata : List (String × V)
deriving DecidableEq

/-! ## Records -/

section Records

variable [NatCast K]

/-- `_estimate_tokens`. -/
def estimateTokens (ext : Extraction K) (text : String) : ℕ := max 1 (ext.wordCount text * 13 / 10)

/-- `from_prompts`, over the zipped lists. -/
def fromPrompts (ext : Extraction K) (rows : List (String × String × List (String × V))) :
    List (Sample V K) :=
  rows.map fun row => ⟨row.1, ext.features row.1, estimateTokens ext row.2.1, row.2.2⟩

/-- `rec.get(key, default)` through a chain of keys, as a text. -/
def getText (vals : PyValues V) (rec : Dict String V) : List String → String
  | [] => ""
  | key :: keys =>
    match rec.get? key with
    | some v => vals.str v
    | none => getText vals rec keys

/-- `_from_records`. -/
def fromRecords (vals : PyValues V) (ext : Extraction K) (records : List (Dict String V)) :
    List (Sample V K) :=
  fromPrompts ext <| records.filterMap fun rec =>
    let prompt := getText vals rec ["prompt", "instruction", "input"]
    let output := getText vals rec ["output", "response", "completion"]
    if prompt = "" then none
    else some (prompt, output, rec.entries.filter fun e => e.1 ≠ "prompt" ∧ e.1 ≠ "output")

end Records

/-! ## Deduplication -/

section Deduplicate

variable [DecidableEq Digest]

/-- The loop of `deduplicate`; `seen` are the hashes so far. -/
def deduplicateLoop (hash : String → Digest) (seen : Finset Digest) :
    List (Sample V K) → List (Sample V K)
  | [] => []
  | s :: samples =>
    if hash s.prompt ∈ seen then deduplicateLoop hash seen samples
    else s :: deduplicateLoop hash (insert (hash s.prompt) seen) samples

/-- `deduplicate`. -/
def deduplicate (hash : String → Digest) (samples : List (Sample V K)) : List (Sample V K) :=
  deduplicateLoop hash ∅ samples

variable {hash : String → Digest} {seen : Finset Digest} {samples : List (Sample V K)}

theorem deduplicateLoop_sublist : (deduplicateLoop hash seen samples).Sublist samples := by
  induction samples generalizing seen with
  | nil => exact List.Sublist.refl _
  | cons s samples ih =>
    rw [deduplicateLoop]
    split
    · exact ih.cons s
    · exact ih.cons_cons s

/-- Deduplication keeps everything exactly where the hashes are distinct. -/
theorem deduplicateLoop_eq_self_iff :
    deduplicateLoop hash seen samples = samples ↔
      (samples.map fun s => hash s.prompt).Nodup ∧ ∀ s ∈ samples, hash s.prompt ∉ seen := by
  induction samples generalizing seen with
  | nil => simp [deduplicateLoop]
  | cons s samples ih =>
    rw [deduplicateLoop, List.map_cons, List.nodup_cons, List.forall_mem_cons]
    split
    · rename_i hs
      refine iff_of_false (fun heq => ?_) fun h => h.2.1 hs
      have hle : (deduplicateLoop hash seen samples).length ≤ samples.length :=
        deduplicateLoop_sublist.length_le
      rw [heq, List.length_cons] at hle
      omega
    · rename_i hs
      rw [List.cons_inj_right, ih]
      constructor
      · rintro ⟨hnodup, hseen⟩
        refine ⟨⟨fun hmem => ?_, hnodup⟩, hs, fun t ht hmem => ?_⟩
        · obtain ⟨t, ht, heq⟩ := List.mem_map.mp hmem
          exact hseen t ht (heq ▸ Finset.mem_insert_self _ _)
        · exact hseen t ht (Finset.mem_insert_of_mem hmem)
      · rintro ⟨⟨hfresh, hnodup⟩, -, hseen⟩
        refine ⟨hnodup, fun t ht hmem => ?_⟩
        rcases Finset.mem_insert.mp hmem with heq | hmem
        · exact hfresh (heq ▸ List.mem_map_of_mem (f := fun s => hash s.prompt) ht)
        · exact hseen t ht hmem

/-- And is shorter otherwise. -/
theorem length_deduplicate_eq_iff :
    (deduplicate hash samples).length = samples.length ↔
      (samples.map fun s => hash s.prompt).Nodup := by
  have hself : deduplicate hash samples = samples ↔
      (samples.map fun s => hash s.prompt).Nodup := by
    simp [deduplicate, deduplicateLoop_eq_self_iff]
  rw [← hself]
  exact ⟨deduplicateLoop_sublist.eq_of_length, congrArg List.length⟩

/-- **What is kept of a prompt** is its first sample, unless its hash was seen
before. -/
theorem filter_deduplicateLoop (hinj : Function.Injective hash) (prompt : String) :
    ((deduplicateLoop hash seen samples).filter fun s => s.prompt = prompt) =
      if hash prompt ∈ seen then []
      else (samples.find? fun s => s.prompt = prompt).toList := by
  induction samples generalizing seen with
  | nil => simp [deduplicateLoop]
  | cons s samples ih =>
    rw [deduplicateLoop]
    by_cases hp : s.prompt = prompt
    · subst hp
      by_cases hseen : hash s.prompt ∈ seen
      · rw [if_pos hseen, ih, if_pos hseen, if_pos hseen]
      · simp [hseen, ih]
    · have hne : hash prompt ≠ hash s.prompt := fun heq => hp (hinj heq).symm
      by_cases hseen : hash s.prompt ∈ seen
      · simp [hseen, hp, ih]
      · simp [hseen, hp, ih, Finset.mem_insert, hne]

theorem filter_deduplicate (hinj : Function.Injective hash) (prompt : String) :
    ((deduplicate hash samples).filter fun s => s.prompt = prompt) =
      (samples.find? fun s => s.prompt = prompt).toList := by
  rw [deduplicate, filter_deduplicateLoop hinj, if_neg (Finset.notMem_empty _)]

end Deduplicate

/-! ## Splits -/

/-- `DatasetSplits`; the statistics of an empty training set are `nan`. -/
structure DatasetSplits (V K : Type) where
  train : List (Sample V K)
  val : List (Sample V K)
  test : List (Sample V K)
  featureMean : Option (List K)
  featureStd : Option (List K)

/-- `np.random.default_rng(seed).permutation(n)`. -/
abbrev Shuffle := ℕ → (n : ℕ) → Equiv.Perm (Fin n)

/-- Where a slice bound falls in a sequence of length `n`. -/
def sliceIndex (n : ℕ) (k : ℤ) : ℕ := if k < 0 then (n + k).toNat else min k.toNat n

/-- `l[:k]`. -/
def sliceTo {α : Type} (l : List α) (k : ℤ) : List α := l.take (sliceIndex l.length k)

/-- `l[a:b]`. -/
def slice {α : Type} (l : List α) (a b : ℤ) : List α :=
  (l.take (sliceIndex l.length b)).drop (sliceIndex l.length a)

/-- `l[k:]`. -/
def sliceFrom {α : Type} (l : List α) (k : ℤ) : List α := l.drop (sliceIndex l.length k)

variable [Field K] [LinearOrder K] [FloorRing K]

/-- `int(x)`. -/
def truncate (x : K) : ℤ := if x < 0 then ⌈x⌉ else ⌊x⌋

/-- The mean of a column. -/
def meanOf (col : List K) : K := col.sum / col.length

/-- Its variance. -/
def varianceOf (col : List K) : K :=
  (col.map fun x => (x - meanOf col) * (x - meanOf col)).sum / col.length

/-- `mean(axis=0)`. -/
def columnMeans (rows : List (List K)) : Option (List K) :=
  if rows = [] then none else some (rows.transpose.map meanOf)

/-- `std(axis=0)`. -/
def columnStds (sqrt : K → K) (rows : List (List K)) : Option (List K) :=
  if rows = [] then none else some (rows.transpose.map fun col => sqrt (varianceOf col))

/-- `split`. -/
def split (shuffle : Shuffle) (sqrt : K → K) (samples : List (Sample V K)) (trainRatio valRatio : K)
    (seed : ℕ) : DatasetSplits V K :=
  let indices := List.ofFn (shuffle seed samples.length)
  let n : K := samples.length
  let nTrain := truncate (n * trainRatio)
  let nVal := truncate (n * valRatio)
  let train := (sliceTo indices nTrain).map samples.get
  { train := train
    val := (slice indices nTrain (nTrain + nVal)).map samples.get
    test := (sliceFrom indices (nTrain + nVal)).map samples.get
    featureMean := columnMeans (train.map Sample.features)
    featureStd := columnStds sqrt (train.map Sample.features) }

end VllmScheduler
