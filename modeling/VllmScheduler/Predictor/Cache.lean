import Mathlib.Algebra.Field.Rat
import VllmScheduler.Common.Memo
import VllmScheduler.Predictor.Dataset
/-!
# The dataset cache

`OutputLengthDataset.from_huggingface` of `python/predictor/dataset.py`
writes the records it has made of a dataset to a file and reads them back
where the file exists. The file is named after the dataset, the split and
the number of samples, with `/` turned into `_`; the keys under which prompt
and output are looked up do not enter the name, and the separators are not
escaped.

Reading back what was written gives the same samples, so the builder is a
cache that computes once for each name: it is transparent exactly where
calls that share a name find the same prompts and output lengths in their
rows, each under its own columns.
-/

namespace VllmScheduler

variable {V K Line : Type}

/-- JSON texts, one to a line: what `json.dumps` writes, what `json.loads`
makes of a line that is not blank. -/
structure JsonLines (V Line : Type) where
  dumps : Dict String V → Line
  loads : Line → Option (Dict String V)
  blank : Line → Bool
  loads_dumps : ∀ rec, loads (dumps rec) = some rec
  blank_dumps : ∀ rec, blank (dumps rec) = false

/-- The arguments of `from_huggingface`. -/
structure HuggingfaceCall where
  name : String
  split : String
  maxSamples : ℤ
  promptKey : String
  outputKey : String
deriving DecidableEq

/-- What the builder is made of; `load_dataset` is a function of name and
split. -/
structure DatasetBuilder (V K Line : Type) where
  vals : PyValues V
  ext : Extraction K
  json : JsonLines V Line
  loadDataset : String → String → List (Dict String V)

/-- The files of the cache directory, as lists of lines. -/
abbrev CacheDir (Line : Type) := List Char → Option (List Line)

/-- `cache_key`, which names the file. -/
def cacheKey (call : HuggingfaceCall) : List Char :=
  (call.name ++ "_" ++ call.split ++ "_" ++ toString call.maxSamples).toList.map fun c =>
    if c = '/' then '_' else c

namespace DatasetBuilder

/-- `_write_jsonl`. -/
def writeJsonl (b : DatasetBuilder V K Line) (records : List (Dict String V)) : List Line :=
  records.map b.json.dumps

/-- The record `from_huggingface` makes of a row. -/
def recordOf (b : DatasetBuilder V K Line) (call : HuggingfaceCall) (row : Dict String V) :
    Option (Dict String V) :=
  let prompt := getText b.vals row [call.promptKey, "text"]
  let output := getText b.vals row [call.outputKey, "response"]
  if prompt = "" then none
  else some ((Dict.empty.set "prompt" (b.vals.text prompt)).set "output" (b.vals.text output))

/-- The records of a dataset, from at most `max_samples` of its rows. -/
def records (b : DatasetBuilder V K Line) (call : HuggingfaceCall) : List (Dict String V) :=
  ((b.loadDataset call.name call.split).take call.maxSamples.toNat).filterMap (b.recordOf call)

variable [NatCast K]

/-- `from_jsonl`; nothing where a line is no JSON. -/
def fromJsonl (b : DatasetBuilder V K Line) (lines : List Line) : Option (List (Sample V K)) :=
  ((lines.filter fun line => ¬ b.json.blank line).mapM b.json.loads).map (fromRecords b.vals b.ext)

/-- `from_huggingface`. -/
def fromHuggingface (b : DatasetBuilder V K Line) (dir : CacheDir Line) (call : HuggingfaceCall) :
    CacheDir Line × Option (List (Sample V K)) :=
  match dir (cacheKey call) with
  | some lines => (dir, b.fromJsonl lines)
  | none =>
    (Function.update dir (cacheKey call) (some (b.writeJsonl (b.records call))),
      some (fromRecords b.vals b.ext (b.records call)))

/-- Calls on one cache directory. -/
def machine (b : DatasetBuilder V K Line) :
    Machine (CacheDir Line) HuggingfaceCall (Option (List (Sample V K))) where
  step := b.fromHuggingface

/-- An empty cache directory. -/
def emptyDir : CacheDir Line := fun _ => none

/-- What a call returns on an empty cache directory. -/
def fresh (b : DatasetBuilder V K Line) (call : HuggingfaceCall) : Option (List (Sample V K)) :=
  (b.fromHuggingface emptyDir call).2

variable {b : DatasetBuilder V K Line} {calls : List HuggingfaceCall}

omit [NatCast K] in
theorem mapM_loads_writeJsonl (records : List (Dict String V)) :
    (b.writeJsonl records).mapM b.json.loads = some records := by
  rw [writeJsonl]
  induction records with
  | nil => rfl
  | cons rec records ih => simp [b.json.loads_dumps, ih]

/-- **Records round-trip** through a file. -/
theorem fromJsonl_writeJsonl (records : List (Dict String V)) :
    b.fromJsonl (b.writeJsonl records) = some (fromRecords b.vals b.ext records) := by
  have hlines : ((b.writeJsonl records).filter fun line => ¬ b.json.blank line) =
      b.writeJsonl records := by
    rw [List.filter_eq_self]
    intro line hline
    obtain ⟨rec, -, rfl⟩ := List.mem_map.mp hline
    simp [b.json.blank_dumps]
  rw [fromJsonl, hlines, mapM_loads_writeJsonl, Option.map_some]

/-- The samples the files stand for. -/
def view (b : DatasetBuilder V K Line) (dir : CacheDir Line) :
    List Char → Option (Option (List (Sample V K))) := fun key => (dir key).map b.fromJsonl

/-- The builder is a cache over its file names. -/
theorem step_view (dir : CacheDir Line) (call : HuggingfaceCall) :
    (Memo.machine cacheKey b.fresh).step (b.view dir) call =
      (b.view (b.machine.step dir call).1, (b.machine.step dir call).2) := by
  rcases hdir : dir (cacheKey call) with - | lines
  · have hview : b.view dir (cacheKey call) = none := by rw [view, hdir, Option.map_none]
    rw [Memo.step_of_none hview]
    have hfresh : b.fresh call = some (fromRecords b.vals b.ext (b.records call)) := rfl
    simp only [machine, fromHuggingface, hdir, hfresh]
    rw [Prod.mk.injEq]
    refine ⟨?_, rfl⟩
    funext key
    by_cases hkey : key = cacheKey call
    · rw [hkey, Function.update_self, view, Function.update_self, Option.map_some,
        fromJsonl_writeJsonl]
    · rw [Function.update_of_ne hkey, view, view, Function.update_of_ne hkey]
  · have hview : b.view dir (cacheKey call) = some (b.fromJsonl lines) := by
      rw [view, hdir, Option.map_some]
    rw [Memo.step_of_some hview]
    simp only [machine, fromHuggingface, hdir]

/-- The rows a call reads. -/
def rows (b : DatasetBuilder V K Line) (call : HuggingfaceCall) : List (Dict String V) :=
  (b.loadDataset call.name call.split).take call.maxSamples.toNat

/-- What a row has in the columns of a call: a prompt, unless it is empty, and
the number of tokens of the output. -/
def lookup (b : DatasetBuilder V K Line) (call : HuggingfaceCall) (row : Dict String V) :
    Option (String × K) :=
  let prompt := getText b.vals row [call.promptKey, "text"]
  let output := getText b.vals row [call.outputKey, "response"]
  if prompt = "" then none else some (prompt, estimateTokens b.ext output)

/-- The sample of such a pair. -/
def sampleOf (b : DatasetBuilder V K Line) (found : String × K) : Sample V K :=
  ⟨found.1, b.ext.features found.1, found.2, []⟩

omit [NatCast K] in
theorem sampleOf_injective : Function.Injective b.sampleOf := by
  rintro ⟨prompt, tokens⟩ ⟨prompt', tokens'⟩ h
  rw [sampleOf, sampleOf, Sample.mk.injEq] at h
  exact Prod.ext h.1 h.2.2.1

/-- A record with a prompt becomes its sample. -/
theorem fromRecords_cons {prompt output : String} (hprompt : prompt ≠ "")
    (records : List (Dict String V)) :
    fromRecords b.vals b.ext
        (((Dict.empty.set "prompt" (b.vals.text prompt)).set "output" (b.vals.text output)) ::
          records) =
      b.sampleOf (prompt, estimateTokens b.ext output) :: fromRecords b.vals b.ext records := by
  set rec := (Dict.empty.set "prompt" (b.vals.text prompt)).set "output" (b.vals.text output)
  have hentries :
      rec.entries = [("prompt", b.vals.text prompt), ("output", b.vals.text output)] := by
    rw [Dict.entries_set_of_not_mem (by simp), Dict.entries_set_of_not_mem Dict.not_mem_empty]
    rfl
  have hp : getText b.vals rec ["prompt", "instruction", "input"] = prompt := by
    rw [getText, Dict.get?_set_of_ne (by decide), Dict.get?_set_self]
    exact b.vals.str_text prompt
  have ho : getText b.vals rec ["output", "response", "completion"] = output := by
    rw [getText, Dict.get?_set_self]
    exact b.vals.str_text output
  simp [fromRecords, fromPrompts, hp, ho, hprompt, hentries, sampleOf]

/-- **What a call returns** on an empty directory is made of what its columns
hold. -/
theorem fresh_eq (call : HuggingfaceCall) :
    b.fresh call = some (((b.rows call).filterMap (b.lookup call)).map b.sampleOf) := by
  show some (fromRecords b.vals b.ext ((b.rows call).filterMap (b.recordOf call))) = _
  rw [Option.some.injEq]
  induction b.rows call with
  | nil => rfl
  | cons row rows ih =>
    by_cases hprompt : getText b.vals row [call.promptKey, "text"] = ""
    · rw [List.filterMap_cons_none (by simp [recordOf, hprompt]),
        List.filterMap_cons_none (by simp [lookup, hprompt])]
      exact ih
    · have hrec : b.recordOf call row = some _ := if_neg hprompt
      have hfound : b.lookup call row = some _ := if_neg hprompt
      rw [List.filterMap_cons_some hrec, List.filterMap_cons_some hfound,
        fromRecords_cons hprompt, ih, List.map_cons]

/-- **When dataset caching is transparent.** Every call of a sequence on one
cache directory returns what it would on an empty one exactly where calls
whose files have one name find the same prompts and numbers of tokens in the
columns of the rows they read. -/
theorem caching_transparent_iff (b : DatasetBuilder V K Line) (calls : List HuggingfaceCall) :
    (∀ e ∈ b.machine.log emptyDir calls, e.2 = b.fresh e.1) ↔
      ∀ c ∈ calls, ∀ c' ∈ calls, cacheKey c = cacheKey c' →
        (b.rows c).filterMap (b.lookup c) = (b.rows c').filterMap (b.lookup c') := by
  have hlog : (Memo.machine cacheKey b.fresh).log (b.view emptyDir) calls =
      b.machine.log emptyDir calls := Machine.log_of_hom step_view
  have hfresh : ∀ c c', b.fresh c = b.fresh c' ↔
      (b.rows c).filterMap (b.lookup c) = (b.rows c').filterMap (b.lookup c') := by
    intro c c'
    rw [fresh_eq, fresh_eq, Option.some.injEq]
    exact (List.map_injective_iff.mpr sampleOf_injective).eq_iff
  rw [← hlog]
  simp only [← hfresh]
  exact Memo.transparent_iff

/-- A builder over two datasets; a line is the record itself. -/
def twoDatasets : DatasetBuilder String ℚ (Dict String String) where
  vals := ⟨id, id, fun _ => rfl⟩
  ext := ⟨fun _ => [], fun _ => 1⟩
  json := ⟨id, some, fun _ => false, fun _ => rfl, fun _ => rfl⟩
  loadDataset := fun name _ =>
    if name = "a/b" then [(Dict.empty.set "instruction" "i").set "text" "t"]
    else [Dict.empty.set "instruction" "other"]

/-- A call that looks the prompt up under another key gets the samples of
the first, and so does one for another dataset whose name differs in a
separator. -/
theorem caching_shows :
    (twoDatasets.machine.log emptyDir [⟨"a/b", "train", 10, "instruction", "output"⟩,
        ⟨"a/b", "train", 10, "text", "output"⟩, ⟨"a_b", "train", 10, "instruction", "output"⟩]).map
      (fun e => (e.2.map fun samples => samples.map Sample.prompt,
        (twoDatasets.fresh e.1).map fun samples => samples.map Sample.prompt)) =
    [(some ["i"], some ["i"]), (some ["i"], some ["t"]), (some ["i"], some ["other"])] := by
  decide +kernel

end DatasetBuilder

end VllmScheduler
