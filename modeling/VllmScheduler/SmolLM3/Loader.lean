import VllmScheduler.Common.Text
/-!
# The weight loader of the SmolLM3 port

`SmolLM3ForCausalLM.load_weights` goes through the weights of a checkpoint
in the order given. A weight whose name ends with one of the projections
that are merged is to go to a shard of the merged parameter; any other goes
to the parameter of its own name, and a name that is no parameter is
dropped without a word. Names are texts, as in the source: the loader works
by suffix tests and replacement on them.

The tensors are a type `T` and the loader's effects are recorded one by
one; what a parameter's own loader does with a tensor is outside the model.
-/

namespace VllmScheduler

/-- A dotted parameter name. -/
abbrev ParamName := List Char

/-- Which part of a merged parameter a weight is for: `"q"`, `"k"`, `"v"`
or a position. -/
inductive ShardId where
  | q
  | k
  | v
  | part (n : ℕ)
  deriving DecidableEq, Repr

/-- A row of `stacked_params_mapping`. -/
structure StackedParam where
  hfSuffix : ParamName
  vllmName : ParamName
  shardId : ShardId

/-- What `load_weights` does to the model. -/
inductive LoadEffect (T : Type) where
  /-- `weight_loader(param, loaded_weight[, shard_id])`. -/
  | loader (param : ParamName) (shard : Option ShardId) (weight : T)
  /-- `param.data.copy_(loaded_weight)`. -/
  | copy (param : ParamName) (weight : T)
  /-- `self.lm_head.weight = self.model.embed_tokens.weight`. -/
  | tie
  deriving DecidableEq, Repr

/-- What the names of the model's parameters and its loader depend on. -/
structure SmolLM3ForCausalLM where
  vllmAvailable : Bool
  numHiddenLayers : ℕ
  tieWordEmbeddings : Bool

/-- The name of something in decoder layer `i`. -/
def layerName (i : ℕ) (rest : ParamName) : ParamName :=
  "model.layers.".toList ++ (Nat.toDigits 10 i ++ '.' :: rest)

/-- A name in a layer ends with the name within it. -/
theorem suffix_layerName (i : ℕ) (rest : ParamName) : rest <:+ layerName i rest :=
  Text.suffix_append_cons _ _ _ _

def stackedParamsMapping : List StackedParam :=
  [⟨"q_proj".toList, "qkv_proj".toList, .q⟩,
    ⟨"k_proj".toList, "qkv_proj".toList, .k⟩,
    ⟨"v_proj".toList, "qkv_proj".toList, .v⟩,
    ⟨"gate_proj".toList, "gate_up_proj".toList, .part 0⟩,
    ⟨"up_proj".toList, "gate_up_proj".toList, .part 1⟩]

namespace SmolLM3ForCausalLM

variable {T : Type}

/-- The parameters of a decoder layer, by their names within it. Standalone
the projections are separate, and `nn.LayerNorm` has a bias. -/
def layerParameters (vllmAvailable : Bool) : List ParamName :=
  if vllmAvailable then
    ["self_attn.qkv_proj.weight".toList, "self_attn.o_proj.weight".toList,
      "mlp.gate_up_proj.weight".toList, "mlp.down_proj.weight".toList,
      "input_layernorm.weight".toList, "post_attention_layernorm.weight".toList]
  else
    ["self_attn.q_proj.weight".toList, "self_attn.k_proj.weight".toList,
      "self_attn.v_proj.weight".toList, "self_attn.o_proj.weight".toList,
      "mlp.gate_up_proj.weight".toList, "mlp.down_proj.weight".toList,
      "input_layernorm.weight".toList, "input_layernorm.bias".toList,
      "post_attention_layernorm.weight".toList, "post_attention_layernorm.bias".toList]

/-- `named_parameters()` of a model just built (unquantised). -/
def namedParameters (m : SmolLM3ForCausalLM) : List ParamName :=
  "model.embed_tokens.weight".toList ::
    ((List.range m.numHiddenLayers).flatMap fun i =>
      (layerParameters m.vllmAvailable).map (layerName i)) ++
    (if m.vllmAvailable then ["model.norm.weight".toList]
      else ["model.norm.weight".toList, "model.norm.bias".toList]) ++
    ["lm_head.weight".toList]

/-- The inner loop: the parameter and shard of the first row whose suffix
matches. A match whose parameter does not exist ends the loop as well. -/
def stackedTarget (params : List ParamName) (name : ParamName) :
    List StackedParam → Option (ParamName × ShardId)
  | [] => none
  | row :: rows =>
    if Text.endsWith name row.hfSuffix then
      let vllmKey := Text.replace name row.hfSuffix row.vllmName
      if vllmKey ∈ params then some (vllmKey, row.shardId) else none
    else stackedTarget params name rows

/-- One round of the loop over the weights: at most one effect. -/
def loadWeight (m : SmolLM3ForCausalLM) (name : ParamName) (weight : T) :
    Option (LoadEffect T) :=
  if name = "lm_head.weight".toList ∧ m.tieWordEmbeddings = true then none
  else
    match stackedTarget m.namedParameters name stackedParamsMapping with
    | some (param, shard) =>
      -- standalone a stacked weight counts as handled, and nothing is done
      if m.vllmAvailable then some (.loader param (some shard) weight) else none
    | none =>
      if name ∈ m.namedParameters then
        if m.vllmAvailable then some (.loader name none weight) else some (.copy name weight)
      else none

/-- `load_weights`. Both modes give `lm_head` and `embed_tokens` a weight,
so the tie depends on the configuration alone. -/
def loadWeights (m : SmolLM3ForCausalLM) (weights : List (ParamName × T)) :
    List (LoadEffect T) :=
  (weights.filterMap fun w => m.loadWeight w.1 w.2) ++
    (if m.tieWordEmbeddings then [.tie] else [])

/-! ## The stacked branch -/

variable {m : SmolLM3ForCausalLM} {name : ParamName}

/-- Every parameter is called a weight or a bias. -/
theorem getLast?_of_mem_namedParameters (hname : name ∈ m.namedParameters) :
    name.getLast? = some 't' ∨ name.getLast? = some 's' := by
  have hlayer : ∀ v, ∀ rest ∈ layerParameters v,
      rest.getLast? = some 't' ∨ rest.getLast? = some 's' := by decide +kernel
  have hnorm : ∀ v : Bool, ∀ rest ∈ (if v then ["model.norm.weight".toList]
      else ["model.norm.weight".toList, "model.norm.bias".toList]),
      rest.getLast? = some 't' ∨ rest.getLast? = some 's' := by decide +kernel
  simp only [namedParameters, List.mem_append, List.mem_cons, List.not_mem_nil, or_false,
    List.mem_flatMap, List.mem_map] at hname
  rcases hname with ((hname | ⟨i, -, rest, hrest, hname⟩) | hname) | hname
  · rw [hname]
    decide +kernel
  · rw [← hname]
    exact (hlayer _ rest hrest).imp (Text.getLast?_of_suffix (suffix_layerName i rest))
      (Text.getLast?_of_suffix (suffix_layerName i rest))
  · exact hnorm _ name hname
  · rw [hname]
    decide +kernel

/-- The rows of the mapping end like what they are replaced by. -/
theorem getLast?_of_mem_mapping {row : StackedParam} (hrow : row ∈ stackedParamsMapping) :
    row.hfSuffix.getLast? = some 'j' ∧ row.vllmName.getLast? = some 'j' := by
  simp only [stackedParamsMapping, List.mem_cons, List.not_mem_nil, or_false] at hrow
  rcases hrow with rfl | rfl | rfl | rfl | rfl <;> decide +kernel

/-- **The stacked branch is never taken.** A name it matches ends in `proj`, so
does the key it looks up, and every parameter's name ends in `weight` or
`bias`. -/
theorem stackedTarget_eq_none :
    stackedTarget m.namedParameters name stackedParamsMapping = none := by
  suffices h : ∀ rows, (∀ row ∈ rows, row ∈ stackedParamsMapping) →
      stackedTarget m.namedParameters name rows = none from h _ fun _ h => h
  intro rows
  induction rows with
  | nil => intro _; rfl
  | cons row rows ih =>
    intro hrows
    obtain ⟨hhf, hvllm⟩ := getLast?_of_mem_mapping (hrows row List.mem_cons_self)
    rw [stackedTarget]
    split
    case isTrue hend =>
      -- the key keeps the last letter, and no parameter has it
      have hkey := Text.getLast?_replace row.hfSuffix hvllm
        (Text.getLast?_of_suffix (Text.endsWith_iff.mp hend) hhf)
      refine if_neg fun hmem => ?_
      rcases getLast?_of_mem_namedParameters hmem with hlast | hlast <;>
      · rw [hkey] at hlast
        exact absurd hlast (by decide)
    case isFalse => exact ih fun r hr => hrows r (List.mem_cons_of_mem _ hr)

/-- In vLLM mode a weight goes to the parameter of its own name or nowhere. -/
theorem loadWeight_of_vllm (hv : m.vllmAvailable = true) (weight : T)
    (hlm : name ≠ "lm_head.weight".toList) :
    m.loadWeight name weight =
      if name ∈ m.namedParameters then some (.loader name none weight) else none := by
  rw [loadWeight, if_neg fun h => hlm h.1, stackedTarget_eq_none]
  simp only [hv, if_true]

end SmolLM3ForCausalLM

end VllmScheduler
