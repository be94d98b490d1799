import Mathlib.Algebra.BigOperators.Fin
import Mathlib.Algebra.Field.Basic
import Mathlib.Algebra.Field.Rat
import Mathlib.Algebra.Group.Pi.Basic
import Mathlib.Logic.Equiv.Fin.Basic
import VllmScheduler.Common.Lists
import VllmScheduler.SmolLM3.Forward
/-!
# The standalone SmolLM3 model

The path of `vllm_port/smollm3.py` without vLLM, down to its sums: grouped
attention over `q_proj`, `k_proj` and `v_proj`, the SwiGLU network over the
merged `gate_up_proj`, and `nn.LayerNorm`. Tensors are functions of their
indices, and `exp` and `sqrt` are parameters. A number of heads that the
number of key heads does not divide makes `torch` raise; such dimensions
cannot be built.

Two models whose layers are related by a map that keeps sums have related
outputs (`forward_of_hom`). From that: this path has neither a mask nor
positions, so permuting the tokens permutes the output and nothing else; and
sharing key and value heads among groups of query heads is the attention with
one of each per query head, their weights repeated.
-/

namespace VllmScheduler

open Finset

variable {K : Type} [Field K]

/-! ## Building blocks -/

/-- The functions of `torch` the layers use. -/
structure TorchFns (K : Type) where
  exp : K → K
  sqrt : K → K

/-- `nn.Linear` without a bias. -/
def linear {m n : ℕ} (weight : Fin m → Fin n → K) (x : Fin n → K) (i : Fin m) : K :=
  ∑ j, weight i j * x j

/-- `torch.softmax` along one axis. -/
def softmax (F : TorchFns K) {n : ℕ} (x : Fin n → K) (i : Fin n) : K :=
  F.exp (x i) / ∑ j, F.exp (x j)

/-- `nn.SiLU`. -/
def silu (F : TorchFns K) (x : K) : K := x / (1 + F.exp (-x))

/-- The parameters of an `nn.LayerNorm`. -/
structure LayerNorm (K : Type) (n : ℕ) where
  eps : K
  weight : Fin n → K
  bias : Fin n → K

/-- `nn.LayerNorm` along the last axis. -/
def LayerNorm.forward (F : TorchFns K) {n : ℕ} (norm : LayerNorm K n) (x : Fin n → K)
    (i : Fin n) : K :=
  let mean := (∑ j, x j) / n
  let var := (∑ j, (x j - mean) * (x j - mean)) / n
  (x i - mean) / F.sqrt (var + norm.eps) * norm.weight i + norm.bias i

/-- The weights of a `SmolLM3MLP`; the rows of the gate come first in
`gate_up_proj`. -/
structure SmolLM3MLP (K : Type) (hiddenSize intermediateSize : ℕ) where
  gateUpProj : Fin (intermediateSize + intermediateSize) → Fin hiddenSize → K
  downProj : Fin hiddenSize → Fin intermediateSize → K

/-- `SmolLM3MLP.forward`. -/
def SmolLM3MLP.forward (F : TorchFns K) {hiddenSize intermediateSize : ℕ}
    (mlp : SmolLM3MLP K hiddenSize intermediateSize) (x : Fin hiddenSize → K) :
    Fin hiddenSize → K :=
  let gateUp := linear mlp.gateUpProj x
  let gate := fun i : Fin intermediateSize => gateUp (Fin.castAdd intermediateSize i)
  let up := fun i : Fin intermediateSize => gateUp (Fin.natAdd intermediateSize i)
  linear mlp.downProj fun i => silu F (gate i) * up i

/-! ## Attention -/

/-- The dimensions of an attention. -/
structure AttentionDims where
  hiddenSize : ℕ
  numHeads : ℕ
  numKvHeads : ℕ
  headDim : ℕ
  /-- The key heads, each `num_heads // num_kv_heads` times, are as many as
  the query heads. -/
  heads : numKvHeads * (numHeads / numKvHeads) = numHeads

-- what `SmolLM3Attention.__init__` takes where the configuration has no value
example : AttentionDims := ⟨2048, 32, 8, 64, rfl⟩

namespace AttentionDims

/-- The key head of a query head. -/
def kvHead (dims : AttentionDims) (h : Fin dims.numHeads) : Fin dims.numKvHeads :=
  ⟨h / (dims.numHeads / dims.numKvHeads), by
    have hlt : h.val < dims.numKvHeads * (dims.numHeads / dims.numKvHeads) := by
      rw [dims.heads]
      exact h.isLt
    exact Nat.div_lt_of_lt_mul (by rwa [Nat.mul_comm] at hlt)⟩

/-- `repeat_interleave` along the axis of the heads. -/
def repeatInterleave {α : Type} (dims : AttentionDims) (x : Fin dims.numKvHeads → α) :
    Fin dims.numHeads → α :=
  fun h => x (dims.kvHead h)

end AttentionDims

/-- `view` with an axis for the heads. -/
def viewHeads {n d : ℕ} (x : Fin (n * d) → K) (h : Fin n) (i : Fin d) : K :=
  x (finProdFinEquiv (h, i))

/-- `reshape` without it. -/
def flattenHeads {n d : ℕ} (x : Fin n → Fin d → K) (j : Fin (n * d)) : K :=
  x (finProdFinEquiv.symm j).1 (finProdFinEquiv.symm j).2

/-- The weights of a `SmolLM3Attention` without vLLM. -/
structure StandaloneAttention (K : Type) (dims : AttentionDims) where
  scaling : K
  qProj : Fin (dims.numHeads * dims.headDim) → Fin dims.hiddenSize → K
  kProj : Fin (dims.numKvHeads * dims.headDim) → Fin dims.hiddenSize → K
  vProj : Fin (dims.numKvHeads * dims.headDim) → Fin dims.hiddenSize → K
  oProj : Fin dims.hiddenSize → Fin (dims.numHeads * dims.headDim) → K

/-- `softmax((q @ k.transpose(-2, -1)) * scaling) @ v`, with the token before
the head. -/
def headAttention (F : TorchFns K) (scaling : K) {s n m : ℕ} (q k v : Fin s → Fin n → Fin m → K)
    (t : Fin s) (h : Fin n) (d : Fin m) : K :=
  ∑ u, softmax F (fun u => (∑ e, q t h e * k u h e) * scaling) u * v u h d

/-- `SmolLM3Attention.forward` without vLLM, on one row of the batch. -/
def StandaloneAttention.forward (F : TorchFns K) {dims : AttentionDims}
    (attn : StandaloneAttention K dims) {s : ℕ} (x : Fin s → Fin dims.hiddenSize → K) :
    Fin s → Fin dims.hiddenSize → K :=
  let q := fun t => viewHeads (linear attn.qProj (x t))
  let k := fun t => dims.repeatInterleave (viewHeads (linear attn.kProj (x t)))
  let v := fun t => dims.repeatInterleave (viewHeads (linear attn.vProj (x t)))
  fun t => linear attn.oProj (flattenHeads (headAttention F attn.scaling q k v t))

/-! ## The model -/

/-- Hidden states: a batch of sequences. -/
abbrev Hidden (K : Type) (b s n : ℕ) : Type := Fin b → Fin s → Fin n → K

/-- The weights of a decoder layer. -/
structure StandaloneLayer (K : Type) (dims : AttentionDims) (intermediateSize : ℕ) where
  inputLayernorm : LayerNorm K dims.hiddenSize
  selfAttn : StandaloneAttention K dims
  postAttentionLayernorm : LayerNorm K dims.hiddenSize
  mlp : SmolLM3MLP K dims.hiddenSize intermediateSize

/-- The weights of the model. -/
structure StandaloneModel (K : Type) (dims : AttentionDims) (intermediateSize vocabSize : ℕ) where
  embedTokens : Fin vocabSize → Fin dims.hiddenSize → K
  layers : List (StandaloneLayer K dims intermediateSize)
  norm : LayerNorm K dims.hiddenSize

variable {dims : AttentionDims} {intermediateSize vocabSize b s : ℕ} {Pos Cache Meta : Type}

/-- The functions of a layer on hidden states; the attention reads neither
the positions nor the cache. -/
def StandaloneLayer.functions (F : TorchFns K) (layer : StandaloneLayer K dims intermediateSize)
    (b s : ℕ) (Pos Cache Meta : Type) :
    SmolLM3DecoderLayer (Hidden K b s dims.hiddenSize) Pos Cache Meta where
  inputLayernorm x i t := layer.inputLayernorm.forward F (x i t)
  selfAttn _ x _ _ i := layer.selfAttn.forward F (x i)
  postAttentionLayernorm x i t := layer.postAttentionLayernorm.forward F (x i t)
  mlp x i t := layer.mlp.forward F (x i t)

/-- The model on hidden states. -/
def StandaloneModel.functions (F : TorchFns K)
    (m : StandaloneModel K dims intermediateSize vocabSize) (b s : ℕ) (Pos Cache Meta : Type) :
    SmolLM3Model (Hidden K b s dims.hiddenSize) Pos Cache Meta (Fin b → Fin s → Fin vocabSize) where
  embedTokens ids i t := m.embedTokens (ids i t)
  layers := m.layers.map fun layer => layer.functions F b s Pos Cache Meta
  norm x i t := m.norm.forward F (x i t)

/-! ## Related models -/

section Related

variable {X Y Pos' Meta' Tok Tok' : Type} [AddZeroClass X] [AddZeroClass Y]

/-- A map under which two layers do the same, each with its positions and
metadata. -/
structure LayerHom (f : X →+ Y) (positions : Pos) (positions' : Pos') (attnMetadata : Meta)
    (attnMetadata' : Meta') (layer : SmolLM3DecoderLayer X Pos Cache Meta)
    (layer' : SmolLM3DecoderLayer Y Pos' Cache Meta') : Prop where
  inputLayernorm : ∀ x, f (layer.inputLayernorm x) = layer'.inputLayernorm (f x)
  selfAttn : ∀ x kvCache, f (layer.selfAttn positions x kvCache attnMetadata) =
    layer'.selfAttn positions' (f x) kvCache attnMetadata'
  postAttentionLayernorm :
    ∀ x, f (layer.postAttentionLayernorm x) = layer'.postAttentionLayernorm (f x)
  mlp : ∀ x, f (layer.mlp x) = layer'.mlp (f x)

variable {f : X →+ Y} {positions : Pos} {positions' : Pos'} {attnMetadata : Meta}
variable {attnMetadata' : Meta'} {vllmAvailable : Bool} {kvCaches : Option (List Cache)}

/-- Related layers return related states and residuals. -/
theorem LayerHom.forward {layer : SmolLM3DecoderLayer X Pos Cache Meta}
    {layer' : SmolLM3DecoderLayer Y Pos' Cache Meta'}
    (h : LayerHom f positions positions' attnMetadata attnMetadata' layer layer')
    (hiddenStates : X) (kvCache : Option Cache) (residual : Option X) :
    Prod.map f f
        (layer.forward vllmAvailable positions hiddenStates kvCache attnMetadata residual) =
      layer'.forward vllmAvailable positions' (f hiddenStates) kvCache attnMetadata'
        (residual.map f) := by
  cases vllmAvailable <;> cases residual <;>
    simp [SmolLM3DecoderLayer.forward, rmsNorm, h.inputLayernorm, h.selfAttn,
      h.postAttentionLayernorm, h.mlp]

theorem forwardLoop_of_hom {layers : List (SmolLM3DecoderLayer X Pos Cache Meta)}
    {layers' : List (SmolLM3DecoderLayer Y Pos' Cache Meta')}
    (h : List.Forall₂ (LayerHom f positions positions' attnMetadata attnMetadata') layers layers')
    (i : ℕ) (hiddenStates : X) (residual : Option X) :
    (SmolLM3Model.forwardLoop vllmAvailable positions kvCaches attnMetadata i layers hiddenStates
        residual).map (Prod.map f (Option.map f)) =
      SmolLM3Model.forwardLoop vllmAvailable positions' kvCaches attnMetadata' i layers'
        (f hiddenStates) (residual.map f) := by
  induction h generalizing i hiddenStates residual with
  | nil => rfl
  | @cons layer layer' layers layers' hlayer _ ih =>
    rw [SmolLM3Model.forwardLoop, SmolLM3Model.forwardLoop]
    rcases SmolLM3Model.kvCacheAt kvCaches i with - | kvCache
    · rfl
    · simp only [Option.bind_eq_bind, Option.bind_some]
      rw [ih, ← hlayer.forward]
      rfl

/-- **Related models have related outputs.** -/
theorem forward_of_hom {m : SmolLM3Model X Pos Cache Meta Tok}
    {m' : SmolLM3Model Y Pos' Cache Meta' Tok'}
    (hlayers : List.Forall₂ (LayerHom f positions positions' attnMetadata attnMetadata')
      m.layers m'.layers)
    (hnorm : ∀ x, f (m.norm x) = m'.norm (f x)) {inputIds : Tok} {inputIds' : Tok'}
    (hembed : f (m.embedTokens inputIds) = m'.embedTokens inputIds') :
    (m.forward vllmAvailable inputIds positions kvCaches attnMetadata none).map f =
      m'.forward vllmAvailable inputIds' positions' kvCaches attnMetadata' none := by
  have hloop : (SmolLM3Model.forwardLoop vllmAvailable positions kvCaches attnMetadata 0 m.layers
        (m.embedTokens inputIds) none).map (Prod.map f (Option.map f)) =
      SmolLM3Model.forwardLoop vllmAvailable positions' kvCaches attnMetadata' 0 m'.layers
        (m'.embedTokens inputIds') none := by
    rw [← hembed]
    exact forwardLoop_of_hom hlayers 0 (m.embedTokens inputIds) none
  rw [SmolLM3Model.forward, SmolLM3Model.forward, Option.getD_none, Option.getD_none, ← hloop]
  rcases SmolLM3Model.forwardLoop vllmAvailable positions kvCaches attnMetadata 0 m.layers
    (m.embedTokens inputIds) none with - | ⟨hiddenStates, residual⟩
  · rfl
  · simp only [Option.bind_eq_bind, Option.bind_some, Option.map_some, Prod.map]
    cases vllmAvailable <;> cases residual <;>
      simp [SmolLM3Model.finalNorm, rmsNorm, hnorm]

end Related

/-! ## The order of the tokens -/

section Reindex

variable {F : TorchFns K}

/-- A softmax of permuted scores. -/
theorem softmax_comp {n : ℕ} (σ : Equiv.Perm (Fin n)) (x : Fin n → K) (i : Fin n) :
    softmax F (fun j => x (σ j)) i = softmax F x (σ i) := by
  rw [softmax, softmax, Equiv.sum_comp σ fun j => F.exp (x j)]

/-- **Attention does not see the order of its tokens**: the weights of a
permuted sequence are permuted, and so are its values. -/
theorem headAttention_comp (scaling : K) {n m : ℕ} (q k v : Fin s → Fin n → Fin m → K)
    (σ : Equiv.Perm (Fin s)) (t : Fin s) :
    headAttention F scaling (fun u => q (σ u)) (fun u => k (σ u)) (fun u => v (σ u)) t =
      headAttention F scaling q k v (σ t) := by
  funext h d
  set scores := fun u => (∑ e, q (σ t) h e * k u h e) * scaling
  calc ∑ u, softmax F (fun u => scores (σ u)) u * v (σ u) h d
      = ∑ u, softmax F scores (σ u) * v (σ u) h d := by simp only [softmax_comp σ scores]
    _ = ∑ u, softmax F scores u * v u h d :=
      Equiv.sum_comp σ fun u => softmax F scores u * v u h d

theorem attention_comp (attn : StandaloneAttention K dims) (σ : Equiv.Perm (Fin s))
    (x : Fin s → Fin dims.hiddenSize → K) (t : Fin s) :
    attn.forward F (fun u => x (σ u)) t = attn.forward F x (σ t) :=
  congrArg (fun out => linear attn.oProj (flattenHeads out)) (headAttention_comp attn.scaling
    (fun t => viewHeads (linear attn.qProj (x t)))
    (fun t => dims.repeatInterleave (viewHeads (linear attn.kProj (x t))))
    (fun t => dims.repeatInterleave (viewHeads (linear attn.vProj (x t)))) σ t)

/-- Every row with its tokens permuted. -/
def reindex (σ : Fin b → Equiv.Perm (Fin s)) {n : ℕ} : Hidden K b s n →+ Hidden K b s n where
  toFun x i t := x i (σ i t)
  map_zero' := rfl
  map_add' _ _ := rfl

theorem layerHom_reindex (σ : Fin b → Equiv.Perm (Fin s)) (positions positions' : Pos)
    (attnMetadata attnMetadata' : Meta) (layer : StandaloneLayer K dims intermediateSize) :
    LayerHom (reindex σ) positions positions' attnMetadata attnMetadata'
      (layer.functions F b s Pos Cache Meta) (layer.functions F b s Pos Cache Meta) where
  inputLayernorm _ := rfl
  selfAttn x _ := funext fun i => funext fun t =>
    (attention_comp layer.selfAttn (σ i) (x i) t).symm
  postAttentionLayernorm _ := rfl
  mlp _ := rfl

/-- **Without vLLM the model sees a bag of tokens.** Permute the tokens of
every row of the batch in any way, and give it any other positions and
metadata: the hidden states it returns are permuted in the same way, or it
raises in both cases. So this path tells layers with positions and layers
without apart as little as it hides later tokens. -/
theorem standalone_permutes (m : StandaloneModel K dims intermediateSize vocabSize)
    (σ : Fin b → Equiv.Perm (Fin s)) (inputIds : Fin b → Fin s → Fin vocabSize)
    (positions positions' : Pos) (kvCaches : Option (List Cache))
    (attnMetadata attnMetadata' : Meta) :
    (m.functions F b s Pos Cache Meta).forward false (fun i t => inputIds i (σ i t)) positions'
        kvCaches attnMetadata' none =
      ((m.functions F b s Pos Cache Meta).forward false inputIds positions kvCaches attnMetadata
        none).map fun x i t => x i (σ i t) := by
  have hlayers : List.Forall₂
      (LayerHom (reindex σ) positions positions' attnMetadata attnMetadata')
      (m.functions F b s Pos Cache Meta).layers (m.functions F b s Pos Cache Meta).layers := by
    rw [StandaloneModel.functions, List.forall₂_map_left_iff, List.forall₂_map_right_iff,
      List.forall₂_same]
    exact fun layer _ => layerHom_reindex σ positions positions' attnMetadata attnMetadata' layer
  exact (forward_of_hom hlayers (fun _ => rfl) rfl).symm

end Reindex

/-! ## Shared key heads -/

/-- The dimensions with a key head for every query head. -/
def AttentionDims.expanded (dims : AttentionDims) : AttentionDims where
  hiddenSize := dims.hiddenSize
  numHeads := dims.numHeads
  numKvHeads := dims.numHeads
  headDim := dims.headDim
  heads := by
    rcases Nat.eq_zero_or_pos dims.numHeads with h | h
    · rw [h]
    · rw [Nat.div_self h, Nat.mul_one]

/-- The rows of a key or value projection, repeated for every query head. -/
def expandRows (proj : Fin (dims.numKvHeads * dims.headDim) → Fin dims.hiddenSize → K) :
    Fin (dims.numHeads * dims.headDim) → Fin dims.hiddenSize → K :=
  fun j => proj (finProdFinEquiv
    (dims.kvHead (finProdFinEquiv.symm j).1, (finProdFinEquiv.symm j).2))

/-- The attention with a key and a value head for every query head. -/
def StandaloneAttention.expanded (attn : StandaloneAttention K dims) :
    StandaloneAttention K dims.expanded where
  scaling := attn.scaling
  qProj := attn.qProj
  kProj := expandRows attn.kProj
  vProj := expandRows attn.vProj
  oProj := attn.oProj

/-- The layer with it. -/
def StandaloneLayer.expanded (layer : StandaloneLayer K dims intermediateSize) :
    StandaloneLayer K dims.expanded intermediateSize where
  inputLayernorm := layer.inputLayernorm
  selfAttn := layer.selfAttn.expanded
  postAttentionLayernorm := layer.postAttentionLayernorm
  mlp := layer.mlp

/-- The model with these layers. -/
def StandaloneModel.expanded (m : StandaloneModel K dims intermediateSize vocabSize) :
    StandaloneModel K dims.expanded intermediateSize vocabSize where
  embedTokens := m.embedTokens
  layers := m.layers.map StandaloneLayer.expanded
  norm := m.norm

section Expanded

variable {F : TorchFns K}

theorem kvHead_expanded (h : Fin dims.numHeads) : dims.expanded.kvHead h = h := by
  refine Fin.ext ?_
  show h.val / (dims.numHeads / dims.numHeads) = h.val
  rw [Nat.div_self (Nat.zero_lt_of_lt h.isLt), Nat.div_one]

/-- The heads of a repeated projection are the repeated heads. -/
theorem viewHeads_expandRows
    (proj : Fin (dims.numKvHeads * dims.headDim) → Fin dims.hiddenSize → K)
    (x : Fin dims.hiddenSize → K) (h : Fin dims.numHeads) (d : Fin dims.headDim) :
    viewHeads (linear (expandRows proj) x) (dims.expanded.kvHead h) d =
      viewHeads (linear proj x) (dims.kvHead h) d := by
  rw [kvHead_expanded]
  simp only [viewHeads, linear, expandRows, Equiv.symm_apply_apply]

/-- **Grouped attention is full attention with repeated weights.** -/
theorem attention_expanded (attn : StandaloneAttention K dims)
    (x : Fin s → Fin dims.hiddenSize → K) : attn.expanded.forward F x = attn.forward F x := by
  have hrows : ∀ proj : Fin (dims.numKvHeads * dims.headDim) → Fin dims.hiddenSize → K,
      (fun (t : Fin s) (h : Fin dims.numHeads) (d : Fin dims.headDim) =>
        viewHeads (linear (expandRows proj) (x t)) (dims.expanded.kvHead h) d) =
      fun t h d => viewHeads (linear proj (x t)) (dims.kvHead h) d :=
    fun proj => funext fun t => funext fun h => funext fun d => viewHeads_expandRows proj (x t) h d
  exact congrArg₂ (fun k v => fun t => linear attn.oProj (flattenHeads (headAttention F attn.scaling
    (fun t => viewHeads (linear attn.qProj (x t))) k v t))) (hrows attn.kProj) (hrows attn.vProj)

/-- **Sharing key and value heads changes nothing but their number.** For
every model whose number of key heads divides its number of query heads, the
model with one key and value head per query head and the weights repeated
returns the same hidden states on every input. -/
theorem standalone_expanded (m : StandaloneModel K dims intermediateSize vocabSize)
    (inputIds : Fin b → Fin s → Fin vocabSize) (positions : Pos) (kvCaches : Option (List Cache))
    (attnMetadata : Meta) :
    (m.expanded.functions F b s Pos Cache Meta).forward false inputIds positions kvCaches
        attnMetadata none =
      (m.functions F b s Pos Cache Meta).forward false inputIds positions kvCaches attnMetadata
        none := by
  have hlayers : List.Forall₂
      (LayerHom (AddMonoidHom.id (Hidden K b s dims.hiddenSize)) positions positions attnMetadata
        attnMetadata)
      (m.functions F b s Pos Cache Meta).layers
      (m.expanded.functions F b s Pos Cache Meta).layers := by
    refine forall₂_map_map fun layer _ => ?_
    refine ⟨fun _ => rfl, fun x kvCache => ?_, fun _ => rfl, fun _ => rfl⟩
    exact funext fun i => (attention_expanded layer.selfAttn (x i)).symm
  exact (forward_of_hom hlayers (fun _ => rfl) rfl).symm.trans (congrFun Option.map_id _)

end Expanded

end VllmScheduler
