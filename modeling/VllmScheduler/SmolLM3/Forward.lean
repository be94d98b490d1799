import Mathlib.Algebra.Group.Int.Defs
import Mathlib.Tactic.Abel
/-!
# The decoder stack of the SmolLM3 port

`SmolLM3Model.forward` carries the residual beside the hidden states and
delays each addition into the next norm: a layer returns its MLP's output
and, unadded, what it is to be added to. The first layer has no residual
yet, and the last addition is made after the loop. The path with vLLM hands
both to `RMSNorm`, the one without adds first.

`block` is the layer as its docstring has it. What a layer returns adds up
to that block of what it was handed, on both paths, and so the stack is the
textbook one. Attention, MLP and norms are arbitrary functions.
-/

namespace VllmScheduler

variable {X Pos Cache Meta Tok : Type}

/-- The functions of a decoder layer. -/
structure SmolLM3DecoderLayer (X Pos Cache Meta : Type) where
  inputLayernorm : X → X
  selfAttn : Pos → X → Option Cache → Meta → X
  postAttentionLayernorm : X → X
  mlp : X → X

/-- vLLM's `RMSNorm` called with a residual. -/
def rmsNorm [Add X] (norm : X → X) (x residual : X) : X × X := (norm (x + residual), x + residual)

namespace SmolLM3DecoderLayer

/-- `SmolLM3DecoderLayer.forward`: the hidden states and the residual. -/
def forward [Add X] (layer : SmolLM3DecoderLayer X Pos Cache Meta) (vllmAvailable : Bool)
    (positions : Pos) (hiddenStates : X) (kvCache : Option Cache) (attnMetadata : Meta)
    (residual : Option X) : X × X :=
  let (hiddenStates, residual) :=
    if vllmAvailable then
      match residual with
      | none => (layer.inputLayernorm hiddenStates, hiddenStates)
      | some residual => rmsNorm layer.inputLayernorm hiddenStates residual
    else
      let hiddenStates :=
        match residual with
        | none => hiddenStates
        | some residual => hiddenStates + residual
      (layer.inputLayernorm hiddenStates, hiddenStates)
  let hiddenStates := layer.selfAttn positions hiddenStates kvCache attnMetadata
  let (hiddenStates, residual) :=
    if vllmAvailable then rmsNorm layer.postAttentionLayernorm hiddenStates residual
    else
      let hiddenStates := hiddenStates + residual
      (layer.postAttentionLayernorm hiddenStates, hiddenStates)
  (layer.mlp hiddenStates, residual)

/-- The pre-norm block of the docstring. -/
def block [Add X] (layer : SmolLM3DecoderLayer X Pos Cache Meta) (positions : Pos)
    (kvCache : Option Cache) (attnMetadata : Meta) (x : X) : X :=
  let y := x + layer.selfAttn positions (layer.inputLayernorm x) kvCache attnMetadata
  y + layer.mlp (layer.postAttentionLayernorm y)

end SmolLM3DecoderLayer

/-- The embedding, the layers and the final norm. -/
structure SmolLM3Model (X Pos Cache Meta Tok : Type) where
  embedTokens : Tok → X
  layers : List (SmolLM3DecoderLayer X Pos Cache Meta)
  norm : X → X

namespace SmolLM3Model

/-- `kv_caches[i] if kv_caches else None`. The list is falsy where it is
empty; an index beyond its end raises. -/
def kvCacheAt (kvCaches : Option (List Cache)) (i : ℕ) : Option (Option Cache) :=
  match kvCaches with
  | none => some none
  | some [] => some none
  | some caches => caches[i]?.map some

/-- The loop of `forward` over the layers from number `i` on. -/
def forwardLoop [Add X] (vllmAvailable : Bool) (positions : Pos)
    (kvCaches : Option (List Cache)) (attnMetadata : Meta) :
    ℕ → List (SmolLM3DecoderLayer X Pos Cache Meta) → X → Option X → Option (X × Option X)
  | _, [], hiddenStates, residual => some (hiddenStates, residual)
  | i, layer :: layers, hiddenStates, residual => do
    let kvCache ← kvCacheAt kvCaches i
    let result := layer.forward vllmAvailable positions hiddenStates kvCache attnMetadata residual
    forwardLoop vllmAvailable positions kvCaches attnMetadata (i + 1) layers result.1
      (some result.2)

/-- The norm after the loop. Without layers there is no residual: the path
without vLLM adds 0, and the other one fails to unpack the single tensor
`RMSNorm` returns. -/
def finalNorm [AddZeroClass X] (norm : X → X) (vllmAvailable : Bool) (hiddenStates : X)
    (residual : Option X) : Option X :=
  if vllmAvailable then residual.map fun residual => (rmsNorm norm hiddenStates residual).1
  else some (norm (hiddenStates + residual.getD 0))

/-- `SmolLM3Model.forward`; nothing where it raises. -/
def forward [AddZeroClass X] (m : SmolLM3Model X Pos Cache Meta Tok) (vllmAvailable : Bool)
    (inputIds : Tok) (positions : Pos) (kvCaches : Option (List Cache)) (attnMetadata : Meta)
    (inputsEmbeds : Option X) : Option X := do
  let hiddenStates := inputsEmbeds.getD (m.embedTokens inputIds)
  let result ←
    forwardLoop vllmAvailable positions kvCaches attnMetadata 0 m.layers hiddenStates none
  finalNorm m.norm vllmAvailable result.1 result.2

/-! ## The textbook stack -/

/-- The caches the layers from number `i` on are given; an index beyond the
end of the list raises. -/
def kvCachesFrom (kvCaches : Option (List Cache)) : ℕ → ℕ → Option (List (Option Cache))
  | _, 0 => some []
  | i, n + 1 => do
    let kvCache ← kvCacheAt kvCaches i
    let rest ← kvCachesFrom kvCaches (i + 1) n
    some (kvCache :: rest)

/-- One pre-norm block after the other, each layer with its cache. -/
def preNorm [Add X] (positions : Pos) (attnMetadata : Meta) (x : X)
    (layers : List (SmolLM3DecoderLayer X Pos Cache Meta × Option Cache)) : X :=
  layers.foldl (fun x layer => layer.1.block positions layer.2 attnMetadata x) x

section Fused

variable [AddCommMonoid X] {vllmAvailable : Bool} {positions : Pos} {attnMetadata : Meta}

/-- What a layer computes, on both paths: it adds the residual it is handed
and keeps the sum before the MLP as the next one. -/
theorem layer_forward_eq (layer : SmolLM3DecoderLayer X Pos Cache Meta) (hiddenStates : X)
    (kvCache : Option Cache) (residual : Option X) :
    layer.forward vllmAvailable positions hiddenStates kvCache attnMetadata residual =
      let x := hiddenStates + residual.getD 0
      let y := layer.selfAttn positions (layer.inputLayernorm x) kvCache attnMetadata + x
      (layer.mlp (layer.postAttentionLayernorm y), y) := by
  cases residual with
  | none => cases vllmAvailable <;> simp [SmolLM3DecoderLayer.forward, rmsNorm]
  | some residual => cases vllmAvailable <;> simp [SmolLM3DecoderLayer.forward, rmsNorm]

/-- **A layer delays its last addition**: what it returns adds up to its
block of what it was handed. -/
theorem layer_forward_add (layer : SmolLM3DecoderLayer X Pos Cache Meta) (hiddenStates : X)
    (kvCache : Option Cache) (residual : Option X) :
    let result := layer.forward vllmAvailable positions hiddenStates kvCache attnMetadata residual
    result.1 + result.2 =
      layer.block positions kvCache attnMetadata (hiddenStates + residual.getD 0) := by
  intro result
  set x := hiddenStates + residual.getD 0
  have hresult : result = _ := layer_forward_eq layer hiddenStates kvCache residual
  rw [hresult, SmolLM3DecoderLayer.block,
    add_comm x (layer.selfAttn positions (layer.inputLayernorm x) kvCache attnMetadata)]
  exact add_comm _ _

/-- The loop carries the textbook state as a sum. It raises only where a
cache is missing, and leaves a residual once there was a layer. -/
theorem forwardLoop_eq (vllmAvailable : Bool) (positions : Pos) (kvCaches : Option (List Cache))
    (attnMetadata : Meta) (layers : List (SmolLM3DecoderLayer X Pos Cache Meta)) (i : ℕ)
    (hiddenStates : X) (residual : Option X) :
    (forwardLoop vllmAvailable positions kvCaches attnMetadata i layers hiddenStates residual).map
        (fun result => (result.1 + result.2.getD 0, result.2.isSome)) =
      (kvCachesFrom kvCaches i layers.length).map fun caches =>
        (preNorm positions attnMetadata (hiddenStates + residual.getD 0) (layers.zip caches),
          residual.isSome || !layers.isEmpty) := by
  induction layers generalizing i hiddenStates residual with
  | nil => simp [forwardLoop, kvCachesFrom, preNorm]
  | cons layer layers ih =>
    rw [forwardLoop, List.length_cons, kvCachesFrom]
    rcases kvCacheAt kvCaches i with - | kvCache
    · rfl
    · simp only [Option.bind_eq_bind, Option.bind_some, Option.map_bind]
      rw [ih, Option.getD_some, layer_forward_add]
      rcases kvCachesFrom kvCaches (i + 1) layers.length with - | caches
      · rfl
      · simp [preNorm]

/-- With a residual, both paths norm the sum. -/
theorem finalNorm_some {norm : X → X} (hiddenStates residual : X) :
    finalNorm norm vllmAvailable hiddenStates (some residual) =
      some (norm (hiddenStates + residual)) := by
  cases vllmAvailable <;> rfl

/-- **The decoder stack is the textbook pre-norm transformer**, on both
paths: for one layer or more, `forward` is the final norm of what the blocks
make of the embedding. It raises only where `kv_caches` is given and too
short. -/
theorem forward_eq_preNorm (m : SmolLM3Model X Pos Cache Meta Tok) (hn : 1 ≤ m.layers.length)
    (vllmAvailable : Bool) (inputIds : Tok) (positions : Pos) (kvCaches : Option (List Cache))
    (attnMetadata : Meta) (inputsEmbeds : Option X) :
    m.forward vllmAvailable inputIds positions kvCaches attnMetadata inputsEmbeds =
      (kvCachesFrom kvCaches 0 m.layers.length).map fun caches =>
        m.norm (preNorm positions attnMetadata (inputsEmbeds.getD (m.embedTokens inputIds))
          (m.layers.zip caches)) := by
  have hne : m.layers.isEmpty = false := by
    rw [List.isEmpty_eq_false_iff]
    exact List.ne_nil_of_length_pos hn
  set x := inputsEmbeds.getD (m.embedTokens inputIds) with hx
  have hloop := forwardLoop_eq vllmAvailable positions kvCaches attnMetadata m.layers 0 x none
  rw [Option.getD_none, add_zero, hne] at hloop
  rw [forward, ← hx]
  rcases hresult : forwardLoop vllmAvailable positions kvCaches attnMetadata 0 m.layers x none with
    - | ⟨hiddenStates, residual⟩
  · rw [hresult, Option.map_none, eq_comm, Option.map_eq_none_iff] at hloop
    rw [hloop]
    rfl
  · rw [hresult, Option.map_some, eq_comm, Option.map_eq_some_iff] at hloop
    obtain ⟨caches, hcaches, hloop⟩ := hloop
    obtain ⟨hsum, hsome⟩ := Prod.mk.inj hloop
    obtain ⟨residual, rfl⟩ := Option.isSome_iff_exists.mp hsome.symm
    rw [Option.getD_some] at hsum
    rw [hcaches, Option.map_some, hsum]
    exact finalNorm_some hiddenStates residual

/-- Two layers over the integers, the second with a cache that counts. -/
def toyModel : SmolLM3Model ℤ ℤ ℤ ℤ ℤ where
  embedTokens := fun t => t
  layers := [⟨fun x => 2 * x, fun p x _ a => p + x + a, fun x => x - 1, fun x => 3 * x⟩,
    ⟨fun x => x + 1, fun p x c _ => p * x + c.getD 0, fun x => 5 * x, fun x => x + 7⟩]
  norm := fun x => x + 100

theorem toyModel_forward :
    toyModel.forward true 2 3 (some [4, 5]) 6 none = some 1523 ∧
    toyModel.forward false 2 3 (some [4, 5]) 6 none = some 1523 :=
  ⟨(forward_eq_preNorm toyModel (by decide) true 2 3 (some [4, 5]) 6 none).trans (by decide),
    (forward_eq_preNorm toyModel (by decide) false 2 3 (some [4, 5]) 6 none).trans (by decide)⟩

end Fused

end SmolLM3Model

end VllmScheduler
