import Mathlib.Data.List.Nodup
import Mathlib.Data.List.Perm.Basic
import VllmScheduler.SmolLM3.Loader
/-!
# Loading a HuggingFace checkpoint

The weights of a SmolLM3 checkpoint and the place each is meant for in the
vLLM layout: a parameter, and a shard of it where projections are merged.
The places are pairwise different, so a checkpoint is loaded when every
weight is handed to its place and no place is given anything else.

In vLLM mode the loader hands over the weights that are not merged, each
once and in the checkpoint's order, and no other: the merged projections of
every layer stay as they were initialised.
-/

namespace VllmScheduler

/-- The weights of a decoder layer in the checkpoint. -/
inductive LayerWeight where
  | qProj
  | kProj
  | vProj
  | oProj
  | gateProj
  | upProj
  | downProj
  | inputLayernorm
  | postAttentionLayernorm
  deriving DecidableEq, Repr

/-- The weights of a checkpoint. -/
inductive HfWeight where
  | embedTokens
  | norm
  | layer (i : ℕ) (w : LayerWeight)
  deriving DecidableEq, Repr

/-- A place a weight can go to: a parameter or a shard of one. -/
abbrev Slot := ParamName × Option ShardId

namespace LayerWeight

/-- All weights of a layer. -/
def all : List LayerWeight :=
  [qProj, kProj, vProj, oProj, gateProj, upProj, downProj, inputLayernorm,
    postAttentionLayernorm]

/-- The name within the layer, in the checkpoint. -/
def hfName : LayerWeight → ParamName
  | qProj => "self_attn.q_proj.weight".toList
  | kProj => "self_attn.k_proj.weight".toList
  | vProj => "self_attn.v_proj.weight".toList
  | oProj => "self_attn.o_proj.weight".toList
  | gateProj => "mlp.gate_proj.weight".toList
  | upProj => "mlp.up_proj.weight".toList
  | downProj => "mlp.down_proj.weight".toList
  | inputLayernorm => "input_layernorm.weight".toList
  | postAttentionLayernorm => "post_attention_layernorm.weight".toList

/-- The shard of the merged parameter, for the weights that are merged. -/
def shard : LayerWeight → Option ShardId
  | qProj => some .q
  | kProj => some .k
  | vProj => some .v
  | gateProj => some (.part 0)
  | upProj => some (.part 1)
  | _ => none

/-- The name within the layer, in the vLLM layout. -/
def vllmName : LayerWeight → ParamName
  | qProj | kProj | vProj => "self_attn.qkv_proj.weight".toList
  | gateProj | upProj => "mlp.gate_up_proj.weight".toList
  | w => w.hfName

theorem mem_all (w : LayerWeight) : w ∈ all := by cases w <;> decide

/-- No two weights of a layer are meant for one place. -/
theorem slot_inj {w w' : LayerWeight} (hname : w.vllmName = w'.vllmName)
    (hshard : w.shard = w'.shard) : w = w' := by
  have h : ∀ w ∈ all, ∀ w' ∈ all, w.vllmName = w'.vllmName → w.shard = w'.shard → w = w' := by
    decide +kernel
  exact h w (mem_all w) w' (mem_all w') hname hshard

/-- A merged weight's own name is not the name of a parameter. -/
theorem hfName_ne_of_merged {w : LayerWeight} (hw : w.shard ≠ none) {rest : ParamName}
    (hrest : rest ∈ SmolLM3ForCausalLM.layerParameters true) : w.hfName ≠ rest := by
  have h : ∀ w ∈ all, w.shard ≠ none →
      ∀ rest ∈ SmolLM3ForCausalLM.layerParameters true, w.hfName ≠ rest := by
    decide +kernel
  exact h w (mem_all w) hw rest hrest

/-- A weight that is not merged keeps its name, and that is a parameter. -/
theorem hfName_of_unmerged {w : LayerWeight} (hw : w.shard = none) :
    w.vllmName = w.hfName ∧ w.hfName ∈ SmolLM3ForCausalLM.layerParameters true := by
  have h : ∀ w ∈ all, w.shard = none →
      w.vllmName = w.hfName ∧ w.hfName ∈ SmolLM3ForCausalLM.layerParameters true := by
    decide +kernel
  exact h w (mem_all w) hw

end LayerWeight

/-! ## Names of layers -/

/-- A layer's number is written without dots. -/
theorem dot_not_mem_toDigits (i : ℕ) : '.' ∉ Nat.toDigits 10 i := fun h =>
  absurd (Nat.isDigit_of_mem_toDigits (by decide) le_rfl h) (by decide)

/-- A layer's number and the name within it can be read off the name. -/
theorem layerName_inj {i j : ℕ} {rest rest' : ParamName}
    (h : layerName i rest = layerName j rest') : i = j ∧ rest = rest' := by
  have hcut := List.append_cancel_left h
  obtain ⟨hdigits, hrest⟩ :=
    Text.append_cons_inj (dot_not_mem_toDigits i) (dot_not_mem_toDigits j) hcut
  refine ⟨?_, hrest⟩
  calc
    i = Nat.ofDigitChars 10 (Nat.toDigits 10 i) 0 := Nat.ofDigitChars_ten_toDigits.symm
    _ = Nat.ofDigitChars 10 (Nat.toDigits 10 j) 0 := by rw [hdigits]
    _ = j := Nat.ofDigitChars_ten_toDigits

/-- Names outside the layers start otherwise. -/
theorem layerName_ne {i : ℕ} {rest name : ParamName}
    (hname : ¬ "model.layers.".toList <+: name) : layerName i rest ≠ name := by
  rintro rfl
  exact hname (List.prefix_append _ _)

namespace HfWeight

/-- The name in the checkpoint. -/
def name : HfWeight → ParamName
  | embedTokens => "model.embed_tokens.weight".toList
  | norm => "model.norm.weight".toList
  | layer i w => layerName i w.hfName

/-- The place in the vLLM layout, by the weight-mapping table. -/
def slot : HfWeight → Slot
  | embedTokens => ("model.embed_tokens.weight".toList, none)
  | norm => ("model.norm.weight".toList, none)
  | layer i w => (layerName i w.vllmName, w.shard)

theorem name_layer (i : ℕ) (w : LayerWeight) : (layer i w).name = layerName i w.hfName := rfl

theorem slot_layer (i : ℕ) (w : LayerWeight) :
    (layer i w).slot = (layerName i w.vllmName, w.shard) := rfl

/-- Is the weight a part of a merged parameter? -/
def Merged (h : HfWeight) : Prop := h.slot.2 ≠ none

instance (h : HfWeight) : Decidable h.Merged := inferInstanceAs (Decidable (_ ≠ none))

/-- The places are pairwise different. -/
theorem slot_injective : Function.Injective slot := by
  intro h h' heq
  cases h with
  | embedTokens =>
    cases h' with
    | embedTokens => rfl
    | norm => exact absurd heq (by decide +kernel)
    | layer i w => exact absurd (congrArg Prod.fst heq).symm (layerName_ne (by decide +kernel))
  | norm =>
    cases h' with
    | embedTokens => exact absurd heq (by decide +kernel)
    | norm => rfl
    | layer i w => exact absurd (congrArg Prod.fst heq).symm (layerName_ne (by decide +kernel))
  | layer i w =>
    cases h' with
    | embedTokens => exact absurd (congrArg Prod.fst heq) (layerName_ne (by decide +kernel))
    | norm => exact absurd (congrArg Prod.fst heq) (layerName_ne (by decide +kernel))
    | layer j w' =>
      obtain ⟨rfl, hname⟩ := layerName_inj (congrArg Prod.fst heq)
      rw [LayerWeight.slot_inj hname (congrArg Prod.snd heq)]

theorem name_ne_lmHead (h : HfWeight) : h.name ≠ "lm_head.weight".toList := by
  cases h with
  | embedTokens => decide +kernel
  | norm => decide +kernel
  | layer i w => exact layerName_ne (by decide +kernel)

end HfWeight

/-- The weights of a checkpoint with `n` layers. -/
def checkpoint (n : ℕ) : List HfWeight :=
  .embedTokens :: .norm ::
    (List.range n).flatMap fun i => LayerWeight.all.map (HfWeight.layer i)

theorem layer_mem_checkpoint {n i : ℕ} {w : LayerWeight} :
    HfWeight.layer i w ∈ checkpoint n ↔ i < n := by
  simp [checkpoint, LayerWeight.mem_all]

namespace SmolLM3ForCausalLM

variable {T : Type} {n : ℕ} {tied : Bool} {ws : List (HfWeight × T)}

/-- The calls of parameter loaders, as place and weight. -/
def loaderCall : LoadEffect T → Option (Slot × T)
  | .loader param shard weight => some ((param, shard), weight)
  | .copy _ _ => none
  | .tie => none

/-- The weights handed to a place, in order. -/
def handed (effects : List (LoadEffect T)) (slot : Slot) : List T :=
  ((effects.filterMap loaderCall).filter fun call => call.1 = slot).map Prod.snd

/-- Load a checkpoint whose weights come in the order of `ws`. -/
def loadCheckpoint (n : ℕ) (tied : Bool) (ws : List (HfWeight × T)) : List (LoadEffect T) :=
  (⟨true, n, tied⟩ : SmolLM3ForCausalLM).loadWeights (ws.map fun p => (p.1.name, p.2))

theorem layerName_mem_namedParameters {i : ℕ} {rest : ParamName} :
    layerName i rest ∈ (⟨true, n, tied⟩ : SmolLM3ForCausalLM).namedParameters ↔
      i < n ∧ rest ∈ layerParameters true := by
  simp only [namedParameters, if_true, List.mem_append, List.mem_cons, List.not_mem_nil,
    or_false, List.mem_flatMap, List.mem_range, List.mem_map]
  constructor
  · rintro (((h | ⟨j, hj, rest', hrest, h⟩) | h) | h)
    · exact absurd h (layerName_ne (by decide +kernel))
    · obtain ⟨rfl, rfl⟩ := layerName_inj h
      exact ⟨hj, hrest⟩
    · exact absurd h (layerName_ne (by decide +kernel))
    · exact absurd h (layerName_ne (by decide +kernel))
  · rintro ⟨hi, hrest⟩
    exact Or.inl (Or.inl (Or.inr ⟨i, hi, rest, hrest, rfl⟩))

/-- A weight of the checkpoint is a parameter under its own name unless it
is merged. -/
theorem name_mem_namedParameters {h : HfWeight} (hmem : h ∈ checkpoint n) :
    h.name ∈ (⟨true, n, tied⟩ : SmolLM3ForCausalLM).namedParameters ↔ ¬ h.Merged := by
  cases h with
  | embedTokens =>
    exact iff_of_true (List.mem_append_left _ (List.mem_append_left _ List.mem_cons_self))
      fun hmerged => hmerged rfl
  | norm =>
    exact iff_of_true (List.mem_append_left _ (List.mem_append_right _ List.mem_cons_self))
      fun hmerged => hmerged rfl
  | layer i w =>
    rw [HfWeight.name_layer, layerName_mem_namedParameters]
    constructor
    · rintro ⟨-, hrest⟩ hmerged
      exact LayerWeight.hfName_ne_of_merged hmerged hrest rfl
    · intro hmerged
      exact ⟨layer_mem_checkpoint.mp hmem,
        (LayerWeight.hfName_of_unmerged (not_not.mp hmerged)).2⟩

/-- A weight that is not merged is meant for the parameter of its name. -/
theorem slot_of_not_merged {h : HfWeight} (hm : ¬ h.Merged) : h.slot = (h.name, none) := by
  cases h with
  | embedTokens => rfl
  | norm => rfl
  | layer i w =>
    have hw : w.shard = none := not_not.mp hm
    rw [HfWeight.slot_layer, HfWeight.name_layer, (LayerWeight.hfName_of_unmerged hw).1, hw]

/-- What the loop does with a weight of the checkpoint. -/
theorem loadWeight_checkpoint (tied : Bool) {h : HfWeight} (hmem : h ∈ checkpoint n) (weight : T) :
    (((⟨true, n, tied⟩ : SmolLM3ForCausalLM).loadWeight h.name weight).bind loaderCall) =
      if h.Merged then none else some (h.slot, weight) := by
  rw [loadWeight_of_vllm rfl weight h.name_ne_lmHead]
  by_cases hm : h.Merged
  · rw [if_neg fun hname => (name_mem_namedParameters hmem).mp hname hm, if_pos hm]
    rfl
  · rw [if_pos ((name_mem_namedParameters hmem).mpr hm), if_neg hm, slot_of_not_merged hm]
    rfl

/-- The loader is called for the weights that are not merged, in order. -/
theorem loaderCalls_eq (hws : ∀ p ∈ ws, p.1 ∈ checkpoint n) :
    (loadCheckpoint n tied ws).filterMap loaderCall =
      (ws.filter fun p => ¬ p.1.Merged).map fun p => (p.1.slot, p.2) := by
  have htie : (if tied = true then [LoadEffect.tie] else ([] : List (LoadEffect T))).filterMap
      loaderCall = [] := by
    cases tied <;> rfl
  rw [loadCheckpoint, loadWeights, List.filterMap_append, htie, List.append_nil,
    List.filterMap_filterMap, List.filterMap_map]
  induction ws with
  | nil => rfl
  | cons p ws ih =>
    have hp := loadWeight_checkpoint tied (hws p List.mem_cons_self) p.2
    have ih := ih fun p hp => hws p (List.mem_cons_of_mem _ hp)
    rw [List.filterMap_cons, Function.comp_apply, hp, ih]
    by_cases hm : p.1.Merged
    · rw [if_pos hm, List.filter_cons_of_neg (by simpa using hm)]
    · rw [if_neg hm, List.filter_cons_of_pos (by simpa using hm), List.map_cons]

/-- Each place is handed its weight once, or nothing where it is a shard. -/
theorem handed_eq (hws : ∀ p ∈ ws, p.1 ∈ checkpoint n) (hnd : (ws.map Prod.fst).Nodup)
    {p : HfWeight × T} (hp : p ∈ ws) :
    handed (loadCheckpoint n tied ws) p.1.slot = if p.1.Merged then [] else [p.2] := by
  rw [handed, loaderCalls_eq hws]
  clear hws
  induction ws with
  | nil => cases hp
  | cons r ws ih =>
    rw [List.map_cons, List.nodup_cons] at hnd
    -- nobody after the head is meant for the head's place
    have hother : ∀ r' ∈ ws, r'.1.slot ≠ r.1.slot := fun r' hr' heq =>
      hnd.1 (HfWeight.slot_injective heq ▸ List.mem_map_of_mem hr')
    rcases List.mem_cons.mp hp with rfl | hp
    · have hrest : (((ws.filter fun p => ¬ p.1.Merged).map fun p => (p.1.slot, p.2)).filter
          fun call => call.1 = p.1.slot) = [] := by
        rw [List.filter_eq_nil_iff]
        intro call hcall
        obtain ⟨r', hr', rfl⟩ := List.mem_map.mp hcall
        simpa using hother r' (List.mem_of_mem_filter hr')
      by_cases hm : p.1.Merged
      · rw [List.filter_cons_of_neg (by simpa using hm), hrest, if_pos hm]
        rfl
      · rw [List.filter_cons_of_pos (by simpa using hm), List.map_cons,
          List.filter_cons_of_pos (by simp), hrest, if_neg hm]
        rfl
    · have hne : r.1.slot ≠ p.1.slot := fun heq => hother p hp heq.symm
      rw [← ih hnd.2 hp]
      by_cases hm : r.1.Merged
      · rw [List.filter_cons_of_neg (by simpa using hm)]
      · rw [List.filter_cons_of_pos (by simpa using hm), List.map_cons,
          List.filter_cons_of_neg (by simpa using hne)]

theorem nodup_checkpoint : (checkpoint n).Nodup := by
  have hlayers :
      ((List.range n).flatMap fun i => LayerWeight.all.map (HfWeight.layer i)).Nodup := by
    rw [List.nodup_flatMap]
    refine ⟨fun i _ => List.Nodup.map (fun w w' h => (HfWeight.layer.inj h).2) (by decide), ?_⟩
    refine List.nodup_range.imp fun {i j} hij => ?_
    intro h hi hj
    obtain ⟨w, -, rfl⟩ := List.mem_map.mp hi
    obtain ⟨w', -, hw'⟩ := List.mem_map.mp hj
    exact hij (HfWeight.layer.inj hw').1.symm
  simp [checkpoint, hlayers]

/-- **Which checkpoints are loaded whole.** In vLLM mode, whatever the order
of the weights, the loader hands over exactly the weights that are not
merged, each to the parameter of its own name. So every weight reaches its
place exactly once only where there is no decoder layer. -/
theorem loads_whole_iff (n : ℕ) (tied : Bool) (ws : List (HfWeight × T))
    (hws : (ws.map Prod.fst).Perm (checkpoint n)) :
    (loadCheckpoint n tied ws).filterMap loaderCall =
      ((ws.filter fun p => ¬ p.1.Merged).map fun p => (p.1.slot, p.2)) ∧
    ((∀ p ∈ ws, handed (loadCheckpoint n tied ws) p.1.slot = [p.2]) ↔ n = 0) := by
  have hmem : ∀ p ∈ ws, p.1 ∈ checkpoint n := fun p hp =>
    hws.mem_iff.mp (List.mem_map_of_mem hp)
  have hnd : (ws.map Prod.fst).Nodup := hws.nodup_iff.mpr nodup_checkpoint
  refine ⟨loaderCalls_eq hmem, ?_, ?_⟩
  · intro hall
    by_contra hn
    -- the query projection of the first layer is in the checkpoint
    have hq : HfWeight.layer 0 .qProj ∈ ws.map Prod.fst :=
      hws.mem_iff.mpr (layer_mem_checkpoint.mpr (Nat.pos_of_ne_zero hn))
    obtain ⟨p, hp, hpq⟩ := List.mem_map.mp hq
    have hloaded := hall p hp
    rw [handed_eq hmem hnd hp, hpq, if_pos (by decide)] at hloaded
    cases hloaded
  · rintro rfl p hp
    have hm : ¬ p.1.Merged := by
      have hzero : ∀ h ∈ checkpoint 0, ¬ h.Merged := by decide
      exact hzero p.1 (hmem p hp)
    rw [handed_eq hmem hnd hp, if_neg hm]

/-- A checkpoint in its own order, each weight marked by its position. -/
def numbered (n : ℕ) : List (HfWeight × ℕ) := (checkpoint n).zipIdx

/-- One layer: its merged parameters are given nothing, although the
checkpoint has all five of their shards. -/
theorem one_layer_shards_unloaded :
    ((numbered 1).map Prod.fst).Perm (checkpoint 1) ∧
    ∀ w ∈ [LayerWeight.qProj, .kProj, .vProj, .gateProj, .upProj],
      HfWeight.layer 0 w ∈ checkpoint 1 ∧
        handed (loadCheckpoint 1 true (numbered 1)) (HfWeight.layer 0 w).slot = [] := by
  decide +kernel

/-- The embedding and the final norm of a model without layers are loaded. -/
theorem no_layers_loaded :
    ((numbered 0).map Prod.fst).Perm (checkpoint 0) ∧
      ∀ p ∈ numbered 0, handed (loadCheckpoint 0 true (numbered 0)) p.1.slot = [p.2] :=
  ⟨by decide, (loads_whole_iff 0 true (numbered 0) (by decide)).2.mpr rfl⟩

end SmolLM3ForCausalLM

end VllmScheduler
