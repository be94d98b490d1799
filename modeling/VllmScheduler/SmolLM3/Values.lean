import Mathlib.Logic.Function.Basic
import VllmScheduler.SmolLM3.Loader
/-!
# What the parameters hold after loading

`load_weights` of the SmolLM3 port as a function of the parameters' values.
What a parameter's own loader makes of a shard is a parameter of the model; a
tensor for a whole parameter becomes its value, by a loader or by `copy_`.

As the stacked branch is never taken, a weight goes to the parameter of its own
name or nowhere. So weights with distinct names do not meet, and their order
does not matter (`loadWeights_order_independent`). The tie comes last and sees
the embedding as loaded.
-/

namespace VllmScheduler

variable {T : Type}

def lmHead : ParamName := "lm_head.weight".toList

def embedTokens : ParamName := "model.embed_tokens.weight".toList

/-- What an effect does to the values of the parameters. -/
def LoadEffect.apply (shardLoader : ParamName → ShardId → T → T → T) (values : ParamName → T) :
    LoadEffect T → ParamName → T
  | .loader param none weight => Function.update values param weight
  | .loader param (some shard) weight =>
    Function.update values param (shardLoader param shard weight (values param))
  | .copy param weight => Function.update values param weight
  | .tie => Function.update values lmHead (values embedTokens)

namespace SmolLM3ForCausalLM

/-- The values after `load_weights`. -/
def loaded (m : SmolLM3ForCausalLM) (shardLoader : ParamName → ShardId → T → T → T)
    (initial : ParamName → T) (weights : List (ParamName × T)) : ParamName → T :=
  (m.loadWeights weights).foldl (LoadEffect.apply shardLoader) initial

/-- The values before the tie. -/
def untied (m : SmolLM3ForCausalLM) (shardLoader : ParamName → ShardId → T → T → T)
    (initial : ParamName → T) (weights : List (ParamName × T)) : ParamName → T :=
  (weights.filterMap fun w => m.loadWeight w.1 w.2).foldl (LoadEffect.apply shardLoader) initial

/-- The weights that are loaded: those of parameters, without a head that is to
be tied. -/
def Wanted (m : SmolLM3ForCausalLM) (name : ParamName) : Prop :=
  name ∈ m.namedParameters ∧ ¬ (name = lmHead ∧ m.tieWordEmbeddings = true)

variable {m : SmolLM3ForCausalLM} {shardLoader : ParamName → ShardId → T → T → T}
variable {initial : ParamName → T} {weights : List (ParamName × T)} {name : ParamName}

/-! ## One weight after the other -/

section Weights

theorem loadWeight_of_not_wanted (h : ¬ m.Wanted name) (weight : T) :
    m.loadWeight name weight = none := by
  rw [loadWeight]
  split
  · rfl
  · rename_i htied
    have hmem : name ∉ m.namedParameters := fun hmem => h ⟨hmem, htied⟩
    simp only [stackedTarget_eq_none, if_neg hmem]

/-- A weight that is wanted becomes the value of its parameter. -/
theorem exists_effect_of_wanted (shardLoader : ParamName → ShardId → T → T → T)
    (h : m.Wanted name) (weight : T) :
    ∃ effect, m.loadWeight name weight = some effect ∧
      ∀ values, effect.apply shardLoader values = Function.update values name weight := by
  have hnot : ¬ (name = "lm_head.weight".toList ∧ m.tieWordEmbeddings = true) := h.2
  rw [loadWeight, if_neg hnot]
  simp only [stackedTarget_eq_none, if_pos h.1]
  split
  · exact ⟨_, rfl, fun _ => rfl⟩
  · exact ⟨_, rfl, fun _ => rfl⟩

theorem untied_cons_of_wanted (h : m.Wanted name) (weight : T) :
    m.untied shardLoader initial ((name, weight) :: weights) =
      m.untied shardLoader (Function.update initial name weight) weights := by
  obtain ⟨effect, heq, happly⟩ := exists_effect_of_wanted shardLoader h weight
  rw [untied, List.filterMap_cons, heq, untied, ← happly]
  rfl

theorem untied_cons_of_not_wanted (h : ¬ m.Wanted name) (weight : T) :
    m.untied shardLoader initial ((name, weight) :: weights) =
      m.untied shardLoader initial weights := by
  rw [untied, List.filterMap_cons, loadWeight_of_not_wanted h weight]
  rfl

/-- What no wanted weight is for stays as it is. -/
theorem untied_of_not_mem (h : m.Wanted name → name ∉ weights.map Prod.fst) :
    m.untied shardLoader initial weights name = initial name := by
  induction weights generalizing initial with
  | nil => rfl
  | cons w weights ih =>
    obtain ⟨other, weight⟩ := w
    have hrest : m.Wanted name → name ∉ weights.map Prod.fst :=
      fun hw hmem => h hw (List.mem_cons_of_mem _ hmem)
    by_cases hother : m.Wanted other
    · have hne : name ≠ other := by
        rintro rfl
        exact h hother List.mem_cons_self
      rw [untied_cons_of_wanted hother, ih hrest, Function.update_of_ne hne]
    · rw [untied_cons_of_not_wanted hother, ih hrest]

/-- **What a wanted weight is for holds it**, the names being distinct. -/
theorem untied_of_mem (hw : m.Wanted name) (hnodup : (weights.map Prod.fst).Nodup) {weight : T}
    (hmem : (name, weight) ∈ weights) :
    m.untied shardLoader initial weights name = weight := by
  induction weights generalizing initial with
  | nil => cases hmem
  | cons w weights ih =>
    obtain ⟨other, weight'⟩ := w
    obtain ⟨hfresh, hnodup⟩ := List.nodup_cons.mp hnodup
    rcases List.mem_cons.mp hmem with heq | hmem
    · obtain ⟨rfl, rfl⟩ := Prod.mk.inj heq
      rw [untied_cons_of_wanted hw, untied_of_not_mem fun _ => hfresh, Function.update_self]
    · by_cases hother : m.Wanted other
      · rw [untied_cons_of_wanted hother, ih hnodup hmem]
      · rw [untied_cons_of_not_wanted hother, ih hnodup hmem]

/-- The order does not matter. -/
theorem untied_perm {weights' : List (ParamName × T)} (hnodup : (weights.map Prod.fst).Nodup)
    (hperm : weights.Perm weights') :
    m.untied shardLoader initial weights = m.untied shardLoader initial weights' := by
  funext name
  have hnames := hperm.map Prod.fst
  by_cases h : m.Wanted name ∧ name ∈ weights.map Prod.fst
  · obtain ⟨hw, hmem⟩ := h
    obtain ⟨⟨_, weight⟩, hentry, rfl⟩ := List.mem_map.mp hmem
    rw [untied_of_mem hw hnodup hentry,
      untied_of_mem hw (hnames.nodup_iff.mp hnodup) (hperm.mem_iff.mp hentry)]
  · have hnot : m.Wanted name → name ∉ weights.map Prod.fst := fun hw hmem => h ⟨hw, hmem⟩
    rw [untied_of_not_mem hnot, untied_of_not_mem fun hw => mt hnames.mem_iff.mpr (hnot hw)]

end Weights

/-! ## The tie -/

section Tie

theorem loaded_of_not_tied (htie : m.tieWordEmbeddings = false) :
    m.loaded shardLoader initial weights = m.untied shardLoader initial weights := by
  rw [loaded, loadWeights, htie]
  simp only [Bool.false_eq_true, if_false, List.append_nil]
  rfl

theorem loaded_of_tied (htie : m.tieWordEmbeddings = true) :
    m.loaded shardLoader initial weights =
      Function.update (m.untied shardLoader initial weights) lmHead
        (m.untied shardLoader initial weights embedTokens) := by
  rw [loaded, loadWeights, htie, if_pos rfl, List.foldl_append]
  rfl

theorem embedTokens_ne_lmHead : embedTokens ≠ lmHead := by decide +kernel

theorem wanted_embedTokens : m.Wanted embedTokens := by
  refine ⟨?_, fun h => embedTokens_ne_lmHead h.1⟩
  rw [namedParameters, List.append_assoc]
  exact List.mem_append_left _ List.mem_cons_self

theorem wanted_lmHead_iff : m.Wanted lmHead ↔ m.tieWordEmbeddings = false := by
  have hmem : lmHead ∈ m.namedParameters := List.mem_append_right _ (List.mem_singleton_self _)
  rw [Wanted, and_iff_right hmem, and_iff_right rfl, Bool.not_eq_true]

/-- A head to be tied is passed over. -/
theorem untied_filter (htie : m.tieWordEmbeddings = true) :
    m.untied shardLoader initial (weights.filter fun w => w.1 ≠ lmHead) =
      m.untied shardLoader initial weights := by
  have hnot : ¬ m.Wanted lmHead := by
    rw [wanted_lmHead_iff, htie]
    decide
  induction weights generalizing initial with
  | nil => rfl
  | cons w weights ih =>
    obtain ⟨other, weight⟩ := w
    by_cases heq : other = lmHead
    · subst heq
      rw [List.filter_cons_of_neg (by simp), ih, untied_cons_of_not_wanted hnot]
    · rw [List.filter_cons_of_pos (by simpa using heq)]
      by_cases hother : m.Wanted other
      · rw [untied_cons_of_wanted hother, untied_cons_of_wanted hother, ih]
      · rw [untied_cons_of_not_wanted hother, untied_cons_of_not_wanted hother, ih]

/-- **Loading does not depend on the order and ties correctly.** Weights with
distinct names leave the same values in any order. A tied head ends up equal to
the embedding as loaded, whatever the checkpoint has for it; one that is not
tied holds the checkpoint's, where there is one. -/
theorem loadWeights_order_independent (m : SmolLM3ForCausalLM)
    (shardLoader : ParamName → ShardId → T → T → T) (initial : ParamName → T)
    (weights : List (ParamName × T)) (hnodup : (weights.map Prod.fst).Nodup) :
    (∀ weights', weights.Perm weights' →
      m.loaded shardLoader initial weights' = m.loaded shardLoader initial weights) ∧
    (m.tieWordEmbeddings = true →
      m.loaded shardLoader initial weights lmHead =
          m.loaded shardLoader initial weights embedTokens ∧
        (∀ weight, (embedTokens, weight) ∈ weights →
          m.loaded shardLoader initial weights embedTokens = weight) ∧
        m.loaded shardLoader initial (weights.filter fun w => w.1 ≠ lmHead) =
          m.loaded shardLoader initial weights) ∧
    (m.tieWordEmbeddings = false → ∀ weight, (lmHead, weight) ∈ weights →
      m.loaded shardLoader initial weights lmHead = weight) := by
  refine ⟨fun weights' hperm => ?_, fun htie => ⟨?_, fun weight hmem => ?_, ?_⟩,
    fun htie weight hmem => ?_⟩
  · cases htie : m.tieWordEmbeddings with
    | false => rw [loaded_of_not_tied htie, loaded_of_not_tied htie, untied_perm hnodup hperm]
    | true => rw [loaded_of_tied htie, loaded_of_tied htie, untied_perm hnodup hperm]
  · rw [loaded_of_tied htie, Function.update_self, Function.update_of_ne embedTokens_ne_lmHead]
  · rw [loaded_of_tied htie, Function.update_of_ne embedTokens_ne_lmHead,
      untied_of_mem wanted_embedTokens hnodup hmem]
  · rw [loaded_of_tied htie, loaded_of_tied htie, untied_filter htie]
  · rw [loaded_of_not_tied htie, untied_of_mem (wanted_lmHead_iff.mpr htie) hnodup hmem]

end Tie

/-- A checkpoint with a head, an embedding and a name the model does not have. -/
def headFirst : List (ParamName × ℕ) :=
  [(lmHead, 1), ("model.rotary_emb.inv_freq".toList, 2), (embedTokens, 3)]

/-- Tied, the head is the embedding; not tied, it is the checkpoint's. -/
theorem headFirst_loaded :
    (headFirst.map Prod.fst).Nodup ∧
      (⟨false, 1, true⟩ : SmolLM3ForCausalLM).loaded (fun _ _ _ v => v) (fun _ => 0) headFirst
        lmHead = 3 ∧
      (⟨true, 1, false⟩ : SmolLM3ForCausalLM).loaded (fun _ _ _ v => v) (fun _ => 0) headFirst
        lmHead = 1 := by
  have hnodup : (headFirst.map Prod.fst).Nodup := by decide +kernel
  obtain ⟨-, htied, -⟩ := loadWeights_order_independent ⟨false, 1, true⟩ (fun _ _ _ v => v)
    (fun _ => 0) headFirst hnodup
  obtain ⟨-, -, hnot⟩ := loadWeights_order_independent ⟨true, 1, false⟩ (fun _ _ _ v => v)
    (fun _ => 0) headFirst hnodup
  obtain ⟨heq, hembed, -⟩ := htied rfl
  refine ⟨hnodup, heq.trans (hembed 3 ?_), hnot rfl 1 List.mem_cons_self⟩
  exact List.mem_cons_of_mem _ (List.mem_cons_of_mem _ List.mem_cons_self)

end SmolLM3ForCausalLM

end VllmScheduler
