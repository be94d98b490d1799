import Mathlib.Algebra.Order.Group.Nat
import Mathlib.Data.List.Basic
/-!
# Layers without positions in the SmolLM3 port

Which of the layers that `SmolLM3Model.__init__` builds rotate queries and keys
by position: `SmolLM3Attention.__init__` decides it from the layer's number and
`nope_layer_interval`. A configuration is a `dict` or an object, and `_cfg`
reads either with a default; of the values only integers are needed here. A
remainder by 0 raises, so the building gives an `Option`.

The layers without positions are those whose number, counted from 1, the
interval divides; so their number among the first `m` is `m / k`, and both the
total and the number in a window are read off that.
-/

namespace VllmScheduler

/-- The integers of a configuration, by their names. -/
abbrev SmolLM3Config := String → Option ℤ

/-- `_cfg`. -/
def cfg (config : SmolLM3Config) (key : String) (default : ℤ) : ℤ := (config key).getD default

/-- What `SmolLM3Attention.__init__` sets from the layer's number. -/
structure SmolLM3Attention where
  layerIdx : ℕ
  useRope : Bool
deriving DecidableEq

/-- The decision in `SmolLM3Attention.__init__`; `%` rounds down. -/
def SmolLM3Attention.init (config : SmolLM3Config) (layerIdx : ℕ) : Option SmolLM3Attention :=
  let nopeInterval := cfg config "nope_layer_interval" 2
  if nopeInterval = 0 then none
  else some ⟨layerIdx, decide (Int.fmod layerIdx nopeInterval ≠ nopeInterval - 1)⟩

/-- The attentions of the layers that `SmolLM3Model.__init__` builds. -/
def buildLayers (config : SmolLM3Config) : Option (List SmolLM3Attention) :=
  let numLayers := cfg config "num_hidden_layers" 32
  (List.range numLayers.toNat).mapM (SmolLM3Attention.init config)

/-! ## Multiples of the interval -/

section Multiples

variable {n k i : ℕ}

theorem fmod_eq_pred_iff (hk : 1 ≤ k) (i : ℕ) :
    Int.fmod (i : ℤ) (k : ℤ) = (k : ℤ) - 1 ↔ k ∣ i + 1 := by
  rw [Int.fmod_eq_emod_of_nonneg _ (Int.natCast_nonneg k), ← Int.natCast_mod,
    Nat.dvd_iff_mod_eq_zero, Nat.add_mod]
  have hlt := Nat.mod_lt i hk
  rcases Nat.eq_or_lt_of_le hk with rfl | hone
  · simp [Nat.mod_one]
  · rw [Nat.mod_eq_of_lt hone]
    rcases Nat.lt_or_ge (i % k + 1) k with h | h
    · rw [Nat.mod_eq_of_lt h]
      omega
    · have heq : i % k + 1 = k := by omega
      rw [heq, Nat.mod_self]
      omega

/-- As many of the first `n` numbers are multiples of `k`, counted from 1, as
`k` goes into `n`. -/
theorem countP_dvd_succ_range (n k : ℕ) : (List.range n).countP (k ∣ · + 1) = n / k := by
  induction n with
  | zero => simp
  | succ n ih =>
    rw [List.range_succ, List.countP_append, ih, Nat.succ_div, List.countP_singleton]
    simp only [decide_eq_true_eq]

end Multiples

/-! ## The layers -/

section Layers

variable {config : SmolLM3Config} {n k : ℕ}

/-- The layer with number `i`. -/
def plannedLayer (k i : ℕ) : SmolLM3Attention := ⟨i, !decide (k ∣ i + 1)⟩

theorem init_eq (hk : cfg config "nope_layer_interval" 2 = k) (hpos : 1 ≤ k) (i : ℕ) :
    SmolLM3Attention.init config i = some (plannedLayer k i) := by
  rw [SmolLM3Attention.init, hk, if_neg (by omega), plannedLayer]
  congr 2
  rw [← decide_not, decide_eq_decide, Ne, fmod_eq_pred_iff hpos]

theorem buildLayers_eq (hn : cfg config "num_hidden_layers" 32 = n)
    (hk : cfg config "nope_layer_interval" 2 = k) (hpos : 1 ≤ k) :
    buildLayers config = some ((List.range n).map (plannedLayer k)) := by
  rw [buildLayers, hn, Int.toNat_natCast, funext (init_eq hk hpos)]
  exact List.mapM_pure

/-- Among the first `m` layers. -/
theorem countP_take_layers (k : ℕ) {m : ℕ} (hm : m ≤ n) :
    (((List.range n).map (plannedLayer k)).take m).countP (fun a => !a.useRope) = m / k := by
  rw [← List.map_take, List.take_range, min_eq_left hm, List.countP_map,
    ← countP_dvd_succ_range m k]
  congr 1
  funext i
  simp [plannedLayer]

/-- **Layers without positions are placed periodically.** Of `n` layers there
are `n / k`, those whose number counted from 1 the interval `k` divides, and
every `k` layers in a row hold one of them. -/
theorem nope_layers_periodic (config : SmolLM3Config) (n k : ℕ)
    (hn : cfg config "num_hidden_layers" 32 = n) (hk : cfg config "nope_layer_interval" 2 = k)
    (hpos : 1 ≤ k) :
    ∃ layers, buildLayers config = some layers ∧ layers.length = n ∧
      layers.countP (fun a => !a.useRope) = n / k ∧
      (∀ i a, layers[i]? = some a → (a.layerIdx = i ∧ (a.useRope = false ↔ k ∣ i + 1))) ∧
      ∀ i, i + k ≤ n → ((layers.drop i).take k).countP (fun a => !a.useRope) = 1 := by
  refine ⟨_, buildLayers_eq hn hk hpos, by simp, ?_, fun i a ha => ?_, fun i hi => ?_⟩
  · have htake := countP_take_layers k (le_refl n)
    rwa [List.take_of_length_le (by simp)] at htake
  · simp only [List.getElem?_map, Option.map_eq_some_iff] at ha
    obtain ⟨j, hj, rfl⟩ := ha
    obtain ⟨_, hval⟩ := List.getElem?_eq_some_iff.mp hj
    rw [List.getElem_range] at hval
    subst hval
    simp [plannedLayer]
  · -- the window is what the first `i + k` layers hold and the first `i` do not
    have hsplit := List.take_add (l := (List.range n).map (plannedLayer k)) (i := i) (j := k)
    have hcount := congrArg (List.countP fun a => !a.useRope) hsplit
    rw [List.countP_append, countP_take_layers k hi, countP_take_layers k (by omega),
      Nat.add_div_right i hpos] at hcount
    omega

/-- The configuration of a model of seven layers with an interval of three. -/
def sevenLayers : SmolLM3Config := fun key =>
  if key = "num_hidden_layers" then some 7
  else if key = "nope_layer_interval" then some 3 else none

theorem sevenLayers_nope :
    cfg sevenLayers "num_hidden_layers" 32 = (7 : ℕ) ∧
      cfg sevenLayers "nope_layer_interval" 2 = (3 : ℕ) ∧
      ∃ layers, buildLayers sevenLayers = some layers ∧
        layers.countP (fun a => !a.useRope) = 2 := by
  have hn : cfg sevenLayers "num_hidden_layers" 32 = (7 : ℕ) := by decide
  have hk : cfg sevenLayers "nope_layer_interval" 2 = (3 : ℕ) := by decide
  obtain ⟨layers, hlayers, -, hcount, -⟩ := nope_layers_periodic sevenLayers 7 3 hn hk (by decide)
  exact ⟨hn, hk, layers, hlayers, hcount⟩

end Layers

end VllmScheduler
