import Mathlib.Data.List.Forall2
import Mathlib.Data.List.GetD
/-!
# Lists

A list of computations that may fail, run one after the other, and a few facts
about lists made from others entry by entry.
-/

namespace VllmScheduler

universe u v w x

variable {α : Type u} {β : Type v} {γ : Type w} {δ : Type x} {l : List α}

/-! ## Computations that may fail -/

theorem mapM_eq_some_map {f : α → Option β} {g : α → β} (h : ∀ a ∈ l, f a = some (g a)) :
    l.mapM f = some (l.map g) := by
  induction l with
  | nil => rfl
  | cons a l ih =>
    rw [List.mapM_cons, h a List.mem_cons_self, ih fun b hb => h b (List.mem_cons_of_mem _ hb)]
    rfl

/-- Where all succeed, with results that have a property, so does the list. -/
theorem exists_mapM {f : α → Option β} {P : β → Prop} (h : ∀ a ∈ l, ∃ b, f a = some b ∧ P b) :
    ∃ bs, l.mapM f = some bs ∧ bs.length = l.length ∧ ∀ b ∈ bs, P b := by
  induction l with
  | nil => exact ⟨[], rfl, rfl, fun b hb => absurd hb List.not_mem_nil⟩
  | cons a l ih =>
    obtain ⟨b, hb, hP⟩ := h a List.mem_cons_self
    obtain ⟨bs, hbs, hlen, hall⟩ := ih fun a' ha' => h a' (List.mem_cons_of_mem _ ha')
    refine ⟨b :: bs, ?_, congrArg Nat.succ hlen, List.forall_mem_cons.mpr ⟨hP, hall⟩⟩
    rw [List.mapM_cons, hb, hbs]
    rfl

/-- Two passes over a list are one. -/
theorem mapM_bind_eq_some {f : α → Option β} {g : β → Option γ} {xs : List β} {ys : List γ}
    (hf : l.mapM f = some xs) (hg : xs.mapM g = some ys) :
    (l.mapM fun a => (f a).bind g) = some ys := by
  induction l generalizing xs ys with
  | nil =>
    cases hf
    exact hg
  | cons a l ih =>
    rw [List.mapM_cons] at hf
    obtain ⟨b, hb, hf⟩ := Option.bind_eq_some_iff.mp hf
    obtain ⟨bs, hbs, hxs⟩ := Option.bind_eq_some_iff.mp hf
    cases hxs
    rw [List.mapM_cons] at hg
    obtain ⟨c, hc, hg⟩ := Option.bind_eq_some_iff.mp hg
    obtain ⟨cs, hcs, hys⟩ := Option.bind_eq_some_iff.mp hg
    cases hys
    rw [List.mapM_cons, ih hbs hcs, hb, Option.bind_some, hc]
    rfl

/-! ## Entries -/

/-- A list, entry by entry. -/
theorem eq_map_range (d : α) {n : ℕ} (h : l.length = n) :
    l = (List.range n).map fun j => l.getD j d := by
  refine List.ext_getElem (by simp [h]) fun j hj hj' => ?_
  simp [hj]

/-- Two lists made from one, element by element. -/
theorem forall₂_map_map {R : β → γ → Prop} {f : α → β} {g : α → δ} {g' : δ → γ}
    (h : ∀ a ∈ l, R (f a) (g' (g a))) : List.Forall₂ R (l.map f) ((l.map g).map g') := by
  rw [List.map_map, List.forall₂_map_left_iff, List.forall₂_map_right_iff, List.forall₂_same]
  exact h

theorem length_eraseDups_le [BEq α] (l : List α) : l.eraseDups.length ≤ l.length := by
  induction hn : l.length using Nat.strongRecOn generalizing l with
  | _ n ih =>
    cases l with
    | nil => simp
    | cons a l =>
      have hfilter := List.length_filter_le (fun b => !b == a) l
      rw [List.length_cons] at hn
      rw [List.eraseDups_cons, List.length_cons]
      have := ih _ (by omega) (l.filter fun b => !b == a) rfl
      omega

end VllmScheduler
