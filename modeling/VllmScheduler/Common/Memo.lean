import Mathlib.Logic.Function.Basic
import VllmScheduler.Common.Machine
/-!
# Write-once caches

A cache keeps, for each key, the value computed by the first call that had
it. Whether its callers notice depends on the key alone: a run of calls
gets what the function gives exactly where calls of one key want one value.
-/

namespace VllmScheduler

namespace Memo

variable {α κ β : Type} [DecidableEq κ]

/-- The cached function as a machine whose state is the store. -/
def machine (key : α → κ) (f : α → β) : Machine (κ → Option β) α β where
  step store a :=
    match store (key a) with
    | some b => (store, b)
    | none => (Function.update store (key a) (some (f a)), f a)

variable {key : α → κ} {f : α → β} {store : κ → Option β} {as : List α} {a : α}

theorem step_of_some {b : β} (h : store (key a) = some b) :
    (machine key f).step store a = (store, b) := by
  simp only [machine, h]

theorem step_of_none (h : store (key a) = none) :
    (machine key f).step store a = (Function.update store (key a) (some (f a)), f a) := by
  simp only [machine, h]

/-- What is stored was computed for its key, and what was returned is
stored. -/
structure Kept (key : α → κ) (f : α → β) (as : List α) (log : List (α × β))
    (store : κ → Option β) : Prop where
  computed : ∀ k b, store k = some b → ∃ a ∈ as, key a = k ∧ f a = b
  stored : ∀ e ∈ log, store (key e.1) = some e.2

theorem Kept.step {log : List (α × β)} (h : Kept key f as log store) (a : α) :
    Kept key f (as ++ [a]) (log ++ [(a, ((machine key f).step store a).2)])
      ((machine key f).step store a).1 := by
  rcases hs : store (key a) with - | b
  · rw [step_of_none hs]
    show Kept key f (as ++ [a]) (log ++ [(a, f a)]) (Function.update store (key a) (some (f a)))
    refine ⟨fun k b hk => ?_, fun e he => ?_⟩
    · by_cases hka : k = key a
      · rw [hka, Function.update_self, Option.some.injEq] at hk
        exact ⟨a, by simp, hka.symm, hk⟩
      · rw [Function.update_of_ne hka] at hk
        obtain ⟨a', ha', hkey⟩ := h.computed k b hk
        exact ⟨a', List.mem_append_left _ ha', hkey⟩
    · rcases List.mem_append.mp he with he | he
      · have hold := h.stored e he
        rwa [Function.update_of_ne]
        rintro heq
        rw [heq, hs] at hold
        cases hold
      · rw [List.mem_singleton.mp he, Function.update_self]
  · rw [step_of_some hs]
    show Kept key f (as ++ [a]) (log ++ [(a, b)]) store
    refine ⟨fun k b' hk => ?_, fun e he => ?_⟩
    · obtain ⟨a', ha', hkey⟩ := h.computed k b' hk
      exact ⟨a', List.mem_append_left _ ha', hkey⟩
    · rcases List.mem_append.mp he with he | he
      · exact h.stored e he
      · rw [List.mem_singleton.mp he]
        exact hs

theorem kept_run :
    Kept key f as ((machine key f).log (fun _ => none) as)
      ((machine key f).run (fun _ => none) as) := by
  refine Machine.log_inv (M := machine key f) (H := fun _ => True)
    (I := fun as log store => Kept key f as log store) (fun _ _ _ => trivial) ?_
    (fun as a _ h => h.step a) trivial
  exact ⟨fun _ _ h => absurd h.symm (Option.some_ne_none _), fun _ h => absurd h List.not_mem_nil⟩

/-- **A cache is transparent** to a run of calls from the empty store
exactly where calls of one key want one value. -/
theorem transparent_iff :
    (∀ e ∈ (machine key f).log (fun _ => none) as, e.2 = f e.1) ↔
      ∀ a ∈ as, ∀ b ∈ as, key a = key b → f a = f b := by
  constructor
  · intro h a ha b hb hkey
    -- both answers are what the store holds for the key in the end
    have hstored : ∀ c ∈ as, (machine key f).run (fun _ => none) as (key c) = some (f c) := by
      intro c hc
      have hlog : c ∈ ((machine key f).log (fun _ => none) as).map Prod.fst := by
        rw [Machine.map_fst_log]
        exact hc
      obtain ⟨e, he, rfl⟩ := List.mem_map.mp hlog
      rw [← h e he]
      exact kept_run.stored e he
    have hab := hstored b hb
    rw [← hkey, hstored a ha, Option.some.injEq] at hab
    exact hab
  · intro h e he
    have ha : e.1 ∈ as := by
      have hmem := List.mem_map_of_mem (f := Prod.fst) he
      rwa [Machine.map_fst_log] at hmem
    obtain ⟨a, hmem, hkey, hval⟩ := kept_run.computed _ _ (kept_run.stored e he)
    rw [← hval]
    exact h a hmem e.1 ha hkey

end Memo

end VllmScheduler
