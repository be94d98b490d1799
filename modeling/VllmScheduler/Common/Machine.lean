import Mathlib.Data.List.Induction
/-!
# Machines with outputs, and their runs

A machine answers every input with a new state and an output; a step that
is not enabled is the machine's to answer, usually by leaving the state
alone. A run is a list of inputs, and everything an observer sees of it is
its `log`: the inputs paired with the outputs. The rules below are the
inductions over runs the development rests on. `run_inv` is an invariant
kept by every step that meets a guard, and `log_inv` an invariant that may
also speak about the log so far.
-/

namespace VllmScheduler

universe u v w

/-- A deterministic machine over inputs `α` and outputs `β`. -/
structure Machine (σ : Type u) (α : Type v) (β : Type w) where
  /-- One step: the state after it and what it answers. -/
  step : σ → α → σ × β

namespace Machine

variable {σ : Type u} {α : Type v} {β : Type w} (M : Machine σ α β)

/-- The state a list of inputs leads to. -/
def run (s : σ) : List α → σ
  | [] => s
  | a :: as => run (M.step s a).1 as

/-- The inputs of a run, each with its output. -/
def log (s : σ) : List α → List (α × β)
  | [] => []
  | a :: as => (a, (M.step s a).2) :: log (M.step s a).1 as

/-- Every step of the run meets the guard `G` in the state it is taken
in. -/
def Along (G : σ → α → Prop) (s : σ) : List α → Prop
  | [] => True
  | a :: as => G s a ∧ Along G (M.step s a).1 as

/-- What an observer of the states and inputs notes along a run. -/
def notes {γ : Type*} (obs : σ → α → Option γ) (s : σ) : List α → List γ
  | [] => []
  | a :: as => (obs s a).toList ++ notes obs (M.step s a).1 as

instance decidableAlong (G : σ → α → Prop) [∀ s a, Decidable (G s a)] :
    ∀ (s : σ) (as : List α), Decidable (M.Along G s as)
  | _, [] => isTrue trivial
  | s, a :: as =>
    have := decidableAlong G (M.step s a).1 as
    inferInstanceAs (Decidable (G s a ∧ M.Along G (M.step s a).1 as))

variable {M} {s : σ} {as bs : List α} {a : α} {G : σ → α → Prop}

@[simp] theorem run_nil : M.run s [] = s := rfl

@[simp] theorem run_cons : M.run s (a :: as) = M.run (M.step s a).1 as := rfl

@[simp] theorem log_nil : M.log s [] = [] := rfl

@[simp] theorem log_cons :
    M.log s (a :: as) = (a, (M.step s a).2) :: M.log (M.step s a).1 as := rfl

theorem run_append : M.run s (as ++ bs) = M.run (M.run s as) bs := by
  induction as generalizing s with
  | nil => rfl
  | cons a as ih => exact ih

theorem log_append : M.log s (as ++ bs) = M.log s as ++ M.log (M.run s as) bs := by
  induction as generalizing s with
  | nil => rfl
  | cons a as ih => simp only [List.cons_append, log_cons, run_cons, ih]

theorem run_snoc : M.run s (as ++ [a]) = (M.step (M.run s as) a).1 := by
  rw [run_append]; rfl

theorem log_snoc :
    M.log s (as ++ [a]) = M.log s as ++ [(a, (M.step (M.run s as) a).2)] := by
  rw [log_append]; rfl

theorem map_fst_log : (M.log s as).map Prod.fst = as := by
  induction as generalizing s with
  | nil => rfl
  | cons a as ih => rw [log_cons, List.map_cons, ih]

/-- A view of the states under which the steps of one machine are those of
another: an observer cannot tell them apart. -/
theorem log_of_hom {τ : Type*} {N : Machine τ α β} {view : σ → τ}
    (hstep : ∀ s a, N.step (view s) a = (view (M.step s a).1, (M.step s a).2)) :
    N.log (view s) as = M.log s as := by
  induction as generalizing s with
  | nil => rfl
  | cons a as ih => rw [log_cons, log_cons, hstep, ih]

/-- **The rule of alike states.** Where alike states answer alike and step to
alike states, an observer cannot tell their runs apart. -/
theorem log_eq_of_rel {R : σ → σ → Prop}
    (hstep : ∀ s t a, R s t → (M.step s a).2 = (M.step t a).2 ∧ R (M.step s a).1 (M.step t a).1)
    {t : σ} (h : R s t) (as : List α) : M.log s as = M.log t as := by
  induction as generalizing s t with
  | nil => rfl
  | cons a as ih =>
    obtain ⟨hout, hnext⟩ := hstep s t a h
    rw [log_cons, log_cons, hout, ih hnext]

/-- States with one log go on to states with one log. -/
theorem log_run_eq {t : σ} (h : ∀ as, M.log s as = M.log t as) (as bs : List α) :
    M.log (M.run s as) bs = M.log (M.run t as) bs := by
  have hall := h (as ++ bs)
  rw [log_append, log_append, h as] at hall
  exact List.append_cancel_left hall

theorem notes_append {γ : Type*} {obs : σ → α → Option γ} :
    M.notes obs s (as ++ bs) = M.notes obs s as ++ M.notes obs (M.run s as) bs := by
  induction as generalizing s with
  | nil => rfl
  | cons a as ih => simp only [List.cons_append, notes, run_cons, ih, List.append_assoc]

theorem notes_snoc {γ : Type*} {obs : σ → α → Option γ} :
    M.notes obs s (as ++ [a]) = M.notes obs s as ++ (obs (M.run s as) a).toList := by
  rw [notes_append]
  simp [notes]

theorem along_append :
    M.Along G s (as ++ bs) ↔ M.Along G s as ∧ M.Along G (M.run s as) bs := by
  induction as generalizing s with
  | nil => simp [Along]
  | cons a as ih => simp only [List.cons_append, Along, run_cons, ih, and_assoc]

theorem along_snoc :
    M.Along G s (as ++ [a]) ↔ M.Along G s as ∧ G (M.run s as) a := by
  rw [along_append]
  simp [Along]

theorem Along.mono {G' : σ → α → Prop} (h : M.Along G s as) (hG : ∀ s a, G s a → G' s a) :
    M.Along G' s as := by
  induction as generalizing s with
  | nil => trivial
  | cons a as ih => exact ⟨hG s a h.1, ih h.2⟩

/-- A guard that inputs meet in any state, runs meet. -/
theorem along_of_forall (h : ∀ a ∈ as, ∀ s, G s a) : M.Along G s as := by
  induction as generalizing s with
  | nil => trivial
  | cons a as ih => exact ⟨h a (by simp) s, ih fun b hb => h b (by simp [hb])⟩

/-- A log splits where its run does: an entry of the log is a step taken
in the state its prefix leads to. -/
theorem log_eq_append_cons {l₁ l₂ : List (α × β)} {b : β}
    (h : M.log s as = l₁ ++ (a, b) :: l₂) :
    ∃ as₁ as₂, as = as₁ ++ a :: as₂ ∧ l₁ = M.log s as₁ ∧
      b = (M.step (M.run s as₁) a).2 ∧ l₂ = M.log (M.step (M.run s as₁) a).1 as₂ := by
  induction l₁ generalizing s as with
  | nil =>
    cases as with
    | nil => simp at h
    | cons c cs =>
      simp only [log_cons, List.nil_append, List.cons.injEq, Prod.mk.injEq] at h
      obtain ⟨⟨rfl, rfl⟩, rfl⟩ := h
      exact ⟨[], cs, rfl, rfl, rfl, rfl⟩
  | cons e l₁ ih =>
    cases as with
    | nil => simp at h
    | cons c cs =>
      simp only [log_cons, List.cons_append, List.cons.injEq] at h
      obtain ⟨rfl, h⟩ := h
      obtain ⟨as₁, as₂, rfl, rfl, hb, hl⟩ := ih h
      exact ⟨c :: as₁, as₂, rfl, rfl, hb, hl⟩

/-- **The invariant rule.** What every guarded step keeps, every guarded
run keeps. -/
theorem run_inv {I : σ → Prop} (hstep : ∀ s a, I s → G s a → I (M.step s a).1)
    (h0 : I s) (hG : M.Along G s as) : I (M.run s as) := by
  induction as generalizing s with
  | nil => exact h0
  | cons a as ih => exact ih (hstep s a h0 hG.1) hG.2

/-- The same, for what every step keeps. -/
theorem run_inv_of_step {I : σ → Prop} (hstep : ∀ s a, I s → I (M.step s a).1) (h0 : I s) :
    I (M.run s as) := by
  induction as generalizing s with
  | nil => exact h0
  | cons a as ih => exact ih (hstep s a h0)

/-- **The invariant rule with a history.** `I` relates the inputs and the
log so far to the state they lead to, and `H` is what the run assumes of
its inputs. -/
theorem log_inv {H : List α → Prop} {I : List α → List (α × β) → σ → Prop}
    (hpre : ∀ as a, H (as ++ [a]) → H as) (h0 : I [] [] s)
    (hstep : ∀ as a, H (as ++ [a]) → I as (M.log s as) (M.run s as) →
      I (as ++ [a]) (M.log s as ++ [(a, (M.step (M.run s as) a).2)]) (M.step (M.run s as) a).1)
    (hH : H as) : I as (M.log s as) (M.run s as) := by
  induction as using List.reverseRecOn with
  | nil => exact h0
  | append_singleton as a ih =>
    rw [log_snoc, run_snoc]
    exact hstep as a hH (ih (hpre as a hH))

end Machine

/-! ## Histories

What a run has submitted, read or returned is a `filterMap` of its inputs
or of its log, one step at a time. -/

section History

variable {α : Type u} {β : Type v} {f : α → Option β} {l : List α} {a : α}

theorem filterMap_cons_toList : (a :: l).filterMap f = (f a).toList ++ l.filterMap f := by
  rw [List.filterMap_cons]
  cases f a <;> rfl

theorem filterMap_snoc : (l ++ [a]).filterMap f = l.filterMap f ++ (f a).toList := by
  rw [List.filterMap_append]
  cases h : f a <;> simp [h]

/-- A step that adds nothing to a history. -/
theorem append_toList_of_none {l : List β} {o : Option β} (h : o = none) : l ++ o.toList = l := by
  rw [h, Option.toList_none, List.append_nil]

/-- Distinct so far, and the last one is new. -/
theorem nodup_filterMap_snoc (h : ((l ++ [a]).filterMap f).Nodup) :
    (l.filterMap f).Nodup ∧ ∀ b, f a = some b → b ∉ l.filterMap f := by
  rw [filterMap_snoc, List.nodup_append] at h
  refine ⟨h.1, fun b hb hmem => ?_⟩
  exact h.2.2 b hmem b (by simp [hb]) rfl

end History

end VllmScheduler
