import Mathlib.Data.List.Count
import Mathlib.Data.List.Perm.Basic
/-!
# Callers of a monitor

A monitor guards some work: callers arrive, take a piece of it or park on a
condition variable where there is none, and whoever brings work wakes one of
those parked. Wake-ups are not lost where the work is *covered*: while
somebody is parked, there are as many callers on their way to the work as
there are pieces of it. A caller on its way may find that a later one was
faster, or may find nothing it can use, and park again; the lemmas below say
that none of this uncovers the work. Only a caller that leaves without
looking does.
-/

namespace VllmScheduler

/-- Where a caller stands: on its way to the work, parked, or neither. -/
inductive Phase where
  | ready
  | parked
  | away
deriving DecidableEq

/-- The work is covered. -/
def Covered (work : ℕ) (callers : List Phase) : Prop :=
  .parked ∈ callers → work ≤ callers.count .ready

/-- A step of one call, in the phases of all of them. -/
theorem map_modify_eq_set {α : Type*} {calls : List α} {role : α → Phase} {f : α → α} {c : α}
    {i : ℕ} (h : calls[i]? = some c) :
    (calls.modify i f).map role = (calls.map role).set i (role (f c)) := by
  rw [List.modify_eq_set_getElem?, h]
  exact List.map_set

/-- A change to one call that keeps its result. -/
theorem filterMap_modify {α β : Type*} {calls : List α} {result : α → Option β} {f : α → α}
    {i : ℕ} (h : ∀ c, result (f c) = result c) :
    (calls.modify i f).filterMap result = calls.filterMap result := by
  induction calls generalizing i with
  | nil => simp
  | cons c calls ih =>
    cases i with
    | zero => rw [List.modify_zero_cons, List.filterMap_cons, List.filterMap_cons, h]
    | succ i => rw [List.modify_succ_cons, List.filterMap_cons, List.filterMap_cons, ih]

/-- A call that had no result gets one, or none. -/
theorem filterMap_set_perm {α β : Type*} {calls : List α} {result : α → Option β} {c c' : α}
    {i : ℕ} (h : calls[i]? = some c) (hc : result c = none) :
    ((calls.set i c').filterMap result).Perm
      ((result c').toList ++ calls.filterMap result) := by
  induction calls generalizing i with
  | nil => cases h
  | cons d calls ih =>
    cases i with
    | zero =>
      obtain rfl : d = c := by simpa using h
      rw [List.set_cons_zero, List.filterMap_cons_none hc]
      cases hr : result c' with
      | none => rw [List.filterMap_cons_none hr]; rfl
      | some r => rw [List.filterMap_cons_some hr]; rfl
    | succ i =>
      have hrest := ih (i := i) (by simpa using h)
      rw [List.set_cons_succ]
      cases hd : result d with
      | none =>
        rw [List.filterMap_cons_none hd, List.filterMap_cons_none hd]
        exact hrest
      | some r =>
        rw [List.filterMap_cons_some hd, List.filterMap_cons_some hd]
        exact (hrest.cons r).trans List.perm_middle.symm

/-- The same, where the call is changed in place. -/
theorem filterMap_modify_perm {α β : Type*} {calls : List α} {result : α → Option β} {f : α → α}
    {c : α} {i : ℕ} (h : calls[i]? = some c) (hc : result c = none) :
    ((calls.modify i f).filterMap result).Perm
      ((result (f c)).toList ++ calls.filterMap result) := by
  rw [List.modify_eq_set_getElem?, h]
  exact filterMap_set_perm h hc

namespace Covered

variable {work work' i : ℕ} {callers : List Phase}

/-- Where nobody is parked there is nothing to cover. -/
theorem of_not_mem (h : .parked ∉ callers) : Covered work callers := fun hp => absurd hp h

theorem zero : Covered 0 callers := fun _ => Nat.zero_le _

/-- Less work is easier to cover. -/
theorem mono (h : Covered work callers) (hle : work' ≤ work) : Covered work' callers :=
  fun hp => Nat.le_trans hle (h hp)

/-- A caller arrives. -/
theorem arrive (h : Covered work callers) : Covered work (callers ++ [.ready]) := by
  intro hp
  have hmem : Phase.parked ∈ callers := by simpa using hp
  rw [List.count_append]
  exact Nat.le_trans (h hmem) (Nat.le_add_right _ _)

/-- One more piece of work, and a parked caller is woken for it. -/
theorem signal (h : Covered work callers) (hi : callers[i]? = some .parked) :
    Covered (work + 1) (callers.set i .ready) := by
  intro _
  obtain ⟨hlt, hget⟩ := List.getElem?_eq_some_iff.mp hi
  have hmem : Phase.parked ∈ callers := hget ▸ List.getElem_mem hlt
  have hcount := h hmem
  rw [List.count_set hlt, hget]
  simpa using hcount

/-- A caller that was parked or on its way is on its way. -/
theorem ready {p : Phase} (h : Covered work callers) (hi : callers[i]? = some p)
    (hp : p ≠ .away) : Covered work (callers.set i .ready) := by
  cases p with
  | parked => exact (h.signal hi).mono (Nat.le_succ work)
  | ready =>
    obtain ⟨hlt, heq⟩ := List.getElem?_eq_some_iff.mp hi
    rw [← heq, List.set_getElem_self]
    exact h
  | away => exact absurd rfl hp

/-- A notify for nothing. -/
theorem wake {α : Type*} {calls : List α} {role : α → Phase} {wake : α → α}
    (hwake : ∀ c, role (wake c) = if role c = .parked then .ready else role c)
    (h : Covered work (calls.map role)) : Covered work ((calls.modify i wake).map role) := by
  rcases hc : calls[i]? with - | c
  · rw [List.modify_eq_set_getElem?, hc]
    exact h
  · have hget : (calls.map role)[i]? = some (role c) := by
      rw [List.getElem?_map, hc]
      rfl
    rw [map_modify_eq_set hc, hwake]
    split
    · rename_i hparked
      exact h.ready hget (by rw [hparked]; nofun)
    · obtain ⟨hlt, heq⟩ := List.getElem?_eq_some_iff.mp hget
      rw [← heq, List.set_getElem_self]
      exact h

/-- **One more piece of work and a notify**, which goes to a parked call
where there is one. -/
theorem notify {α : Type*} {calls : List α} {role : α → Phase} {wake : α → α}
    (hwake : ∀ c, role (wake c) = if role c = .parked then .ready else role c)
    (h : Covered work (calls.map role))
    (hi : (calls.map role)[i]? = some .parked ∨ ∀ c ∈ calls, role c ≠ .parked) :
    Covered (work + 1) ((calls.modify i wake).map role) := by
  rcases hi with hparked | hnone
  · obtain ⟨c, hc, hrole⟩ : ∃ c, calls[i]? = some c ∧ role c = .parked := by
      simpa using hparked
    rw [map_modify_eq_set hc, hwake, if_pos hrole]
    exact h.signal hparked
  · refine of_not_mem fun hmem => ?_
    obtain ⟨c', hc', hrole⟩ := List.mem_map.mp hmem
    obtain ⟨j, hj⟩ := List.mem_iff_getElem?.mp hc'
    simp only [List.getElem?_modify, Option.map_eq_map, Option.map_eq_some_iff] at hj
    obtain ⟨c, hc, rfl⟩ := hj
    have hne := hnone c (List.mem_of_getElem? hc)
    split at hrole
    · rw [hwake, if_neg hne] at hrole
      exact hne hrole
    · exact hne hrole

/-- A caller takes a piece of work and leaves. -/
theorem serve (h : Covered (work + 1) callers) (hi : callers[i]? = some .ready) :
    Covered work (callers.set i .away) := by
  intro hp
  obtain ⟨hlt, hget⟩ := List.getElem?_eq_some_iff.mp hi
  have hmem : Phase.parked ∈ callers :=
    (List.mem_or_eq_of_mem_set hp).resolve_right (by decide)
  have hcount := h hmem
  rw [List.count_set hlt, hget]
  simpa using Nat.le_sub_one_of_lt hcount

/-- A caller that was not on its way to the work leaves. -/
theorem leave (h : Covered work callers) (hi : callers[i]? ≠ some .ready) :
    Covered work (callers.set i .away) := by
  intro hp
  have hmem : Phase.parked ∈ callers :=
    (List.mem_or_eq_of_mem_set hp).resolve_right (by decide)
  by_cases hlt : i < callers.length
  · have hne : callers[i] ≠ .ready := fun heq => hi (List.getElem?_eq_some_iff.mpr ⟨hlt, heq⟩)
    rw [List.count_set hlt]
    simpa [hne] using h hmem
  · rw [List.set_eq_of_length_le (Nat.le_of_not_lt hlt)]
    exact h hmem

end Covered

end VllmScheduler
