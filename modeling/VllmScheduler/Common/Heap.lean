import Mathlib.Data.Multiset.Basic
import Mathlib.Data.Multiset.Filter
import Mathlib.Data.List.Perm.Basic
/-!
# Heaps that pop a least element

What a program relies on in a heap of its standard library, whatever the
language: a heap holds a bag of elements, a push adds one, and a pop takes
out one whose key is least. Which of several least elements a pop takes is
the heap's own choice, so a result about every `MinHeap` holds for each
library's.
-/

namespace VllmScheduler

universe u v

/-- Where a bag has distinct images, what is left beside one of its
elements has other images than it. -/
theorem nodup_map_cons {α : Type u} {β : Type v} {f : α → β} {x : α} {s : Multiset α}
    (h : ((x ::ₘ s).map f).Nodup) : (s.map f).Nodup ∧ ∀ y ∈ s, f y ≠ f x := by
  rw [Multiset.map_cons, Multiset.nodup_cons] at h
  exact ⟨h.2, fun y hy heq => h.1 (heq ▸ Multiset.mem_map_of_mem f hy)⟩

/-- **A heap over the order of a key.** The laws say what a pop may take
and nothing about how the elements are laid out. -/
structure MinHeap (α : Type u) {L : Type v} [LinearOrder L] (key : α → L) where
  /-- The heap's own representation. -/
  Carrier : Type u
  empty : Carrier
  push : α → Carrier → Carrier
  pop : Carrier → Option (α × Carrier)
  /-- The elements held, with their multiplicities. -/
  bag : Carrier → Multiset α
  bag_empty : bag empty = 0
  bag_push : ∀ x h, bag (push x h) = x ::ₘ bag h
  pop_none : ∀ {h}, pop h = none → bag h = 0
  pop_some : ∀ {h x h'}, pop h = some (x, h') → bag h = x ::ₘ bag h'
  pop_le : ∀ {h x h'}, pop h = some (x, h') → ∀ y ∈ bag h', key x ≤ key y

namespace MinHeap

variable {α : Type u} {L : Type v} [LinearOrder L] {key : α → L}
variable (H : MinHeap α key) {h h' : H.Carrier} {x y : α}

/-- The number of elements held. -/
def size (h : H.Carrier) : ℕ := Multiset.card (H.bag h)

@[simp] theorem size_empty : H.size H.empty = 0 := by simp [size, H.bag_empty]

@[simp] theorem size_push : H.size (H.push x h) = H.size h + 1 := by
  simp [size, H.bag_push]

theorem size_of_pop (hp : H.pop h = some (x, h')) : H.size h = H.size h' + 1 := by
  simp [size, H.pop_some hp]

theorem size_eq_zero : H.size h = 0 ↔ H.bag h = 0 := Multiset.card_eq_zero

theorem mem_of_pop (hp : H.pop h = some (x, h')) : x ∈ H.bag h := by
  rw [H.pop_some hp]
  exact Multiset.mem_cons_self x _

/-- What a pop leaves was there before. -/
theorem mem_of_mem_pop (hp : H.pop h = some (x, h')) (hy : y ∈ H.bag h') : y ∈ H.bag h := by
  rw [H.pop_some hp]
  exact Multiset.mem_cons_of_mem hy

/-- What was there is popped or left. -/
theorem eq_or_mem_of_pop (hp : H.pop h = some (x, h')) (hy : y ∈ H.bag h) :
    y = x ∨ y ∈ H.bag h' := by
  rw [H.pop_some hp] at hy
  exact Multiset.mem_cons.mp hy

/-- The popped element is least among everything the heap held. -/
theorem key_le_of_pop (hp : H.pop h = some (x, h')) (hy : y ∈ H.bag h) : key x ≤ key y := by
  rcases H.eq_or_mem_of_pop hp hy with rfl | hy'
  · exact le_rfl
  · exact H.pop_le hp y hy'

end MinHeap

/-! ## A heap to compute with -/

section ListHeap

variable {α : Type u} {L : Type v} [LinearOrder L] (key : α → L)

/-- Take the first least element out of a list. -/
def popList : List α → Option (α × List α)
  | [] => none
  | x :: xs =>
    match popList xs with
    | none => some (x, [])
    | some (m, rest) => if key m < key x then some (m, x :: rest) else some (x, xs)

variable {key} {xs ys : List α} {m : α}

theorem popList_none (h : popList key xs = none) : xs = [] := by
  cases xs with
  | nil => rfl
  | cons x xs =>
    rw [popList] at h
    split at h
    · cases h
    · split at h <;> cases h

theorem popList_spec (h : popList key xs = some (m, ys)) :
    xs.Perm (m :: ys) ∧ ∀ y ∈ ys, key m ≤ key y := by
  induction xs generalizing m ys with
  | nil => cases h
  | cons x xs ih =>
    rw [popList] at h
    rcases hp : popList key xs with - | ⟨n, rest⟩
    · simp only [hp, Option.some.injEq, Prod.mk.injEq] at h
      obtain ⟨rfl, rfl⟩ := h
      rw [popList_none hp]
      exact ⟨List.Perm.refl _, by simp⟩
    · obtain ⟨hperm, hle⟩ := ih hp
      simp only [hp] at h
      split at h <;> rename_i hlt <;> simp only [Option.some.injEq, Prod.mk.injEq] at h <;>
        obtain ⟨rfl, rfl⟩ := h
      · refine ⟨(hperm.cons x).trans (List.Perm.swap _ _ _), fun y hy => ?_⟩
        rcases List.mem_cons.mp hy with rfl | hy
        · exact le_of_lt hlt
        · exact hle y hy
      · refine ⟨List.Perm.refl _, fun y hy => ?_⟩
        have hxn : key x ≤ key n := not_lt.mp hlt
        rcases List.mem_cons.mp (hperm.subset hy) with rfl | hy
        · exact hxn
        · exact le_trans hxn (hle y hy)

variable (key)

/-- The unordered list as a heap: a push prepends and a pop searches. -/
def listHeap : MinHeap α key where
  Carrier := List α
  empty := []
  push := List.cons
  pop := popList key
  bag := fun xs => (xs : Multiset α)
  bag_empty := rfl
  bag_push := fun _ _ => rfl
  pop_none := fun h => by rw [popList_none h]; rfl
  pop_some := fun h => Multiset.coe_eq_coe.mpr (popList_spec h).1
  pop_le := fun h y hy => (popList_spec h).2 y (Multiset.mem_coe.mp hy)

end ListHeap

end VllmScheduler
