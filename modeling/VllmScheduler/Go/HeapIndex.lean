import Mathlib.Logic.Function.Basic
import VllmScheduler.Common.BinaryHeap
import VllmScheduler.Common.Machine
import VllmScheduler.Go.Engine
/-!
# Positions in the Go heap

`priorityHeap` of `go/internal/api/scheduler.go` is a slice of pointers to
items, and every item has an `index` that `Swap`, `Push` and `Pop` write as
`container/heap` calls them. Here the slice holds pointers and `items` is the
memory they lead to.

Each of the three methods keeps the index of every item in the slice at its
position (`Tracked`), and the sifts consist of swaps. Without the index the
heap is the slice of items that the engine's heap is an abstraction of
(`view_submit`, `view_pop`).
-/

namespace VllmScheduler

/-- `item`. -/
structure IndexedItem (Ref K : Type) extends GoItem Ref K where
  index : ℤ

/-- A `priorityHeap`, and the items behind its pointers. -/
structure PriorityHeap (Ptr Ref K : Type) where
  slice : List Ptr
  items : Ptr → IndexedItem Ref K

namespace PriorityHeap

variable {Ptr Ref K : Type} [DecidableEq Ptr]

/-- `p.index = i`, for a pointer read from the slice. -/
def setIndex (items : Ptr → IndexedItem Ref K) (p : Option Ptr) (i : ℤ) :
    Ptr → IndexedItem Ref K :=
  match p with
  | some p => Function.update items p { items p with index := i }
  | none => items

/-- The methods of `priorityHeap`. An index out of range panics; `container/heap`
passes none. -/
def methods (Ptr Ref K : Type) [DecidableEq Ptr] [LinearOrder K] :
    HeapInterface (PriorityHeap Ptr Ref K) Ptr where
  len h := h.slice.length
  less h i j :=
    match h.slice[i]?, h.slice[j]? with
    | some a, some b => decide ((h.items a).priority < (h.items b).priority)
    | _, _ => false
  swap h i j :=
    let slice := swapAt h.slice i j
    ⟨slice, setIndex (setIndex h.items slice[i]? i) slice[j]? j⟩
  push h p := ⟨h.slice ++ [p], setIndex h.items (some p) h.slice.length⟩
  pop h := h.slice.getLast?.map fun p => (p, ⟨h.slice.dropLast, setIndex h.items (some p) (-1)⟩)

variable [LinearOrder K]

/-- `heap.Push(&e.heap, &item{…})`: a new item behind the pointer is pushed. -/
def submit (h : PriorityHeap Ptr Ref K) (p : Ptr) (item : GoItem Ref K) : PriorityHeap Ptr Ref K :=
  (methods Ptr Ref K).heapPush ⟨h.slice, Function.update h.items p ⟨item, 0⟩⟩ p

/-- `heap.Pop(&e.heap)`; nothing where the heap is empty. -/
def pop (h : PriorityHeap Ptr Ref K) : Option (Ptr × PriorityHeap Ptr Ref K) :=
  (methods Ptr Ref K).heapPop h

/-! ## One method after the other -/

section Methods

variable {h : PriorityHeap Ptr Ref K} {items : Ptr → IndexedItem Ref K} {p q : Ptr} {i j : ℕ}
variable {gone : List Ptr}

omit [LinearOrder K] in
theorem index_setIndex_self (items : Ptr → IndexedItem Ref K) (p : Ptr) (i : ℤ) :
    (setIndex items (some p) i p).index = i := by
  rw [setIndex, Function.update_self]

omit [LinearOrder K] in
theorem setIndex_of_ne {o : Option Ptr} (ho : o ≠ some q) (i : ℤ) :
    setIndex items o i q = items q := by
  cases o with
  | none => rfl
  | some p => exact Function.update_of_ne (fun heq => ho (congrArg some heq.symm)) _ _

omit [LinearOrder K] in
/-- Only the index is written. -/
theorem toGoItem_setIndex (o : Option Ptr) (i : ℤ) (q : Ptr) :
    (setIndex items o i q).toGoItem = (items q).toGoItem := by
  cases o with
  | none => rfl
  | some p =>
    by_cases heq : q = p
    · subst heq
      rw [setIndex, Function.update_self]
    · rw [setIndex_of_ne fun h => heq (Option.some.inj h).symm]

/-- Every item in the slice has its position for its index. -/
def Tracked (h : PriorityHeap Ptr Ref K) : Prop :=
  ∀ (i : ℕ) (p : Ptr), h.slice[i]? = some p → (h.items p).index = i

/-- The items in `gone` that are not in the slice have index −1. -/
def Cleared (gone : List Ptr) (h : PriorityHeap Ptr Ref K) : Prop :=
  ∀ p ∈ gone, p ∉ h.slice → (h.items p).index = -1

omit [DecidableEq Ptr] [LinearOrder K] in
/-- **No item occurs twice**, since its index is one position. -/
theorem Tracked.nodup (ht : h.Tracked) : h.slice.Nodup := by
  rw [List.nodup_iff_getElem?_ne_getElem?]
  intro i j hij hj heq
  obtain ⟨p, hp⟩ : ∃ p, h.slice[j]? = some p := ⟨_, List.getElem?_eq_getElem hj⟩
  have hi := ht i p (heq.trans hp)
  have hj := ht j p hp
  omega

omit [DecidableEq Ptr] [LinearOrder K] in
theorem Tracked.position_unique (ht : h.Tracked) (hi : h.slice[i]? = some p)
    (hj : h.slice[j]? = some p) : i = j := by
  have hi := ht i p hi
  have hj := ht j p hj
  omega

/-- `Swap` keeps the indices. -/
theorem Tracked.swap (ht : h.Tracked) (hi : i < h.slice.length) (hj : j < h.slice.length) :
    ((methods Ptr Ref K).swap h i j).Tracked := by
  intro k p hp
  have hp : (swapAt h.slice i j)[k]? = some p := hp
  show (setIndex (setIndex h.items (swapAt h.slice i j)[i]? i) (swapAt h.slice i j)[j]? j p).index
    = k
  rw [getElem?_swapAt_left hi hj, getElem?_swapAt_right hi hj]
  by_cases hkj : k = j
  · subst hkj
    rw [getElem?_swapAt_right hi hj] at hp
    rw [hp, index_setIndex_self]
  · by_cases hki : k = i
    · subst hki
      rw [getElem?_swapAt_left hi hj] at hp
      have hne : h.slice[k]? ≠ some p := fun hk => hkj (ht.position_unique hk hp)
      rw [setIndex_of_ne hne, hp, index_setIndex_self]
    · rw [getElem?_swapAt_of_ne hki hkj] at hp
      have hnei : h.slice[i]? ≠ some p := fun h' => hki (ht.position_unique hp h')
      have hnej : h.slice[j]? ≠ some p := fun h' => hkj (ht.position_unique hp h')
      rw [setIndex_of_ne hnei, setIndex_of_ne hnej]
      exact ht k p hp

/-- And touches nothing outside of the slice. -/
theorem Cleared.swap (hc : h.Cleared gone) (i j : ℕ) :
    ((methods Ptr Ref K).swap h i j).Cleared gone := by
  intro p hp hnot
  have hnot : p ∉ swapAt h.slice i j := hnot
  have hne : ∀ k, (swapAt h.slice i j)[k]? ≠ some p := fun k hk => hnot (List.mem_of_getElem? hk)
  show (setIndex (setIndex h.items (swapAt h.slice i j)[i]? i) (swapAt h.slice i j)[j]? j p).index
    = -1
  rw [setIndex_of_ne (hne j), setIndex_of_ne (hne i)]
  exact hc p hp fun hmem => hnot (swapAt_perm.mem_iff.mpr hmem)

theorem keptBySwap (gone : List Ptr) :
    (methods Ptr Ref K).KeptBySwap fun h => h.Tracked ∧ h.Cleared gone where
  len _ _ _ := length_swapAt
  swap _ i j hi hj hs := ⟨hs.1.swap hi hj, hs.2.swap i j⟩

/-- `Push` gives the new item the position it is put at. -/
theorem Tracked.push (ht : h.Tracked) (hfresh : p ∉ h.slice) (item : IndexedItem Ref K) :
    ((methods Ptr Ref K).push ⟨h.slice, Function.update h.items p item⟩ p).Tracked := by
  intro i q hq
  have hq : (h.slice ++ [p])[i]? = some q := hq
  show (setIndex (Function.update h.items p item) (some p) h.slice.length q).index = i
  rcases Nat.lt_or_ge i h.slice.length with hi | hi
  · rw [List.getElem?_append_left hi] at hq
    have hne : q ≠ p := fun heq => hfresh (heq ▸ List.mem_of_getElem? hq)
    rw [setIndex_of_ne fun h => hne (Option.some.inj h).symm, Function.update_of_ne hne]
    exact ht i q hq
  · have hlen : i < (h.slice ++ [p]).length := (List.getElem?_eq_some_iff.mp hq).1
    rw [List.length_append, List.length_singleton] at hlen
    obtain rfl : i = h.slice.length := by omega
    rw [List.getElem?_append_right le_rfl, Nat.sub_self] at hq
    obtain rfl : p = q := Option.some.inj hq
    exact index_setIndex_self _ _ _

theorem Cleared.push (hc : h.Cleared gone) (p : Ptr) (item : IndexedItem Ref K) :
    ((methods Ptr Ref K).push ⟨h.slice, Function.update h.items p item⟩ p).Cleared gone := by
  intro q hq hnot
  have hnot : q ∉ h.slice ++ [p] := hnot
  rw [List.mem_append, List.mem_singleton, not_or] at hnot
  show (setIndex (Function.update h.items p item) (some p) h.slice.length q).index = -1
  rw [setIndex_of_ne fun h => hnot.2 (Option.some.inj h).symm, Function.update_of_ne hnot.2]
  exact hc q hq hnot.1

omit [LinearOrder K] in
/-- `Pop` clears the index of the last item and of no other. -/
theorem Tracked.pop (ht : h.Tracked) (hlast : h.slice.getLast? = some p) :
    Tracked ⟨h.slice.dropLast, setIndex h.items (some p) (-1)⟩ := by
  have hsplit : h.slice = h.slice.dropLast ++ [p] := (List.dropLast_append_getLast? p hlast).symm
  have hfresh : p ∉ h.slice.dropLast := by
    have hnodup := ht.nodup
    rw [hsplit, List.nodup_append] at hnodup
    exact fun hmem => hnodup.2.2 p hmem p (List.mem_singleton_self p) rfl
  intro i q hq
  have hq : h.slice.dropLast[i]? = some q := hq
  have hne : q ≠ p := fun heq => hfresh (heq ▸ List.mem_of_getElem? hq)
  show (setIndex h.items (some p) (-1) q).index = i
  rw [setIndex_of_ne fun h => hne (Option.some.inj h).symm]
  refine ht i q ?_
  rw [hsplit, List.getElem?_append_left (List.getElem?_eq_some_iff.mp hq).1, hq]

omit [LinearOrder K] in
theorem Cleared.pop (hc : h.Cleared gone) (hlast : h.slice.getLast? = some p) :
    Cleared (gone ++ [p]) ⟨h.slice.dropLast, setIndex h.items (some p) (-1)⟩ := by
  have hsplit : h.slice = h.slice.dropLast ++ [p] := (List.dropLast_append_getLast? p hlast).symm
  intro q hq hnot
  have hnot : q ∉ h.slice.dropLast := hnot
  show (setIndex h.items (some p) (-1) q).index = -1
  by_cases heq : q = p
  · rw [heq, index_setIndex_self]
  · rw [setIndex_of_ne fun h => heq (Option.some.inj h).symm]
    refine hc q ?_ ?_
    · exact (List.mem_append.mp hq).resolve_right fun h => heq (List.mem_singleton.mp h)
    · rw [hsplit, List.mem_append, List.mem_singleton]
      exact fun h => h.elim hnot heq

/-- **A push keeps the indices**, of an item that is not in the heap. -/
theorem submit_inv (hfresh : p ∉ h.slice) (ht : h.Tracked) (hc : h.Cleared gone)
    (item : GoItem Ref K) : (h.submit p item).Tracked ∧ (h.submit p item).Cleared gone := by
  rw [submit, HeapInterface.heapPush]
  refine HeapInterface.up_inv (keptBySwap gone) ?_ ⟨ht.push hfresh _, hc.push p _⟩
  show (h.slice ++ [p]).length - 1 < (h.slice ++ [p]).length
  rw [List.length_append, List.length_singleton]
  omega

/-- An empty heap has nothing to pop. -/
theorem pop_of_slice_eq_nil (hnil : h.slice = []) : h.pop = none := by
  have hlen : (methods Ptr Ref K).len h = 0 := List.length_eq_zero_iff.mpr hnil
  simp only [pop, HeapInterface.heapPop, hlen]
  rw [HeapInterface.down, if_pos (by omega)]
  show (swapAt h.slice 0 (0 - 1)).getLast?.map _ = none
  rw [hnil]
  rfl

/-- **A pop keeps the indices** and clears that of the item it returns. -/
theorem pop_inv {h' : PriorityHeap Ptr Ref K} (hpop : h.pop = some (p, h')) (ht : h.Tracked)
    (hc : h.Cleared gone) : h'.Tracked ∧ h'.Cleared (gone ++ [p]) := by
  have hpos : 0 < h.slice.length := by
    refine List.length_pos_iff.mpr fun hnil => ?_
    rw [pop_of_slice_eq_nil hnil] at hpop
    cases hpop
  obtain ⟨s, heq, ⟨hst, hsc⟩, -⟩ := HeapInterface.exists_heapPop_eq (keptBySwap gone) hpos ⟨ht, hc⟩
  rw [pop, heq] at hpop
  obtain ⟨q, hlast, hq⟩ := Option.map_eq_some_iff.mp hpop
  obtain ⟨rfl, rfl⟩ := Prod.mk.inj hq
  exact ⟨hst.pop hlast, hsc.pop hlast⟩

end Methods

/-! ## The heap without the index -/

section View

variable {h : PriorityHeap Ptr Ref K} {p : Ptr}

/-- The items in the slice. -/
def view (h : PriorityHeap Ptr Ref K) : List (GoItem Ref K) :=
  h.slice.map fun p => (h.items p).toGoItem

theorem methods_view :
    (methods Ptr Ref K).View (sliceInterface GoItem.priority) view where
  len h := List.length_map _
  less h i j := by
    simp only [sliceInterface, methods, view, List.getElem?_map]
    cases h.slice[i]? <;> cases h.slice[j]? <;> rfl
  swap h i j := by
    show swapAt h.view i j = _
    simp only [methods, view, swapAt_map, toGoItem_setIndex]

/-- A push is one onto the slice of items. -/
theorem view_submit (hfresh : p ∉ h.slice) (item : GoItem Ref K) :
    (sliceInterface GoItem.priority).heapPush h.view item = (h.submit p item).view := by
  refine methods_view.heapPush ?_
  show (h.slice ++ [p]).map _ = h.slice.map _ ++ [item]
  simp only [methods, List.map_append, List.map_singleton, toGoItem_setIndex,
    Function.update_self]
  refine congrArg (· ++ [item]) (List.map_congr_left fun q hq => ?_)
  have hne : q ≠ p := fun heq => hfresh (heq ▸ hq)
  rw [Function.update_of_ne hne]

/-- And a pop one of its root. -/
theorem view_pop (h : PriorityHeap Ptr Ref K) :
    (sliceInterface GoItem.priority).heapPop h.view =
      h.pop.map fun r => ((r.2.items r.1).toGoItem, r.2.view) := by
  refine methods_view.heapPop (fun s => ?_) h
  show s.view.getLast?.map _ = (s.slice.getLast?.map _).map _
  rw [view, List.getLast?_map, Option.map_map, Option.map_map]
  refine congrArg (fun f => Option.map f _) (funext fun q => ?_)
  simp only [Function.comp_apply, view, toGoItem_setIndex, List.map_dropLast]

end View

/-! ## Runs -/

/-- A call of `heap.Push` with a new item, or of `heap.Pop`. -/
inductive HeapOp (Ptr Ref K : Type)
  | push (p : Ptr) (item : GoItem Ref K)
  | pop

section Runs

variable {h : PriorityHeap Ptr Ref K} {items : Ptr → IndexedItem Ref K}

/-- A call, and the item that a pop returns. -/
def step (h : PriorityHeap Ptr Ref K) : HeapOp Ptr Ref K → PriorityHeap Ptr Ref K × Option Ptr
  | .push p item => (h.submit p item, none)
  | .pop =>
    match h.pop with
    | some (p, h) => (h, some p)
    | none => (h, none)

/-- The heap as a machine. -/
def machine (Ptr Ref K : Type) [DecidableEq Ptr] [LinearOrder K] :
    Machine (PriorityHeap Ptr Ref K) (HeapOp Ptr Ref K) (Option Ptr) where
  step := step

/-- A new item is none of those in the heap. -/
def Fresh (h : PriorityHeap Ptr Ref K) : HeapOp Ptr Ref K → Prop
  | .push p _ => p ∉ h.slice
  | .pop => True

instance (h : PriorityHeap Ptr Ref K) : ∀ op, Decidable (Fresh h op)
  | .push p _ => inferInstanceAs (Decidable (p ∉ h.slice))
  | .pop => isTrue trivial

/-- The items that the pops of a run returned. -/
def popped (log : List (HeapOp Ptr Ref K × Option Ptr)) : List Ptr := log.filterMap Prod.snd

theorem step_inv {gone : List Ptr} {op : HeapOp Ptr Ref K} (hfresh : Fresh h op) (ht : h.Tracked)
    (hc : h.Cleared gone) :
    (h.step op).1.Tracked ∧ (h.step op).1.Cleared (gone ++ (h.step op).2.toList) := by
  cases op with
  | push p item =>
    obtain ⟨ht', hc'⟩ := submit_inv hfresh ht hc item
    refine ⟨ht', ?_⟩
    show (h.submit p item).Cleared (gone ++ [])
    rwa [List.append_nil]
  | pop =>
    rw [step]
    cases hpop : h.pop with
    | none =>
      refine ⟨ht, ?_⟩
      show h.Cleared (gone ++ [])
      rwa [List.append_nil]
    | some r => exact pop_inv hpop ht hc

/-- **Positions are tracked.** After any pushes of new items and any pops, the
item at each position has it for its index, no item occurs twice, and what was
popped and is not in the heap has index −1. -/
theorem heap_positions_tracked (items : Ptr → IndexedItem Ref K) (ops : List (HeapOp Ptr Ref K))
    (hfresh : (machine Ptr Ref K).Along Fresh ⟨[], items⟩ ops) :
    let h := (machine Ptr Ref K).run ⟨[], items⟩ ops
    (∀ (i : ℕ) (p : Ptr), h.slice[i]? = some p → (h.items p).index = i) ∧ h.slice.Nodup ∧
      ∀ p ∈ popped ((machine Ptr Ref K).log ⟨[], items⟩ ops), p ∉ h.slice →
        (h.items p).index = -1 := by
  have hinv : ((machine Ptr Ref K).run ⟨[], items⟩ ops).Tracked ∧
      ((machine Ptr Ref K).run ⟨[], items⟩ ops).Cleared
        (popped ((machine Ptr Ref K).log ⟨[], items⟩ ops)) := by
    refine Machine.log_inv (H := (machine Ptr Ref K).Along Fresh ⟨[], items⟩)
      (I := fun _ log (h : PriorityHeap Ptr Ref K) => h.Tracked ∧ h.Cleared (popped log)) ?_ ?_ ?_
      hfresh
    · intro ops op hops
      exact (Machine.along_snoc.mp hops).1
    · exact ⟨fun i p hp => (List.not_mem_nil (List.mem_of_getElem? hp)).elim,
        fun p hp => absurd hp List.not_mem_nil⟩
    · rintro ops op hops ⟨ht, hc⟩
      rw [popped, filterMap_snoc]
      exact step_inv (Machine.along_snoc.mp hops).2 ht hc
  exact ⟨hinv.1, hinv.1.nodup, hinv.2⟩

/-- Three items, of which the second and the third overtake the first. -/
def overtaking : List (HeapOp ℕ Unit ℕ) :=
  [.push 10 ⟨3, 0, ()⟩, .push 11 ⟨1, 1, ()⟩, .pop, .push 12 ⟨2, 2, ()⟩, .pop]

/-- A heap without items. -/
def noItems : PriorityHeap ℕ Unit ℕ := ⟨[], fun _ => ⟨⟨0, 0, ()⟩, 0⟩⟩

theorem overtaking_tracked :
    (machine ℕ Unit ℕ).Along Fresh noItems overtaking ∧
      let h := (machine ℕ Unit ℕ).run noItems overtaking
      h.slice = [10] ∧ (h.items 10).index = 0 ∧ (h.items 11).index = -1 ∧
        (h.items 12).index = -1 := by
  have hfresh : (machine ℕ Unit ℕ).Along Fresh noItems overtaking := by decide +kernel
  obtain ⟨hindex, -, hpopped⟩ := heap_positions_tracked noItems.items overtaking hfresh
  have hslice : ((machine ℕ Unit ℕ).run noItems overtaking).slice = [10] := by decide +kernel
  have hfirst : ((machine ℕ Unit ℕ).run noItems overtaking).slice[0]? = some 10 := by
    rw [hslice]
    rfl
  refine ⟨hfresh, hslice, hindex 0 10 hfirst, hpopped 11 ?_ ?_, hpopped 12 ?_ ?_⟩
  all_goals decide +kernel

end Runs

end PriorityHeap

end VllmScheduler
