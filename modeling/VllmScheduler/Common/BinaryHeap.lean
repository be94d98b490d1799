import Mathlib.Data.List.Basic
import Mathlib.Order.WithBot
import VllmScheduler.Common.Heap
/-!
# Binary heaps in a slice

The heap algorithm over an interface of five methods (length, comparison and
exchange of two positions, append, removal of the last element), with the
children of position `i` at `2i + 1` and `2i + 2`. `up` moves an element
towards the root while it is below its parent, `down` moves one away from the
root while a child is below it.

Over a plain slice the algorithm keeps every element at or above its parent,
so it is a `MinHeap` whose pops take the root. Which of several least elements
that is depends on the shape of the heap.
-/

namespace VllmScheduler

universe u v w

/-- The methods the heap algorithm calls. -/
structure HeapInterface (σ : Type u) (α : Type v) where
  len : σ → ℕ
  less : σ → ℕ → ℕ → Bool
  swap : σ → ℕ → ℕ → σ
  /-- Append an element. -/
  push : σ → α → σ
  /-- Remove the last element. -/
  pop : σ → Option (α × σ)

namespace HeapInterface

variable {σ : Type u} {α : Type v} (I : HeapInterface σ α)

/-- Move the element at `j` up to where its parent is not above it. -/
def up (s : σ) (j : ℕ) : σ :=
  let i := (j - 1) / 2
  if i = j then s
  else if I.less s j i then up (I.swap s i j) i
  else s
termination_by j
decreasing_by omega

/-- The child of `i` that `down` looks at: the right one where it is there
and below the left one. -/
def child (s : σ) (i n : ℕ) : ℕ :=
  let j₁ := 2 * i + 1
  let j₂ := j₁ + 1
  if j₂ < n ∧ I.less s j₂ j₁ = true then j₂ else j₁

theorem child_eq (s : σ) (i n : ℕ) :
    I.child s i n = 2 * i + 1 ∨ (I.child s i n = 2 * i + 2 ∧ 2 * i + 2 < n) := by
  unfold child
  dsimp only
  split
  · rename_i h
    exact Or.inr ⟨rfl, h.1⟩
  · exact Or.inl rfl

/-- Move the element at `i` down, among the first `n`, to where no child is
below it. -/
def down (s : σ) (i n : ℕ) : σ :=
  if 2 * i + 1 ≥ n then s
  else if I.less s (I.child s i n) i then down (I.swap s i (I.child s i n)) (I.child s i n) n
  else s
termination_by n - i
decreasing_by
  have := I.child_eq s i n
  omega

/-- Add an element. -/
def heapPush (s : σ) (x : α) : σ :=
  let s := I.push s x
  I.up s (I.len s - 1)

/-- Take the root out. -/
def heapPop (s : σ) : Option (α × σ) :=
  let n := I.len s - 1
  I.pop (I.down (I.swap s 0 n) 0 n)

/-! ### What the sifts keep -/

section Invariants

variable {I} {P : σ → Prop} {s : σ} {i j n : ℕ}

/-- What exchanging two positions keeps. -/
structure KeptBySwap (I : HeapInterface σ α) (P : σ → Prop) : Prop where
  len : ∀ s i j, I.len (I.swap s i j) = I.len s
  swap : ∀ s i j, i < I.len s → j < I.len s → P s → P (I.swap s i j)

theorem up_inv (h : KeptBySwap I P) (hj : j < I.len s) (hs : P s) : P (I.up s j) := by
  fun_induction I.up s j with
  | case1 => exact hs
  | case2 s j i hne hless ih =>
    have hi : i < I.len s := by omega
    exact ih ((h.len s i j).symm ▸ hi) (h.swap s i j hi hj hs)
  | case3 => exact hs

theorem down_inv (h : KeptBySwap I P) (hn : n ≤ I.len s) (hs : P s) :
    P (I.down s i n) ∧ I.len (I.down s i n) = I.len s := by
  fun_induction I.down s i n with
  | case1 => exact ⟨hs, rfl⟩
  | case2 s i hlt hless ih =>
    have hchild := I.child_eq s i n
    obtain ⟨hP, hlen⟩ := ih ((h.len _ _ _).symm ▸ hn)
      (h.swap s i _ (by omega) (by omega) hs)
    exact ⟨hP, hlen.trans (h.len _ _ _)⟩
  | case3 => exact ⟨hs, rfl⟩

/-- A pop removes the last element of a state of the same length. -/
theorem exists_heapPop_eq (h : KeptBySwap I P) (hpos : 0 < I.len s) (hs : P s) :
    ∃ s', I.heapPop s = I.pop s' ∧ P s' ∧ I.len s' = I.len s := by
  have hswap := h.swap s 0 (I.len s - 1) hpos (by omega) hs
  have hlen := h.len s 0 (I.len s - 1)
  obtain ⟨hP, hdown⟩ := down_inv (i := 0) (n := I.len s - 1) h (by omega) hswap
  exact ⟨_, rfl, hP, hdown.trans hlen⟩

end Invariants

/-! ### Views -/

section Views

variable {τ : Type w} {β : Type*} {I} {J : HeapInterface τ β} {view : σ → τ}

/-- A view of the states under which one interface compares and exchanges as
the other does. -/
structure View (I : HeapInterface σ α) (J : HeapInterface τ β) (view : σ → τ) : Prop where
  len : ∀ s, J.len (view s) = I.len s
  less : ∀ s i j, J.less (view s) i j = I.less s i j
  swap : ∀ s i j, J.swap (view s) i j = view (I.swap s i j)

theorem View.up (h : View I J view) (s : σ) (j : ℕ) : J.up (view s) j = view (I.up s j) := by
  fun_induction I.up s j with
  | case1 s j i heq => rw [HeapInterface.up, if_pos heq]
  | case2 s j i hne hless ih =>
    rw [HeapInterface.up, if_neg hne, if_pos ((h.less s j i).trans hless), h.swap, ih]
  | case3 s j i hne hless =>
    rw [HeapInterface.up, if_neg hne, if_neg (by rw [h.less]; exact hless)]

theorem View.child (h : View I J view) (s : σ) (i n : ℕ) :
    J.child (view s) i n = I.child s i n := by
  rw [HeapInterface.child, HeapInterface.child]
  simp only [h.less]

theorem View.down (h : View I J view) (s : σ) (i n : ℕ) :
    J.down (view s) i n = view (I.down s i n) := by
  fun_induction I.down s i n with
  | case1 s i hge => rw [HeapInterface.down, if_pos hge]
  | case2 s i hlt hless ih =>
    rw [HeapInterface.down, if_neg hlt, h.child, if_pos ((h.less s _ i).trans hless), h.swap, ih]
  | case3 s i hlt hless =>
    rw [HeapInterface.down, if_neg hlt, h.child, if_neg (by rw [h.less]; exact hless)]

/-- A push is the same push in the view where appending is. -/
theorem View.heapPush (h : View I J view) {s : σ} {x : α} {y : β} {t : τ}
    (hpush : view (I.push s x) = J.push t y) : J.heapPush t y = view (I.heapPush s x) := by
  rw [HeapInterface.heapPush, HeapInterface.heapPush, ← hpush, h.len, h.up]

/-- And a pop, where removing the last element is. -/
theorem View.heapPop (h : View I J view) {f : α × σ → β × τ}
    (hpop : ∀ s, J.pop (view s) = (I.pop s).map f) (s : σ) :
    J.heapPop (view s) = (I.heapPop s).map f := by
  rw [HeapInterface.heapPop, HeapInterface.heapPop, h.len, h.swap, h.down, hpop]

end Views

end HeapInterface

/-! ## The order of positions

What the sifts do to the order, for any function of the positions: the
hypotheses say which two positions exchange their values. -/

section Positions

variable {L : Type w} [LinearOrder L] {f g : ℕ → L} {i j n : ℕ}

/-- No position below `n` is below its parent. -/
def Heaped (f : ℕ → L) (n : ℕ) : Prop := ∀ c, 0 < c → c < n → f ((c - 1) / 2) ≤ f c

/-- The root is least. -/
theorem Heaped.root_le (h : Heaped f n) (hi : i < n) : f 0 ≤ f i := by
  induction i using Nat.strongRecOn with
  | _ i ih =>
    rcases Nat.eq_zero_or_pos i with rfl | hpos
    · exact le_rfl
    · exact (ih ((i - 1) / 2) (by omega) (by omega)).trans (h i hpos hi)

/-- Only `j` may be below its parent, and its children are not below that. -/
structure RisesAt (f : ℕ → L) (n j : ℕ) : Prop where
  others : ∀ c, 0 < c → c < n → c ≠ j → f ((c - 1) / 2) ≤ f c
  across : 0 < j → ∀ c, 0 < c → c < n → (c - 1) / 2 = j → f ((j - 1) / 2) ≤ f c

theorem RisesAt.move (h : RisesAt f n j) (hj : 0 < j) (hn : j < n) (hlt : f j < f ((j - 1) / 2))
    (hup : g ((j - 1) / 2) = f j) (hdown : g j = f ((j - 1) / 2))
    (hrest : ∀ k, k ≠ (j - 1) / 2 → k ≠ j → g k = f k) : RisesAt g n ((j - 1) / 2) := by
  have hne : (j - 1) / 2 ≠ j := by omega
  constructor
  · intro c hc hcn hcp
    by_cases hcj : c = j
    · rw [hcj, hup, hdown]
      exact hlt.le
    · rw [hrest c hcp hcj]
      by_cases hp : (c - 1) / 2 = j
      · rw [hp, hdown]
        exact h.across hj c hc hcn hp
      · by_cases hq : (c - 1) / 2 = (j - 1) / 2
        · rw [hq, hup]
          exact hlt.le.trans (hq ▸ h.others c hc hcn hcj)
        · rw [hrest _ hq hp]
          exact h.others c hc hcn hcj
  · intro hpos c hc hcn hcp
    have hgrand : f (((j - 1) / 2 - 1) / 2) ≤ f ((j - 1) / 2) :=
      h.others _ hpos (lt_of_le_of_lt (by omega : (j - 1) / 2 ≤ j) hn) hne
    rw [hrest (((j - 1) / 2 - 1) / 2) (by omega) (by omega)]
    by_cases hcj : c = j
    · rw [hcj, hdown]
      exact hgrand
    · rw [hrest c (by omega) hcj]
      exact hgrand.trans (hcp ▸ h.others c hc hcn hcj)

theorem RisesAt.heaped (h : RisesAt f n j) (hstop : 0 < j → f ((j - 1) / 2) ≤ f j) :
    Heaped f n := by
  intro c hc hcn
  by_cases hcj : c = j
  · subst hcj
    exact hstop hc
  · exact h.others c hc hcn hcj

/-- Only the children of `i` may be below their parent, and they are not
below the parent of `i`. -/
structure SinksAt (f : ℕ → L) (n i : ℕ) : Prop where
  others : ∀ c, 0 < c → c < n → (c - 1) / 2 ≠ i → f ((c - 1) / 2) ≤ f c
  across : 0 < i → ∀ c, 0 < c → c < n → (c - 1) / 2 = i → f ((i - 1) / 2) ≤ f c

theorem SinksAt.move (h : SinksAt f n i) (hj : 0 < j) (hn : j < n) (hpar : (j - 1) / 2 = i)
    (hlt : f j < f i) (hleast : ∀ c, 0 < c → c < n → (c - 1) / 2 = i → f j ≤ f c)
    (hup : g i = f j) (hdown : g j = f i) (hrest : ∀ k, k ≠ i → k ≠ j → g k = f k) :
    SinksAt g n j := by
  constructor
  · intro c hc hcn hcp
    by_cases hcj : c = j
    · rw [hcj, hpar, hup, hdown]
      exact hlt.le
    · by_cases hp : (c - 1) / 2 = i
      · rw [hp, hup, hrest c (by omega) hcj]
        exact hleast c hc hcn hp
      · rw [hrest _ hp hcp]
        by_cases hci : c = i
        · subst hci
          rw [hup]
          exact h.across hc j hj hn hpar
        · rw [hrest c hci hcj]
          exact h.others c hc hcn hp
  · intro _ c hc hcn hcp
    rw [hpar, hup, hrest c (by omega) (by omega), ← hcp]
    exact h.others c hc hcn (by omega)

theorem SinksAt.heaped (h : SinksAt f n i)
    (hstop : ∀ c, 0 < c → c < n → (c - 1) / 2 = i → f i ≤ f c) : Heaped f n := by
  intro c hc hcn
  by_cases hp : (c - 1) / 2 = i
  · rw [hp]
    exact hstop c hc hcn hp
  · exact h.others c hc hcn hp

end Positions

/-! ## Slices -/

section Slice

variable {α : Type u} {L : Type v} [LinearOrder L]

/-- Exchange two positions of a slice. -/
def swapAt (l : List α) (i j : ℕ) : List α :=
  match l[i]?, l[j]? with
  | some a, some b => (l.set i b).set j a
  | _, _ => l

/-- A slice whose elements are compared by their keys. -/
def sliceInterface (key : α → L) : HeapInterface (List α) α where
  len := List.length
  less l i j :=
    match l[i]?, l[j]? with
    | some a, some b => decide (key a < key b)
    | _, _ => false
  swap := swapAt
  push l x := l ++ [x]
  pop l := l.getLast?.map fun x => (x, l.dropLast)

variable {key : α → L} {l : List α} {i j k n : ℕ}

/-- The key at a position; there is none beyond the end. -/
def keyAt (key : α → L) (l : List α) (i : ℕ) : WithTop L := (l[i]?.map key).elim ⊤ (↑)

theorem swapAt_eq (hi : i < l.length) (hj : j < l.length) :
    swapAt l i j = (l.set i l[j]).set j l[i] := by
  rw [swapAt, List.getElem?_eq_getElem hi, List.getElem?_eq_getElem hj]

@[simp] theorem length_swapAt : (swapAt l i j).length = l.length := by
  unfold swapAt
  split
  · simp
  · rfl

theorem swapAt_map {β : Type*} (f : α → β) (l : List α) (i j : ℕ) :
    swapAt (l.map f) i j = (swapAt l i j).map f := by
  rw [swapAt, swapAt, List.getElem?_map, List.getElem?_map]
  cases l[i]? with
  | none => rfl
  | some a =>
    cases l[j]? with
    | none => rfl
    | some b => simp [List.map_set]

theorem swapAt_perm : (swapAt l i j).Perm l := by
  unfold swapAt
  split
  · rename_i a b ha hb
    obtain ⟨hi, rfl⟩ := List.getElem?_eq_some_iff.mp ha
    obtain ⟨hj, rfl⟩ := List.getElem?_eq_some_iff.mp hb
    exact List.set_set_perm hi hj
  · exact List.Perm.refl l

theorem getElem?_swapAt_left (hi : i < l.length) (hj : j < l.length) :
    (swapAt l i j)[i]? = l[j]? := by
  rw [swapAt_eq hi hj, List.getElem?_set]
  by_cases h : j = i
  · subst h
    simp [hi]
  · simp [h, hi, hj]

theorem getElem?_swapAt_right (hi : i < l.length) (hj : j < l.length) :
    (swapAt l i j)[j]? = l[i]? := by
  rw [swapAt_eq hi hj, List.getElem?_set_self (by simpa using hj), List.getElem?_eq_getElem hi]

theorem getElem?_swapAt_of_ne (hki : k ≠ i) (hkj : k ≠ j) : (swapAt l i j)[k]? = l[k]? := by
  unfold swapAt
  split
  · rw [List.getElem?_set_ne (Ne.symm hkj), List.getElem?_set_ne (Ne.symm hki)]
  · rfl

theorem less_iff (hi : i < l.length) (hj : j < l.length) :
    (sliceInterface key).less l i j = true ↔ keyAt key l i < keyAt key l j := by
  simp [sliceInterface, keyAt, hi, hj]

omit [LinearOrder L] in
theorem keyAt_congr {l' : List α} (h : l[i]? = l'[j]?) : keyAt key l i = keyAt key l' j := by
  rw [keyAt, keyAt, h]

/-! ### Up -/

theorem up_perm : ((sliceInterface key).up l j).Perm l := by
  fun_induction (sliceInterface key).up l j with
  | case1 => exact List.Perm.refl _
  | case2 l j i hne hless ih => exact ih.trans swapAt_perm
  | case3 => exact List.Perm.refl _

/-- **`up` restores the order.** -/
theorem heaped_up (hn : l.length = n) (hj : j < n) (h : RisesAt (keyAt key l) n j) :
    Heaped (keyAt key ((sliceInterface key).up l j)) n := by
  fun_induction (sliceInterface key).up l j with
  | case1 l j i heq =>
    refine h.heaped fun hpos => ?_
    have hi : (j - 1) / 2 = j := heq
    omega
  | case2 l j i hne hless ih =>
    have hi : i < l.length := by omega
    have hj' : j < l.length := by omega
    refine ih (length_swapAt.trans hn) (by omega) ?_
    refine h.move (by omega) hj ((less_iff hj' hi).mp hless) ?_ ?_ fun k hki hkj => ?_
    · exact keyAt_congr (getElem?_swapAt_left hi hj')
    · exact keyAt_congr (getElem?_swapAt_right hi hj')
    · exact keyAt_congr (getElem?_swapAt_of_ne hki hkj)
  | case3 l j i hne hless =>
    refine h.heaped fun hpos => ?_
    exact not_lt.mp fun hlt => hless ((less_iff (by omega) (by omega)).mpr hlt)

/-! ### Down -/

theorem down_perm : ((sliceInterface key).down l i n).Perm l := by
  fun_induction (sliceInterface key).down l i n with
  | case1 => exact List.Perm.refl _
  | case2 l i hlt hless ih => exact ih.trans swapAt_perm
  | case3 => exact List.Perm.refl _

/-- What is not among the first `n` stays where it is. -/
theorem getElem?_down (hi : i ≤ n) (hk : n ≤ k) :
    ((sliceInterface key).down l i n)[k]? = l[k]? := by
  fun_induction (sliceInterface key).down l i n with
  | case1 => rfl
  | case2 l i hlt hless ih =>
    have hchild := (sliceInterface key).child_eq l i n
    exact (ih (by omega)).trans (getElem?_swapAt_of_ne (by omega) (by omega))
  | case3 => rfl

/-- No child of `i` is below the one `down` looks at. -/
theorem keyAt_child_le (hn : n ≤ l.length) {c : ℕ} (hc : 0 < c) (hcn : c < n)
    (hp : (c - 1) / 2 = i) :
    keyAt key l ((sliceInterface key).child l i n) ≤ keyAt key l c := by
  have hcases : c = 2 * i + 1 ∨ c = 2 * i + 2 := by omega
  unfold HeapInterface.child
  dsimp only
  split
  · rename_i h
    rcases hcases with rfl | rfl
    · exact ((less_iff (by omega) (by omega)).mp h.2).le
    · exact le_rfl
  · rename_i h
    rcases hcases with rfl | rfl
    · exact le_rfl
    · refine not_lt.mp fun hlt => h ⟨hcn, ?_⟩
      exact (less_iff (by omega) (by omega)).mpr hlt

/-- **`down` restores the order** of the first `n`. -/
theorem heaped_down (hn : n ≤ l.length) (h : SinksAt (keyAt key l) n i) :
    Heaped (keyAt key ((sliceInterface key).down l i n)) n := by
  fun_induction (sliceInterface key).down l i n with
  | case1 l i hge => exact h.heaped fun c hc hcn hp => by omega
  | case2 l i hlt hless ih =>
    have hchild := (sliceInterface key).child_eq l i n
    have hi : i < l.length := by omega
    have hj : (sliceInterface key).child l i n < l.length := by omega
    refine ih (hn.trans length_swapAt.ge) ?_
    refine h.move (by omega) (by omega) (by omega) ((less_iff hj hi).mp hless)
      (fun c hc hcn hp => keyAt_child_le hn hc hcn hp) ?_ ?_ fun k hki hkj => ?_
    · exact keyAt_congr (getElem?_swapAt_left hi hj)
    · exact keyAt_congr (getElem?_swapAt_right hi hj)
    · exact keyAt_congr (getElem?_swapAt_of_ne hki hkj)
  | case3 l i hlt hless =>
    have hchild := (sliceInterface key).child_eq l i n
    refine h.heaped fun c hc hcn hp => ?_
    refine le_trans (not_lt.mp fun hlt => hless ?_) (keyAt_child_le hn hc hcn hp)
    exact (less_iff (by omega) (by omega)).mpr hlt

/-! ### The heap -/

/-- The slice is in heap order. -/
def IsHeap (key : α → L) (l : List α) : Prop := Heaped (keyAt key l) l.length

theorem isHeap_heapPush (h : IsHeap key l) (x : α) :
    IsHeap key ((sliceInterface key).heapPush l x) := by
  have hlen : (l ++ [x]).length = l.length + 1 := by simp
  have hup : ((sliceInterface key).up (l ++ [x]) l.length).length = l.length + 1 :=
    up_perm.length_eq.trans hlen
  have hpush : (sliceInterface key).heapPush l x = (sliceInterface key).up (l ++ [x]) l.length := by
    simp [HeapInterface.heapPush, sliceInterface]
  rw [hpush, IsHeap, hup]
  refine heaped_up hlen (Nat.lt_succ_self _) ⟨fun c hc hcn hne => ?_, fun _ c _ _ _ => by omega⟩
  have hc' : c < l.length := by omega
  rw [keyAt_congr (List.getElem?_append_left (by omega : (c - 1) / 2 < l.length)),
    keyAt_congr (List.getElem?_append_left hc')]
  exact h c hc hc'

/-- **What a pop does**: it takes the root, and what it leaves is in order. -/
theorem heapPop_spec (h : IsHeap key l) {x : α} {l' : List α}
    (hpop : (sliceInterface key).heapPop l = some (x, l')) :
    l[0]? = some x ∧ l.Perm (x :: l') ∧ IsHeap key l' := by
  set n := l.length - 1 with hn
  set r := (sliceInterface key).down (swapAt l 0 n) 0 n with hr
  have hlast : r.getLast? = some x ∧ r.dropLast = l' := by
    have : r.getLast?.map (fun x => (x, r.dropLast)) = some (x, l') := hpop
    obtain ⟨y, hy, heq⟩ := Option.map_eq_some_iff.mp this
    cases heq
    exact ⟨hy, rfl⟩
  obtain ⟨hx, rfl⟩ := hlast
  have hperm : r.Perm l := down_perm.trans swapAt_perm
  have hlen : r.length = l.length := hperm.length_eq
  have hne : r ≠ [] := by
    intro hnil
    rw [hnil] at hx
    cases hx
  have hpos : 0 < l.length := by
    rw [← hlen]
    exact List.length_pos_iff.mpr hne
  have hsplit : r = r.dropLast ++ [x] := by
    have hcat := List.dropLast_append_getLast hne
    rw [List.getLast?_eq_some_getLast hne] at hx
    rw [← Option.some.inj hx, hcat]
  refine ⟨?_, ?_, ?_⟩
  · -- the root was moved to the end, and `down` does not go there
    have hend : r[n]? = l[0]? :=
      (getElem?_down (Nat.zero_le _) le_rfl).trans (getElem?_swapAt_right hpos (by omega))
    rw [← hend, ← hx, List.getLast?_eq_getElem?, hlen]
  · have hcons : r.Perm (x :: r.dropLast) := by
      conv_lhs => rw [hsplit]
      exact List.perm_append_singleton _ _
    exact hperm.symm.trans hcons
  · have hdown : Heaped (keyAt key r) n := by
      refine heaped_down (by simp; omega) ⟨fun c hc hcn hp => ?_, fun h0 => absurd h0 (lt_irrefl 0)⟩
      rw [keyAt_congr (getElem?_swapAt_of_ne (by omega : (c - 1) / 2 ≠ 0) (by omega)),
        keyAt_congr (getElem?_swapAt_of_ne (by omega) (by omega : c ≠ n))]
      exact h c hc (by omega)
    have hdrop : r.dropLast.length = n := by rw [List.length_dropLast, hlen]
    have hkey : ∀ c < n, keyAt key r.dropLast c = keyAt key r c := by
      intro c hc
      refine keyAt_congr ?_
      conv_rhs => rw [hsplit]
      exact (List.getElem?_append_left (by omega)).symm
    intro c hc hcn
    rw [hdrop] at hcn
    rw [hkey _ (by omega), hkey c hcn]
    exact hdown c hc hcn

/-- The root is least. -/
theorem IsHeap.root_le (h : IsHeap key l) {x y : α} (hx : l[0]? = some x) (hy : y ∈ l) :
    key x ≤ key y := by
  obtain ⟨i, hi⟩ := List.mem_iff_getElem?.mp hy
  have hle := Heaped.root_le h (List.getElem?_eq_some_iff.mp hi).1
  simpa [keyAt, hx, hi] using hle

theorem heapPush_perm (l : List α) (x : α) :
    ((sliceInterface key).heapPush l x).Perm (x :: l) :=
  up_perm.trans (List.perm_append_singleton x l)

theorem heapPop_eq_none (h : (sliceInterface key).heapPop l = none) : l = [] := by
  have hlast := List.getLast?_eq_none_iff.mp (Option.map_eq_none_iff.mp h)
  have hperm : ((sliceInterface key).down (swapAt l 0 (l.length - 1)) 0 (l.length - 1)).Perm l :=
    down_perm.trans swapAt_perm
  exact List.nil_perm.mp (hlast ▸ hperm)

/-- **The binary heap is a heap.** -/
def binaryHeap (key : α → L) : MinHeap α key where
  Carrier := { l : List α // IsHeap key l }
  empty := ⟨[], fun _ _ h => absurd h (Nat.not_lt_zero _)⟩
  push x h := ⟨(sliceInterface key).heapPush h.1 x, isHeap_heapPush h.2 x⟩
  pop h :=
    match hpop : (sliceInterface key).heapPop h.1 with
    | none => none
    | some (x, l) => some (x, ⟨l, (heapPop_spec h.2 hpop).2.2⟩)
  bag h := ↑h.1
  bag_empty := rfl
  bag_push x h := Multiset.coe_eq_coe.mpr (heapPush_perm h.1 x)
  pop_none {h} hnone := by
    split at hnone
    · rename_i hpop
      rw [heapPop_eq_none hpop]
      rfl
    · cases hnone
  pop_some {h x h'} hsome := by
    split at hsome
    · cases hsome
    · rename_i hpop
      cases hsome
      exact Multiset.coe_eq_coe.mpr (heapPop_spec h.2 hpop).2.1
  pop_le {h x h'} hsome y hy := by
    split at hsome
    · cases hsome
    · rename_i hpop
      cases hsome
      obtain ⟨hroot, hperm, -⟩ := heapPop_spec h.2 hpop
      exact h.2.root_le hroot (hperm.mem_iff.mpr (List.mem_cons_of_mem _ (Multiset.mem_coe.mp hy)))

/-- A pop takes the root. -/
theorem root_of_pop_binaryHeap {h h' : (binaryHeap key).Carrier} {x : α}
    (hpop : (binaryHeap key).pop h = some (x, h')) : h.1[0]? = some x := by
  simp only [binaryHeap] at hpop
  split at hpop
  · cases hpop
  · rename_i heq
    cases hpop
    exact (heapPop_spec h.2 heq).1

/-! ### Pushes onto short slices -/

theorem heapPush_nil (x : α) : (sliceInterface key).heapPush [] x = [x] := by
  show (sliceInterface key).up [x] 0 = [x]
  rw [HeapInterface.up, if_pos rfl]

/-- The second element goes first only where it is below the other one. -/
theorem heapPush_singleton (a x : α) :
    (sliceInterface key).heapPush [a] x = if key x < key a then [x, a] else [a, x] := by
  have hless : (sliceInterface key).less [a, x] 1 0 = decide (key x < key a) := rfl
  show (sliceInterface key).up [a, x] 1 = _
  rw [HeapInterface.up]
  simp only [hless, decide_eq_true_eq]
  rw [if_neg (by decide : ¬ (1 - 1) / 2 = 1)]
  refine if_congr Iff.rfl ?_ rfl
  rw [HeapInterface.up, if_pos (by decide)]
  rfl

end Slice

end VllmScheduler
