import Mathlib.Algebra.Field.Rat
import Mathlib.Algebra.Order.Ring.Rat
import VllmScheduler.Common.BinaryHeap
import VllmScheduler.Go.Aging
/-!
# Ties in the Go heap

`Less` compares priorities and nothing else, and `container/heap` moves the
last item of the slice to the root at every pop. So which of several requests
predicted equally long an `Acquire` returns depends on the shape of the heap.
They come out in the order of their submission as long as every `Acquire`
finds at most two items in the heap or no two of the same priority: a heap
that short keeps ties in order (`Lined`), and without ties there is nothing
to keep.
-/

namespace VllmScheduler

namespace Engine

variable {Id K : Type} [DecidableEq Id] [Field K] [LinearOrder K]

/-- `container/heap` over `priorityHeap`. -/
abbrev containerHeap (K : Type) [LinearOrder K] : GoHeap ℕ K := binaryHeap GoItem.priority

/-- A step that submits or acquires. -/
def Plain : EngineOp Id K → Prop
  | .submit _ _ | .acquire => True
  | _ => False

instance (op : EngineOp Id K) : Decidable (Plain op) := by
  cases op <;> unfold Plain <;> infer_instance

/-- An `Acquire` finds at most two items, or no two of the same priority. -/
def Clear (e : Engine Id (containerHeap K)) (op : EngineOp Id K) : Prop :=
  op = .acquire → e.depth ≤ 2 ∨ (e.items.map GoItem.priority).Nodup

instance (e : Engine Id (containerHeap K)) (op : EngineOp Id K) : Decidable (Clear e op) :=
  inferInstanceAs (Decidable (op = .acquire → e.depth ≤ 2 ∨ (e.items.map GoItem.priority).Nodup))

/-- The `PredictedTokens` a step submits, as `Submit` leaves them. -/
def prediction : EngineOp Id K → Option K
  | .submit request now => some (request.submitted now).predictedTokens
  | _ => none

/-- The `PredictedTokens` of the submitted requests, in order. -/
def predictions (ops : List (EngineOp Id K)) : List K := ops.filterMap prediction

/-- In a slice of at most two items, those of the same priority stand in the
order of their submission. -/
def Lined (l : List (GoItem ℕ K)) : Prop :=
  l.length ≤ 2 → l.Pairwise fun x y => x.priority = y.priority → x.req < y.req

section Lined

variable {l : List (GoItem ℕ K)} {x y : GoItem ℕ K}

omit [Field K] in
/-- A push puts an item behind the ones it ties with. -/
theorem Lined.push (hx : ∀ y ∈ l, y.req < x.req) :
    Lined ((sliceInterface GoItem.priority).heapPush l x) := by
  intro hlen
  rw [(heapPush_perm l x).length_eq, List.length_cons] at hlen
  match l, hx, hlen with
  | [], _, _ =>
    rw [heapPush_nil]
    exact List.pairwise_singleton _ _
  | [a], hx, _ =>
    rw [heapPush_singleton]
    split
    · rename_i hlt
      exact List.pairwise_pair.mpr fun heq => absurd heq hlt.ne
    · exact List.pairwise_pair.mpr fun _ => hx a List.mem_cons_self
  | _ :: _ :: _, _, hlen =>
    simp only [List.length_cons] at hlen
    omega

omit [Field K] [LinearOrder K] in
/-- A slice without ties is lined. -/
theorem Lined.of_nodup (h : (l.map GoItem.priority).Nodup) : Lined l := by
  intro _
  rw [List.Nodup, List.pairwise_map] at h
  exact h.imp fun hne heq => absurd heq hne

omit [Field K] [LinearOrder K] in
theorem Lined.of_length_le_one (h : l.length ≤ 1) : Lined l := by
  intro _
  match l, h with
  | [], _ => exact List.Pairwise.nil
  | [a], _ => exact List.pairwise_singleton _ _

omit [Field K] [LinearOrder K] in
/-- At the root of a lined slice is the earliest of the items it ties with. -/
theorem Lined.root_first (h : Lined l) (hlen : l.length ≤ 2) (hx : l[0]? = some x) (hy : y ∈ l)
    (heq : x.priority = y.priority) (hne : y ≠ x) : x.req < y.req := by
  cases l with
  | nil => cases hy
  | cons a l =>
    cases hx
    exact List.rel_of_pairwise_cons (h hlen) ((List.mem_cons.mp hy).resolve_left hne) heq

end Lined

/-! ## What a run keeps -/

section Runs

/-- **The books of a run** of submissions and acquires. -/
structure Tied (ops : List (EngineOp Id K)) (log : List (EngineOp Id K × EngineOut))
    (e : Engine Id (containerHeap K)) : Prop where
  untombed : e.cancelled = ∅
  scheduled : e.scheduled = (predictions ops).length
  copied : ∀ item ∈ e.items, (predictions ops)[item.req]? = some item.priority
  placed : ∀ i < e.scheduled,
    (.acquire, .acquired (some i)) ∈ log ∨ ∃ item ∈ e.items, item.req = i
  lined : Lined e.heap.1

namespace Tied

variable {ops : List (EngineOp Id K)} {log : List (EngineOp Id K × EngineOut)}
variable {e : Engine Id (containerHeap K)}

omit [DecidableEq Id] in
theorem init {objects : ℕ → GoRequest Id K} : Tied [] [] (newEngine (containerHeap K) objects) where
  untombed := rfl
  scheduled := rfl
  copied := fun item hm => by simp at hm
  placed := fun i hi => absurd hi (Nat.not_lt_zero i)
  lined := fun _ => List.Pairwise.nil

omit [DecidableEq Id] in
theorem allocated (h : Tied ops log e) : e.Allocated := by
  intro item hitem
  rw [h.scheduled]
  exact (List.getElem?_eq_some_iff.mp (h.copied item hitem)).1

theorem submit (h : Tied ops log e) (request : GoRequest Id K) (now : K) :
    Tied (ops ++ [.submit request now]) (log ++ [(.submit request now, .done)])
      (e.submitNew request now) := by
  have hpred : predictions (ops ++ [.submit request now]) =
      predictions ops ++ [(request.submitted now).predictedTokens] := filterMap_snoc
  have hsched : (e.submitNew request now).scheduled = e.scheduled + 1 := rfl
  refine ⟨h.untombed, ?_, ?_, ?_, ?_⟩
  · rw [hsched, hpred, List.length_append, h.scheduled]
    rfl
  · intro item hitem
    rw [items_submitNew, Multiset.mem_cons] at hitem
    rw [hpred]
    rcases hitem with rfl | hitem
    · rw [h.scheduled, List.getElem?_concat_length]
      rfl
    · rw [List.getElem?_append_left (h.scheduled ▸ h.allocated item hitem)]
      exact h.copied item hitem
  · intro i hi
    rw [items_submitNew]
    rcases Nat.lt_succ_iff_lt_or_eq.mp hi with hi | rfl
    · rcases h.placed i hi with hlog | ⟨item, hitem, hreq⟩
      · exact Or.inl (List.mem_append_left _ hlog)
      · exact Or.inr ⟨item, Multiset.mem_cons_of_mem hitem, hreq⟩
    · exact Or.inr ⟨_, Multiset.mem_cons_self _ _, rfl⟩
  · refine Lined.push fun y hy => ?_
    exact h.allocated y (Multiset.mem_coe.mpr hy)

omit [DecidableEq Id] in
/-- The item a pop takes is the first of those it ties with. -/
theorem first_of_pop (h : Tied ops log e) (hclear : Clear e (.acquire : EngineOp Id K))
    {x y : GoItem ℕ K} {heap : (containerHeap K).Carrier}
    (hp : (containerHeap K).pop e.heap = some (x, heap)) (hy : y ∈ e.items)
    (heq : x.priority = y.priority) : x.req ≤ y.req := by
  by_cases hxy : y = x
  · rw [hxy]
  · rcases hclear rfl with hdepth | hnodup
    · exact (h.lined.root_first hdepth (root_of_pop_binaryHeap hp) hy heq hxy).le
    · have hx : x ∈ e.items := (containerHeap K).mem_of_pop hp
      exact absurd (Multiset.inj_on_of_nodup_map hnodup y hy x hx heq.symm) hxy

theorem acquire (h : Tied ops log e) (hclear : Clear e (.acquire : EngineOp Id K)) :
    Tied (ops ++ [.acquire]) (log ++ [(.acquire, .acquired e.acquire.2)]) e.acquire.1 := by
  have hpred : predictions (ops ++ [.acquire]) = predictions ops :=
    filterMap_snoc.trans (append_toList_of_none rfl)
  rcases acquireItem_of_no_tombstone h.untombed with ⟨hwait, -⟩ | ⟨x, heap, hp, hserve⟩
  · have hacq : e.acquire = (e, none) := by rw [Engine.acquire, hwait]; rfl
    rw [hacq]
    refine ⟨h.untombed, by rw [hpred]; exact h.scheduled, by rw [hpred]; exact h.copied, ?_,
      h.lined⟩
    exact fun i hi => (h.placed i hi).imp_left (List.mem_append_left _)
  · have hacq : e.acquire = (e.serve x heap, some x.req) := by rw [Engine.acquire, hserve]; rfl
    have hitems : e.items = x ::ₘ (e.serve x heap).items := (containerHeap K).pop_some hp
    rw [hacq]
    refine ⟨h.untombed, by rw [hpred]; exact h.scheduled, ?_, ?_, ?_⟩
    · intro item hitem
      rw [hpred]
      exact h.copied item ((containerHeap K).mem_of_mem_pop hp hitem)
    · intro i hi
      rcases h.placed i hi with hlog | ⟨item, hitem, rfl⟩
      · exact Or.inl (List.mem_append_left _ hlog)
      · rcases (containerHeap K).eq_or_mem_of_pop hp hitem with rfl | hleft
        · exact Or.inl (List.mem_append_right _ List.mem_cons_self)
        · exact Or.inr ⟨item, hleft, rfl⟩
    · rcases hclear rfl with hdepth | hnodup
      · -- one item at most is left
        have hsize : e.depth = heap.1.length + 1 := (containerHeap K).size_of_pop hp
        have hleft : heap.1.length ≤ 1 := by omega
        exact Lined.of_length_le_one hleft
      · rw [hitems] at hnodup
        exact Lined.of_nodup (Multiset.coe_nodup.mp (nodup_map_cons hnodup).1)

/-- **A step keeps the books.** -/
theorem step (h : Tied ops log e) {op : EngineOp Id K} (hop : Plain op) (hclear : Clear e op) :
    Tied (ops ++ [op]) (log ++ [(op, (e.step op).2)]) (e.step op).1 := by
  cases op with
  | submit request now => exact h.submit request now
  | acquire => exact h.acquire hclear
  | cancel | complete | tick => exact hop.elim

end Tied

variable {ops : List (EngineOp Id K)} {objects : ℕ → GoRequest Id K}

/-- **A run keeps the books.** -/
theorem tied_run (hplain : ∀ op ∈ ops, Plain op)
    (hclear : (machine Id (containerHeap K)).Along Clear (newEngine _ objects) ops) :
    Tied ops ((machine Id (containerHeap K)).log (newEngine _ objects) ops)
      ((machine Id (containerHeap K)).run (newEngine _ objects) ops) := by
  refine Machine.log_inv (M := machine Id (containerHeap K))
    (H := fun ops => (∀ op ∈ ops, Plain op) ∧
      (machine Id (containerHeap K)).Along Clear (newEngine _ objects) ops)
    (I := Tied) ?_ Tied.init ?_ ⟨hplain, hclear⟩
  · rintro ops op ⟨hplain, hclear⟩
    exact ⟨fun o ho => hplain o (List.mem_append_left _ ho), (Machine.along_snoc.mp hclear).1⟩
  · rintro ops op ⟨hplain, hclear⟩ h
    exact h.step (hplain op (List.mem_append_right _ List.mem_cons_self))
      (Machine.along_snoc.mp hclear).2

/-- **Ties are served in order** where every `Acquire` finds at most two
items or no two of the same priority: of two requests with the same
`PredictedTokens`, the one submitted first is returned first. -/
theorem ties_in_order (hplain : ∀ op ∈ ops, Plain op)
    (hclear : (machine Id (containerHeap K)).Along Clear (newEngine _ objects) ops)
    {before after : List (EngineOp Id K × EngineOut)} {i r : ℕ}
    (hlog : (machine Id (containerHeap K)).log (newEngine _ objects) ops =
      before ++ (.acquire, .acquired (some r)) :: after)
    (hir : i < r) (hequal : (predictions ops)[i]? = (predictions ops)[r]?) :
    (.acquire, .acquired (some i)) ∈ before := by
  obtain ⟨ops₁, ops₂, rfl, rfl, hout, -⟩ := Machine.log_eq_append_cons hlog
  obtain ⟨hclear₁, hclear₂⟩ := Machine.along_append.mp hclear
  set e := (machine Id (containerHeap K)).run (newEngine _ objects) ops₁ with he
  have h : Tied ops₁ _ e := tied_run (fun op ho => hplain op (List.mem_append_left _ ho)) hclear₁
  have hacq : e.acquire.2 = some r := (EngineOut.acquired.inj hout).symm
  rcases acquireItem_of_no_tombstone h.untombed with ⟨hwait, -⟩ | ⟨x, heap, hp, hserve⟩
  · rw [Engine.acquire, hwait] at hacq
    cases hacq
  · have hr : x.req = r := by
      rw [Engine.acquire, hserve] at hacq
      exact Option.some.inj hacq
    have hx : x ∈ e.items := (containerHeap K).mem_of_pop hp
    have hbound : r < e.scheduled := hr ▸ h.allocated x hx
    refine (h.placed i (hir.trans hbound)).resolve_right ?_
    -- were `i` still queued, the pop would have taken it
    rintro ⟨y, hy, rfl⟩
    have hearlier : ∀ j < e.scheduled,
        (predictions (ops₁ ++ .acquire :: ops₂))[j]? = (predictions ops₁)[j]? := by
      intro j hj
      rw [predictions, List.filterMap_append]
      exact List.getElem?_append_left (h.scheduled ▸ hj)
    rw [hearlier _ (hir.trans hbound), hearlier r hbound, h.copied y hy, ← hr,
      h.copied x hx] at hequal
    have hle := h.first_of_pop hclear₂.1 hp hy (Option.some.inj hequal).symm
    omega

end Runs

/-- Requests predicted equally long, submitted one after the other, and as
many acquires. -/
def equalRequests (ids : List String) : List (EngineOp String ℚ) :=
  ids.map (fun id => .submit ⟨id, "", 256, 10, 0, 0⟩ 0) ++ ids.map fun _ => .acquire

/-- A new engine. -/
def idle : Engine String (containerHeap ℚ) := newEngine _ fun _ => ⟨"", "", 0, 0, 0, 0⟩

/-- Two equal requests come out in order. -/
theorem two_equal_in_order :
    (machine String (containerHeap ℚ)).Along Clear idle (equalRequests ["a", "b"]) ∧
    (.acquire, .acquired (some 0)) ∈
      ((machine String (containerHeap ℚ)).log idle (equalRequests ["a", "b"])).take 3 := by
  have hclear : (machine String (containerHeap ℚ)).Along Clear idle (equalRequests ["a", "b"]) := by
    decide +kernel
  have hlog : (machine String (containerHeap ℚ)).log idle (equalRequests ["a", "b"]) =
      ((machine String (containerHeap ℚ)).log idle (equalRequests ["a", "b"])).take 3 ++
        (.acquire, .acquired (some 1)) :: [] := by
    decide +kernel
  exact ⟨hclear, ties_in_order (by decide +kernel) hclear hlog (by decide) (by decide +kernel)⟩

/-- Of three equal requests the third comes out before the second. -/
theorem three_equal_out_of_order :
    (submittedIds (equalRequests ["a", "b", "c"])).Nodup ∧
    (∀ op ∈ equalRequests ["a", "b", "c"], Plain op) ∧
    predictions (equalRequests ["a", "b", "c"]) = [10, 10, 10] ∧
    (((machine String (containerHeap ℚ)).log idle (equalRequests ["a", "b", "c"])).map
        Prod.snd).drop 3 =
      [.acquired (some 0), .acquired (some 2), .acquired (some 1)] := by
  decide +kernel

end Engine

end VllmScheduler
