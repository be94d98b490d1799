import Mathlib.Algebra.Field.Rat
import Mathlib.Algebra.Order.Ring.Rat
import VllmScheduler.Queue.Lazy
/-!
# The three queues agree

The Python queue, the C++ queue and the Go engine each implement the queue
with lazy deletion of `Common/LazyQueue.lean`: their states stand for one of
its states, and their methods take its steps. They break ties differently,
Python and C++ by the time of the enqueue and Go not at all, so they agree
where no two priorities are equal.

The clocks of the three are independent of each other, and nothing is
assumed of their readings.
-/

namespace VllmScheduler

/-- An operation on the three queues. An enqueue carries what the requests
of the three languages are made of and each queue's clock reading. -/
inductive QueueOp (Id K P : Type) where
  | enqueue (requestId : Id) (payload : P) (prompt : String) (predictedTokens : K)
      (maxTokens : ℤ) (pythonNow : K) (cppNow : ℤ) (goNow : K)
  | cancel (requestId : Id)
  | dequeue (pythonNow : K) (cppNow : ℤ)

/-- The predicted tokens if positive, the maximal tokens otherwise. -/
def effectiveLength {K : Type} [Field K] [LinearOrder K] (predictedTokens : K)
    (maxTokens : ℤ) : K :=
  if 0 < predictedTokens then predictedTokens else maxTokens

/-- The operation on the queue with lazy deletion. -/
def QueueOp.lazyOp {Id K P : Type} [Field K] [LinearOrder K] : QueueOp Id K P → LazyOp K Id
  | .enqueue requestId _ _ predictedTokens maxTokens _ _ _ =>
    .enqueue (effectiveLength predictedTokens maxTokens) requestId
  | .cancel requestId => .cancel requestId
  | .dequeue _ _ => .dequeue

/-- The priorities of a list of operations, in order. -/
def priorities {Id K P : Type} [Field K] [LinearOrder K] (ops : List (QueueOp Id K P)) : List K :=
  ops.filterMap fun op => op.lazyOp.priority

/-! ## Python -/

namespace PriorityQueue

variable {Id K P : Type} [DecidableEq Id] [Field K] [LinearOrder K] {H : Heapq Id K P}

/-- The Python queue under the common operations. -/
def queueMachine (H : Heapq Id K P) :
    Machine (PriorityQueue H) (QueueOp Id K P) (LazyAnswer Id × ℕ) where
  step q op :=
    match op with
    | .enqueue requestId payload _ predictedTokens maxTokens now _ _ =>
      let q := q.enqueue now requestId (effectiveLength predictedTokens maxTokens) payload
      (q, .enqueued, q.depth)
    | .cancel requestId =>
      let result := q.cancel requestId
      (result.1, .cancelled result.2, result.1.depth)
    | .dequeue now _ =>
      let result := q.dequeue now
      (result.1, .dequeued (result.2.map PrioritizedItem.requestId), result.1.depth)

/-- **The Python queue is a queue with lazy deletion.** -/
theorem implements_lazy (H : Heapq Id K P) :
    LazyQueue.Implements (queueMachine H) QueueOp.lazyOp fun q v => q.lazy = v := by
  rintro q _ op rfl
  refine ⟨((queueMachine H).step q op).1.lazy, ?_, by cases op <;> exact card_lazyBy.symm, rfl⟩
  cases op with
  | enqueue requestId payload prompt predictedTokens maxTokens now _ _ =>
    have h : (q.enqueue now requestId (effectiveLength predictedTokens maxTokens) payload).lazy =
        q.lazy.enqueue (effectiveLength predictedTokens maxTokens) requestId := lazyBy_enqueue
    exact h ▸ .enqueue
  | cancel requestId =>
    by_cases hl : requestId ∈ q.pending
    · simp only [queueMachine, cancel, if_pos hl]
      exact .cancel hl
    · simp only [queueMachine, cancel, if_neg hl]
      exact .miss hl
  | dequeue now _ => exact .dequeue (q.dequeues now)

end PriorityQueue

/-! ## C++ -/

namespace CppPriorityQueue

variable {Id K : Type} [DecidableEq Id] [Field K] [LinearOrder K] {H : CppHeap Id K}

/-- The C++ queue under the common operations. -/
def queueMachine (P : Type) (H : CppHeap Id K) :
    Machine (CppPriorityQueue H) (QueueOp Id K P) (LazyAnswer Id × ℕ) where
  step q op :=
    match op with
    | .enqueue requestId _ prompt predictedTokens maxTokens _ now _ =>
      let q := q.enqueue now ⟨requestId, prompt, maxTokens, predictedTokens, 0, 0⟩
      (q, .enqueued, q.depth)
    | .cancel requestId =>
      let result := q.cancel requestId
      (result.1, .cancelled result.2, result.1.depth)
    | .dequeue _ now =>
      let result := q.dequeue now
      (result.1, .dequeued (result.2.map CppRequest.requestId), result.1.depth)

/-- **The C++ queue is a queue with lazy deletion.** -/
theorem implements_lazy (P : Type) (H : CppHeap Id K) :
    LazyQueue.Implements (queueMachine P H) QueueOp.lazyOp fun q v => q.lazy = v := by
  rintro q _ op rfl
  refine ⟨((queueMachine P H).step q op).1.lazy, ?_, by cases op <;> exact card_lazyBy.symm, rfl⟩
  cases op with
  | enqueue requestId payload prompt predictedTokens maxTokens _ now _ =>
    have h : (q.enqueue now ⟨requestId, prompt, maxTokens, predictedTokens, 0, 0⟩).lazy =
        q.lazy.enqueue (effectiveLength predictedTokens maxTokens) requestId := lazyBy_enqueue
    exact h ▸ .enqueue
  | cancel requestId =>
    by_cases hl : requestId ∈ q.pending
    · simp only [queueMachine, cancel, if_pos hl]
      exact .cancel hl
    · simp only [queueMachine, cancel, if_neg hl]
      exact .miss hl
  | dequeue _ now => exact .dequeue (q.dequeues now)

end CppPriorityQueue

/-! ## Go -/

namespace Engine

variable {Id K : Type} [DecidableEq Id] [Field K] [LinearOrder K] {H : GoHeap ℕ K}

/-- The Go engine under the common operations. -/
def queueMachine (P : Type) (H : GoHeap ℕ K) :
    Machine (Engine Id H) (QueueOp Id K P) (LazyAnswer Id × ℕ) where
  step e op :=
    match op with
    | .enqueue requestId _ prompt predictedTokens maxTokens _ _ now =>
      let e := e.submitNew ⟨requestId, prompt, maxTokens, predictedTokens, 0, 0⟩ now
      (e, .enqueued, e.depth)
    | .cancel requestId =>
      let result := e.cancel requestId
      (result.1, .cancelled result.2, result.1.depth)
    | .dequeue _ _ =>
      let result := e.acquire
      (result.1, .dequeued (result.2.map fun ref => (result.1.objects ref).id), result.1.depth)

/-- What a submit puts into the heap is what the queue takes in, and the
requests already there keep their ids: the new object is behind a pointer of
its own. -/
theorem stands_submitNew {e : Engine Id H} (ha : e.Allocated) (requestId : Id)
    (prompt : String) (predictedTokens : K) (maxTokens : ℤ) (now : K) :
    (e.submitNew ⟨requestId, prompt, maxTokens, predictedTokens, 0, 0⟩ now).Stands
      (e.lazy.enqueue (effectiveLength predictedTokens maxTokens) requestId) := by
  set request : GoRequest Id K := ⟨requestId, prompt, maxTokens, predictedTokens, 0, 0⟩
  have hpriority : (request.submitted now).priority =
      effectiveLength predictedTokens maxTokens := by
    by_cases h : predictedTokens ≤ 0
    · simp [request, GoRequest.submitted, effectiveLength, h, not_lt.mpr h]
    · simp [request, GoRequest.submitted, effectiveLength, h, not_le.mp h]
  have hid : (request.submitted now).id = requestId := GoRequest.submitted_id
  have hold : e.items.map (e.submitNew request now).entry = e.items.map e.entry := by
    refine Multiset.map_congr rfl fun item hitem => ?_
    rw [entry, entry, idOf_submitNew_of_mem request now ha hitem]
  have hcancelled : (e.submitNew request now).cancelled = e.cancelled := rfl
  refine ⟨?_, allocated_submitNew request now ha⟩
  rw [lazy, items_submitNew, Multiset.map_cons, hold, pending_submitNew, Dict.ids_set, hid,
    hcancelled]
  simp [LazyQueue.enqueue, lazy, entry, idOf_submitNew_self, hpriority, request]

/-- **The Go engine is a queue with lazy deletion.** -/
theorem implements_lazy (P : Type) (H : GoHeap ℕ K) :
    LazyQueue.Implements (queueMachine P H : Machine (Engine Id H) _ _) QueueOp.lazyOp Stands := by
  rintro e _ op ⟨rfl, ha⟩
  cases op with
  | enqueue requestId payload prompt predictedTokens maxTokens _ _ now =>
    have h := stands_submitNew ha requestId prompt predictedTokens maxTokens now
    exact ⟨_, .enqueue, (h.1 ▸ card_lazy).symm, h⟩
  | cancel requestId =>
    by_cases hl : requestId ∈ e.pending
    · simp only [queueMachine, cancel, if_pos hl]
      exact ⟨_, .cancel hl, card_lazy.symm, rfl, ha⟩
    · simp only [queueMachine, cancel, if_neg hl]
      exact ⟨_, .miss hl, card_lazy.symm, rfl, ha⟩
  | dequeue _ _ =>
    obtain ⟨v', hd, h⟩ := dequeues ha
    have hout : (e.acquire.2.map fun ref => (e.acquire.1.objects ref).id) =
        e.acquireItem.2.map e.idOf := by
      have hobj : e.acquire.1.objects = e.objects := objects_acquireItem
      rw [hobj, acquire, Option.map_map]
      rfl
    exact ⟨v', .dequeue (hout ▸ hd), (h.1 ▸ card_lazy).symm, h⟩

end Engine

/-! ## Agreement -/

section Agreement

variable {Id K P : Type} [DecidableEq Id] [Field K] [LinearOrder K]

/-- **The three queues agree.** On every list of operations whose priorities
are pairwise distinct, whatever the ids, the clocks and the heaps, the
Python queue, the C++ queue and the Go engine answer every operation alike
and have the same depth after it. -/
theorem queues_agree (HPython : Heapq Id K P) (HCpp : CppHeap Id K) (HGo : GoHeap ℕ K)
    (objects : ℕ → GoRequest Id K) (ops : List (QueueOp Id K P)) (hops : (priorities ops).Nodup) :
    (PriorityQueue.queueMachine HPython).log (PriorityQueue.init HPython) ops =
        (CppPriorityQueue.queueMachine P HCpp).log (CppPriorityQueue.init HCpp) ops ∧
      (PriorityQueue.queueMachine HPython).log (PriorityQueue.init HPython) ops =
        (Engine.queueMachine P HGo).log (Engine.newEngine HGo objects) ops := by
  have hpython : (PriorityQueue.init HPython).lazy = LazyQueue.init := PriorityQueue.lazyBy_init
  have hcpp : (CppPriorityQueue.init HCpp).lazy = LazyQueue.init := CppPriorityQueue.lazyBy_init
  have hgo : (Engine.newEngine HGo objects).Stands LazyQueue.init := by
    refine ⟨?_, fun item hitem => ?_⟩
    · rw [Engine.lazy, Engine.items_newEngine, Engine.newEngine, Dict.ids_empty]
      rfl
    · rw [Engine.items_newEngine] at hitem
      exact absurd hitem (Multiset.notMem_zero item)
  have hnd : ((LazyQueue.init : LazyQueue K Id).entries.map Prod.fst +
      (priorities ops : Multiset K)).Nodup := by
    rw [LazyQueue.init, Multiset.map_zero, Multiset.zero_add]
    exact Multiset.coe_nodup.mpr hops
  exact ⟨LazyQueue.log_eq_of_implements (PriorityQueue.implements_lazy HPython)
      (CppPriorityQueue.implements_lazy P HCpp) hpython hcpp hnd,
    LazyQueue.log_eq_of_implements (PriorityQueue.implements_lazy HPython)
      (Engine.implements_lazy P HGo) hpython hgo hnd⟩

/-- One id twice, a request without a prediction, a cancel that meets both
entries of its id, and cancels of ids that are not listed. -/
def sharedOps : List (QueueOp String ℚ Unit) :=
  [.enqueue "a" () "p" 5 10 0 0 0, .enqueue "b" () "p" 0 3 1 1 1, .enqueue "a" () "p" 2 10 2 2 2,
    .cancel "a", .dequeue 3 3, .cancel "a", .dequeue 4 4, .cancel "b", .dequeue 5 5]

/-- The three answer it alike: the tombstone is spent on one entry of the id
and the other is served, although a cancel no longer finds it. -/
theorem sharedOps_agree :
    ((PriorityQueue.queueMachine (listHeap PrioritizedItem.key)).log
      (PriorityQueue.init (listHeap PrioritizedItem.key)) sharedOps).map Prod.snd =
        [(.enqueued, 1), (.enqueued, 2), (.enqueued, 3), (.cancelled true, 3),
          (.dequeued (some "b"), 1), (.cancelled false, 1), (.dequeued (some "a"), 0),
          (.cancelled false, 0), (.dequeued none, 0)] ∧
    (PriorityQueue.queueMachine (listHeap PrioritizedItem.key)).log
        (PriorityQueue.init (listHeap PrioritizedItem.key)) sharedOps =
      (CppPriorityQueue.queueMachine Unit (listHeap CppHeapItem.key)).log
        (CppPriorityQueue.init (listHeap CppHeapItem.key)) sharedOps ∧
    (PriorityQueue.queueMachine (listHeap PrioritizedItem.key)).log
        (PriorityQueue.init (listHeap PrioritizedItem.key)) sharedOps =
      (Engine.queueMachine Unit (listHeap GoItem.priority)).log
        (Engine.newEngine (listHeap GoItem.priority) fun _ => ⟨"", "", 0, 0, 0, 0⟩) sharedOps :=
  ⟨by decide +kernel, queues_agree _ _ _ _ sharedOps (by decide +kernel)⟩

end Agreement

end VllmScheduler
