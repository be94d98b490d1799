import VllmScheduler.Common.Heap
import VllmScheduler.Common.Dict
import VllmScheduler.Common.Numerals
import Mathlib.Algebra.Order.Field.Basic
import Mathlib.Data.Prod.Lex
import Mathlib.Data.Finset.Card
/-!
# The Python priority queue

`PriorityQueue` of `python/scheduler/priority_queue.py`: a heap of items,
a dictionary `pending` from ids to their latest item, and a set
`cancelled` of tombstones, which a dequeue clears as it pops. Floats are
read as elements of an ordered field. Every method runs under the queue's
lock from start to end (the one `await` inside releases it), so each is
one function here, and a reading of `time.monotonic()` is an argument.

Nothing below this file unfolds `dequeue`: `dequeue_cases` says that it
purges tombstoned entries one after another and then either finds the
heap empty or serves the entry it popped.
-/

namespace VllmScheduler

variable {Id K P : Type}

/-- A heap item; a lower priority takes precedence. -/
structure PrioritizedItem (Id K P : Type) where
  priority : K
  enqueueTime : K
  requestId : Id
  payload : P
deriving DecidableEq

/-- What the items are compared by: the dataclass orders on the two
fields that take part in the comparison, left to right. -/
def PrioritizedItem.key (item : PrioritizedItem Id K P) : K ×ₗ K :=
  toLex (item.priority, item.enqueueTime)

/-- `heapq` over a list of items. -/
abbrev Heapq (Id K P : Type) [LinearOrder K] : Type 1 :=
  MinHeap (PrioritizedItem Id K P) PrioritizedItem.key

/-- The snapshot `stats` returns. -/
structure QueueStats (K : Type) where
  depth : ℕ
  totalEnqueued : ℕ
  totalDequeued : ℕ
  totalCancelled : ℕ
  avgWaitMs : K
  maxWaitMs : K
deriving DecidableEq

/-- The queue's fields. -/
structure PriorityQueue [LinearOrder K] (H : Heapq Id K P) where
  heap : H.Carrier
  cancelled : Finset Id
  pending : Dict Id (PrioritizedItem Id K P)
  totalEnqueued : ℕ
  totalDequeued : ℕ
  totalCancelled : ℕ
  waitTimes : List K

namespace PriorityQueue

section Operations

variable [DecidableEq Id] [Field K] [LinearOrder K] {H : Heapq Id K P}

/-- A queue as `__init__` leaves it. -/
def init (H : Heapq Id K P) : PriorityQueue H where
  heap := H.empty
  cancelled := ∅
  pending := Dict.empty
  totalEnqueued := 0
  totalDequeued := 0
  totalCancelled := 0
  waitTimes := []

/-- `enqueue`; `now` is the clock reading that becomes the item's enqueue
time. -/
def enqueue (q : PriorityQueue H) (now : K) (requestId : Id) (priority : K) (payload : P) :
    PriorityQueue H :=
  let item : PrioritizedItem Id K P := ⟨priority, now, requestId, payload⟩
  { q with
    heap := H.push item q.heap
    pending := q.pending.set requestId item
    totalEnqueued := q.totalEnqueued + 1 }

/-- The branch of the dequeue loop for a popped entry whose id has a
tombstone. -/
def purge (q : PriorityQueue H) (item : PrioritizedItem Id K P) (heap : H.Carrier) :
    PriorityQueue H :=
  { q with
    heap := heap
    cancelled := q.cancelled.erase item.requestId
    pending := q.pending.erase item.requestId
    totalCancelled := q.totalCancelled + 1 }

/-- Append a wait, and keep the last 5000 once there are more than
10000. -/
def recordWait (waits : List K) (wait : K) : List K :=
  let waits := waits ++ [wait]
  if waits.length > 10000 then waits.drop (waits.length - 5000) else waits

/-- The branch of the dequeue loop that returns the popped entry. -/
def serve (q : PriorityQueue H) (now : K) (item : PrioritizedItem Id K P) (heap : H.Carrier) :
    PriorityQueue H :=
  { q with
    heap := heap
    pending := q.pending.erase item.requestId
    totalDequeued := q.totalDequeued + 1
    waitTimes := recordWait q.waitTimes ((now - item.enqueueTime) * 1000) }

/-- The inner loop of `dequeue`, over as many entries as the heap holds. -/
def dequeueLoop (now : K) : ℕ → PriorityQueue H → PriorityQueue H × Option (PrioritizedItem Id K P)
  | 0, q => (q, none)
  | n + 1, q =>
    match H.pop q.heap with
    | none => (q, none)
    | some (item, heap) =>
      if item.requestId ∈ q.cancelled then dequeueLoop now n (q.purge item heap)
      else (q.serve now item heap, some item)

/-- `dequeue` up to the point where it would wait: the item it returns, or
nothing when the heap has run empty and the call parks or times out. -/
def dequeue (q : PriorityQueue H) (now : K) : PriorityQueue H × Option (PrioritizedItem Id K P) :=
  dequeueLoop now (H.size q.heap) q

/-- `cancel`: a tombstone for an id the queue lists, and whether it lists
it. -/
def cancel (q : PriorityQueue H) (requestId : Id) : PriorityQueue H × Bool :=
  if requestId ∈ q.pending then
    ({ q with cancelled := insert requestId q.cancelled }, true)
  else (q, false)

/-- `update_priority`: a new entry for an id the queue lists. The old
entry stays in the heap; the tombstone put up for it is taken down again
before the method returns. -/
def updatePriority (q : PriorityQueue H) (requestId : Id) (newPriority : K) :
    PriorityQueue H × Bool :=
  match q.pending.get? requestId with
  | none => (q, false)
  | some item =>
    let newItem : PrioritizedItem Id K P :=
      ⟨newPriority, item.enqueueTime, requestId, item.payload⟩
    ({ q with
        heap := H.push newItem q.heap
        pending := q.pending.set requestId newItem
        cancelled := (insert requestId q.cancelled).erase requestId }, true)

/-- The `depth` property. -/
def depth (q : PriorityQueue H) : ℕ := H.size q.heap

/-- `stats`. -/
def stats (q : PriorityQueue H) : QueueStats K where
  depth := H.size q.heap
  totalEnqueued := q.totalEnqueued
  totalDequeued := q.totalDequeued
  totalCancelled := q.totalCancelled
  avgWaitMs := if q.waitTimes = [] then 0 else q.waitTimes.sum / q.waitTimes.length
  maxWaitMs := q.waitTimes.max?.getD 0

end Operations

/-! ## What a dequeue does -/

section Dequeue

variable [DecidableEq Id] [Field K] [LinearOrder K] {H : Heapq Id K P}
variable {q q' : PriorityQueue H} {now : K}

/-- The queue after some of the purges a dequeue begins with. -/
inductive Purges : PriorityQueue H → PriorityQueue H → Prop
  | refl (q : PriorityQueue H) : Purges q q
  | step {q q' : PriorityQueue H} {item : PrioritizedItem Id K P} {heap : H.Carrier} :
      H.pop q.heap = some (item, heap) → item.requestId ∈ q.cancelled →
      Purges (q.purge item heap) q' → Purges q q'

omit [Field K] in
/-- What one purge keeps, the purges of a dequeue keep. -/
theorem Purges.inv {I : PriorityQueue H → Prop}
    (hpurge : ∀ q item heap, H.pop q.heap = some (item, heap) → item.requestId ∈ q.cancelled →
      I q → I (q.purge item heap))
    (h : Purges q q') (hI : I q) : I q' := by
  induction h with
  | refl => exact hI
  | step hpop hc _ ih => exact ih (hpurge _ _ _ hpop hc hI)

theorem dequeueLoop_cases {n : ℕ} (hn : H.size q.heap ≤ n) :
    (∃ q', Purges q q' ∧ H.bag q'.heap = 0 ∧ dequeueLoop now n q = (q', none)) ∨
      ∃ q' item heap, Purges q q' ∧ H.pop q'.heap = some (item, heap) ∧
        item.requestId ∉ q'.cancelled ∧
        dequeueLoop now n q = (q'.serve now item heap, some item) := by
  induction n generalizing q with
  | zero =>
    exact Or.inl ⟨q, .refl q, H.size_eq_zero.mp (by omega), rfl⟩
  | succ n ih =>
    rw [dequeueLoop]
    rcases hp : H.pop q.heap with - | ⟨item, heap⟩
    · exact Or.inl ⟨q, .refl q, H.pop_none hp, rfl⟩
    · by_cases hc : item.requestId ∈ q.cancelled
      · have hsize : H.size (q.purge item heap).heap ≤ n := by
          have := H.size_of_pop hp
          simp only [purge]
          omega
        simp only [if_pos hc]
        rcases ih hsize with ⟨q', hq', hbag, heq⟩ | ⟨q', item', heap', hq', hpop, hnc, heq⟩
        · exact Or.inl ⟨q', .step hp hc hq', hbag, heq⟩
        · exact Or.inr ⟨q', item', heap', .step hp hc hq', hpop, hnc, heq⟩
      · simp only [if_neg hc]
        exact Or.inr ⟨q, item, heap, .refl q, hp, hc, rfl⟩

/-- **What a dequeue does.** It purges tombstoned entries, then finds the
heap empty or serves the entry it has popped. -/
theorem dequeue_cases (q : PriorityQueue H) (now : K) :
    (∃ q', Purges q q' ∧ H.bag q'.heap = 0 ∧ q.dequeue now = (q', none)) ∨
      ∃ q' item heap, Purges q q' ∧ H.pop q'.heap = some (item, heap) ∧
        item.requestId ∉ q'.cancelled ∧ q.dequeue now = (q'.serve now item heap, some item) :=
  dequeueLoop_cases le_rfl

/-- The invariant rule of a dequeue, for an invariant of the queue that a
purge and a serve each keep. -/
theorem dequeue_inv {I : PriorityQueue H → Prop}
    (hpurge : ∀ q item heap, H.pop q.heap = some (item, heap) → item.requestId ∈ q.cancelled →
      I q → I (q.purge item heap))
    (hserve : ∀ q item heap, H.pop q.heap = some (item, heap) → item.requestId ∉ q.cancelled →
      I q → I (q.serve now item heap))
    (hI : I q) : I (q.dequeue now).1 := by
  rcases q.dequeue_cases now with ⟨q', hq', -, heq⟩ | ⟨q', item, heap, hq', hpop, hnc, heq⟩
  · rw [heq]
    exact hq'.inv hpurge hI
  · rw [heq]
    exact hserve q' item heap hpop hnc (hq'.inv hpurge hI)

end Dequeue

end PriorityQueue

end VllmScheduler
