import VllmScheduler.Common.LazyRefinement
import VllmScheduler.Cpp.Queue
import VllmScheduler.Go.Engine
import VllmScheduler.Queue.PriorityQueue
/-!
# The three queues as queues with lazy deletion

A Python queue, a C++ queue and a Go engine each stand for a queue of
`Common/LazyQueue.lean`, and their dequeue loops are its dequeue. The Python
and the C++ queue are read by any rank of their items that the order of
their heaps refines: by the priority alone, as all three languages have it,
or by the whole key, with the time of the enqueue that those two break ties
by.
-/

namespace VllmScheduler

/-! ## Python -/

namespace PriorityQueue

variable {Id K P L : Type} [LinearOrder K] {H : Heapq Id K P} {q : PriorityQueue H}
variable {rank : PrioritizedItem Id K P → L}

/-- The queue a Python queue stands for, by a rank of its items. -/
def lazyBy (rank : PrioritizedItem Id K P → L) (q : PriorityQueue H) : LazyQueue L Id :=
  ⟨(H.bag q.heap).map fun item => (rank item, item.requestId), q.pending.ids, q.cancelled⟩

/-- By the priorities. -/
def lazy (q : PriorityQueue H) : LazyQueue K Id := q.lazyBy PrioritizedItem.priority

/-- By the keys, which break ties by the time of the enqueue. -/
def keyed (q : PriorityQueue H) : LazyQueue (K ×ₗ K) Id := q.lazyBy PrioritizedItem.key

theorem card_lazyBy : Multiset.card (q.lazyBy rank).entries = q.depth := Multiset.card_map _ _

theorem card_keyed : Multiset.card q.keyed.entries = q.depth := card_lazyBy

theorem lazyBy_init : (init H).lazyBy rank = LazyQueue.init := by
  rw [lazyBy, init, H.bag_empty, Dict.ids_empty]
  rfl

variable [DecidableEq Id]

theorem lazyBy_enqueue {now p : K} {i : Id} {x : P} :
    (q.enqueue now i p x).lazyBy rank = (q.lazyBy rank).enqueue (rank ⟨p, now, i, x⟩) i := by
  simp only [lazyBy, enqueue, LazyQueue.enqueue, H.bag_push, Multiset.map_cons, Dict.ids_set]

theorem lazyBy_cancel_of_mem {i : Id} (h : i ∈ q.pending) :
    (q.cancel i).1.lazyBy rank = (q.lazyBy rank).mark i := by
  rw [cancel, if_pos h]
  rfl

theorem keyed_enqueue {now p : K} {i : Id} {x : P} :
    (q.enqueue now i p x).keyed = q.keyed.enqueue (toLex (p, now)) i :=
  lazyBy_enqueue

theorem keyed_cancel_of_mem {i : Id} (h : i ∈ q.pending) :
    (q.cancel i).1.keyed = q.keyed.mark i :=
  lazyBy_cancel_of_mem h

/-- **The dequeue loop of the Python queue.** -/
theorem dequeues_lazyBy [Field K] [LinearOrder L]
    (hrank : ∀ a b : PrioritizedItem Id K P, a.key ≤ b.key → rank a ≤ rank b) (now : K) :
    LazyQueue.Dequeues (q.lazyBy rank) ((q.dequeue now).2.map PrioritizedItem.requestId)
      ((q.dequeue now).1.lazyBy rank) := by
  have hpurge : ∀ (q : PriorityQueue H) item heap, (q.purge item heap).lazyBy rank =
      (q.lazyBy rank).purge item.requestId
        ((H.bag heap).map fun item => (rank item, item.requestId)) := by
    intro q item heap
    simp only [lazyBy, purge, LazyQueue.purge, Dict.ids_erase]
  have hserve : ∀ (q : PriorityQueue H) item heap, (q.serve now item heap).lazyBy rank =
      (q.lazyBy rank).serve item.requestId
        ((H.bag heap).map fun item => (rank item, item.requestId)) := by
    intro q item heap
    simp only [lazyBy, serve, LazyQueue.serve, Dict.ids_erase]
  obtain ⟨v', hd, rfl⟩ := LazyQueue.dequeues_of_loop H (fun q v => q.lazyBy rank = v)
    (dequeueLoop now) PriorityQueue.heap (fun _ item => (rank item, item.requestId)) purge
    (fun q => q.serve now) id (fun _ => PrioritizedItem.requestId) (fun _ => hrank)
    (by rintro q _ rfl; rfl)
    (by rintro q _ item heap rfl _; exact hpurge q item heap)
    (by rintro q _ item heap rfl _; exact ⟨hserve q item heap, rfl⟩)
    (fun _ => rfl)
    (by rintro n q _ rfl; rw [dequeueLoop]; rcases H.pop q.heap with - | ⟨_, _⟩ <;> rfl)
    rfl card_lazyBy.le
  exact hd

theorem dequeues [Field K] (q : PriorityQueue H) (now : K) :
    LazyQueue.Dequeues q.lazy ((q.dequeue now).2.map PrioritizedItem.requestId)
      (q.dequeue now).1.lazy :=
  dequeues_lazyBy
    (fun _ _ h => (Prod.Lex.le_iff.mp h).elim le_of_lt fun h => le_of_eq h.1) now

theorem dequeues_keyed [Field K] (q : PriorityQueue H) (now : K) :
    LazyQueue.Dequeues q.keyed ((q.dequeue now).2.map PrioritizedItem.requestId)
      (q.dequeue now).1.keyed :=
  dequeues_lazyBy (fun _ _ h => h) now

end PriorityQueue

/-! ## C++ -/

namespace CppPriorityQueue

variable {Id K L : Type} [Field K] [LinearOrder K] {H : CppHeap Id K} {q : CppPriorityQueue H}
variable {rank : CppHeapItem Id K → L}

/-- The queue a C++ queue stands for, by a rank of its items. -/
def lazyBy (rank : CppHeapItem Id K → L) (q : CppPriorityQueue H) : LazyQueue L Id :=
  ⟨q.items.map fun item => (rank item, item.req.requestId), q.pending.ids, q.cancelled⟩

/-- By the priorities. -/
def lazy (q : CppPriorityQueue H) : LazyQueue K Id := q.lazyBy CppHeapItem.priority

/-- By the keys, which break ties by the time of the enqueue. -/
def keyed (q : CppPriorityQueue H) : LazyQueue (K ×ₗ ℤ) Id := q.lazyBy CppHeapItem.key

theorem card_lazyBy : Multiset.card (q.lazyBy rank).entries = q.depth := Multiset.card_map _ _

theorem card_keyed : Multiset.card q.keyed.entries = q.depth := card_lazyBy

omit [Field K] in
theorem lazyBy_init : (init H).lazyBy rank = LazyQueue.init := by
  rw [lazyBy, items, init, H.bag_empty, Dict.ids_empty]
  rfl

variable [DecidableEq Id] {now : ℤ}

theorem lazyBy_enqueue {req : CppRequest Id K} :
    (q.enqueue now req).lazyBy rank = (q.lazyBy rank).enqueue
      (rank ⟨priorityOf req, now, { req with enqueueNs := now, priority := priorityOf req }⟩)
      req.requestId := by
  simp only [lazyBy, items, enqueue, LazyQueue.enqueue, H.bag_push, Multiset.map_cons,
    Dict.ids_set]

/-- **The dequeue loop of the C++ queue.** -/
theorem dequeues_lazyBy [LinearOrder L]
    (hrank : ∀ a b : CppHeapItem Id K, a.key ≤ b.key → rank a ≤ rank b) (now : ℤ) :
    LazyQueue.Dequeues (q.lazyBy rank) ((q.dequeue now).2.map CppRequest.requestId)
      ((q.dequeue now).1.lazyBy rank) := by
  have hpurge : ∀ (q : CppPriorityQueue H) item heap, (q.purge item heap).lazyBy rank =
      (q.lazyBy rank).purge item.req.requestId
        ((H.bag heap).map fun item => (rank item, item.req.requestId)) := by
    intro q item heap
    simp only [lazyBy, items, purge, LazyQueue.purge, Dict.ids_erase]
  have hserve : ∀ (q : CppPriorityQueue H) item heap, (q.serve now item heap).lazyBy rank =
      (q.lazyBy rank).serve item.req.requestId
        ((H.bag heap).map fun item => (rank item, item.req.requestId)) := by
    intro q item heap
    simp only [lazyBy, items, serve, LazyQueue.serve, Dict.ids_erase]
  obtain ⟨v', hd, rfl⟩ := LazyQueue.dequeues_of_loop H (fun q v => q.lazyBy rank = v)
    (dequeueLoop now) CppPriorityQueue.heap (fun _ item => (rank item, item.req.requestId)) purge
    (fun q => q.serve now) CppHeapItem.req (fun _ => CppRequest.requestId) (fun _ => hrank)
    (by rintro q _ rfl; rfl)
    (by rintro q _ item heap rfl _; exact hpurge q item heap)
    (by rintro q _ item heap rfl _; exact ⟨hserve q item heap, rfl⟩)
    (fun _ => rfl)
    (by rintro n q _ rfl; rw [dequeueLoop]; rcases H.pop q.heap with - | ⟨_, _⟩ <;> rfl)
    rfl card_lazyBy.le
  exact hd

theorem dequeues (q : CppPriorityQueue H) (now : ℤ) :
    LazyQueue.Dequeues q.lazy ((q.dequeue now).2.map CppRequest.requestId)
      (q.dequeue now).1.lazy :=
  dequeues_lazyBy
    (fun _ _ h => (Prod.Lex.le_iff.mp h).elim le_of_lt fun h => le_of_eq h.1) now

theorem dequeues_keyed (q : CppPriorityQueue H) (now : ℤ) :
    LazyQueue.Dequeues q.keyed ((q.dequeue now).2.map CppRequest.requestId)
      (q.dequeue now).1.keyed :=
  dequeues_lazyBy (fun _ _ h => h) now

/-- An item is queued and has no tombstone. -/
def Live (q : CppPriorityQueue H) (item : CppHeapItem Id K) : Prop :=
  item ∈ q.items ∧ item.req.requestId ∉ q.cancelled

instance (q : CppPriorityQueue H) (item : CppHeapItem Id K) : Decidable (q.Live item) :=
  inferInstanceAs (Decidable (_ ∧ _))

/-- **What a dequeue takes** of a queue of distinct ids: the request of a
live item of least key. The other live items stay. -/
theorem dequeue_least {req : CppRequest Id K}
    (hids : (q.items.map fun item => item.req.requestId).Nodup)
    (h : (q.dequeue now).2 = some req) :
    ∃ x, q.Live x ∧ x.req = req ∧ (∀ y, q.Live y → x.key ≤ y.key) ∧
      ∀ y, (q.dequeue now).1.Live y ↔ q.Live y ∧ y ≠ x := by
  obtain ⟨item, hitem, rfl, hleft⟩ := dequeueLoop_some h
  have hd := q.dequeues_keyed now
  rw [h] at hd
  obtain ⟨x, hx, hid, hc, hleast, hlive⟩ := hd.least_of_map hids fun y hy => (hleft y hy).1
  -- the item whose request is returned has the id that is taken
  obtain rfl : x = item := Multiset.inj_on_of_nodup_map hids x hx item hitem hid
  exact ⟨x, ⟨hx, hc⟩, rfl, fun y hy => hleast y hy.1 hy.2, hlive⟩

end CppPriorityQueue

/-! ## Go -/

namespace Engine

variable {Id K : Type} [LinearOrder K] {H : GoHeap ℕ K} {e : Engine Id H}

/-- An item as priority and id. -/
def entry (e : Engine Id H) (item : GoItem ℕ K) : K × Id := (item.priority, e.idOf item)

/-- The queue an engine stands for. -/
def lazy (e : Engine Id H) : LazyQueue K Id :=
  ⟨e.items.map e.entry, e.pending.ids, e.cancelled⟩

/-- An engine that stands for a queue. -/
def Stands (e : Engine Id H) (v : LazyQueue K Id) : Prop := e.lazy = v ∧ e.Allocated

theorem card_lazy : Multiset.card e.lazy.entries = e.depth := Multiset.card_map _ _

variable [DecidableEq Id]

theorem stands_purge {item : GoItem ℕ K} {heap : H.Carrier} (ha : e.Allocated)
    (hp : H.pop e.heap = some (item, heap)) :
    (e.purge item heap).Stands
      (e.lazy.purge (e.idOf item) ((H.bag heap).map e.entry)) := by
  refine ⟨?_, fun x hx => ha x (H.mem_of_mem_pop hp hx)⟩
  simp only [lazy, items, purge, LazyQueue.purge, Dict.ids_erase]
  rfl

theorem stands_serve {item : GoItem ℕ K} {heap : H.Carrier} (ha : e.Allocated)
    (hp : H.pop e.heap = some (item, heap)) :
    (e.serve item heap).Stands
      (e.lazy.serve (e.idOf item) ((H.bag heap).map e.entry)) := by
  refine ⟨?_, fun x hx => ha x (H.mem_of_mem_pop hp hx)⟩
  simp only [lazy, items, serve, LazyQueue.serve, Dict.ids_erase]
  rfl

/-- A pass over the heap changes no request object. -/
theorem objects_acquireItem : e.acquireItem.1.objects = e.objects :=
  acquireLoop_inv (I := fun e' : Engine Id H => e'.objects = e.objects) (fun _ _ _ _ h => h)
    (fun _ _ _ _ h => h) rfl

/-- **The loop of `Acquire`.** -/
theorem dequeues (ha : e.Allocated) :
    ∃ v', LazyQueue.Dequeues e.lazy (e.acquireItem.2.map e.idOf) v' ∧
      e.acquireItem.1.Stands v' := by
  obtain ⟨v', hd, hv'⟩ := LazyQueue.dequeues_of_loop H Stands acquireLoop Engine.heap entry
    purge serve id idOf (fun _ _ _ h => h) (by rintro e _ ⟨rfl, -⟩; rfl)
    (by rintro e _ item heap ⟨rfl, ha⟩ hp; exact stands_purge ha hp)
    (by rintro e _ item heap ⟨rfl, ha⟩ hp; exact ⟨stands_serve ha hp, rfl⟩)
    (fun _ => rfl)
    (by rintro n e _ ⟨rfl, -⟩; rw [acquireLoop]; rcases H.pop e.heap with - | ⟨_, _⟩ <;> rfl)
    ⟨rfl, ha⟩ card_lazy.le
  have hid : e.acquireItem.1.idOf = e.idOf := by
    funext item
    rw [idOf, idOf, objects_acquireItem]
  refine ⟨v', ?_, hv'⟩
  rw [← hid]
  exact hd

/-- An item is queued and has no tombstone. -/
def Live (e : Engine Id H) (item : GoItem ℕ K) : Prop :=
  item ∈ e.items ∧ e.idOf item ∉ e.cancelled

instance (e : Engine Id H) (item : GoItem ℕ K) : Decidable (e.Live item) :=
  inferInstanceAs (Decidable (_ ∧ _))

/-- **What an `Acquire` takes** of an engine with distinct ids: a live item
of least priority. The other live items stay. -/
theorem acquireItem_least {x : GoItem ℕ K} (ha : e.Allocated) (hids : (e.items.map e.idOf).Nodup)
    (h : e.acquireItem.2 = some x) :
    e.Live x ∧ (∀ y, e.Live y → x.priority ≤ y.priority) ∧
      ∀ y, e.acquireItem.1.Live y ↔ e.Live y ∧ y ≠ x := by
  obtain ⟨hmem, hleft, hobj⟩ := acquireLoop_some h
  obtain ⟨v', hd, rfl, -⟩ := dequeues ha
  have hentry : e.acquireItem.1.entry = e.entry := by
    funext item
    rw [entry, entry, idOf, idOf, objects_acquireItem]
  rw [h, lazy, lazy, hentry] at hd
  obtain ⟨y, hy, hid, hc, hleast, hlive⟩ := hd.least_of_map hids fun y hy => (hleft y hy).1
  obtain rfl : y = x := Multiset.inj_on_of_nodup_map hids y hy x hmem hid
  refine ⟨⟨hy, hc⟩, fun z hz => hleast z hz.1 hz.2, fun z => ?_⟩
  rw [Live, idOf, objects_acquireItem]
  exact hlive z

end Engine

end VllmScheduler
