import VllmScheduler.Queue.Entries
/-!
# The queue as a priority queue of its live entries

As long as every id enters the queue once, the three structures agree
exactly (`Exact`): `_pending` lists the entries of the heap and nothing
else, and a tombstone stands for a listed id. The entries without a
tombstone are the `live` ones, and on them the methods are those of a
priority queue: an enqueue adds one, a cancel removes the id's, and a
dequeue takes a least one or finds none (`dequeue_live`). Purging
tombstoned entries leaves no trace on them.
-/

namespace VllmScheduler

namespace PriorityQueue

variable {Id K P : Type} [DecidableEq Id] [LinearOrder K] {H : Heapq Id K P}

/-- The entries without a tombstone. -/
def live (q : PriorityQueue H) : Multiset (PrioritizedItem Id K P) :=
  q.entries.filter fun item => item.requestId ∉ q.cancelled

/-- **The three structures in step**, for a queue no id entered twice. -/
structure Exact (q : PriorityQueue H) (tag : P → Id) : Prop extends Linked q tag where
  nodup : (q.entries.map PrioritizedItem.requestId).Nodup
  listed : ∀ {item}, item ∈ q.entries → item.requestId ∈ q.pending
  tombstoned : ∀ {i}, i ∈ q.cancelled → i ∈ q.pending

section Exact

variable {q q' : PriorityQueue H} {tag : P → Id} {item : PrioritizedItem Id K P}
variable {i : Id} {now p : K} {x : P} {heap : H.Carrier}

omit [DecidableEq Id] in
theorem mem_ids_iff :
    i ∈ q.entries.map PrioritizedItem.requestId ↔ ∃ item ∈ q.entries, item.requestId = i :=
  Multiset.mem_map

theorem exact_init : (init H).Exact tag where
  toLinked := linked_init
  nodup := by simp
  listed := fun h => by simp at h
  tombstoned := fun h => by simp [init] at h

/-- An id the queue does not list has no entry. -/
theorem Exact.ne_of_mem (hq : q.Exact tag) (hi : i ∉ q.pending) (h : item ∈ q.entries) :
    item.requestId ≠ i := by
  rintro rfl
  exact hi (hq.listed h)

theorem Exact.enqueue (hq : q.Exact tag) (hi : i ∉ q.pending) (ht : tag x = i) :
    (q.enqueue now i p x).Exact tag where
  toLinked := hq.toLinked.enqueue ht
  nodup := by
    rw [entries_enqueue, Multiset.map_cons, Multiset.nodup_cons]
    refine ⟨?_, hq.nodup⟩
    rw [mem_ids_iff]
    rintro ⟨item, hmem, hid⟩
    exact hq.ne_of_mem hi hmem hid
  listed := fun {y} h => by
    rw [entries_enqueue, Multiset.mem_cons] at h
    rw [PriorityQueue.enqueue, Dict.mem_set]
    rcases h with rfl | h
    · exact Or.inl rfl
    · exact Or.inr (hq.listed h)
  tombstoned := fun h => Dict.mem_set.mpr (Or.inr (hq.tombstoned h))

theorem live_enqueue (hq : q.Exact tag) (hi : i ∉ q.pending) :
    (q.enqueue now i p x).live = ⟨p, now, i, x⟩ ::ₘ q.live := by
  have hc : i ∉ q.cancelled := fun h => hi (hq.tombstoned h)
  rw [live, entries_enqueue]
  exact Multiset.filter_cons_of_pos _ hc

/-- Taking an entry and its id out keeps the structures in step, for a new
set of tombstones that loses at most that id. -/
theorem Exact.pop (hq : q.Exact tag) (hent : q.entries = item ::ₘ q'.entries)
    (hpend : q'.pending = q.pending.erase item.requestId)
    (hcan : ∀ j ∈ q'.cancelled, j ≠ item.requestId ∧ j ∈ q.cancelled) : q'.Exact tag := by
  have hnd : item.requestId ∉ q'.entries.map PrioritizedItem.requestId ∧
      (q'.entries.map PrioritizedItem.requestId).Nodup := by
    have := hq.nodup
    rwa [hent, Multiset.map_cons, Multiset.nodup_cons] at this
  refine ⟨hq.toLinked.pop hent hpend, hnd.2, ?_, ?_⟩
  · intro y hy
    rw [hpend, Dict.mem_erase]
    refine ⟨fun heq => hnd.1 (mem_ids_iff.mpr ⟨y, hy, heq⟩), hq.listed ?_⟩
    rw [hent]
    exact Multiset.mem_cons_of_mem hy
  · intro j hj
    rw [hpend, Dict.mem_erase]
    exact ⟨(hcan j hj).1, hq.tombstoned (hcan j hj).2⟩

theorem Exact.purge (hq : q.Exact tag) (hpop : H.pop q.heap = some (item, heap)) :
    (q.purge item heap).Exact tag :=
  hq.pop (entries_eq_of_purge hpop) rfl fun _ hj => Finset.mem_erase.mp hj

theorem Exact.serve [Field K] (hq : q.Exact tag) (hpop : H.pop q.heap = some (item, heap))
    (hnc : item.requestId ∉ q.cancelled) : (q.serve now item heap).Exact tag := by
  refine hq.pop (entries_eq_of_serve now hpop) rfl fun j hj => ⟨?_, hj⟩
  rintro rfl
  exact hnc hj

/-- The ids left after a pop differ from the one popped. -/
theorem Exact.ne_of_pop (hq : q.Exact tag) (hent : q.entries = item ::ₘ q'.entries)
    {y : PrioritizedItem Id K P} (hy : y ∈ q'.entries) : y.requestId ≠ item.requestId :=
  (nodup_map_cons (hent ▸ hq.nodup)).2 y hy

/-- A purge does not show on the live entries. -/
theorem live_purge (hq : q.Exact tag) (hpop : H.pop q.heap = some (item, heap))
    (hc : item.requestId ∈ q.cancelled) : (q.purge item heap).live = q.live := by
  have hent := entries_eq_of_purge hpop
  have hdrop : q.live =
      (q.purge item heap).entries.filter fun y => y.requestId ∉ q.cancelled := by
    rw [live, hent]
    exact Multiset.filter_cons_of_neg _ (not_not.mpr hc)
  rw [hdrop]
  refine Multiset.filter_congr fun y hy => ?_
  have hne := hq.ne_of_pop hent hy
  simp [PriorityQueue.purge, hne]

/-- A serve takes its entry out of the live ones. -/
theorem live_serve [Field K] (now : K) (hpop : H.pop q.heap = some (item, heap))
    (hnc : item.requestId ∉ q.cancelled) : q.live = item ::ₘ (q.serve now item heap).live := by
  rw [live, entries_eq_of_serve now hpop]
  exact Multiset.filter_cons_of_pos _ hnc

theorem Exact.cancel (hq : q.Exact tag) : (q.cancel i).1.Exact tag where
  toLinked := hq.toLinked.cancel
  nodup := by
    rw [entries_cancel]
    exact hq.nodup
  listed := fun h => by
    rw [entries_cancel] at h
    rw [pending_cancel]
    exact hq.listed h
  tombstoned := tombstoned_cancel hq.tombstoned

/-- **A cancel removes the id's entry from the live ones**, and only that;
an id the queue does not list has none. -/
theorem live_cancel (hq : q.Exact tag) :
    (q.cancel i).1.live = q.live.filter fun item => item.requestId ≠ i := by
  rw [live, live, entries_cancel, Multiset.filter_filter]
  refine Multiset.filter_congr fun y hy => ?_
  by_cases hi : i ∈ q.pending
  · rw [cancelled_cancel hi, Finset.mem_insert, not_or]
  · rw [cancel_of_not_mem hi]
    exact ⟨fun h => ⟨hq.ne_of_mem hi hy, h⟩, fun h => h.2⟩

/-- **A dequeue serves the live entries.** It finds none only where there
is none; else it takes a least one. -/
theorem dequeue_live [Field K] (hq : q.Exact tag) (now : K) :
    (∃ q', q.dequeue now = (q', none) ∧ q'.Exact tag ∧ q.live = 0 ∧ q'.live = 0) ∨
      ∃ q' item, q.dequeue now = (q', some item) ∧ q'.Exact tag ∧
        q.live = item ::ₘ q'.live ∧ ∀ y ∈ q.live, item.key ≤ y.key := by
  have hpurged : ∀ {r : PriorityQueue H}, Purges q r → r.Exact tag ∧ r.live = q.live := by
    intro r hr
    refine hr.inv (I := fun r => r.Exact tag ∧ r.live = q.live) ?_ ⟨hq, rfl⟩
    rintro r item heap hpop hc ⟨hex, hlive⟩
    exact ⟨hex.purge hpop, (live_purge hex hpop hc).trans hlive⟩
  rcases q.dequeue_cases now with ⟨r, hr, hbag, heq⟩ | ⟨r, item, heap, hr, hpop, hnc, heq⟩
  · obtain ⟨hex, hlive⟩ := hpurged hr
    have hzero : r.live = 0 := by
      rw [live, entries, hbag]
      rfl
    exact Or.inl ⟨r, heq, hex, hlive ▸ hzero, hzero⟩
  · obtain ⟨hex, hlive⟩ := hpurged hr
    refine Or.inr ⟨r.serve now item heap, item, heq, hex.serve hpop hnc, ?_, ?_⟩
    · rw [← hlive]
      exact live_serve now hpop hnc
    · intro y hy
      rw [← hlive, live, Multiset.mem_filter] at hy
      exact H.key_le_of_pop hpop hy.1

theorem Exact.nodup_live (hq : q.Exact tag) :
    (q.live.map PrioritizedItem.requestId).Nodup :=
  Multiset.nodup_of_le (Multiset.map_le_map (Multiset.filter_le _ _)) hq.nodup

/-- A live entry is in the heap, so the queue is not empty. -/
theorem depth_pos_of_live (h : item ∈ q.live) : 0 < q.depth := by
  rw [depth_eq]
  exact Multiset.card_pos_iff_exists_mem.mpr ⟨item, (Multiset.mem_filter.mp h).1⟩

theorem mem_pending_of_live (hq : q.Exact tag) (h : item ∈ q.live) :
    item.requestId ∈ q.pending :=
  hq.listed (Multiset.mem_filter.mp h).1

end Exact

/-! ## The counters -/

/-- What was enqueued is dequeued, cancelled or still in the heap. -/
def Balanced (q : PriorityQueue H) : Prop :=
  q.totalEnqueued = q.totalDequeued + q.totalCancelled + q.depth

/-- What left the heap, and what is in it. -/
def accounted (q : PriorityQueue H) : ℕ := q.totalDequeued + q.totalCancelled + q.depth

section Balanced

variable {q : PriorityQueue H} {item : PrioritizedItem Id K P} {i : Id} {now p : K} {x : P}

omit [DecidableEq Id] in
@[simp] theorem accounted_init : (init H).accounted = 0 := by
  simp [accounted, init, depth]

@[simp] theorem accounted_enqueue : (q.enqueue now i p x).accounted = q.accounted + 1 := by
  simp only [accounted, enqueue, depth, H.size_push]
  omega

/-- A dequeue accounts for everything it pops. -/
theorem accounted_dequeue [Field K] (q : PriorityQueue H) (now : K) :
    (q.dequeue now).1.accounted = q.accounted ∧
      (q.dequeue now).1.totalEnqueued = q.totalEnqueued := by
  refine dequeue_inv
    (I := fun r => r.accounted = q.accounted ∧ r.totalEnqueued = q.totalEnqueued) ?_ ?_ ⟨rfl, rfl⟩
  · rintro r item heap hpop - ⟨hr, htotal⟩
    have := H.size_of_pop hpop
    simp only [accounted, purge, depth] at hr ⊢
    exact ⟨by omega, htotal⟩
  · rintro r item heap hpop - ⟨hr, htotal⟩
    have := H.size_of_pop hpop
    simp only [accounted, serve, depth] at hr ⊢
    exact ⟨by omega, htotal⟩

theorem accounted_cancel (q : PriorityQueue H) (i : Id) :
    (q.cancel i).1.accounted = q.accounted ∧
      (q.cancel i).1.totalEnqueued = q.totalEnqueued := by
  unfold PriorityQueue.cancel
  split <;> exact ⟨rfl, rfl⟩

/-- A successful `update_priority` puts an entry in the heap that nobody
enqueued. -/
theorem accounted_updatePriority (h : q.pending.get? i = some item) :
    (q.updatePriority i p).1.accounted = q.accounted + 1 ∧
      (q.updatePriority i p).1.totalEnqueued = q.totalEnqueued := by
  simp only [updatePriority, h, accounted, depth, H.size_push]
  exact ⟨by omega, trivial⟩

omit [DecidableEq Id] in
theorem balanced_init : (init H).Balanced := accounted_init.symm

theorem Balanced.enqueue (hq : q.Balanced) : (q.enqueue now i p x).Balanced :=
  (congrArg (· + 1) hq).trans accounted_enqueue.symm

theorem Balanced.dequeue [Field K] (hq : q.Balanced) : (q.dequeue now).1.Balanced := by
  obtain ⟨hacc, htotal⟩ := accounted_dequeue q now
  exact htotal.trans (hq.trans hacc.symm)

theorem Balanced.cancel (hq : q.Balanced) : (q.cancel i).1.Balanced := by
  obtain ⟨hacc, htotal⟩ := accounted_cancel q i
  exact htotal.trans (hq.trans hacc.symm)

end Balanced

end PriorityQueue

end VllmScheduler
