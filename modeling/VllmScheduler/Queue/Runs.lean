import Mathlib.Algebra.Field.Rat
import Mathlib.Algebra.Order.Ring.Rat
import VllmScheduler.Common.Machine
import VllmScheduler.Queue.Live
/-!
# Runs of the Python priority queue

The four methods of `PriorityQueue` of `python/scheduler/priority_queue.py`,
called in any order and with any ids. Two things about the bookkeeping hold
of all such runs. `_cancelled` stays within `_pending` and `_pending` within
the heap, so no tombstone outlives the entries it is for. And the counters
balance up to the successful calls of `update_priority`, each of which adds
an entry to the heap that nothing counts.
-/

namespace VllmScheduler

/-- The calls of the queue's methods. -/
inductive PQOp (Id K P : Type)
  | enqueue (requestId : Id) (priority : K) (payload : P) (now : K)
  /-- One pass of a `dequeue`, by a fresh call or by a parked one that is
  woken. -/
  | dequeue (now : K)
  | cancel (requestId : Id)
  | updatePriority (requestId : Id) (newPriority : K)
deriving DecidableEq

/-- What the methods return. -/
inductive PQOut (Id K P : Type)
  | done
  | returned (item : PrioritizedItem Id K P)
  /-- The heap has run empty, and the call waits. -/
  | empty
  | cancelled (found : Bool)
  | updated (found : Bool)
deriving DecidableEq

/-- A call of `update_priority` that returned `True`. -/
def PQOut.isUpdate {Id K P : Type} : PQOut Id K P → Bool
  | updated found => found
  | _ => false

namespace PriorityQueue

variable {Id K P : Type} [DecidableEq Id] [Field K] [LinearOrder K] {H : Heapq Id K P}

/-- What a `dequeue` returns. -/
def dequeueOut : Option (PrioritizedItem Id K P) → PQOut Id K P
  | some item => .returned item
  | none => .empty

omit [DecidableEq Id] [Field K] [LinearOrder K] in
theorem dequeueOut_eq_returned {o : Option (PrioritizedItem Id K P)}
    {item : PrioritizedItem Id K P} (h : dequeueOut o = .returned item) : o = some item := by
  cases o with
  | none => cases h
  | some item' => exact congrArg some (PQOut.returned.inj h)

/-- The queue as a machine. -/
def step (q : PriorityQueue H) : PQOp Id K P → PriorityQueue H × PQOut Id K P
  | .enqueue requestId priority payload now => (q.enqueue now requestId priority payload, .done)
  | .dequeue now => ((q.dequeue now).1, dequeueOut (q.dequeue now).2)
  | .cancel requestId => ((q.cancel requestId).1, .cancelled (q.cancel requestId).2)
  | .updatePriority requestId newPriority =>
    ((q.updatePriority requestId newPriority).1,
      .updated (q.updatePriority requestId newPriority).2)

/-- The machine of `step`. -/
def machine (H : Heapq Id K P) : Machine (PriorityQueue H) (PQOp Id K P) (PQOut Id K P) where
  step := step

variable {q q' : PriorityQueue H} {item : PrioritizedItem Id K P} {op : PQOp Id K P}
variable {ops : List (PQOp Id K P)} {i : Id} {p : K}

theorem machine_step : (machine H).step q op = q.step op := rfl

omit [Field K] in
theorem updatePriority_eq_true (h : q.pending.get? i = some item) :
    (q.updatePriority i p).2 = true := by
  rw [updatePriority, h]

/-! ## The bookkeeping -/

/-- **What every run keeps of the three structures.** What is listed is in
the heap, and what has a tombstone is listed. -/
structure Tidy (q : PriorityQueue H) : Prop extends Listed q where
  tombstoned : ∀ {i}, i ∈ q.cancelled → i ∈ q.pending

omit [Field K] in
theorem tidy_init : (init H).Tidy where
  toListed := listed_init
  tombstoned := fun h => by simp [init] at h

omit [Field K] in
/-- An entry comes in and is listed, with no new tombstones. -/
theorem Tidy.push (hq : q.Tidy) (hi : item.requestId = i)
    (hent : q'.entries = item ::ₘ q.entries) (hpend : q'.pending = q.pending.set i item)
    (hcan : q'.cancelled ⊆ q.cancelled) : q'.Tidy where
  toListed := hq.toListed.push hi hent hpend
  tombstoned := fun h => by
    rw [hpend, Dict.mem_set]
    exact Or.inr (hq.tombstoned (hcan h))

omit [Field K] in
/-- An entry goes, and with it the listing and the tombstone of its id. -/
theorem Tidy.pop (hq : q.Tidy) (hent : q.entries = item ::ₘ q'.entries)
    (hpend : q'.pending = q.pending.erase item.requestId)
    (hcan : ∀ j ∈ q'.cancelled, j ≠ item.requestId ∧ j ∈ q.cancelled) : q'.Tidy where
  toListed := hq.toListed.pop hent hpend
  tombstoned := fun {j} h => by
    rw [hpend, Dict.mem_erase]
    exact ⟨(hcan j h).1, hq.tombstoned (hcan j h).2⟩

theorem Tidy.dequeue (hq : q.Tidy) (now : K) : (q.dequeue now).1.Tidy := by
  refine dequeue_inv (I := Tidy) ?_ ?_ hq
  · intro r item heap hpop _ hr
    exact hr.pop (entries_eq_of_purge hpop) rfl fun _ hj => Finset.mem_erase.mp hj
  · intro r item heap hpop hnc hr
    refine hr.pop (entries_eq_of_serve now hpop) rfl fun j hj => ⟨?_, hj⟩
    rintro rfl
    exact hnc hj

omit [Field K] in
theorem Tidy.cancel (hq : q.Tidy) : (q.cancel i).1.Tidy where
  toListed := hq.toListed.cancel
  tombstoned := tombstoned_cancel hq.tombstoned

theorem Tidy.step (hq : q.Tidy) : (q.step op).1.Tidy := by
  cases op with
  | enqueue j priority payload now =>
    exact hq.push rfl entries_enqueue rfl (Finset.Subset.refl _)
  | dequeue now => exact hq.dequeue now
  | cancel j => exact hq.cancel
  | updatePriority j newPriority =>
    rcases hget : q.pending.get? j with - | old
    · rw [PriorityQueue.step, updatePriority_of_none hget]
      exact hq
    · refine hq.push rfl (entries_updatePriority hget) (pending_updatePriority hget) ?_
      rw [PriorityQueue.step, cancelled_updatePriority hget]
      exact Finset.erase_subset _ _

theorem tidy_run (ops : List (PQOp Id K P)) : ((machine H).run (init H) ops).Tidy :=
  Machine.run_inv_of_step (I := Tidy) (fun _ _ h => h.step) tidy_init

omit [Field K] in
/-- A listed id has an entry, so there is room for its tombstone. -/
theorem Tidy.card_cancelled_le (hq : q.Tidy) : q.cancelled.card ≤ q.depth := by
  have hsub : q.cancelled ⊆ (q.entries.map PrioritizedItem.requestId).toFinset := by
    intro i hi
    obtain ⟨item, hget⟩ := Dict.mem_iff_exists.mp (hq.tombstoned hi)
    rw [Multiset.mem_toFinset, Multiset.mem_map]
    exact ⟨item, hq.mem_entries hget, hq.requestId_eq hget⟩
  calc q.cancelled.card
      ≤ (q.entries.map PrioritizedItem.requestId).toFinset.card := Finset.card_le_card hsub
    _ ≤ Multiset.card (q.entries.map PrioritizedItem.requestId) := Multiset.toFinset_card_le _
    _ = q.depth := Multiset.card_map _ _

omit [Field K] in
theorem Tidy.keys_eq_nil (hq : q.Tidy) (hzero : q.depth = 0) : q.pending.keys = [] := by
  refine List.eq_nil_iff_forall_not_mem.mpr fun i hi => ?_
  obtain ⟨item, hget⟩ := Dict.mem_iff_exists.mp hi
  have hent : q.entries = 0 := Multiset.card_eq_zero.mp hzero
  have hmem := hq.mem_entries hget
  rw [hent] at hmem
  exact Multiset.notMem_zero item hmem

/-- **Tombstones do not leak.** After any run a cancelled id is listed, and
what is listed under an id carries it and is in the heap; so there are no
more tombstones than entries, and with the heap `_cancelled` and `_pending`
are empty too. -/
theorem tombstones_do_not_leak :
    (∀ i ∈ ((machine H).run (init H) ops).cancelled,
        i ∈ ((machine H).run (init H) ops).pending) ∧
      (∀ i item, ((machine H).run (init H) ops).pending.get? i = some item →
        item.requestId = i ∧ item ∈ ((machine H).run (init H) ops).entries) ∧
      ((machine H).run (init H) ops).cancelled.card ≤ ((machine H).run (init H) ops).depth ∧
      (((machine H).run (init H) ops).depth = 0 →
        ((machine H).run (init H) ops).cancelled = ∅ ∧
          ((machine H).run (init H) ops).pending.keys = []) := by
  have htidy := tidy_run (H := H) ops
  refine ⟨fun i hi => htidy.tombstoned hi,
    fun i item hget => ⟨htidy.requestId_eq hget, htidy.mem_entries hget⟩,
    htidy.card_cancelled_le, fun hzero => ⟨?_, htidy.keys_eq_nil hzero⟩⟩
  have hle := htidy.card_cancelled_le
  rw [hzero] at hle
  exact Finset.card_eq_zero.mp (Nat.le_zero.mp hle)

/-! ## The counters -/

/-- The successful calls of `update_priority`. -/
def updates (log : List (PQOp Id K P × PQOut Id K P)) : ℕ := log.countP fun e => e.2.isUpdate

omit [DecidableEq Id] [Field K] [LinearOrder K] in
theorem updates_snoc {log : List (PQOp Id K P × PQOut Id K P)} {out : PQOut Id K P} :
    updates (log ++ [(op, out)]) = updates log + if out.isUpdate then 1 else 0 := by
  rw [updates, List.countP_append, List.countP_singleton, ← updates]

/-- A step moves the two sides of the balance alike, but for an update. -/
theorem accounted_step (q : PriorityQueue H) (op : PQOp Id K P) :
    (q.step op).1.accounted + q.totalEnqueued =
      q.accounted + (q.step op).1.totalEnqueued + (if (q.step op).2.isUpdate then 1 else 0) := by
  cases op with
  | enqueue j priority payload now =>
    rw [PriorityQueue.step, accounted_enqueue]
    simp only [PQOut.isUpdate, enqueue, Bool.false_eq_true, if_false]
    omega
  | dequeue now =>
    obtain ⟨hacc, htotal⟩ := accounted_dequeue q now
    have hout : (dequeueOut (q.dequeue now).2).isUpdate = false := by
      rcases (q.dequeue now).2 with - | item <;> rfl
    simp only [PriorityQueue.step, hacc, htotal, hout]
    rfl
  | cancel j =>
    obtain ⟨hacc, htotal⟩ := accounted_cancel q j
    simp only [PriorityQueue.step, hacc, htotal, PQOut.isUpdate]
    rfl
  | updatePriority j newPriority =>
    rcases hget : q.pending.get? j with - | old
    · simp [PriorityQueue.step, updatePriority_of_none hget, PQOut.isUpdate]
    · obtain ⟨hacc, htotal⟩ := accounted_updatePriority (p := newPriority) hget
      simp only [PriorityQueue.step, hacc, htotal, updatePriority_eq_true hget, PQOut.isUpdate,
        if_true]
      omega

/-- **What was enqueued or re-pushed is accounted for.** -/
theorem accounted_run (ops : List (PQOp Id K P)) :
    ((machine H).run (init H) ops).accounted =
      ((machine H).run (init H) ops).totalEnqueued + updates ((machine H).log (init H) ops) := by
  induction ops using List.reverseRecOn with
  | nil => exact accounted_init
  | append_singleton ops op ih =>
    have hstep := accounted_step ((machine H).run (init H) ops) op
    rw [Machine.run_snoc, Machine.log_snoc, updates_snoc, machine_step]
    omega

/-- **When the statistics balance**: exactly as long as no call of
`update_priority` has returned `True`. -/
theorem stats_balance_iff :
    ((machine H).run (init H) ops).stats.totalEnqueued =
        ((machine H).run (init H) ops).stats.totalDequeued +
          ((machine H).run (init H) ops).stats.totalCancelled +
          ((machine H).run (init H) ops).stats.depth ↔
      ∀ e ∈ (machine H).log (init H) ops, e.2 ≠ .updated true := by
  have hrun := accounted_run (H := H) ops
  have hzero : updates ((machine H).log (init H) ops) = 0 ↔
      ∀ e ∈ (machine H).log (init H) ops, e.2 ≠ .updated true := by
    rw [updates, List.countP_eq_zero]
    refine forall₂_congr fun e _ => ?_
    rcases e.2 with - | item | - | found | found
    all_goals simp [PQOut.isUpdate]
  rw [← hzero]
  change ((machine H).run (init H) ops).totalEnqueued =
    ((machine H).run (init H) ops).accounted ↔ _
  omega

/-- One request, and its priority lowered. -/
def enqueueThenUpdate : List (PQOp String ℚ Unit) :=
  [.enqueue "a" 5 () 0, .updatePriority "a" 3]

theorem updated_not_counted :
    ((machine (listHeap PrioritizedItem.key)).run (init _) enqueueThenUpdate).stats.totalEnqueued =
        1 ∧
      ((machine (listHeap PrioritizedItem.key)).run (init _) enqueueThenUpdate).stats.depth =
        2 := by
  decide +kernel

end PriorityQueue

end VllmScheduler
