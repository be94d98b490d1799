import VllmScheduler.Common.Machine
import VllmScheduler.Common.Monitor
import VllmScheduler.Queue.Entries
/-!
# Wake-ups in the Python priority queue

Concurrent calls on `PriorityQueue` of `python/scheduler/priority_queue.py`.
Each runs under the lock of the condition `_not_empty` from where it gets it
to where it returns or waits. `notify` makes any one of the parked
`dequeue` calls runnable; the call gets the lock later and runs its loop
again, and another may have been faster.

A `dequeue` parks only with the heap empty, and every push comes with a
notify. So the runnable calls cover the heap entries, those of cancelled
requests included.
-/

namespace VllmScheduler

/-- Where a `dequeue` without timeout stands. -/
inductive DequeueCall (Id K P : Type) where
  /-- Arrived or notified; waits for the lock. -/
  | runnable
  | parked
  | returned (item : PrioritizedItem Id K P)
deriving DecidableEq

/-- What `notify` does to a call. -/
def DequeueCall.wake {Id K P : Type} : DequeueCall Id K P → DequeueCall Id K P
  | .parked => .runnable
  | c => c

/-- What a call is to the entries of the heap. -/
def DequeueCall.role {Id K P : Type} : DequeueCall Id K P → Phase
  | .runnable => .ready
  | .parked => .parked
  | .returned _ => .away

/-- The queue and the `dequeue` calls made on it. -/
structure QueueSystem {Id K P : Type} [LinearOrder K] (H : Heapq Id K P) where
  queue : PriorityQueue H
  calls : List (DequeueCall Id K P)

/-- What can happen next; a `notify` goes to the call `wakes` where any is
parked. -/
inductive QueueEvent (Id K P : Type) where
  | enqueue (requestId : Id) (priority : K) (payload : P) (now : K) (wakes : ℕ)
  | updatePriority (requestId : Id) (newPriority : K) (wakes : ℕ)
  | cancel (requestId : Id)
  /-- A new `dequeue`. -/
  | call
  /-- A runnable `dequeue` gets the lock. -/
  | run (i : ℕ) (now : K)
deriving DecidableEq

namespace QueueSystem

variable {Id K P : Type} [DecidableEq Id] [Field K] [LinearOrder K] {H : Heapq Id K P}

def init (H : Heapq Id K P) : QueueSystem H := ⟨PriorityQueue.init H, []⟩

/-- Call `i` can be the one a notify wakes. -/
def Notifiable (s : QueueSystem H) (i : ℕ) : Prop :=
  s.calls[i]? = some .parked ∨ ∀ c ∈ s.calls, c ≠ .parked

/-- The event can happen. -/
def Enabled (s : QueueSystem H) : QueueEvent Id K P → Prop
  | .enqueue _ _ _ _ wakes => s.Notifiable wakes
  | .updatePriority _ _ wakes => s.Notifiable wakes
  | .cancel _ => True
  | .call => True
  | .run i _ => s.calls[i]? = some .runnable

/-- What the event does. -/
def next (s : QueueSystem H) : QueueEvent Id K P → QueueSystem H
  | .enqueue requestId priority payload now wakes =>
    ⟨s.queue.enqueue now requestId priority payload, s.calls.modify wakes DequeueCall.wake⟩
  | .updatePriority requestId newPriority wakes =>
    let result := s.queue.updatePriority requestId newPriority
    ⟨result.1, if result.2 then s.calls.modify wakes DequeueCall.wake else s.calls⟩
  | .cancel requestId => ⟨(s.queue.cancel requestId).1, s.calls⟩
  | .call => ⟨s.queue, s.calls ++ [.runnable]⟩
  | .run i now =>
    let result := s.queue.dequeue now
    match result.2 with
    | some item => ⟨result.1, s.calls.set i (.returned item)⟩
    | none => ⟨result.1, s.calls.set i .parked⟩

/-- The states that events lead to. -/
inductive Reachable : QueueSystem H → Prop
  | init : Reachable (init H)
  | next {s : QueueSystem H} {event : QueueEvent Id K P} :
      Reachable s → s.Enabled event → Reachable (s.next event)

/-- A lost wake-up: an entry to serve, a parked call, and no call on its
way. -/
def Lost (s : QueueSystem H) : Prop :=
  (∃ item ∈ s.queue.entries, item.requestId ∉ s.queue.cancelled) ∧
    .parked ∈ s.calls ∧ .runnable ∉ s.calls

/-- The runnable calls cover the heap. -/
def Covering (s : QueueSystem H) : Prop := Covered s.queue.depth (s.calls.map DequeueCall.role)

variable {s : QueueSystem H} {i : ℕ}

section Phases

omit [DecidableEq Id] [Field K] [LinearOrder K]

theorem role_eq_parked_iff {c : DequeueCall Id K P} : c.role = .parked ↔ c = .parked := by
  cases c <;> simp [DequeueCall.role]

theorem role_eq_ready_iff {c : DequeueCall Id K P} : c.role = .ready ↔ c = .runnable := by
  cases c <;> simp [DequeueCall.role]

theorem role_wake (c : DequeueCall Id K P) :
    c.wake.role = if c.role = .parked then .ready else c.role := by
  cases c <;> rfl

end Phases

omit [DecidableEq Id] [Field K] in
/-- A push with its notify. -/
theorem Covering.push (h : s.Covering) (hi : s.Notifiable i) :
    Covered (s.queue.depth + 1)
      ((s.calls.modify i DequeueCall.wake).map DequeueCall.role) := by
  refine Covered.notify role_wake h (hi.imp (fun hparked => ?_) fun hnone c hc hrole => ?_)
  · rw [List.getElem?_map, hparked]
    rfl
  · exact hnone c hc (role_eq_parked_iff.mp hrole)

/-- A runnable call runs its loop. It takes at least the entry it returns,
or leaves the heap empty. -/
theorem Covering.run (h : s.Covering) {now : K} (hi : s.calls[i]? = some .runnable) :
    (s.next (.run i now)).Covering := by
  rcases s.queue.dequeue_cases now with ⟨q, hpurges, hempty, heq⟩ | ⟨q, item, heap, hpurges, hpop,
    -, heq⟩
  · have hdepth : q.depth = 0 := H.size_eq_zero.mpr hempty
    simp only [Covering, next, heq, hdepth]
    exact Covered.zero
  · have hle : q.depth ≤ s.queue.depth :=
      hpurges.inv (I := fun q => q.depth ≤ s.queue.depth)
        (fun q item heap hpop _ hq => by
          have hsize : q.depth = H.size heap + 1 := H.size_of_pop hpop
          show H.size heap ≤ s.queue.depth
          omega) le_rfl
    have hsize : q.depth = H.size heap + 1 := H.size_of_pop hpop
    simp only [Covering, next, heq, List.map_set]
    refine Covered.serve (Covered.mono h (hsize ▸ hle)) ?_
    rw [List.getElem?_map, hi]
    rfl

/-- **A step keeps the heap covered.** -/
theorem Covering.next {event : QueueEvent Id K P} (h : s.Covering) (hen : s.Enabled event) :
    (s.next event).Covering := by
  cases event with
  | enqueue requestId priority payload now wakes =>
    have hdepth : (s.queue.enqueue now requestId priority payload).depth = s.queue.depth + 1 :=
      H.size_push
    simp only [Covering, QueueSystem.next, hdepth]
    exact h.push hen
  | updatePriority requestId newPriority wakes =>
    rcases hget : s.queue.pending.get? requestId with - | item
    · simp only [Covering, QueueSystem.next, PriorityQueue.updatePriority_of_none hget]
      exact h
    · have hdepth : (s.queue.updatePriority requestId newPriority).1.depth =
          s.queue.depth + 1 := by
        rw [PriorityQueue.depth_eq, PriorityQueue.entries_updatePriority hget,
          Multiset.card_cons, ← PriorityQueue.depth_eq]
      have hfound : (s.queue.updatePriority requestId newPriority).2 = true := by
        rw [PriorityQueue.updatePriority, hget]
      simp only [Covering, QueueSystem.next, hdepth, hfound, if_true]
      exact h.push hen
  | cancel requestId =>
    have hdepth : (s.queue.cancel requestId).1.depth = s.queue.depth := by
      rw [PriorityQueue.depth_eq, PriorityQueue.entries_cancel, PriorityQueue.depth_eq]
    simp only [Covering, QueueSystem.next, hdepth]
    exact h
  | call =>
    simp only [Covering, QueueSystem.next, List.map_append]
    exact Covered.arrive h
  | run i now => exact h.run hen

/-- **Reachable states are covered.** -/
theorem covering_of_reachable (h : s.Reachable) : s.Covering := by
  induction h with
  | init => exact Covered.of_not_mem List.not_mem_nil
  | next _ hen ih => exact ih.next hen

/-- **No wake-up is lost** in the Python queue: no reachable state has an
uncancelled entry in the heap, a parked call and no runnable one. -/
theorem no_lost_wakeup : ¬ ∃ s : QueueSystem H, s.Reachable ∧ s.Lost := by
  rintro ⟨s, hs, ⟨item, hitem, -⟩, hparked, hready⟩
  have hcount : (s.calls.map DequeueCall.role).count .ready = 0 := by
    rw [List.count_eq_zero]
    intro hmem
    obtain ⟨c, hc, hrole⟩ := List.mem_map.mp hmem
    exact hready (role_eq_ready_iff.mp hrole ▸ hc)
  have hle := covering_of_reachable hs
    (List.mem_map.mpr ⟨.parked, hparked, role_eq_parked_iff.mpr rfl⟩)
  rw [hcount] at hle
  have hempty : s.queue.entries = 0 := H.size_eq_zero.mp (Nat.le_zero.mp hle)
  rw [hempty] at hitem
  exact Multiset.notMem_zero item hitem

end QueueSystem

end VllmScheduler
