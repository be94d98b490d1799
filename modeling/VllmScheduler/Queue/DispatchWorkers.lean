import Mathlib.Algebra.Field.Rat
import Mathlib.Algebra.Order.Ring.Rat
import VllmScheduler.Common.Machine
import VllmScheduler.Common.Monitor
import VllmScheduler.Queue.Entries
/-!
# The dispatch workers on the Python priority queue

The workers of `SchedulerGateway` run `_dispatch_loop` of
`python/scheduler/gateway.py`: each acquires with a timeout of one second,
creates a task for what it gets, and acquires again, after a timeout as well.
With a timeout `dequeue` of `python/scheduler/priority_queue.py` waits inside
`asyncio.wait_for`, which may give up a wait that has already been notified.
Such a notify is gone. What saves the workers is that none of them waits
before it has found the heap empty: a worker whose time is up comes back to
the heap, so it is on its way to the entries like one that was notified.
-/

namespace VllmScheduler

/-! ## `dequeue` with a timeout -/

/-- The readings of `time.monotonic()` in a turn of `dequeue`. -/
structure DequeueClock (K : Type) where
  /-- For the deadline. -/
  started : K
  /-- For the wait of the item returned. -/
  popped : K
  /-- Compared with the deadline. -/
  checked : K
  /-- Subtracted from the deadline. -/
  remaining : K
deriving DecidableEq

/-- What a `dequeue` comes to from where it has the lock. -/
inductive DequeueTurn (Id K P : Type) where
  | returned (item : PrioritizedItem Id K P)
  | timedOut
  | waits (deadline : Option K)
deriving DecidableEq

section Turn

variable {Id K P : Type} [DecidableEq Id] [Field K] [LinearOrder K] {H : Heapq Id K P}

/-- `time.monotonic() + timeout if timeout else None`. -/
def dequeueDeadline (timeout : Option K) (started : K) : Option K :=
  timeout.bind fun t => if t = 0 then none else some (started + t)

/-- What `dequeue` does with the heap empty. -/
def waitOrRaise (deadline : Option K) (clock : DequeueClock K) : DequeueTurn Id K P :=
  match deadline with
  | none => .waits none
  | some d =>
    -- `if deadline and ...` skips the first test for a deadline of zero
    if d ≠ 0 ∧ d ≤ clock.checked then .timedOut
    else if d - clock.remaining ≤ 0 then .timedOut
    else .waits (some d)

/-- `dequeue` from where it has the lock to where it returns, raises or
waits. -/
def PriorityQueue.dequeueTurn (q : PriorityQueue H) (deadline : Option K)
    (clock : DequeueClock K) : PriorityQueue H × DequeueTurn Id K P :=
  let result := q.dequeue clock.popped
  match result.2 with
  | some item => (result.1, .returned item)
  | none => (result.1, waitOrRaise deadline clock)

end Turn

/-! ## The workers -/

/-- Where a worker stands. -/
inductive DispatchWorker (K : Type) where
  /-- Has called `acquire`; waits for the lock. -/
  | calling
  | parked (deadline : Option K)
  /-- Notified; waits for the lock. -/
  | notified (deadline : Option K)
  /-- Given up by `wait_for`; waits for the lock to leave the wait. -/
  | expired
deriving DecidableEq

/-- What `notify` does to a worker. -/
def DispatchWorker.wake {K : Type} : DispatchWorker K → DispatchWorker K
  | .parked deadline => .notified deadline
  | w => w

/-- What a worker is to the entries of the heap. -/
def DispatchWorker.role {K : Type} : DispatchWorker K → Phase
  | .parked _ => .parked
  | _ => .ready

/-- The queue and the workers. -/
structure DispatchSystem {Id K P : Type} [LinearOrder K] (H : Heapq Id K P) where
  queue : PriorityQueue H
  workers : List (DispatchWorker K)

/-- What can happen next; a `notify` goes to the worker `wakes` where any is
parked. -/
inductive DispatchEvent (Id K P : Type) where
  | enqueue (requestId : Id) (priority : K) (payload : P) (now : K) (wakes : ℕ)
  | updatePriority (requestId : Id) (newPriority : K) (wakes : ℕ)
  | cancel (requestId : Id)
  /-- A worker that calls or was notified gets the lock. -/
  | turn (i : ℕ) (clock : DequeueClock K)
  /-- `wait_for` gives up a wait, notified or not. -/
  | expire (i : ℕ) (now : K)
  /-- The wait that was given up gets the lock back and raises, and the
  worker calls again. Some versions of `asyncio` pass the notify on that
  came to such a wait, others do not. -/
  | leave (i : ℕ) (passes : Option ℕ)
deriving DecidableEq

namespace DispatchSystem

variable {Id K P : Type} [DecidableEq Id] [Field K] [LinearOrder K] {H : Heapq Id K P}

/-- `n` workers that have just been created. -/
def init (H : Heapq Id K P) (n : ℕ) : DispatchSystem H :=
  ⟨PriorityQueue.init H, List.replicate n .calling⟩

/-- Worker `i` can be the one a notify wakes. -/
def Notifiable (s : DispatchSystem H) (i : ℕ) : Prop :=
  (s.workers.map DispatchWorker.role)[i]? = some .parked ∨ ∀ w ∈ s.workers, w.role ≠ .parked

instance (s : DispatchSystem H) (i : ℕ) : Decidable (s.Notifiable i) :=
  inferInstanceAs (Decidable (_ ∨ _))

/-- A turn of worker `i`, and the item `_dispatch_loop` creates a task
for. -/
def take (s : DispatchSystem H) (i : ℕ) (deadline : Option K) (clock : DequeueClock K) :
    DispatchSystem H × Option (PrioritizedItem Id K P) :=
  let result := s.queue.dequeueTurn deadline clock
  match result.2 with
  | .returned item => (⟨result.1, s.workers.set i .calling⟩, some item)
  | .timedOut => (⟨result.1, s.workers.set i .calling⟩, none)
  | .waits deadline => (⟨result.1, s.workers.set i (.parked deadline)⟩, none)

/-- What an event does; nothing, where its worker does not stand there. -/
def step (s : DispatchSystem H) :
    DispatchEvent Id K P → DispatchSystem H × Option (PrioritizedItem Id K P)
  | .enqueue requestId priority payload now wakes =>
    (⟨s.queue.enqueue now requestId priority payload,
      s.workers.modify wakes DispatchWorker.wake⟩, none)
  | .updatePriority requestId newPriority wakes =>
    let result := s.queue.updatePriority requestId newPriority
    (⟨result.1, if result.2 then s.workers.modify wakes DispatchWorker.wake else s.workers⟩, none)
  | .cancel requestId => (⟨(s.queue.cancel requestId).1, s.workers⟩, none)
  | .turn i clock =>
    match s.workers[i]? with
    | some .calling => s.take i (dequeueDeadline (some 1) clock.started) clock
    | some (.notified deadline) => s.take i deadline clock
    | _ => (s, none)
  | .expire i now =>
    match s.workers[i]? with
    | some (.parked (some deadline)) | some (.notified (some deadline)) =>
      if deadline ≤ now then (⟨s.queue, s.workers.set i .expired⟩, none) else (s, none)
    | _ => (s, none)
  | .leave i passes =>
    match s.workers[i]? with
    | some .expired =>
      let workers := s.workers.set i .calling
      (⟨s.queue, passes.elim workers fun j => workers.modify j DispatchWorker.wake⟩, none)
    | _ => (s, none)

/-- The machine of `step`. -/
def machine (H : Heapq Id K P) :
    Machine (DispatchSystem H) (DispatchEvent Id K P) (Option (PrioritizedItem Id K P)) where
  step := step

/-- The notify of a push goes to a parked worker where there is one. -/
def Notifies (s : DispatchSystem H) : DispatchEvent Id K P → Prop
  | .enqueue _ _ _ _ wakes | .updatePriority _ _ wakes => s.Notifiable wakes
  | _ => True

instance (s : DispatchSystem H) : ∀ event : DispatchEvent Id K P, Decidable (s.Notifies event)
  | .enqueue _ _ _ _ wakes => inferInstanceAs (Decidable (s.Notifiable wakes))
  | .updatePriority _ _ wakes => inferInstanceAs (Decidable (s.Notifiable wakes))
  | .cancel _ | .turn _ _ | .expire _ _ | .leave _ _ => isTrue trivial

/-! ## What an event does -/

/-- **The cases of an event**, in the state it leads to. -/
inductive Happens (s : DispatchSystem H) : DispatchEvent Id K P → DispatchSystem H → Prop
  | enqueue (requestId : Id) (priority : K) (payload : P) (now : K) (wakes : ℕ) :
      Happens s (.enqueue requestId priority payload now wakes)
        ⟨s.queue.enqueue now requestId priority payload,
          s.workers.modify wakes DispatchWorker.wake⟩
  /-- `update_priority` pushes a new entry and notifies. -/
  | repush (requestId : Id) (newPriority : K) (wakes : ℕ) (q : PriorityQueue H) :
      q.depth = s.queue.depth + 1 →
      Happens s (.updatePriority requestId newPriority wakes)
        ⟨q, s.workers.modify wakes DispatchWorker.wake⟩
  | cancel (requestId : Id) :
      Happens s (.cancel requestId) ⟨(s.queue.cancel requestId).1, s.workers⟩
  /-- A worker returns with an item or because its time is up, and calls
  again. -/
  | back (i : ℕ) (clock : DequeueClock K) (w : DispatchWorker K) (q : PriorityQueue H) :
      s.workers[i]? = some w → q.depth ≤ s.queue.depth →
      Happens s (.turn i clock) ⟨q, s.workers.set i .calling⟩
  /-- A worker finds the heap empty and waits. -/
  | park (i : ℕ) (clock : DequeueClock K) (deadline : Option K) (q : PriorityQueue H) :
      q.depth = 0 → Happens s (.turn i clock) ⟨q, s.workers.set i (.parked deadline)⟩
  | expire (i : ℕ) (now : K) (w : DispatchWorker K) :
      s.workers[i]? = some w → Happens s (.expire i now) ⟨s.queue, s.workers.set i .expired⟩
  | leave (i : ℕ) (passes : Option ℕ) (w : DispatchWorker K) :
      s.workers[i]? = some w →
      Happens s (.leave i passes) ⟨s.queue, passes.elim (s.workers.set i .calling) fun j =>
        (s.workers.set i .calling).modify j DispatchWorker.wake⟩
  /-- The event changes nothing. -/
  | idle (event : DispatchEvent Id K P) : Happens s event s

variable {s : DispatchSystem H} {i : ℕ}

theorem depth_dequeue_le (q : PriorityQueue H) (now : K) :
    (q.dequeue now).1.depth ≤ q.depth := by
  refine PriorityQueue.dequeue_inv (I := fun r => r.depth ≤ q.depth) ?_ ?_ le_rfl
  · intro r item heap hpop _ hr
    rw [PriorityQueue.depth_eq, PriorityQueue.entries_eq_of_purge hpop,
      Multiset.card_cons] at hr
    exact (Nat.le_succ _).trans hr
  · intro r item heap hpop _ hr
    rw [PriorityQueue.depth_eq, PriorityQueue.entries_eq_of_serve now hpop,
      Multiset.card_cons] at hr
    exact (Nat.le_succ _).trans hr

theorem depth_dequeue_of_none {q : PriorityQueue H} {now : K} (h : (q.dequeue now).2 = none) :
    (q.dequeue now).1.depth = 0 := by
  rcases q.dequeue_cases now with ⟨r, -, hempty, heq⟩ | ⟨r, item, heap, -, -, -, heq⟩
  · rw [heq]
    exact H.size_eq_zero.mpr hempty
  · rw [heq] at h
    cases h

theorem happens_take {w : DispatchWorker K} (hw : s.workers[i]? = some w) (deadline : Option K)
    (clock : DequeueClock K) : s.Happens (.turn i clock) (s.take i deadline clock).1 := by
  have hle := depth_dequeue_le s.queue clock.popped
  rcases hres : (s.queue.dequeue clock.popped).2 with - | item
  · have hzero := depth_dequeue_of_none hres
    rcases hwait : (waitOrRaise deadline clock : DequeueTurn Id K P) with item | - | d <;>
      simp only [take, PriorityQueue.dequeueTurn, hres, hwait]
    · exact .back i clock w _ hw hle
    · exact .back i clock w _ hw hle
    · exact .park i clock d _ hzero
  · simp only [take, PriorityQueue.dequeueTurn, hres]
    exact .back i clock w _ hw hle

/-- **Every event is one of the cases.** -/
theorem happens_step (event : DispatchEvent Id K P) : s.Happens event (s.step event).1 := by
  cases event with
  | enqueue requestId priority payload now wakes =>
    exact .enqueue requestId priority payload now wakes
  | updatePriority requestId newPriority wakes =>
    rcases hget : s.queue.pending.get? requestId with - | item
    · simp only [step, PriorityQueue.updatePriority_of_none hget]
      exact .idle _
    · have hfound : (s.queue.updatePriority requestId newPriority).2 = true := by
        rw [PriorityQueue.updatePriority, hget]
      simp only [step, hfound, if_true]
      refine .repush requestId newPriority wakes _ ?_
      rw [PriorityQueue.depth_eq, PriorityQueue.entries_updatePriority hget,
        Multiset.card_cons, ← PriorityQueue.depth_eq]
  | cancel requestId => exact .cancel requestId
  | turn i clock =>
    rcases hw : s.workers[i]? with - | - | deadline | deadline | -
    case some.calling =>
      simp only [step, hw]
      exact happens_take hw _ clock
    case some.notified =>
      simp only [step, hw]
      exact happens_take hw _ clock
    all_goals
      simp only [step, hw]
      exact .idle _
  | expire i now =>
    rcases hw : s.workers[i]? with - | - | (- | deadline) | (- | deadline) | -
    case some.parked.some =>
      simp only [step, hw]
      split
      · exact .expire i now _ hw
      · exact .idle _
    case some.notified.some =>
      simp only [step, hw]
      split
      · exact .expire i now _ hw
      · exact .idle _
    all_goals
      simp only [step, hw]
      exact .idle _
  | leave i passes =>
    rcases hw : s.workers[i]? with - | - | deadline | deadline | -
    case some.expired =>
      simp only [step, hw]
      exact .leave i passes _ hw
    all_goals
      simp only [step, hw]
      exact .idle _

/-! ## The workers keep up -/

/-- The workers on their way cover the heap. -/
def Covering (s : DispatchSystem H) : Prop :=
  Covered s.queue.depth (s.workers.map DispatchWorker.role)

section Roles

omit [Field K] [LinearOrder K]

variable {w : DispatchWorker K}

theorem role_wake (w : DispatchWorker K) :
    w.wake.role = if w.role = .parked then .ready else w.role := by
  cases w <;> rfl

theorem role_ne_away : w.role ≠ .away := by
  cases w <;> nofun

end Roles

omit [DecidableEq Id] [Field K] in
/-- A worker that stood somewhere is on its way. -/
theorem Covering.ready (h : s.Covering) {w w' : DispatchWorker K} (hw : s.workers[i]? = some w)
    (hready : w'.role = .ready) :
    Covered s.queue.depth ((s.workers.set i w').map DispatchWorker.role) := by
  rw [List.map_set, hready]
  refine Covered.ready h (p := w.role) ?_ role_ne_away
  rw [List.getElem?_map, hw]
  rfl

/-- **An event keeps the heap covered.** -/
theorem Covering.step {event : DispatchEvent Id K P} (h : s.Covering) (hn : s.Notifies event) :
    (s.step event).1.Covering := by
  have hcase := s.happens_step event
  generalize (s.step event).1 = s' at hcase
  cases hcase with
  | enqueue requestId priority payload now wakes =>
    have hdepth : (s.queue.enqueue now requestId priority payload).depth = s.queue.depth + 1 :=
      H.size_push
    rw [Covering, hdepth]
    exact Covered.notify role_wake h hn
  | repush requestId newPriority wakes q hdepth =>
    rw [Covering, hdepth]
    exact Covered.notify role_wake h hn
  | cancel requestId =>
    rw [Covering, PriorityQueue.depth_eq, PriorityQueue.entries_cancel]
    exact h
  | back i clock w q hw hle => exact (h.ready hw rfl).mono hle
  | park i clock deadline q hzero =>
    rw [Covering, hzero]
    exact Covered.zero
  | expire i now w hw => exact h.ready hw rfl
  | leave i passes w hw =>
    have hback : Covered s.queue.depth ((s.workers.set i .calling).map DispatchWorker.role) :=
      h.ready hw rfl
    cases passes with
    | none => exact hback
    | some j =>
      exact Covered.wake role_wake hback
  | idle => exact h

theorem length_workers_step {event : DispatchEvent Id K P} :
    (s.step event).1.workers.length = s.workers.length := by
  have hcase := s.happens_step event
  generalize (s.step event).1 = s' at hcase
  cases hcase with
  | leave i passes w hw => cases passes <;> simp
  | _ => simp

omit [DecidableEq Id] [Field K] in
/-- As many workers are on their way as there are entries, or all of them. -/
theorem Covering.min_le (h : s.Covering) :
    min s.queue.depth s.workers.length ≤ s.workers.countP fun w => w.role = .ready := by
  have hcount : (s.workers.countP fun w => w.role = .ready) =
      (s.workers.map DispatchWorker.role).count .ready := by
    rw [List.count, List.countP_map]
    rfl
  by_cases hparked : .parked ∈ s.workers.map DispatchWorker.role
  · rw [hcount]
    exact (min_le_left _ _).trans (h hparked)
  · refine (min_le_right _ _).trans (le_of_eq (List.countP_eq_length.mpr fun w hw => ?_).symm)
    have hne : w.role ≠ .parked := fun heq => hparked (heq ▸ List.mem_map_of_mem hw)
    cases w with
    | parked deadline => exact absurd rfl hne
    | _ => rfl

omit [Field K] in
/-- An entry without a tombstone survives the purges. -/
theorem mem_entries_of_purges {q r : PriorityQueue H} (h : PriorityQueue.Purges q r)
    {item : PrioritizedItem Id K P} (hitem : item ∈ q.entries)
    (hlive : item.requestId ∉ q.cancelled) : item ∈ r.entries := by
  refine (h.inv (I := fun r => item ∈ r.entries ∧ item.requestId ∉ r.cancelled) ?_
    ⟨hitem, hlive⟩).1
  rintro r purged heap hpop hc ⟨hmem, hnot⟩
  rw [PriorityQueue.entries_eq_of_purge hpop, Multiset.mem_cons] at hmem
  refine ⟨hmem.resolve_left fun heq => hnot (heq ▸ hc), fun hmem' => ?_⟩
  exact hnot (Finset.mem_of_mem_erase hmem')

/-- **A dequeue that has something to serve serves it**: an entry that no
entry without a tombstone comes before. -/
theorem dequeue_of_live {q : PriorityQueue H} {x : PrioritizedItem Id K P} (hx : x ∈ q.entries)
    (hlive : x.requestId ∉ q.cancelled) (now : K) :
    ∃ item, (q.dequeue now).2 = some item ∧ item ∈ q.entries ∧
      ∀ y ∈ q.entries, y.requestId ∉ q.cancelled → item.key ≤ y.key := by
  rcases q.dequeue_cases now with ⟨r, hr, hempty, -⟩ | ⟨r, item, heap, hr, hpop, -, heq⟩
  · have hmem : x ∈ H.bag r.heap := mem_entries_of_purges hr hx hlive
    rw [hempty] at hmem
    exact absurd hmem (Multiset.notMem_zero x)
  · refine ⟨item, by rw [heq], hr.trimmed.1.entries_subset (H.mem_of_pop hpop), ?_⟩
    intro y hy hylive
    exact H.key_le_of_pop hpop (mem_entries_of_purges hr hy hylive)

theorem take_of_some {deadline : Option K} {clock : DequeueClock K}
    {item : PrioritizedItem Id K P} (h : (s.queue.dequeue clock.popped).2 = some item) :
    (s.take i deadline clock).2 = some item := by
  simp only [take, PriorityQueue.dequeueTurn, h]

/-- A worker that is on its way dispatches an item as soon as it has had the
lock, once or twice, whatever the clock says. -/
theorem dispatches_of_ready {w : DispatchWorker K} (hw : s.workers[i]? = some w)
    (hready : w.role = .ready) {clock : DequeueClock K} {item : PrioritizedItem Id K P}
    (h : (s.queue.dequeue clock.popped).2 = some item) :
    ((s.step (.leave i none)).1.step (.turn i clock)).2 = some item := by
  cases w with
  | calling =>
    simp only [step, hw]
    exact take_of_some h
  | parked deadline => cases hready
  | notified deadline =>
    simp only [step, hw]
    exact take_of_some h
  | expired =>
    obtain ⟨hlt, -⟩ := List.getElem?_eq_some_iff.mp hw
    have hcalling : (s.workers.set i .calling)[i]? = some (DispatchWorker.calling (K := K)) := by
      rw [List.getElem?_set_self hlt]
    simp only [step, hw, Option.elim_none, hcalling]
    exact take_of_some h

variable {n : ℕ} {events : List (DispatchEvent Id K P)}

/-- **The workers keep up with the queue**, although timeouts swallow
notifies. In every reachable state of `n` workers as many of them are on
their way as there are entries in the heap, or all of them; and where an
entry is not cancelled, each worker on its way, left alone, leaves its wait
and dispatches an entry that no such entry comes before. -/
theorem workers_keep_up (hrun : (machine H).Along Notifies (init H n) events) :
    let s := (machine H).run (init H n) events
    min s.queue.depth n ≤ (s.workers.countP fun w => w.role = .ready) ∧
      ∀ x ∈ s.queue.entries, x.requestId ∉ s.queue.cancelled →
        ∀ i w, s.workers[i]? = some w → w.role = .ready → ∀ clock : DequeueClock K,
          ∃ item ∈ s.queue.entries,
            ((s.step (.leave i none)).1.step (.turn i clock)).2 = some item ∧
              ∀ y ∈ s.queue.entries, y.requestId ∉ s.queue.cancelled → item.key ≤ y.key := by
  intro s
  have hlength : s.workers.length = n := by
    refine Machine.run_inv_of_step (M := machine H)
      (I := fun s : DispatchSystem H => s.workers.length = n) (fun s event h => ?_)
      List.length_replicate
    exact length_workers_step.trans h
  have hcover : s.Covering := by
    refine Machine.run_inv (I := Covering) (fun s event h hn => h.step hn) ?_ hrun
    refine Covered.of_not_mem ?_
    rw [init, List.map_replicate]
    exact fun hmem => nomatch List.eq_of_mem_replicate hmem
  refine ⟨hlength ▸ hcover.min_le, fun x hx hlive i w hw hready clock => ?_⟩
  obtain ⟨item, hres, hitem, hleast⟩ := dequeue_of_live hx hlive clock.popped
  exact ⟨item, hitem, dispatches_of_ready hw hready hres, hleast⟩

/-- Two workers wait; the first is notified of a request and gives up just
then. The second still waits when it is back at the heap. -/
def swallowedRun : List (DispatchEvent ℕ ℚ Unit) :=
  [.turn 0 ⟨0, 0, 0, 0⟩, .turn 1 ⟨0, 0, 0, 0⟩, .enqueue 7 30 () 1 0, .expire 0 1, .leave 0 none]

theorem swallowedRun_keeps_up :
    let s := (machine (listHeap PrioritizedItem.key)).run (init _ 2) swallowedRun
    s.workers = [.calling, .parked (some 1)] ∧ s.queue.depth = 1 ∧
      min s.queue.depth 2 ≤ (s.workers.countP fun w => w.role = .ready) := by
  have hrun : (machine (listHeap PrioritizedItem.key)).Along Notifies (init _ 2) swallowedRun := by
    decide +kernel
  exact ⟨by decide +kernel, by decide +kernel, (workers_keep_up hrun).1⟩

end DispatchSystem

end VllmScheduler
