import Mathlib.Algebra.Field.Rat
import Mathlib.Algebra.Order.Ring.Rat
import VllmScheduler.Common.Monitor
import VllmScheduler.Cpp.Scheduler
import VllmScheduler.Queue.Lazy
/-!
# Concurrent calls on the C++ scheduler

Any number of threads inside `submit`, `cancel` and `acquire` of
`cpp/src/priority_queue.cpp`. An `acquire` holds the mutex twice: to age the
queue, and in `dequeue`. The `wait_for` of `dequeue` takes a predicate, so a
thread that leaves the wait, notified, by a spurious wake-up or because its
time is up, looks at the heap again before it decides anything. That is why
no wake-up is lost here although a thread may be notified just when its time
is up: it takes the entry it was notified of all the same.

Under the mutex the operations happen one after the other. In that order
they are a history of the abstract priority queue, ordered by priority and
then by time of the enqueue, and what the threads return is what the history
takes.
-/

namespace VllmScheduler

/-- Where an `acquire` stands. -/
inductive CppCall (Id K : Type) where
  /-- Waits for the mutex of `apply_aging`. -/
  | aging
  /-- Waits for the mutex of `dequeue`. -/
  | arriving
  /-- In `wait_for`. -/
  | parked
  /-- Has left the wait, because its time is up or not, and waits for the
  mutex again. -/
  | woken (expired : Bool)
  | returned (req : Option (CppRequest Id K))
deriving DecidableEq

/-- What `notify_one` does to a call. -/
def CppCall.wake {Id K : Type} : CppCall Id K → CppCall Id K
  | .parked => .woken false
  | c => c

/-- What a call is to the items of the heap. -/
def CppCall.role {Id K : Type} : CppCall Id K → Phase
  | .aging | .arriving | .woken _ => .ready
  | .parked => .parked
  | .returned _ => .away

/-- The request a call has returned. -/
def CppCall.result {Id K : Type} : CppCall Id K → Option (CppRequest Id K)
  | .returned req => req
  | _ => none

/-- The queue and the `acquire` calls, in the order they were made. -/
structure CppSystem {Id K : Type} [LinearOrder K] (H : CppHeap Id K) where
  queue : CppPriorityQueue H
  calls : List (CppCall Id K)

/-- What can happen next. -/
inductive CppEvent (Id K : Type) where
  /-- `submit`, whose `notify_one` goes to the call `wakes` where any is
  parked. -/
  | submit (req : CppRequest Id K) (now : ℤ) (wakes : ℕ)
  | cancel (requestId : Id)
  /-- A new `acquire`. -/
  | call
  /-- An `acquire` gets the mutex of `apply_aging`. -/
  | age (i : ℕ) (now : ℤ)
  /-- It gets the mutex in `dequeue`. -/
  | run (i : ℕ) (now : ℤ)
  /-- It leaves the wait without a notify. -/
  | spurious (i : ℕ)
  /-- Its time is up. -/
  | expire (i : ℕ)
deriving DecidableEq

/-- What an event shows. -/
inductive CppEventOut (Id K : Type) where
  | done
  | submitted
  | cancelled (found : Bool)
  /-- A call returns. -/
  | returned (req : Option (CppRequest Id K))
deriving DecidableEq

/-! ## The queue without its layout -/

namespace CppPriorityQueue

variable {Id K : Type} [DecidableEq Id] [Field K] [LinearOrder K] {H : CppHeap Id K}

variable {q : CppPriorityQueue H} {now : ℤ}

omit [DecidableEq Id] in
theorem depth_eq_zero_iff : q.depth = 0 ↔ q.items = 0 := H.size_eq_zero

omit [DecidableEq Id] in
/-- Aging rewrites values of `pending` and no id. -/
theorem keyed_applyAging {factor maxBoost : K} :
    (q.applyAging now factor maxBoost).keyed = q.keyed := by
  have hids : ∀ f : CppHeapItem Id K → CppHeapItem Id K,
      (q.pending.mapValues f).ids = q.pending.ids := by
    intro f
    refine Set.ext fun i => ?_
    rw [Dict.mem_ids, Dict.mem_ids, Dict.mem_iff, Dict.mem_iff, Dict.keys, Dict.keys,
      Dict.mapValues, List.map_map]
    rfl
  rw [keyed, keyed, lazyBy, lazyBy, pending_applyAging, hids]
  rfl

omit [Field K] in
theorem step_cancel (requestId : Id) :
    LazyQueue.Step q.keyed (.cancel requestId) (.cancelled (q.cancel requestId).2)
      (q.cancel requestId).1.keyed := by
  by_cases hl : requestId ∈ q.pending
  · simp only [cancel, if_pos hl]
    exact .cancel hl
  · simp only [cancel, if_neg hl]
    exact .miss hl

theorem depth_enqueue {req : CppRequest Id K} : (q.enqueue now req).depth = q.depth + 1 :=
  H.size_push

theorem depth_cancel {requestId : Id} : (q.cancel requestId).1.depth = q.depth := by
  unfold cancel
  split <;> rfl

theorem depth_dequeue_of_none (h : (q.dequeue now).2 = none) : (q.dequeue now).1.depth = 0 := by
  have hd := q.dequeues_keyed now
  rw [h] at hd
  rw [← card_keyed, hd.entries_of_none, Multiset.card_zero]

theorem depth_dequeue_of_some {req : CppRequest Id K} (h : (q.dequeue now).2 = some req) :
    (q.dequeue now).1.depth + 1 ≤ q.depth := by
  have hd := q.dequeues_keyed now
  rw [h] at hd
  rw [← card_keyed, ← card_keyed]
  exact hd.card_of_some

end CppPriorityQueue

/-! ## Threads -/

namespace CppSystem

variable {Id K : Type} [DecidableEq Id] [Field K] [LinearOrder K] {H : CppHeap Id K}

def init (H : CppHeap Id K) : CppSystem H := ⟨CppPriorityQueue.init H, []⟩

/-- Call `i` can be the one a notify wakes. -/
def Notifiable (s : CppSystem H) (i : ℕ) : Prop :=
  s.calls[i]? = some .parked ∨ ∀ c ∈ s.calls, c ≠ .parked

/-- `dequeue` from where it has the mutex: the predicate of `wait_for`, and
the loop where it holds. -/
def look (s : CppSystem H) (i : ℕ) (now : ℤ) (expired : Bool) :
    CppSystem H × CppEventOut Id K :=
  if s.queue.depth = 0 then
    if expired then ({ s with calls := s.calls.set i (.returned none) }, .returned none)
    else ({ s with calls := s.calls.set i .parked }, .done)
  else
    let result := s.queue.dequeue now
    (⟨result.1, s.calls.set i (.returned result.2)⟩, .returned result.2)

/-- What an event does; nothing, where its call does not stand there. -/
def step (s : CppSystem H) : CppEvent Id K → CppSystem H × CppEventOut Id K
  | .submit req now wakes =>
    (⟨s.queue.enqueue now req, s.calls.modify wakes CppCall.wake⟩, .submitted)
  | .cancel requestId =>
    let result := s.queue.cancel requestId
    ({ s with queue := result.1 }, .cancelled result.2)
  | .call => ({ s with calls := s.calls ++ [.aging] }, .done)
  | .age i now =>
    match s.calls[i]? with
    | some .aging =>
      (⟨s.queue.applyAging now (1 / 1000) 500, s.calls.set i .arriving⟩, .done)
    | _ => (s, .done)
  | .run i now =>
    match s.calls[i]? with
    | some .arriving => s.look i now false
    | some (.woken expired) => s.look i now expired
    | _ => (s, .done)
  | .spurious i =>
    match s.calls[i]? with
    | some .parked => ({ s with calls := s.calls.set i (.woken false) }, .done)
    | _ => (s, .done)
  | .expire i =>
    match s.calls[i]? with
    | some .parked => ({ s with calls := s.calls.set i (.woken true) }, .done)
    | some (.woken _) => ({ s with calls := s.calls.set i (.woken true) }, .done)
    | _ => (s, .done)

/-- The machine of `step`. -/
def machine (H : CppHeap Id K) : Machine (CppSystem H) (CppEvent Id K) (CppEventOut Id K) where
  step := step

/-- A notify goes to a parked call where there is one. -/
def Notifies (s : CppSystem H) : CppEvent Id K → Prop
  | .submit _ _ wakes => s.Notifiable wakes
  | _ => True

/-- The id an event submits. -/
def submittedId : CppEvent Id K → Option Id
  | .submit req _ _ => some req.requestId
  | _ => none

/-- What a submission reads of the clock. -/
def submitReading : CppEvent Id K → Option ℤ
  | .submit _ now _ => some now
  | _ => none

/-! ## What an event does -/

/-- **The cases of an event.** -/
inductive Happens (s : CppSystem H) : CppEvent Id K → CppSystem H → CppEventOut Id K → Prop
  | submit (req : CppRequest Id K) (now : ℤ) (wakes : ℕ) :
      Happens s (.submit req now wakes)
        ⟨s.queue.enqueue now req, s.calls.modify wakes CppCall.wake⟩ .submitted
  | cancel (requestId : Id) :
      Happens s (.cancel requestId) ⟨(s.queue.cancel requestId).1, s.calls⟩
        (.cancelled (s.queue.cancel requestId).2)
  | call : Happens s .call ⟨s.queue, s.calls ++ [.aging]⟩ .done
  | age (i : ℕ) (now : ℤ) :
      s.calls[i]? = some .aging →
      Happens s (.age i now) ⟨s.queue.applyAging now (1 / 1000) 500, s.calls.set i .arriving⟩ .done
  /-- A call finds the heap empty, and its time is up. -/
  | timeOut (i : ℕ) (now : ℤ) (c : CppCall Id K) :
      s.calls[i]? = some c → c.role = .ready → s.queue.depth = 0 →
      Happens s (.run i now) ⟨s.queue, s.calls.set i (.returned none)⟩ (.returned none)
  /-- A call finds the heap empty and waits. -/
  | park (i : ℕ) (now : ℤ) (c : CppCall Id K) :
      s.calls[i]? = some c → c.role = .ready → s.queue.depth = 0 →
      Happens s (.run i now) ⟨s.queue, s.calls.set i .parked⟩ .done
  /-- A call goes through the loop. -/
  | serve (i : ℕ) (now : ℤ) (c : CppCall Id K) :
      s.calls[i]? = some c → c.role = .ready →
      Happens s (.run i now) ⟨(s.queue.dequeue now).1,
        s.calls.set i (.returned (s.queue.dequeue now).2)⟩ (.returned (s.queue.dequeue now).2)
  /-- A call leaves the wait, or its time is up on the way to the mutex. -/
  | leave (event : CppEvent Id K) (i : ℕ) (c : CppCall Id K) (expired : Bool) :
      event = .spurious i ∨ event = .expire i →
      s.calls[i]? = some c → c.role = .parked ∨ c.role = .ready →
      Happens s event ⟨s.queue, s.calls.set i (.woken expired)⟩ .done
  /-- The call does not stand there. -/
  | idle (event : CppEvent Id K) : submittedId event = none → Happens s event s .done

variable {s : CppSystem H} {i : ℕ}

theorem happens_look {c : CppCall Id K} (hc : s.calls[i]? = some c) (hrole : c.role = .ready)
    (now : ℤ) (expired : Bool) :
    s.Happens (.run i now) (s.look i now expired).1 (s.look i now expired).2 := by
  unfold look
  by_cases hdepth : s.queue.depth = 0
  · rw [if_pos hdepth]
    cases expired with
    | true => exact .timeOut i now c hc hrole hdepth
    | false => exact .park i now c hc hrole hdepth
  · rw [if_neg hdepth]
    exact .serve i now c hc hrole

/-- **Every event is one of the cases.** -/
theorem happens_step (event : CppEvent Id K) :
    s.Happens event (s.step event).1 (s.step event).2 := by
  cases event with
  | submit req now wakes => exact .submit req now wakes
  | cancel requestId => exact .cancel requestId
  | call => exact .call
  | age i now =>
    rcases hc : s.calls[i]? with - | - | - | - | expired | req
    case some.aging =>
      simp only [step, hc]
      exact .age i now hc
    all_goals
      simp only [step, hc]
      exact .idle _ rfl
  | run i now =>
    rcases hc : s.calls[i]? with - | - | - | - | expired | req
    case some.arriving =>
      simp only [step, hc]
      exact happens_look hc rfl now false
    case some.woken =>
      simp only [step, hc]
      exact happens_look hc rfl now expired
    all_goals
      simp only [step, hc]
      exact .idle _ rfl
  | spurious i =>
    rcases hc : s.calls[i]? with - | - | - | - | expired | req
    case some.parked =>
      simp only [step, hc]
      exact .leave _ i _ false (Or.inl rfl) hc (Or.inl rfl)
    all_goals
      simp only [step, hc]
      exact .idle _ rfl
  | expire i =>
    rcases hc : s.calls[i]? with - | - | - | - | expired | req
    case some.parked =>
      simp only [step, hc]
      exact .leave _ i _ true (Or.inr rfl) hc (Or.inl rfl)
    case some.woken =>
      simp only [step, hc]
      exact .leave _ i _ true (Or.inr rfl) hc (Or.inr rfl)
    all_goals
      simp only [step, hc]
      exact .idle _ rfl

/-! ## No wake-up is lost -/

/-- A lost wake-up: an item in the heap, a parked call, and no call on its
way to the heap. -/
def Lost (s : CppSystem H) : Prop :=
  s.queue.items ≠ 0 ∧ .parked ∈ s.calls ∧ ∀ c ∈ s.calls, c.role ≠ .ready

/-- The calls on their way cover the heap. -/
def Covering (s : CppSystem H) : Prop := Covered s.queue.depth (s.calls.map CppCall.role)

section Calls

omit [DecidableEq Id] [Field K] [LinearOrder K]

variable {c : CppCall Id K}

theorem role_eq_parked_iff : c.role = .parked ↔ c = .parked := by
  cases c <;> simp [CppCall.role]

theorem role_wake (c : CppCall Id K) :
    c.wake.role = if c.role = .parked then .ready else c.role := by
  cases c <;> rfl

theorem result_wake : c.wake.result = c.result := by
  cases c <;> rfl

theorem result_of_role (h : c.role ≠ .away) : c.result = none := by
  cases c with
  | returned req => exact absurd rfl h
  | _ => rfl

end Calls

omit [DecidableEq Id] in
/-- A push with its notify. -/
theorem Covering.push (h : s.Covering) (hi : s.Notifiable i) :
    Covered (s.queue.depth + 1) ((s.calls.modify i CppCall.wake).map CppCall.role) := by
  refine Covered.notify role_wake h (hi.imp (fun hparked => ?_) fun hnone c hc hrole => ?_)
  · rw [List.getElem?_map, hparked]
    rfl
  · exact hnone c hc (role_eq_parked_iff.mp hrole)

/-- **An event keeps the heap covered.** -/
theorem Covering.step {event : CppEvent Id K} (h : s.Covering) (hn : s.Notifies event) :
    (s.step event).1.Covering := by
  have hcase := s.happens_step event
  generalize (s.step event).1 = s' at hcase
  generalize (s.step event).2 = out at hcase
  -- a call on its way, or a parked one that gets on its way
  have hset : ∀ {i : ℕ} {c c' : CppCall Id K}, s.calls[i]? = some c → c'.role = .ready →
      c.role ≠ .away → Covered s.queue.depth ((s.calls.set i c').map CppCall.role) := by
    intro i c c' hc hready hrole
    rw [List.map_set, hready]
    refine Covered.ready h (p := c.role) ?_ hrole
    rw [List.getElem?_map, hc]
    rfl
  cases hcase with
  | submit req now wakes =>
    rw [Covering, CppPriorityQueue.depth_enqueue]
    exact h.push hn
  | cancel requestId =>
    rw [Covering, CppPriorityQueue.depth_cancel]
    exact h
  | call =>
    rw [Covering, List.map_append]
    exact Covered.arrive h
  | age i now hc => exact hset hc rfl nofun
  | timeOut i now c _ _ hdepth | park i now c _ _ hdepth =>
    rw [Covering, hdepth]
    exact Covered.zero
  | serve i now c hc hrole =>
    rcases hres : (s.queue.dequeue now).2 with - | req
    · rw [Covering, CppPriorityQueue.depth_dequeue_of_none hres]
      exact Covered.zero
    · rw [Covering, List.map_set]
      refine Covered.serve (Covered.mono h (CppPriorityQueue.depth_dequeue_of_some hres)) ?_
      rw [List.getElem?_map, hc, Option.map_some, hrole]
  | leave event i c expired _ hc hrole =>
    refine hset hc rfl fun haway => ?_
    rcases hrole with hrole | hrole <;> rw [hrole] at haway <;> cases haway
  | idle => exact h

variable {events : List (CppEvent Id K)}

/-- **No wake-up is lost** in the C++ queue: with any number of threads,
whenever their time is up and whatever spurious wake-ups there are, no run
leads to an item in the heap, a parked call and no call on its way. -/
theorem no_wakeup_lost (hrun : (machine H).Along Notifies (init H) events) :
    ¬ ((machine H).run (init H) events).Lost := by
  rintro ⟨hitems, hparked, hready⟩
  have hcover : ((machine H).run (init H) events).Covering :=
    Machine.run_inv (I := Covering) (fun s event h hn => h.step hn)
      (Covered.of_not_mem List.not_mem_nil) hrun
  have hcount : (((machine H).run (init H) events).calls.map CppCall.role).count .ready = 0 := by
    rw [List.count_eq_zero]
    intro hmem
    obtain ⟨c, hc, hrole⟩ := List.mem_map.mp hmem
    exact hready c hc hrole
  have hle := hcover (List.mem_map.mpr ⟨.parked, hparked, rfl⟩)
  rw [hcount, Nat.le_zero, CppPriorityQueue.depth_eq_zero_iff] at hle
  exact hitems hle

/-! ## The operations, one after the other -/

/-- The operation an event is, and its answer. -/
def view : CppEvent Id K × CppEventOut Id K →
    Option (LazyOp (K ×ₗ ℤ) Id × LazyAnswer Id)
  | (.submit req now _, .submitted) =>
    some (.enqueue (toLex (CppPriorityQueue.priorityOf req, now)) req.requestId, .enqueued)
  | (.cancel requestId, .cancelled found) => some (.cancel requestId, .cancelled found)
  | (.run _ _, .returned req) => some (.dequeue, .dequeued (req.map CppRequest.requestId))
  | _ => none

/-- **What the threads do is done to the queue, one operation after the
other.** -/
theorem linearizes :
    LazyQueue.Linearizes (machine H) view (fun _ _ => True) fun s q => s.queue.keyed = q := by
  rintro s _ event - rfl
  have hcase := s.happens_step event
  have hstep : (machine H).step s event = s.step event := rfl
  rw [hstep]
  generalize s.step event = r at hcase ⊢
  obtain ⟨s', out⟩ := r
  dsimp only at hcase ⊢
  cases hcase with
  | submit req now wakes => exact ⟨_, .enqueue, CppPriorityQueue.lazyBy_enqueue⟩
  | cancel requestId => exact ⟨_, CppPriorityQueue.step_cancel requestId, rfl⟩
  | call => rfl
  | age i now _ => exact CppPriorityQueue.keyed_applyAging
  | timeOut i now c _ _ hdepth =>
    refine ⟨_, .dequeue (.empty ?_), rfl⟩
    rw [← Multiset.card_eq_zero, CppPriorityQueue.card_keyed, hdepth]
  | park => rfl
  | serve i now c _ _ => exact ⟨_, .dequeue (s.queue.dequeues_keyed now), rfl⟩
  | leave event i c expired hevent _ _ => rcases hevent with rfl | rfl <;> rfl
  | idle event _ => cases event <;> rfl

/-- What an event brings into the queue is what it submits. -/
theorem Happens.brings {event : CppEvent Id K} {s' : CppSystem H} {out : CppEventOut Id K}
    (h : s.Happens event s' out) :
    LazyQueue.idsIn (view (event, out)).toList = (submittedId event).toList ∧
      (LazyQueue.prioritiesIn (view (event, out)).toList).map (fun key => (ofLex key).2) =
        (submitReading event).toList := by
  cases h with
  | leave event i c expired hevent _ _ => rcases hevent with rfl | rfl <;> exact ⟨rfl, rfl⟩
  | idle event hsub =>
    cases event with
    | submit req now wakes => cases hsub
    | _ => exact ⟨rfl, rfl⟩
  | _ => exact ⟨rfl, rfl⟩

/-- The ids and the clock readings a run brings into the queue are those of
its submissions. -/
theorem brings_log :
    LazyQueue.idsIn (LazyQueue.operations view ((machine H).log s events)) =
        events.filterMap submittedId ∧
      (LazyQueue.prioritiesIn (LazyQueue.operations view ((machine H).log s events))).map
        (fun key => (ofLex key).2) = events.filterMap submitReading := by
  induction events generalizing s with
  | nil => exact ⟨rfl, rfl⟩
  | cons event events ih =>
    obtain ⟨hids, hprios⟩ := (s.happens_step event).brings
    obtain ⟨hids', hprios'⟩ := ih (s := (s.step event).1)
    have hops : LazyQueue.operations view ((machine H).log s (event :: events)) =
        (view (event, (s.step event).2)).toList ++
          LazyQueue.operations view ((machine H).log (s.step event).1 events) :=
      filterMap_cons_toList
    constructor
    · rw [hops, LazyQueue.idsIn, List.filterMap_append, filterMap_cons_toList, ← hids, ← hids']
      rfl
    · rw [hops, LazyQueue.prioritiesIn, List.filterMap_append, List.map_append,
        filterMap_cons_toList, ← hprios, ← hprios']
      rfl

/-- What the calls have returned is what an event takes and what they had
returned before. -/
theorem Happens.returns {event : CppEvent Id K} {s' : CppSystem H} {out : CppEventOut Id K}
    (h : s.Happens event s' out) :
    ((s'.calls.filterMap CppCall.result).map CppRequest.requestId).Perm
      (LazyQueue.takenIds (view (event, out)).toList ++
        (s.calls.filterMap CppCall.result).map CppRequest.requestId) := by
  have hset : ∀ {i : ℕ} {c c' : CppCall Id K}, s.calls[i]? = some c → c.role ≠ .away →
      (((s.calls.set i c').filterMap CppCall.result).map CppRequest.requestId).Perm
        ((c'.result.map CppRequest.requestId).toList ++
          (s.calls.filterMap CppCall.result).map CppRequest.requestId) := by
    intro i c c' hc hrole
    have hperm : ((s.calls.set i c').filterMap CppCall.result).Perm
        (c'.result.toList ++ s.calls.filterMap CppCall.result) :=
      filterMap_set_perm hc (result_of_role hrole)
    have hmap := hperm.map CppRequest.requestId
    rwa [List.map_append, ← Option.toList_map] at hmap
  cases h with
  | submit req now wakes =>
    rw [filterMap_modify fun _ => result_wake]
    exact List.Perm.refl _
  | cancel requestId => exact List.Perm.refl _
  | call =>
    rw [List.filterMap_append, List.map_append]
    exact List.perm_append_comm
  | age i now hc => exact hset hc (by simp [CppCall.role])
  | timeOut i now c hc hrole _ => exact hset hc (by rw [hrole]; decide)
  | park i now c hc hrole _ => exact hset hc (by rw [hrole]; decide)
  | serve i now c hc hrole =>
    refine (hset hc (by rw [hrole]; decide)).trans ?_
    cases (s.queue.dequeue now).2 <;> exact List.Perm.refl _
  | leave event i c expired hevent hc hrole =>
    have haway : c.role ≠ .away := by rcases hrole with h | h <;> rw [h] <;> decide
    rcases hevent with rfl | rfl <;> exact hset hc haway
  | idle event _ => cases event <;> exact List.Perm.refl _

/-- **What the calls have returned is what the history takes.** -/
theorem returned_perm_taken :
    ((((machine H).run (init H) events).calls.filterMap CppCall.result).map
        CppRequest.requestId).Perm
      (LazyQueue.takenIds (LazyQueue.operations view ((machine H).log (init H) events))) := by
  refine Machine.log_inv (M := machine H) (s := init H) (H := fun _ => True)
    (I := fun _ log s => ((s.calls.filterMap CppCall.result).map CppRequest.requestId).Perm
      (LazyQueue.takenIds (LazyQueue.operations view log)))
    (fun _ _ _ => trivial) (List.Perm.refl _) ?_ trivial
  intro events event _ ih
  set s := (machine H).run (init H) events
  refine (s.happens_step event).returns.trans ?_
  rw [LazyQueue.operations, filterMap_snoc, LazyQueue.takenIds_append]
  exact List.perm_append_comm.trans (ih.append_right _)

/-- **The C++ scheduler is a priority queue to its threads.** Let any number
of threads submit requests with distinct ids at distinct times, cancel and
acquire, with any timeouts and spurious wake-ups. In the order in which they
held the mutex their operations are a history of the abstract priority queue,
by priority and then by time: an `acquire` returns the least request that is
neither returned nor cancelled, and `nullopt` only if there is none. What the
calls have returned is what the history takes, no request twice. -/
theorem threads_linearizable (hids : (events.filterMap submittedId).Nodup)
    (hclock : (events.filterMap submitReading).Nodup) :
    Serves Prod.snd id 0
        (LazyQueue.history
          (LazyQueue.operations view ((machine H).log (init H) events))) ∧
      ((((machine H).run (init H) events).calls.filterMap CppCall.result).map
          CppRequest.requestId).Perm
        (LazyQueue.takenIds (LazyQueue.operations view ((machine H).log (init H) events))) ∧
      ((((machine H).run (init H) events).calls.filterMap CppCall.result).map
        CppRequest.requestId).Nodup := by
  set ops := LazyQueue.operations view ((machine H).log (init H) events)
  obtain ⟨hin, hread⟩ : LazyQueue.idsIn ops = events.filterMap submittedId ∧
      (LazyQueue.prioritiesIn ops).map (fun key => (ofLex key).2) =
        events.filterMap submitReading := brings_log
  have hkeys : (LazyQueue.prioritiesIn ops).Nodup := by
    rw [← hread] at hclock
    exact hclock.of_map _
  have hserves : Serves Prod.snd id (LazyQueue.init : LazyQueue (K ×ₗ ℤ) Id).live
      (LazyQueue.history ops) := by
    refine LazyQueue.serves_of_linearizes linearizes
      (Machine.along_of_forall fun _ _ _ => trivial) CppPriorityQueue.lazyBy_init
      LazyQueue.sound_init ?_ ?_
    · rw [hin]
      simpa [LazyQueue.entryIds, LazyQueue.init] using hids
    · simpa [LazyQueue.init] using hkeys
  rw [LazyQueue.live_init] at hserves
  refine ⟨hserves, returned_perm_taken, ?_⟩
  exact returned_perm_taken.nodup_iff.mpr (LazyQueue.nodup_takenIds hserves (by rwa [hin]))

/-- A request of the demonstrations. -/
def demoRequest (i : String) (tokens : ℚ) : CppRequest String ℚ := ⟨i, "", 128, tokens, 0, 0⟩

/-- Two calls park. A submission notifies the first just before its time is
up; it takes the request all the same. The other one is woken for nothing,
waits again and runs out of time. -/
def crowdedRun : List (CppEvent String ℚ) :=
  [.call, .age 0 1, .run 0 2, .call, .age 1 3, .run 1 4, .submit (demoRequest "a" 10) 5 0,
    .expire 0, .spurious 1, .run 0 6, .run 1 7, .submit (demoRequest "b" 5) 8 1, .cancel "b",
    .expire 1, .run 1 9]

/-- The notifies of the run go to parked calls, and none is lost. -/
theorem crowdedRun_not_lost :
    ¬ ((machine (listHeap CppHeapItem.key)).run (init _) crowdedRun).Lost := by
  refine no_wakeup_lost ?_
  refine ⟨trivial, trivial, trivial, trivial, trivial, trivial, Or.inl (by decide +kernel), trivial,
    trivial, trivial, trivial, Or.inl (by decide +kernel), trivial, trivial, trivial, trivial⟩

/-- The first call returns the request, the second one nothing: what it was
notified of has been cancelled. -/
theorem crowdedRun_linearizable :
    ((machine (listHeap CppHeapItem.key)).run (init _) crowdedRun).calls =
        [.returned (some ⟨"a", "", 128, 10, 10, 5⟩), .returned none] ∧
      Serves Prod.snd id 0 (LazyQueue.history (LazyQueue.operations view
        ((machine (listHeap CppHeapItem.key)).log (init _) crowdedRun))) :=
  ⟨by decide +kernel, (threads_linearizable (by decide +kernel) (by decide +kernel)).1⟩

end CppSystem

end VllmScheduler
