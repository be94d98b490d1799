import VllmScheduler.Scheduler.Dispatch
/-!
# The Python gateway

`SchedulerGateway` of `python/scheduler/gateway.py` over the SJF scheduler,
as a machine. Its parties are the clients inside `submit_chat` and
`submit_chat_stream`, the `max_workers` dispatch workers, one forward task
for every request a worker has acquired, and the scheduler's aging loop;
the backend decides when a chunk arrives and when and how a forward ends.
A worker does not wait for the task it creates, so nothing ties the number
of tasks to the number of workers.

The request ids key what the source keeps in `metadata`: the future of a
plain request and the queue of a streaming one.
-/

namespace VllmScheduler

/-- How the backend call of a forward ends. -/
inductive BackendResult
  /-- A response, or the end of a stream. -/
  | answered (status : ℕ) (text : String)
  /-- An exception, on connect or later. -/
  | raised (error : String)
deriving DecidableEq

/-- The call ended without an exception. -/
def BackendResult.ok : BackendResult → Bool
  | answered _ _ => true
  | raised _ => false

/-- What a plain client's future is set to. -/
inductive ChatResult
  | json (text : String)
  | error (text : String)
deriving DecidableEq

/-- `result` in `_forward_request`, or its counterpart in the `except`
branch. -/
def BackendResult.chatResult : BackendResult → ChatResult
  | answered status text => if status = 200 then .json text else .error text
  | raised error => .error error

/-- A plain client's future. -/
inductive FutureState
  | pending
  | settled (result : ChatResult)
  | cancelled
deriving DecidableEq

/-- How far a `_forward_request` execution is. -/
inductive ForwardStatus
  | running
  /-- It went through the `try` block. -/
  | succeeded
  /-- It went through the `except` branch. -/
  | failed
deriving DecidableEq

/-- A `_forward_request` execution. -/
structure ForwardTask (Id : Type) where
  requestId : Id
  status : ForwardStatus
deriving DecidableEq

/-- The counters the gateway exports. -/
structure GatewayMetrics where
  success : ℕ
  error : ℕ
  timeouts : ℕ
  dropped : ℕ
deriving DecidableEq

/-- The gateway's state; `C` is the type of the chunks of a stream. -/
structure SchedulerGateway {Id K : Type} [LinearOrder K] (C : Type) (H : RequestHeap Id K) where
  scheduler : SJFScheduler H
  maxWorkers : ℕ
  /-- The workers whose `acquire` call is parked on the priority queue. -/
  parkedWorkers : Finset ℕ
  /-- The forward tasks, in the order they were created. -/
  tasks : List (ForwardTask Id)
  /-- The requests that came through `submit_chat_stream`. -/
  streams : Id → Bool
  /-- What the stream queue of a request has received. -/
  received : Id → List (Option C)
  futures : Id → FutureState
  metrics : GatewayMetrics

/-- The steps of the gateway's parties. -/
inductive GatewayStep (Id K C : Type)
  /-- A client's request is submitted. -/
  | submit (request : ScheduledRequest Id K) (prediction : Option (Prediction K)) (now : K)
      (stream : Bool)
  /-- A worker calls `acquire`, or its parked call resumes. -/
  | dispatch (worker : ℕ) (now : K)
  /-- The parked call of a worker times out. -/
  | giveUp (worker : ℕ)
  /-- The backend sends a chunk to a forward task. -/
  | chunk (task : ℕ) (data : C)
  /-- The backend call of a forward task ends. -/
  | finish (task : ℕ) (result : BackendResult)
  /-- The `wait_for` of a plain client expires. -/
  | clientTimeout (requestId : Id)
  /-- The aging loop wakes. -/
  | tick (now : K)
  /-- The aging loop handles a request. -/
  | age
deriving DecidableEq

namespace SchedulerGateway

variable {Id K C : Type} [DecidableEq Id] [Field K] [LinearOrder K] {H : RequestHeap Id K}

/-- The gateway as `startup` leaves it. -/
def init (C : Type) (H : RequestHeap Id K) (config : AgingConfig K) (fallbackToFcfs : Bool)
    (timeout : K) (maxWorkers : ℕ) : SchedulerGateway C H where
  scheduler := SJFScheduler.init H config fallbackToFcfs timeout
  maxWorkers := maxWorkers
  parkedWorkers := ∅
  tasks := []
  streams := fun _ => false
  received := fun _ => []
  futures := fun _ => .pending
  metrics := ⟨0, 0, 0, 0⟩

/-- `submit_chat` and `submit_chat_stream` up to the point where the client
waits: a new future or a new queue, and the request handed to the
scheduler. -/
def submit (g : SchedulerGateway C H) (request : ScheduledRequest Id K)
    (prediction : Option (Prediction K)) (now : K) (stream : Bool) : SchedulerGateway C H :=
  { g with
    scheduler := g.scheduler.submit request prediction now
    streams := Function.update g.streams request.requestId stream
    received := Function.update g.received request.requestId []
    futures := Function.update g.futures request.requestId .pending }

/-- The end of `_forward_request`: the terminator of a stream or the result
of a plain request, the scheduler's `complete`, and the counter. -/
def settle (g : SchedulerGateway C H) (i : Id) (result : BackendResult) : SchedulerGateway C H :=
  let received :=
    -- the `except` branch does not look for a stream queue
    if g.streams i = true ∧ result.ok = true then
      Function.update g.received i (g.received i ++ [none])
    else g.received
  let futures :=
    if g.streams i = false ∧ g.futures i = .pending then
      Function.update g.futures i (.settled result.chatResult)
    else g.futures
  { g with
    received := received
    futures := futures
    scheduler := g.scheduler.complete i result.ok
    metrics :=
      if result.ok then { g.metrics with success := g.metrics.success + 1 }
      else { g.metrics with error := g.metrics.error + 1 } }

variable (M : MathFns K)

/-- One turn of `_dispatch_loop`: `acquire`, and a task for what it
returned. -/
def dispatch (g : SchedulerGateway C H) (worker : ℕ) (now : K) :
    SchedulerGateway C H × SJFOut Id K :=
  let op : SJFOp Id K := if worker ∈ g.parkedWorkers then .wake now else .acquire now
  let result := g.scheduler.step M op
  match result.2 with
  | .acquired request =>
    ({ g with
        scheduler := result.1
        parkedWorkers := g.parkedWorkers.erase worker
        tasks := g.tasks ++ [⟨request.requestId, .running⟩] }, result.2)
  | _ =>
    -- a call that found the fallback's queue empty is made again, not parked
    let parked :=
      if g.scheduler.activeFallback.isNone then insert worker g.parkedWorkers
      else g.parkedWorkers
    ({ g with scheduler := result.1, parkedWorkers := parked }, result.2)

/-- The gateway as a machine; what a step shows is what the scheduler
does in it. -/
def step (g : SchedulerGateway C H) : GatewayStep Id K C → SchedulerGateway C H × SJFOut Id K
  | .submit request prediction now stream => (g.submit request prediction now stream, .done)
  | .dispatch worker now => if worker < g.maxWorkers then g.dispatch M worker now else (g, .done)
  | .giveUp worker =>
    if worker ∈ g.parkedWorkers then
      ({ g with
          scheduler := (g.scheduler.step M .timeOut).1
          parkedWorkers := g.parkedWorkers.erase worker }, .empty)
    else (g, .done)
  | .chunk task data =>
    match g.tasks[task]? with
    | some ⟨i, .running⟩ =>
      if g.streams i then
        ({ g with received := Function.update g.received i (g.received i ++ [some data]) }, .done)
      else (g, .done)
    | _ => (g, .done)
  | .finish task result =>
    match g.tasks[task]? with
    | some ⟨i, .running⟩ =>
      let status : ForwardStatus := if result.ok then .succeeded else .failed
      ({ g.settle i result with tasks := g.tasks.set task ⟨i, status⟩ }, .done)
    | _ => (g, .done)
  | .clientTimeout i =>
    if g.streams i = false ∧ g.futures i = .pending then
      let result := g.scheduler.cancel i
      ({ g with
          scheduler := result.1
          futures := Function.update g.futures i .cancelled
          metrics := { g.metrics with
            timeouts := g.metrics.timeouts + 1
            dropped := g.metrics.dropped + 1 } }, .cancelled i result.2)
    else (g, .done)
  | .tick now => ({ g with scheduler := (g.scheduler.step M (.tick now)).1 }, .done)
  | .age =>
    let result := g.scheduler.step M .age
    ({ g with scheduler := result.1 }, result.2)

/-- The machine of `step`. -/
def machine (C : Type) (H : RequestHeap Id K) :
    Machine (SchedulerGateway C H) (GatewayStep Id K C) (SJFOut Id K) where
  step := step M

/-- The unfinished `_forward_request` executions. -/
def inFlight (g : SchedulerGateway C H) : ℕ :=
  g.tasks.countP fun task => task.status = .running

/-- The id a step re-pushes. -/
def repushed (g : SchedulerGateway C H) : GatewayStep Id K C → Option Id
  | .age => g.scheduler.repushed M .age
  | _ => none

/-- The id a step submits. -/
def submittedId : GatewayStep Id K C → Option Id
  | .submit request _ _ _ => some request.requestId
  | _ => none

/-- The submitted ids of a run, in order. -/
def submitted (ops : List (GatewayStep Id K C)) : List Id := ops.filterMap submittedId

/-! ## The scheduler inside the gateway -/

variable {M} {g : SchedulerGateway C H}

/-- **A step of the gateway is at most one step of its scheduler**, and the
task it creates, if any, is for the request that step has acquired. -/
inductive Moves (M : MathFns K) (g : SchedulerGateway C H) (op : GatewayStep Id K C) : Prop
  /-- The scheduler takes a step that acquires nothing. -/
  | scheduler (inner : SJFOp Id K) :
      (g.step M op).1.scheduler.core = (g.scheduler.step M inner).1.core →
      (g.scheduler.step M inner).2.acquiredId = none →
      inner.submittedId = submittedId op →
      (∀ i, g.repushed M op ≠ some i → g.scheduler.repushed M inner ≠ some i) →
      (g.step M op).1.tasks.map ForwardTask.requestId = g.tasks.map ForwardTask.requestId →
      Moves M g op
  /-- A worker's call returns a request. -/
  | spawn (inner : SJFOp Id K) (request : ScheduledRequest Id K) :
      (g.step M op).1.scheduler.core = (g.scheduler.step M inner).1.core →
      (g.scheduler.step M inner).2 = .acquired request →
      inner.submittedId = none → submittedId op = none →
      (∀ i, g.scheduler.repushed M inner ≠ some i) →
      (g.step M op).1.tasks = g.tasks ++ [⟨request.requestId, .running⟩] →
      Moves M g op

/-- The aging loop acquires nothing. -/
theorem acquiredId_of_age {c c' : SJFCore H} {out : SJFOut Id K}
    (h : CoreStep M c .age c' out) : out.acquiredId = none := by
  cases h with
  | dequeue _ now hop => rcases hop with ⟨hop, -⟩ | hop <;> cases hop
  | idle _ _ _ _ hout => rcases hout with rfl | rfl <;> rfl
  | _ => rfl

/-- A step that leaves the scheduler's core and the tasks' ids alone. -/
theorem moves_of_still {op : GatewayStep Id K C}
    (hcore : (g.step M op).1.scheduler.core = g.scheduler.core) (hsub : submittedId op = none)
    (htasks : (g.step M op).1.tasks.map ForwardTask.requestId =
      g.tasks.map ForwardTask.requestId) : Moves M g op :=
  .scheduler .timeOut hcore rfl hsub.symm (fun _ _ => by simp [SJFScheduler.repushed]) htasks

omit [DecidableEq Id] in
/-- Setting the status of a task keeps the ids. -/
theorem map_requestId_set {tasks : List (ForwardTask Id)} {t : ℕ} {i : Id}
    {old new : ForwardStatus} (h : tasks[t]? = some ⟨i, old⟩) :
    (tasks.set t ⟨i, new⟩).map ForwardTask.requestId = tasks.map ForwardTask.requestId := by
  rw [List.map_set]
  refine List.ext_getElem? fun n => ?_
  by_cases hn : t = n
  · subst hn
    obtain ⟨hlt, heq⟩ := List.getElem?_eq_some_iff.mp h
    simp [hlt, heq]
  · rw [List.getElem?_set_ne hn]

theorem moves_dispatch {worker : ℕ} {now : K} (hw : worker < g.maxWorkers) :
    Moves M g (.dispatch worker now) := by
  set inner : SJFOp Id K := if worker ∈ g.parkedWorkers then .wake now else .acquire now
    with hinner
  have hsub : inner.submittedId = none := by
    rw [hinner]
    split <;> rfl
  have hre : ∀ i, g.scheduler.repushed M inner ≠ some i := by
    intro i
    rw [hinner]
    split <;> simp [SJFScheduler.repushed]
  have hstep : g.step M (.dispatch worker now) = g.dispatch M worker now := if_pos hw
  rcases hout : (g.scheduler.step M inner).2 with - | request | - | ⟨i, found⟩
  case acquired =>
    refine .spawn inner request ?_ hout hsub rfl hre ?_ <;>
    · rw [hstep, dispatch, ← hinner]
      simp only [hout]
  all_goals
    refine .scheduler inner ?_ (by rw [hout]; rfl) hsub (fun i _ => hre i) ?_ <;>
    · rw [hstep, dispatch, ← hinner]
      simp only [hout]

/-- **Every step of the gateway moves its scheduler so.** -/
theorem moves (op : GatewayStep Id K C) : Moves M g op := by
  cases op with
  | submit request prediction now stream =>
    refine .scheduler (.submit request prediction now) rfl rfl ?_ ?_ rfl
    · rw [submittedId_submit, submittedId]
    · exact fun _ _ => by simp [SJFScheduler.repushed]
  | dispatch worker now =>
    by_cases hw : worker < g.maxWorkers
    · exact moves_dispatch hw
    · refine moves_of_still ?_ rfl ?_ <;> rw [step, if_neg hw]
  | giveUp worker =>
    refine moves_of_still ?_ rfl ?_ <;>
    · rw [step]
      split <;> rfl
  | chunk task data =>
    refine moves_of_still ?_ rfl ?_ <;>
    · rw [step]
      split
      · split <;> rfl
      · rfl
  | finish task result =>
    rcases ht : g.tasks[task]? with - | ⟨i, - | - | -⟩
    case some.running =>
      refine .scheduler (.complete i result.ok) ?_ rfl rfl ?_ ?_
      · simp only [step, ht]
        rfl
      · exact fun _ _ => by simp [SJFScheduler.repushed]
      · simp only [step, ht]
        exact map_requestId_set ht
    all_goals refine moves_of_still ?_ rfl ?_ <;> simp only [step, ht]
  | clientTimeout i =>
    by_cases hp : g.streams i = false ∧ g.futures i = .pending
    · refine .scheduler (.cancel i) ?_ rfl rfl ?_ ?_
      · simp only [step, if_pos hp]
        rfl
      · exact fun _ _ => by simp [SJFScheduler.repushed]
      · simp only [step, if_pos hp]
    · refine moves_of_still ?_ rfl ?_ <;> simp only [step, if_neg hp]
  | tick now =>
    refine .scheduler (.tick now) rfl ?_ rfl ?_ rfl
    · rw [SJFScheduler.step]
      split <;> rfl
    · exact fun _ _ => by simp [SJFScheduler.repushed]
  | age =>
    exact .scheduler .age rfl (acquiredId_of_age SJFScheduler.coreStep_age) rfl (fun _ h => h) rfl

/-! ## Every task has its submission -/

/-- The account of one step, for one id. -/
theorem tasks_step {i : Id} {op : GatewayStep Id K C}
    (hl : g.scheduler.core.queue.Linked ScheduledRequest.requestId)
    (hre : g.repushed M op ≠ some i) :
    (((g.step M op).1.tasks.map ForwardTask.requestId).count i +
        (g.step M op).1.scheduler.core.copies i ≤
      (g.tasks.map ForwardTask.requestId).count i + g.scheduler.core.copies i +
        hit i (submittedId op)) ∧
      (g.step M op).1.scheduler.core.queue.Linked ScheduledRequest.requestId := by
  rcases moves (M := M) (g := g) op with
    ⟨inner, hcore, hacq, hsub, hre', htasks⟩ |
      ⟨inner, request, hcore, hout, hsub, hop, hre', htasks⟩
  · have hstep := SJFScheduler.coreStep_step (M := M) (s := g.scheduler) inner
    have hacc := copies_coreStep (i := i) hstep hl
      (SJFScheduler.not_mem_pending_of_repushed (hre' i hre))
    rw [hacq, hsub] at hacc
    rw [htasks, hcore]
    refine ⟨?_, linked_coreStep hstep hl⟩
    simp only [hit, reduceCtorEq, if_false] at hacc ⊢
    omega
  · have hstep := SJFScheduler.coreStep_step (M := M) (s := g.scheduler) inner
    have hacc := copies_coreStep (i := i) hstep hl
      (SJFScheduler.not_mem_pending_of_repushed (hre' i))
    rw [hsub, hout] at hacc
    rw [htasks, hcore, hop]
    refine ⟨?_, linked_coreStep hstep hl⟩
    rw [List.map_append, List.count_append]
    simp only [hit, SJFOut.acquiredId, reduceCtorEq, if_false, List.map_singleton,
      List.count_singleton, beq_iff_eq, Option.some.injEq] at hacc ⊢
    omega

variable {config : AgingConfig K} {fallbackToFcfs : Bool} {timeout : K} {n : ℕ}
variable {ops : List (GatewayStep Id K C)}

/-- **The tasks of an id do not exceed its submissions** while no aging
step re-pushes it. -/
theorem count_tasks_le {i : Id}
    (hG : (machine M C H).Along (fun g op => g.repushed M op ≠ some i)
      (init C H config fallbackToFcfs timeout n) ops) :
    (((machine M C H).run (init C H config fallbackToFcfs timeout n) ops).tasks.map
        ForwardTask.requestId).count i +
      ((machine M C H).run (init C H config fallbackToFcfs timeout n) ops).scheduler.core.copies i ≤
      (submitted ops).count i ∧
    ((machine M C H).run
      (init C H config fallbackToFcfs timeout n) ops).scheduler.core.queue.Linked
        ScheduledRequest.requestId := by
  refine Machine.log_inv (M := machine M C H) (s := init C H config fallbackToFcfs timeout n)
    (H := (machine M C H).Along (fun g op => g.repushed M op ≠ some i)
      (init C H config fallbackToFcfs timeout n))
    (I := fun ops _ g => (g.tasks.map ForwardTask.requestId).count i +
      g.scheduler.core.copies i ≤ (submitted ops).count i ∧
      g.scheduler.core.queue.Linked ScheduledRequest.requestId)
    (fun _ _ h => (Machine.along_snoc.mp h).1) ?_ ?_ hG
  · exact ⟨by simp [init, submitted], PriorityQueue.linked_init⟩
  · rintro ops op hG ⟨hle, hl⟩
    obtain ⟨hacc, hl'⟩ := tasks_step hl (Machine.along_snoc.mp hG).2
    refine ⟨?_, hl'⟩
    rw [submitted, count_filterMap_snoc]
    rw [submitted] at hle
    exact hacc.trans (Nat.add_le_add_right hle _)

end SchedulerGateway

end VllmScheduler
