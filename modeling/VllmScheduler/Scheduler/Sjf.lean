import VllmScheduler.Common.Machine
import VllmScheduler.Queue.PriorityQueue
import VllmScheduler.Scheduler.Aging
import VllmScheduler.Scheduler.Base
/-!
# The predicted shortest-job-first scheduler

`SJFScheduler` of `python/scheduler/sjf_scheduler.py` as a machine. Its
inputs are the calls clients make and the moves of the aging loop, cut
where the code can be interrupted: a tick reads the clock and takes its
snapshot of `_pending` in one step, and each request of the snapshot is a
step of its own, so anything may happen between two of them. A call of
`acquire` that finds its queue empty stays parked inside `dequeue`, bound
to the queue the flag chose at the call, and may be resumed later by
`wake` or give up by `timeOut`.

The predictor is the environment's: a submission carries what `predict`
returned, or nothing where it raised.
-/

namespace VllmScheduler

variable {Id K : Type}

/-- The heap an SJF scheduler's queue sits on: its payloads are the
requests. -/
abbrev RequestHeap (Id K : Type) [LinearOrder K] : Type 1 :=
  Heapq Id K (ScheduledRequest Id K)

/-- The scheduler's fields, and where its aging loop stands. -/
structure SJFScheduler [LinearOrder K] (H : RequestHeap Id K) where
  base : BaseScheduler K
  queue : PriorityQueue H
  aging : AgingFunction K
  agingConfig : AgingConfig K
  fallbackToFcfs : Bool
  fcfsFallback : Option (FCFSScheduler Id K)
  timeout : K
  pending : Dict Id (ScheduledRequest Id K)
  useFallback : Bool
  /-- The `priority` attribute of the request objects. -/
  priority : Id → K
  /-- The `acquire` calls parked on the priority queue. -/
  parked : ℕ
  /-- The clock reading of the tick under way. -/
  tickNow : K
  /-- What is left of that tick's snapshot; empty while the loop sleeps. -/
  tickRest : List (Id × ScheduledRequest Id K)

/-- The calls and the moves of the aging loop. -/
inductive SJFOp (Id K : Type)
  /-- A call of `submit`, with what the predictor returned. -/
  | submit (request : ScheduledRequest Id K) (prediction : Option (Prediction K)) (now : K)
  /-- A call of `acquire`. -/
  | acquire (now : K)
  /-- A parked `acquire` call resumes. -/
  | wake (now : K)
  /-- A parked `acquire` call gives up. -/
  | timeOut
  | complete (requestId : Id) (success : Bool)
  | cancel (requestId : Id)
  /-- The aging loop wakes, reads the clock and copies `_pending`. -/
  | tick (now : K)
  /-- The aging loop handles the next request of its snapshot. -/
  | age
deriving DecidableEq

/-- What a step shows. -/
inductive SJFOut (Id K : Type)
  | done
  /-- An `acquire` call returned a request. -/
  | acquired (request : ScheduledRequest Id K)
  /-- An `acquire` call found nothing. -/
  | empty
  /-- A call of `cancel`, by a client or by the aging loop, returned. -/
  | cancelled (requestId : Id) (found : Bool)
deriving DecidableEq

/-- What `predict` is asked for: a request without a prediction of its
own. -/
def ScheduledRequest.needsPrediction [Zero K] (request : ScheduledRequest Id K) : Prop :=
  request.predictedTokens = 0

/-- The `except` branch of `submit`: the predictor is asked and raises. -/
def PredictionFails [Zero K] (request : ScheduledRequest Id K)
    (prediction : Option (Prediction K)) : Prop :=
  request.needsPrediction ∧ prediction = none

/-- The request as `submit` leaves it: with a prediction, its own, the
predictor's or, where that failed, `max_tokens`. -/
def ScheduledRequest.predicted [Field K] [DecidableEq K] (request : ScheduledRequest Id K)
    (prediction : Option (Prediction K)) : ScheduledRequest Id K :=
  if request.predictedTokens = 0 then
    match prediction with
    | some pred => { request with predictedTokens := pred.predictedTokens }
    | none => { request with predictedTokens := request.maxTokens }
  else request

namespace ScheduledRequest

variable [Field K] [LinearOrder K]

@[simp] theorem predicted_requestId (request : ScheduledRequest Id K)
    (prediction : Option (Prediction K)) :
    (request.predicted prediction).requestId = request.requestId := by
  unfold predicted
  split
  · split <;> rfl
  · rfl

end ScheduledRequest

namespace SJFScheduler

variable [DecidableEq Id] [Field K] [LinearOrder K] {H : RequestHeap Id K}

instance (request : ScheduledRequest Id K) (prediction : Option (Prediction K)) :
    Decidable (PredictionFails request prediction) :=
  inferInstanceAs (Decidable (request.predictedTokens = 0 ∧ prediction = none))

/-- `SJFScheduler.__init__`. -/
def init (H : RequestHeap Id K) (agingConfig : AgingConfig K) (fallbackToFcfs : Bool)
    (timeout : K) : SJFScheduler H where
  base := BaseScheduler.init K
  queue := PriorityQueue.init H
  aging := createAging agingConfig
  agingConfig := agingConfig
  fallbackToFcfs := fallbackToFcfs
  fcfsFallback := if fallbackToFcfs then some (FCFSScheduler.init Id K) else none
  timeout := timeout
  pending := Dict.empty
  useFallback := false
  priority := fun _ => 0
  parked := 0
  tickNow := 0
  tickRest := []

/-- The fallback `submit`, `acquire` and `queue_depth` turn to: theirs
while the flag is up. -/
def activeFallback (s : SJFScheduler H) : Option (FCFSScheduler Id K) :=
  if s.useFallback then s.fcfsFallback else none

/-- The `try` block of `submit`: the timings a prediction records, and the
flag a failed one puts up. -/
def afterPrediction (s : SJFScheduler H) (request : ScheduledRequest Id K)
    (prediction : Option (Prediction K)) : SJFScheduler H :=
  if request.predictedTokens = 0 then
    match prediction with
    | some pred =>
      { s with base := s.base.recordTiming pred.featureLatencyMs pred.predictLatencyMs 0 }
    | none => { s with useFallback := s.useFallback || s.fcfsFallback.isSome }
  else s

/-- `submit`. -/
def submit (s : SJFScheduler H) (request : ScheduledRequest Id K)
    (prediction : Option (Prediction K)) (now : K) : SJFScheduler H :=
  let s := s.afterPrediction request prediction
  let request := request.predicted prediction
  let s :=
    { s with
      base := s.base.scheduled
      priority := Function.update s.priority request.requestId request.predictedTokens }
  match s.activeFallback with
  | some fallback => { s with fcfsFallback := some (fallback.submit request) }
  | none =>
    { s with
      pending := s.pending.set request.requestId request
      queue := s.queue.enqueue now request.requestId request.predictedTokens request }

/-- The part of `acquire` that runs on the priority queue, at the call or
after a park. -/
def acquireQueue (s : SJFScheduler H) (now : K) :
    SJFScheduler H × Option (ScheduledRequest Id K) :=
  let result := s.queue.dequeue now
  ({ s with queue := result.1 }, result.2.map PrioritizedItem.payload)

/-- `acquire`: the request it returns, or nothing where the call has to
wait. -/
def acquire (s : SJFScheduler H) (now : K) : SJFScheduler H × Option (ScheduledRequest Id K) :=
  match s.activeFallback with
  | some fallback =>
    let result := fallback.acquire
    ({ s with fcfsFallback := some result.1 }, result.2)
  | none => s.acquireQueue now

/-- `complete`. -/
def complete (s : SJFScheduler H) (requestId : Id) (success : Bool) : SJFScheduler H :=
  { s with
    pending := s.pending.erase requestId
    fcfsFallback := s.fcfsFallback.map fun fallback => fallback.complete requestId success
    base := s.base.completed success }

/-- `cancel`: the answer is the priority queue's. -/
def cancel (s : SJFScheduler H) (requestId : Id) : SJFScheduler H × Bool :=
  let result := s.queue.cancel requestId
  ({ s with
      pending := s.pending.erase requestId
      fcfsFallback := s.fcfsFallback.map fun fallback => (fallback.cancel requestId).1
      queue := result.1 }, result.2)

/-- The `queue_depth` property. -/
def queueDepth (s : SJFScheduler H) : ℕ :=
  match s.activeFallback with
  | some fallback => fallback.queueDepth
  | none => s.queue.depth

variable (M : MathFns K)

/-- The priority the aging loop computes for a request of its snapshot. -/
def newPriority (s : SJFScheduler H) (requestId : Id) (request : ScheduledRequest Id K) : K :=
  s.aging.boost M (s.tickNow - request.enqueueTime) (s.priority requestId)

/-- The request has waited past the timeout. -/
def TimedOut (s : SJFScheduler H) (request : ScheduledRequest Id K) : Prop :=
  s.tickNow - request.enqueueTime > s.timeout

/-- The new priority is lower by more than the threshold. -/
def Lowers (s : SJFScheduler H) (requestId : Id) (request : ScheduledRequest Id K) : Prop :=
  s.newPriority M requestId request < s.priority requestId - 1 / 100

instance (s : SJFScheduler H) (request : ScheduledRequest Id K) : Decidable (s.TimedOut request) :=
  inferInstanceAs (Decidable (s.tickNow - request.enqueueTime > s.timeout))

instance (s : SJFScheduler H) (i : Id) (request : ScheduledRequest Id K) :
    Decidable (s.Lowers M i request) :=
  inferInstanceAs (Decidable (s.newPriority M i request < s.priority i - 1 / 100))

/-- One pass through the body of the `for` loop of `_aging_loop`. -/
def age (s : SJFScheduler H) : SJFScheduler H × SJFOut Id K :=
  match s.tickRest with
  | [] => (s, .done)
  | (requestId, request) :: rest =>
    let s := { s with tickRest := rest }
    if s.TimedOut request then
      let result := s.cancel requestId
      (result.1, .cancelled requestId result.2)
    else if s.Lowers M requestId request then
      let new := s.newPriority M requestId request
      ({ s with
          queue := (s.queue.updatePriority requestId new).1
          priority := Function.update s.priority requestId new }, .done)
    else (s, .done)

/-- What an `acquire` call shows of its result. -/
def acquireOut : Option (ScheduledRequest Id K) → SJFOut Id K
  | some request => .acquired request
  | none => .empty

/-- The scheduler as a machine. A tick starts only when the last one has
gone through its snapshot, and only parked calls wake or give up. -/
def step (s : SJFScheduler H) : SJFOp Id K → SJFScheduler H × SJFOut Id K
  | .submit request prediction now => (s.submit request prediction now, .done)
  | .acquire now =>
    let result := s.acquire now
    -- a call parks on the priority queue only where the flag sent it there
    let parks := if result.2.isNone && s.activeFallback.isNone then 1 else 0
    ({ result.1 with parked := s.parked + parks }, acquireOut result.2)
  | .wake now =>
    if s.parked = 0 then (s, .empty)
    else
      let result := s.acquireQueue now
      ({ result.1 with parked := if result.2.isNone then s.parked else s.parked - 1 },
        acquireOut result.2)
  | .timeOut => ({ s with parked := s.parked - 1 }, .empty)
  | .complete requestId success => (s.complete requestId success, .done)
  | .cancel requestId =>
    let result := s.cancel requestId
    (result.1, .cancelled requestId result.2)
  | .tick now =>
    if s.tickRest = [] then ({ s with tickNow := now, tickRest := s.pending.entries }, .done)
    else (s, .done)
  | .age => s.age M

/-- The machine of `step`. -/
def machine (H : RequestHeap Id K) : Machine (SJFScheduler H) (SJFOp Id K) (SJFOut Id K) where
  step := step M

end SJFScheduler

/-! ## What a run shows -/

section History

variable [DecidableEq Id] [Field K] [LinearOrder K]

/-- The request a step submits, as `submit` leaves it, and when. -/
def SJFOp.submission : SJFOp Id K → Option (ScheduledRequest Id K × K)
  | .submit request prediction now => some (request.predicted prediction, now)
  | _ => none

/-- The submissions of a run, in order. -/
def submissions (ops : List (SJFOp Id K)) : List (ScheduledRequest Id K × K) :=
  ops.filterMap SJFOp.submission

/-- The id a step submits. -/
def SJFOp.submittedId (op : SJFOp Id K) : Option Id :=
  op.submission.map fun e => e.1.requestId

/-- The submitted ids, in order. -/
def submittedIds (ops : List (SJFOp Id K)) : List Id :=
  ops.filterMap SJFOp.submittedId

/-- The id a step hands out. -/
def SJFOut.acquiredId : SJFOut Id K → Option Id
  | .acquired request => some request.requestId
  | _ => none

/-- The ids `acquire` has returned, in order. -/
def acquiredIds (log : List (SJFOp Id K × SJFOut Id K)) : List Id :=
  log.filterMap fun e => e.2.acquiredId

/-- The ids waiting after a step: a submission adds its id; an `acquire`
that returns an id and a `cancel` of an id take it away. -/
def waitingStep (waiting : Finset Id) (e : SJFOp Id K × SJFOut Id K) : Finset Id :=
  match e with
  | (.submit request _ _, _) => insert request.requestId waiting
  | (_, .acquired request) => waiting.erase request.requestId
  | (_, .cancelled requestId _) => waiting.erase requestId
  | _ => waiting

/-- The ids submitted and since then neither acquired nor cancelled, by a
client or by the aging loop. -/
def waiting (log : List (SJFOp Id K × SJFOut Id K)) : Finset Id :=
  log.foldl waitingStep ∅

/-- No id is submitted twice. -/
def DistinctIds (ops : List (SJFOp Id K)) : Prop := (submittedIds ops).Nodup

instance (ops : List (SJFOp Id K)) : Decidable (DistinctIds ops) :=
  inferInstanceAs (Decidable (submittedIds ops).Nodup)

/-- The step is a submission at which the predictor raises. -/
def SJFOp.Fails : SJFOp Id K → Prop
  | .submit request prediction _ => PredictionFails request prediction
  | _ => False

instance : ∀ op : SJFOp Id K, Decidable op.Fails
  | .submit request prediction _ =>
    inferInstanceAs (Decidable (PredictionFails request prediction))
  | .acquire _ | .wake _ | .timeOut | .complete _ _ | .cancel _ | .tick _ | .age =>
    isFalse id

/-- The predictor answers at every submission that asks it. -/
def PredictorNeverFails (ops : List (SJFOp Id K)) : Prop := ∀ op ∈ ops, ¬ op.Fails

instance (ops : List (SJFOp Id K)) : Decidable (PredictorNeverFails ops) :=
  inferInstanceAs (Decidable (∀ op ∈ ops, ¬ op.Fails))

omit [Field K] [LinearOrder K] in
theorem waiting_snoc {log : List (SJFOp Id K × SJFOut Id K)} {e : SJFOp Id K × SJFOut Id K} :
    waiting (log ++ [e]) = waitingStep (waiting log) e :=
  List.foldl_append ..

omit [DecidableEq Id] in
theorem submittedId_submit {request : ScheduledRequest Id K} {prediction : Option (Prediction K)}
    {now : K} : (SJFOp.submit request prediction now).submittedId = some request.requestId := by
  simp [SJFOp.submittedId, SJFOp.submission]

/-- A step that submits nothing and shows nothing leaves the waiting ids
as they are. -/
theorem waitingStep_of_idle {waiting : Finset Id} {op : SJFOp Id K} {out : SJFOut Id K}
    (hsub : op.submittedId = none) (hout : out = .done ∨ out = .empty) :
    waitingStep waiting (op, out) = waiting := by
  cases op <;> rcases hout with rfl | rfl <;> first | rfl | cases hsub

omit [Field K] [LinearOrder K] in
/-- A step that only acquires takes the id it returns out of the waiting
ones. -/
theorem waitingStep_acquireOut {waiting : Finset Id} {op : SJFOp Id K} {now : K}
    {o : Option (ScheduledRequest Id K)} (hop : op = .acquire now ∨ op = .wake now) :
    waitingStep waiting (op, SJFScheduler.acquireOut o) =
      waiting.filter fun i => o.map ScheduledRequest.requestId ≠ some i := by
  rcases o with - | r
  · rcases hop with rfl | rfl <;> simp [waitingStep, SJFScheduler.acquireOut]
  · have herase : waitingStep waiting (op, SJFScheduler.acquireOut (some r)) =
        waiting.erase r.requestId := by
      rcases hop with rfl | rfl <;> rfl
    rw [herase]
    ext j
    simp only [Finset.mem_erase, Finset.mem_filter, Option.map_some, ne_eq, Option.some.injEq]
    exact ⟨fun h => ⟨h.2, Ne.symm h.1⟩, fun h => ⟨Ne.symm h.2, h.1⟩⟩

end History

section Snoc

variable [Field K] [LinearOrder K] {ops : List (SJFOp Id K)} {op : SJFOp Id K}

theorem submissions_snoc : submissions (ops ++ [op]) = submissions ops ++ op.submission.toList :=
  filterMap_snoc

theorem submittedIds_snoc :
    submittedIds (ops ++ [op]) = submittedIds ops ++ op.submittedId.toList :=
  filterMap_snoc

theorem map_requestId_submissions :
    (submissions ops).map (fun e => e.1.requestId) = submittedIds ops := by
  rw [submissions, submittedIds, List.map_filterMap]
  rfl

/-- The last submission of a run brings a new id. -/
theorem DistinctIds.of_snoc (h : DistinctIds (ops ++ [op])) :
    DistinctIds ops ∧ ∀ i, op.submittedId = some i → i ∉ submittedIds ops :=
  nodup_filterMap_snoc h

end Snoc

/-! ## Runs to compute with -/

/-- A request as the gateway makes it: without a prediction. -/
def chatRequest (i : String) (created : ℚ) : ScheduledRequest String ℚ :=
  ⟨i, "", 128, 0, created⟩

/-- The submission of such a request at the moment it is made, with the
length the predictor finds. -/
def chatSubmit (i : String) (created tokens : ℚ) : SJFOp String ℚ :=
  .submit (chatRequest i created) (some ⟨tokens, 1, 1⟩) created

/-- A scheduler with every parameter at its default. -/
def defaultScheduler : SJFScheduler (listHeap PrioritizedItem.key : RequestHeap String ℚ) :=
  SJFScheduler.init _ (AgingConfig.default ℚ) true 300

/-- What a run of the default scheduler shows. -/
def defaultLog (ops : List (SJFOp String ℚ)) : List (SJFOp String ℚ × SJFOut String ℚ) :=
  (SJFScheduler.machine MathFns.firstOrder _).log defaultScheduler ops

end VllmScheduler
