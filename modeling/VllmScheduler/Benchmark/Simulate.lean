import VllmScheduler.Common.Pool
import VllmScheduler.Scheduler.Oracle
/-!
# The benchmark's workers

`simulate_fcfs` of `python/benchmark/fcfs.py` and `simulate_sjf` of
`python/benchmark/sjf.py`. There is a worker for each request, and at most
`concurrency` of them are inside the semaphore. A worker submits a request
and then serves whichever its `acquire` returns, which may be another's.
Each stretch between two awaits is a step, and the steps of the workers may
come in any order; readings of the clock, random lengths, new ids and what
the predictor and the service return are inputs of the steps.

An `acquire` waits where the queue is empty. No worker ever finds it so: the
requests in the queue are as many as the workers between their `submit` and
their `acquire`.
-/

namespace VllmScheduler

/-- What a worker reports of the request it served. -/
structure RequestMetric (K : Type) where
  success : Bool
  e2eMs : K
  queueWaitMs : K
  featureMs : K
  predictMs : K
  scheduleMs : K
  tokens : ℤ
  concurrency : ℕ
deriving DecidableEq

/-- `PROMPTS`. -/
def prompts : List String :=
  ["What is machine learning?", "Write a Python sort function.",
    "Explain quantum computing briefly.", "List 5 database optimization tips.",
    "How does attention work in transformers?", "Debug this SQL query.",
    "Summarize the history of AI.", "Compare REST and GraphQL."]

/-! ## The schedulers, as the workers see them -/

/-- A scheduler that is a bag of requests to its callers: `queued` is what
is in it, and `stored` what a submit makes of a request. -/
structure BagScheduler (σ Id K : Type) where
  submit : σ → ScheduledRequest Id K → K → σ
  acquire : σ → K → σ × Option (ScheduledRequest Id K)
  complete : σ → Id → Bool → σ
  queueDepth : σ → ℕ
  stored : ScheduledRequest Id K → ScheduledRequest Id K
  queued : σ → Multiset (ScheduledRequest Id K)
  /-- What every call keeps. -/
  Sound : σ → Prop
  maxTokens_stored : ∀ r, (stored r).maxTokens = r.maxTokens
  sound_submit : ∀ {s} r now, Sound s → Sound (submit s r now)
  queued_submit : ∀ s r now, queued (submit s r now) = stored r ::ₘ queued s
  acquire_cases : ∀ {s}, Sound s → ∀ now,
    (queued s = 0 ∧ acquire s now = (s, none)) ∨
      ∃ s' r, acquire s now = (s', some r) ∧ Sound s' ∧ queued s = r ::ₘ queued s'
  sound_complete : ∀ {s} i success, Sound s → Sound (complete s i success)
  queued_complete : ∀ s i success, queued (complete s i success) = queued s
  queueDepth_eq : ∀ s, queueDepth s = Multiset.card (queued s)

section Schedulers

variable {Id K : Type} [DecidableEq Id]

/-- `FCFSScheduler` is one. -/
def FCFSScheduler.bag : BagScheduler (FCFSScheduler Id K) Id K where
  submit f r _ := f.submit r
  acquire f _ := f.acquire
  complete := FCFSScheduler.complete
  queueDepth := queueDepth
  stored r := r
  queued f := ↑f.queue
  Sound _ := True
  maxTokens_stored _ := rfl
  sound_submit _ _ _ := trivial
  queued_submit f r _ := by
    rw [queue_submit, ← Multiset.coe_add, add_comm]
    rfl
  acquire_cases {f} _ now := by
    rcases hq : f.queue with - | ⟨r, rest⟩
    · exact Or.inl ⟨rfl, acquire_eq_none hq⟩
    · exact Or.inr ⟨_, r, acquire_eq_some hq, trivial, rfl⟩
  sound_complete _ _ _ := trivial
  queued_complete _ _ _ := rfl
  queueDepth_eq _ := rfl

/-- `OracleSJFScheduler` is one as long as nothing is cancelled. -/
def OracleSJFScheduler.bag [Field K] [LinearOrder K] (H : RequestHeap Id K) :
    BagScheduler (OracleSJFScheduler H) Id K where
  submit := OracleSJFScheduler.submit
  acquire := OracleSJFScheduler.acquire
  complete := OracleSJFScheduler.complete
  queueDepth := queueDepth
  stored := ScheduledRequest.oracle
  queued s := s.queue.entries.map PrioritizedItem.payload
  Sound s := s.queue.cancelled = ∅
  maxTokens_stored _ := rfl
  sound_submit _ _ h := h
  queued_submit s r now := by
    rw [OracleSJFScheduler.submit, PriorityQueue.entries_enqueue, Multiset.map_cons]
  acquire_cases {s} h now := by
    rcases OracleSJFScheduler.acquire_cases h now with
      ⟨hzero, heq⟩ | ⟨s', item, heq, hent, hc, -⟩
    · exact Or.inl ⟨by rw [hzero, Multiset.map_zero], heq⟩
    · exact Or.inr ⟨s', item.payload, heq, hc, by rw [hent, Multiset.map_cons]⟩
  sound_complete _ _ h := h
  queued_complete _ _ _ := rfl
  queueDepth_eq s := (Multiset.card_map _ _).symm

end Schedulers

/-! ## The workers -/

/-- What the bodies of the two `worker` functions differ in: the prediction
a worker goes by and its timings, from `max_tokens` and from what the
predictor returns where there is one; and the `schedule_ms` it reports. -/
structure WorkerBody (K : Type) where
  estimate : ℤ → Option (Prediction K) → Prediction K
  scheduleMs : K

/-- `worker` of `simulate_fcfs`. -/
def fcfsWorker (K : Type) [Field K] : WorkerBody K where
  estimate maxTokens _ := ⟨maxTokens, 0, 0⟩
  scheduleMs := 0

/-- `worker` of `simulate_sjf`. -/
def sjfWorker (K : Type) [Field K] (useOracle : Bool) : WorkerBody K where
  estimate maxTokens prediction :=
    if useOracle then ⟨maxTokens, 0, 0⟩ else prediction.getD ⟨0, 0, 0⟩
  scheduleMs := 1 / 10

/-- What a worker has in its local variables from its submit on. -/
structure WorkerLocals (K : Type) where
  tEnqueue : K
  featureMs : K
  predictMs : K
deriving DecidableEq

/-- Where a worker stands. -/
inductive WorkerPlace (Id K : Type)
  /-- At the semaphore. -/
  | waiting
  | entered
  /-- At its `acquire`. -/
  | submitted (locals : WorkerLocals K)
  | acquired (locals : WorkerLocals K) (request : ScheduledRequest Id K) (waitMs : K)
  | served (locals : WorkerLocals K) (request : ScheduledRequest Id K) (waitMs svcMs : K)
  | completed (locals : WorkerLocals K) (request : ScheduledRequest Id K) (waitMs svcMs : K)
  | done
deriving DecidableEq

/-- What a worker does next, with what it reads on the way. -/
inductive WorkerAction (Id K : Type)
  | enter
  | submit (requestId : Id) (maxTokens : ℤ) (prediction : Option (Prediction K))
      (created tEnqueue now : K)
  | acquire (now after : K)
  | serve (svcMs : K)
  | complete
  | record
deriving DecidableEq

/-- What a step shows. -/
inductive WorkerOut (Id K : Type)
  /-- The worker is not where it could do this. -/
  | idle
  | moved
  | acquired (request : ScheduledRequest Id K)
  /-- The queue was empty, and the worker waits at its `acquire`. -/
  | blocked
deriving DecidableEq

def WorkerOut.request {Id K : Type} : WorkerOut Id K → Option (ScheduledRequest Id K)
  | acquired request => some request
  | _ => none

/-- The request worker `i` builds. -/
def WorkerBody.request {Id K : Type} (body : WorkerBody K) (i : ℕ) (requestId : Id)
    (maxTokens : ℤ) (prediction : Option (Prediction K)) (created : K) : ScheduledRequest Id K where
  requestId := requestId
  prompt := prompts.get ⟨i % prompts.length, Nat.mod_lt i (by decide)⟩
  maxTokens := maxTokens
  predictedTokens := (body.estimate maxTokens prediction).predictedTokens
  enqueueTime := created

/-- The request a step submits. -/
def WorkerBody.submission {Id K : Type} (body : WorkerBody K) :
    ℕ × WorkerAction Id K → Option (ScheduledRequest Id K)
  | (i, .submit requestId maxTokens prediction created _ _) =>
    some (body.request i requestId maxTokens prediction created)
  | _ => none

/-- The variables the workers share, and where each of them stands. -/
structure Simulation (σ Id K : Type) where
  scheduler : σ
  /-- The semaphore's value. -/
  permits : ℕ
  workers : List (WorkerPlace Id K)
  metrics : List (RequestMetric K)

namespace Simulation

variable {σ Id K : Type} [Field K]

/-- Before the first worker runs. -/
def init (s : σ) (concurrency nRequests : ℕ) : Simulation σ Id K :=
  ⟨s, concurrency, List.replicate nRequests .waiting, []⟩

/-- Worker `i` goes to its next place. -/
def move (sim : Simulation σ Id K) (i : ℕ) (place : WorkerPlace Id K) : Simulation σ Id K :=
  { sim with workers := sim.workers.set i place }

variable (S : BagScheduler σ Id K) (body : WorkerBody K) (concurrency : ℕ)

/-- A step of worker `i`. -/
def step (sim : Simulation σ Id K) :
    ℕ × WorkerAction Id K → Simulation σ Id K × WorkerOut Id K
  | (i, action) =>
    match sim.workers[i]?, action with
    | some .waiting, .enter =>
      if 0 < sim.permits then
        (({ sim with permits := sim.permits - 1 } : Simulation σ Id K).move i .entered, .moved)
      else (sim, .idle)
    | some .entered, .submit requestId maxTokens prediction created tEnqueue now =>
      let request := body.request i requestId maxTokens prediction created
      let estimate := body.estimate maxTokens prediction
      (({ sim with scheduler := S.submit sim.scheduler request now } : Simulation σ Id K).move i
        (.submitted ⟨tEnqueue, estimate.featureLatencyMs, estimate.predictLatencyMs⟩), .moved)
    | some (.submitted locals), .acquire now after =>
      match S.acquire sim.scheduler now with
      | (scheduler, some request) =>
        (({ sim with scheduler := scheduler } : Simulation σ Id K).move i
          (.acquired locals request ((after - locals.tEnqueue) * 1000)), .acquired request)
      | (scheduler, none) => ({ sim with scheduler := scheduler }, .blocked)
    | some (.acquired locals request waitMs), .serve svcMs =>
      (sim.move i (.served locals request waitMs svcMs), .moved)
    | some (.served locals request waitMs svcMs), .complete =>
      (({ sim with scheduler := S.complete sim.scheduler request.requestId true } :
        Simulation σ Id K).move i (.completed locals request waitMs svcMs), .moved)
    | some (.completed locals request waitMs svcMs), .record =>
      let metric : RequestMetric K :=
        { success := true
          e2eMs := waitMs + svcMs
          queueWaitMs := waitMs
          featureMs := locals.featureMs
          predictMs := locals.predictMs
          scheduleMs := body.scheduleMs
          tokens := request.maxTokens
          concurrency := concurrency }
      (({ sim with permits := sim.permits + 1, metrics := sim.metrics ++ [metric] } :
        Simulation σ Id K).move i .done, .moved)
    | _, _ => (sim, .idle)

/-- The machine of `step`. -/
def machine : Machine (Simulation σ Id K) (ℕ × WorkerAction Id K) (WorkerOut Id K) where
  step := step S body concurrency

omit [Field K] in
/-- The worker is at the action: for `enter` the semaphore has a permit. -/
def Enabled (sim : Simulation σ Id K) : ℕ × WorkerAction Id K → Prop
  | (i, .enter) => sim.workers[i]? = some .waiting ∧ 0 < sim.permits
  | (i, .submit _ _ _ _ _ _) => sim.workers[i]? = some .entered
  | (i, .acquire _ _) => ∃ locals, sim.workers[i]? = some (.submitted locals)
  | (i, .serve _) => ∃ locals request waitMs,
      sim.workers[i]? = some (.acquired locals request waitMs)
  | (i, .complete) => ∃ locals request waitMs svcMs,
      sim.workers[i]? = some (.served locals request waitMs svcMs)
  | (i, .record) => ∃ locals request waitMs svcMs,
      sim.workers[i]? = some (.completed locals request waitMs svcMs)

/-! ## What a step does -/

/-- What a step that is enabled does. -/
inductive Moves (sim : Simulation σ Id K) :
    ℕ × WorkerAction Id K → Simulation σ Id K → WorkerOut Id K → Prop
  | enter {i : ℕ} (h : sim.workers[i]? = some .waiting) (hp : 0 < sim.permits) :
      Moves sim (i, .enter)
        (({ sim with permits := sim.permits - 1 } : Simulation σ Id K).move i .entered) .moved
  | submit {i : ℕ} {requestId : Id} {maxTokens : ℤ} {prediction : Option (Prediction K)}
      {created tEnqueue now : K} (h : sim.workers[i]? = some .entered) :
      Moves sim (i, .submit requestId maxTokens prediction created tEnqueue now)
        (({ sim with
            scheduler := S.submit sim.scheduler
              (body.request i requestId maxTokens prediction created) now } :
          Simulation σ Id K).move i
          (.submitted ⟨tEnqueue, (body.estimate maxTokens prediction).featureLatencyMs,
            (body.estimate maxTokens prediction).predictLatencyMs⟩)) .moved
  | acquire {i : ℕ} {now after : K} {locals : WorkerLocals K} {scheduler : σ}
      {request : ScheduledRequest Id K} (h : sim.workers[i]? = some (.submitted locals))
      (hacq : S.acquire sim.scheduler now = (scheduler, some request)) :
      Moves sim (i, .acquire now after)
        (({ sim with scheduler := scheduler } : Simulation σ Id K).move i
          (.acquired locals request ((after - locals.tEnqueue) * 1000))) (.acquired request)
  | block {i : ℕ} {now after : K} {locals : WorkerLocals K} {scheduler : σ}
      (h : sim.workers[i]? = some (.submitted locals))
      (hacq : S.acquire sim.scheduler now = (scheduler, none)) :
      Moves sim (i, .acquire now after) { sim with scheduler := scheduler } .blocked
  | serve {i : ℕ} {locals : WorkerLocals K} {request : ScheduledRequest Id K} {waitMs svcMs : K}
      (h : sim.workers[i]? = some (.acquired locals request waitMs)) :
      Moves sim (i, .serve svcMs) (sim.move i (.served locals request waitMs svcMs)) .moved
  | complete {i : ℕ} {locals : WorkerLocals K} {request : ScheduledRequest Id K}
      {waitMs svcMs : K} (h : sim.workers[i]? = some (.served locals request waitMs svcMs)) :
      Moves sim (i, .complete)
        (({ sim with scheduler := S.complete sim.scheduler request.requestId true } :
          Simulation σ Id K).move i (.completed locals request waitMs svcMs)) .moved
  | record {i : ℕ} {locals : WorkerLocals K} {request : ScheduledRequest Id K}
      {waitMs svcMs : K} {metric : RequestMetric K}
      (h : sim.workers[i]? = some (.completed locals request waitMs svcMs))
      (hmetric : metric.tokens = request.maxTokens) :
      Moves sim (i, .record)
        (({ sim with permits := sim.permits + 1, metrics := sim.metrics ++ [metric] } :
          Simulation σ Id K).move i .done) .moved

variable {S body concurrency} {sim : Simulation σ Id K} {s : ℕ × WorkerAction Id K}
variable {nRequests : ℕ}

theorem moves_of_enabled (concurrency : ℕ) (h : sim.Enabled s) :
    Moves S body sim s (step S body concurrency sim s).1 (step S body concurrency sim s).2 := by
  obtain ⟨i, action⟩ := s
  cases action with
  | enter =>
    obtain ⟨hi, hp⟩ := h
    simp only [step, hi, if_pos hp]
    exact .enter hi hp
  | submit requestId maxTokens prediction created tEnqueue now =>
    have hi : sim.workers[i]? = some .entered := h
    simp only [step, hi]
    exact .submit hi
  | acquire now after =>
    obtain ⟨locals, hi⟩ := h
    rcases hacq : S.acquire sim.scheduler now with ⟨scheduler, - | request⟩
    · simp only [step, hi, hacq]
      exact .block hi hacq
    · simp only [step, hi, hacq]
      exact .acquire hi hacq
  | serve svcMs =>
    obtain ⟨locals, request, waitMs, hi⟩ := h
    simp only [step, hi]
    exact .serve hi
  | complete =>
    obtain ⟨locals, request, waitMs, svcMs, hi⟩ := h
    simp only [step, hi]
    exact .complete hi
  | record =>
    obtain ⟨locals, request, waitMs, svcMs, hi⟩ := h
    simp only [step, hi]
    exact .record hi rfl

end Simulation

/-! ## What the workers have between them -/

namespace WorkerPlace

variable {Id K : Type}

/-- The permit a worker holds. -/
def permit : WorkerPlace Id K → ℕ
  | waiting | done => 0
  | _ => 1

/-- The request a worker has put in the queue and taken none out for. -/
def owed : WorkerPlace Id K → ℕ
  | submitted _ => 1
  | _ => 0

/-- The tokens of a request a worker has taken and not reported. -/
def held : WorkerPlace Id K → ℤ
  | acquired _ request _ | served _ request _ _ | completed _ request _ _ => request.maxTokens
  | _ => 0

/-- The metric a worker has reported. -/
def reported : WorkerPlace Id K → ℕ
  | done => 1
  | _ => 0

/-- The steps a worker has still to take. -/
def stepsLeft : WorkerPlace Id K → ℕ
  | waiting => 6
  | entered => 5
  | submitted _ => 4
  | acquired _ _ _ => 3
  | served _ _ _ _ => 2
  | completed _ _ _ _ => 1
  | done => 0

end WorkerPlace

namespace Simulation

variable {σ Id K : Type} [Field K] {S : BagScheduler σ Id K} {body : WorkerBody K}
variable {concurrency nRequests : ℕ} {sim sim' : Simulation σ Id K} {s : ℕ × WorkerAction Id K}
variable {out : WorkerOut Id K} {log : List ((ℕ × WorkerAction Id K) × WorkerOut Id K)}

/-- The requests a run submits, in order. -/
def submissions (body : WorkerBody K) (log : List ((ℕ × WorkerAction Id K) × WorkerOut Id K)) :
    List (ScheduledRequest Id K) :=
  log.filterMap fun e => body.submission e.1

/-- The requests a run acquires, in order. -/
def acquisitions (log : List ((ℕ × WorkerAction Id K) × WorkerOut Id K)) :
    List (ScheduledRequest Id K) :=
  log.filterMap fun e => e.2.request

/-- **What every step keeps**, of a run with the log `log`. -/
structure Conserved (S : BagScheduler σ Id K) (body : WorkerBody K) (concurrency nRequests : ℕ)
    (log : List ((ℕ × WorkerAction Id K) × WorkerOut Id K)) (sim : Simulation σ Id K) : Prop where
  sound : S.Sound sim.scheduler
  queued : S.queued sim.scheduler + ↑(acquisitions log) = ↑((submissions body log).map S.stored)
  owed : Multiset.card (S.queued sim.scheduler) = total WorkerPlace.owed sim.workers
  permits : sim.permits + total WorkerPlace.permit sim.workers = concurrency
  reported : sim.metrics.length = total WorkerPlace.reported sim.workers
  tokens : (sim.metrics.map RequestMetric.tokens).sum + total WorkerPlace.held sim.workers =
    ((acquisitions log).map ScheduledRequest.maxTokens).sum
  workers : sim.workers.length = nRequests
  stepsLeft : log.length + total WorkerPlace.stepsLeft sim.workers = 6 * nRequests

omit [Field K] in
theorem conserved_init {s : σ} (hs : S.Sound s) (hq : S.queued s = 0) :
    Conserved S body concurrency nRequests [] (init s concurrency nRequests) where
  sound := hs
  queued := by simp [init, hq, acquisitions, submissions]
  owed := by simp [init, hq, total_replicate, WorkerPlace.owed]
  permits := by simp [init, total_replicate, WorkerPlace.permit]
  reported := by simp [init, total_replicate, WorkerPlace.reported]
  tokens := by simp [init, total_replicate, WorkerPlace.held, acquisitions]
  workers := by simp [init]
  stepsLeft := by simp [init, total_replicate, WorkerPlace.stepsLeft, mul_comm]

omit [Field K] in
/-- **No acquire finds the queue empty**: the worker's own submission, or
another's in its place, is there. -/
theorem Conserved.queued_ne_zero (h : Conserved S body concurrency nRequests log sim) {i : ℕ}
    {locals : WorkerLocals K} (hi : sim.workers[i]? = some (.submitted locals)) :
    S.queued sim.scheduler ≠ 0 := by
  have hone := le_total (f := WorkerPlace.owed) hi
  rw [WorkerPlace.owed] at hone
  intro hzero
  have howed := h.owed
  rw [hzero, Multiset.card_zero] at howed
  omega

omit [Field K] in
/-- A worker goes from `a` to `b`: what the shared variables lose it gains,
and the other way round. -/
theorem Conserved.move (h : Conserved S body concurrency nRequests log sim) {i : ℕ}
    {a b : WorkerPlace Id K} (hi : sim.workers[i]? = some a)
    (hworkers : sim'.workers = sim.workers.set i b) (hsound : S.Sound sim'.scheduler)
    (hqueued : S.queued sim'.scheduler + ↑out.request.toList =
      S.queued sim.scheduler + ↑((body.submission s).toList.map S.stored))
    (howed : Multiset.card (S.queued sim'.scheduler) + a.owed =
      Multiset.card (S.queued sim.scheduler) + b.owed)
    (hpermits : sim'.permits + b.permit = sim.permits + a.permit)
    (hreported : sim'.metrics.length + a.reported = sim.metrics.length + b.reported)
    (htokens : (sim'.metrics.map RequestMetric.tokens).sum + b.held =
      (sim.metrics.map RequestMetric.tokens).sum + a.held +
        (out.request.toList.map ScheduledRequest.maxTokens).sum)
    (hleft : a.stepsLeft = b.stepsLeft + 1) :
    Conserved S body concurrency nRequests (log ++ [(s, out)]) sim' := by
  have hacq : acquisitions (log ++ [(s, out)]) = acquisitions log ++ out.request.toList :=
    filterMap_snoc
  have hsub : submissions body (log ++ [(s, out)]) =
      submissions body log ++ (body.submission s).toList := filterMap_snoc
  refine ⟨hsound, ?_, ?_, ?_, ?_, ?_, ?_, ?_⟩
  · have hq := h.queued
    rw [hacq, hsub, List.map_append, ← Multiset.coe_add, ← Multiset.coe_add, ← hq,
      add_right_comm, ← hqueued, add_assoc]
    exact congrArg _ (add_comm _ _)
  · have hset := total_set (f := WorkerPlace.owed) (b := b) hi
    have hinv := h.owed
    rw [hworkers]
    omega
  · have hset := total_set (f := WorkerPlace.permit) (b := b) hi
    have hinv := h.permits
    rw [hworkers]
    omega
  · have hset := total_set (f := WorkerPlace.reported) (b := b) hi
    have hinv := h.reported
    rw [hworkers]
    omega
  · have hset := total_set (f := WorkerPlace.held) (b := b) hi
    have hinv := h.tokens
    rw [hworkers, hacq, List.map_append, List.sum_append]
    omega
  · rw [hworkers, List.length_set, h.workers]
  · have hset := total_set (f := WorkerPlace.stepsLeft) (b := b) hi
    have hinv := h.stepsLeft
    rw [hworkers, List.length_append, List.length_singleton]
    omega

/-- **A step keeps it, and does not block.** -/
theorem Conserved.step (h : Conserved S body concurrency nRequests log sim)
    (hm : Moves S body sim s sim' out) :
    Conserved S body concurrency nRequests (log ++ [(s, out)]) sim' ∧ out ≠ .blocked := by
  cases hm with
  | enter hi hp =>
    refine ⟨h.move hi rfl h.sound rfl rfl ?_ rfl ?_ rfl, nofun⟩
    · exact Nat.sub_add_cancel hp
    · simp [WorkerPlace.held, WorkerOut.request, Simulation.move]
  | submit hi =>
    refine ⟨h.move hi rfl (S.sound_submit _ _ h.sound) ?_ ?_ rfl rfl ?_ rfl, nofun⟩
    · simp [WorkerOut.request, Simulation.move, WorkerBody.submission, S.queued_submit,
        ← Multiset.singleton_add, add_comm]
    · rw [Simulation.move, S.queued_submit, Multiset.card_cons]
      rfl
    · simp [WorkerPlace.held, WorkerOut.request, Simulation.move]
  | acquire hi hacq =>
    rcases S.acquire_cases h.sound _ with ⟨-, heq⟩ | ⟨s', r, heq, hsound, hqueued⟩
    · rw [heq] at hacq
      cases hacq
    · rw [heq] at hacq
      cases hacq
      refine ⟨h.move hi rfl hsound ?_ ?_ rfl rfl ?_ rfl, nofun⟩
      · simp [WorkerOut.request, Simulation.move, WorkerBody.submission, hqueued,
          ← Multiset.singleton_add, add_comm]
      · rw [hqueued, Multiset.card_cons]
        rfl
      · simp [WorkerPlace.held, WorkerOut.request, Simulation.move]
  | block hi hacq =>
    -- the worker's place says that the queue is not empty
    rcases S.acquire_cases h.sound _ with ⟨hzero, -⟩ | ⟨s', r, heq, -, -⟩
    · exact absurd hzero (h.queued_ne_zero hi)
    · rw [heq] at hacq
      cases hacq
  | serve hi =>
    refine ⟨h.move hi rfl h.sound rfl rfl rfl rfl ?_ rfl, nofun⟩
    simp [WorkerPlace.held, WorkerOut.request, Simulation.move]
  | complete hi =>
    refine ⟨h.move hi rfl (S.sound_complete _ _ h.sound) ?_ ?_ rfl rfl ?_ rfl, nofun⟩
    · rw [Simulation.move, S.queued_complete]
      rfl
    · rw [Simulation.move, S.queued_complete]
      rfl
    · simp [WorkerPlace.held, WorkerOut.request, Simulation.move]
  | record hi hmetric =>
    refine ⟨h.move hi rfl h.sound rfl rfl rfl ?_ ?_ rfl, nofun⟩
    · simp [WorkerPlace.reported, Simulation.move]
    · simp [WorkerPlace.held, WorkerOut.request, Simulation.move, hmetric]

/-- What a whole run keeps. -/
theorem conserved_run {s : σ} (hs : S.Sound s) (hq : S.queued s = 0)
    {steps : List (ℕ × WorkerAction Id K)}
    (h : (machine S body concurrency).Along Enabled (init s concurrency nRequests) steps) :
    Conserved S body concurrency nRequests
        ((machine S body concurrency).log (init s concurrency nRequests) steps)
        ((machine S body concurrency).run (init s concurrency nRequests) steps) ∧
      ∀ e ∈ (machine S body concurrency).log (init s concurrency nRequests) steps,
        e.2 ≠ .blocked := by
  refine Machine.log_inv (M := machine S body concurrency) (s := init s concurrency nRequests)
    (H := fun steps => (machine S body concurrency).Along Enabled
      (init s concurrency nRequests) steps)
    (I := fun _ log sim => Conserved S body concurrency nRequests log sim ∧
      ∀ e ∈ log, e.2 ≠ .blocked) ?_ ⟨conserved_init hs hq, nofun⟩ ?_ h
  · intro steps step h
    exact (Machine.along_snoc.mp h).1
  · rintro steps step h ⟨hinv, hblocked⟩
    obtain ⟨hinv', hout⟩ := hinv.step (moves_of_enabled concurrency (Machine.along_snoc.mp h).2)
    refine ⟨hinv', fun e he => ?_⟩
    rcases List.mem_append.mp he with he | he
    · exact hblocked e he
    · rw [List.mem_singleton.mp he]
      exact hout

/-- **No deadlock**: where no worker can take a step, all of them are done. -/
theorem Conserved.all_done [Nonempty Id] (h : Conserved S body concurrency nRequests log sim)
    (hc : 1 ≤ concurrency) (hstuck : ∀ s, ¬ sim.Enabled s) :
    ∀ place ∈ sim.workers, place = .done := by
  -- a worker inside the semaphore can always go on
  have houtside : ∀ {i : ℕ} {place : WorkerPlace Id K}, sim.workers[i]? = some place →
      place = .waiting ∨ place = .done := by
    intro i place hi
    cases place with
    | waiting => exact Or.inl rfl
    | done => exact Or.inr rfl
    | entered => exact absurd hi (hstuck (i, .submit (Classical.arbitrary Id) 0 none 0 0 0))
    | submitted locals => exact absurd ⟨locals, hi⟩ (hstuck (i, .acquire 0 0))
    | acquired locals request waitMs =>
      exact absurd ⟨locals, request, waitMs, hi⟩ (hstuck (i, .serve 0))
    | served locals request waitMs svcMs =>
      exact absurd ⟨locals, request, waitMs, svcMs, hi⟩ (hstuck (i, .complete))
    | completed locals request waitMs svcMs =>
      exact absurd ⟨locals, request, waitMs, svcMs, hi⟩ (hstuck (i, .record))
  -- so every permit is in the semaphore, and nobody is kept waiting
  have hzero : total WorkerPlace.permit sim.workers = 0 := by
    by_contra hne
    obtain ⟨i, place, hi, hpos⟩ := exists_of_total_pos (Nat.pos_of_ne_zero hne)
    rcases houtside hi with rfl | rfl <;> exact absurd hpos (lt_irrefl 0)
  have hpermits : 0 < sim.permits := by
    have := h.permits
    omega
  intro place hmem
  obtain ⟨i, hi⟩ := List.mem_iff_getElem?.mp hmem
  rcases houtside hi with rfl | rfl
  · exact absurd ⟨hi, hpermits⟩ (hstuck (i, .enter))
  · rfl

omit [Field K] in
/-- The other way round, a worker that is done takes no step. -/
theorem not_enabled_of_done (h : ∀ place ∈ sim.workers, place = .done) : ¬ sim.Enabled s := by
  have hplace : ∀ {i : ℕ} {place : WorkerPlace Id K}, sim.workers[i]? = some place →
      place = .done := fun hi => h _ (List.mem_of_getElem? hi)
  obtain ⟨i, action⟩ := s
  cases action with
  | enter => exact fun ⟨hi, _⟩ => nomatch hplace hi
  | submit requestId maxTokens prediction created tEnqueue now =>
    exact fun (hi : sim.workers[i]? = some .entered) => nomatch hplace hi
  | acquire now after => exact fun ⟨_, hi⟩ => nomatch hplace hi
  | serve svcMs => exact fun ⟨_, _, _, hi⟩ => nomatch hplace hi
  | complete => exact fun ⟨_, _, _, _, hi⟩ => nomatch hplace hi
  | record => exact fun ⟨_, _, _, _, hi⟩ => nomatch hplace hi

/-- **What a run of the benchmark guarantees.** No acquire blocks; a run has
at most six steps a worker; and where it can go no further every worker has
reported, the requests acquired are those submitted, with their tokens, and
the queue is empty. -/
structure Conserves (S : BagScheduler σ Id K) (body : WorkerBody K) (s : σ)
    (concurrency nRequests : ℕ) (steps : List (ℕ × WorkerAction Id K)) : Prop where
  never_blocked : ∀ e ∈ (machine S body concurrency).log (init s concurrency nRequests) steps,
    e.2 ≠ .blocked
  length_le : steps.length ≤ 6 * nRequests
  conserved : S.queued ((machine S body concurrency).run
      (init s concurrency nRequests) steps).scheduler +
      ↑(acquisitions ((machine S body concurrency).log (init s concurrency nRequests) steps)) =
    ↑((steps.filterMap body.submission).map S.stored)
  ends : (∀ step, ¬ ((machine S body concurrency).run
      (init s concurrency nRequests) steps).Enabled step) →
    ((machine S body concurrency).run (init s concurrency nRequests) steps).metrics.length =
        nRequests ∧
      (acquisitions ((machine S body concurrency).log (init s concurrency nRequests) steps)).Perm
        ((steps.filterMap body.submission).map S.stored) ∧
      (((machine S body concurrency).run (init s concurrency nRequests) steps).metrics.map
          RequestMetric.tokens).sum =
        ((steps.filterMap body.submission).map ScheduledRequest.maxTokens).sum ∧
      S.queueDepth ((machine S body concurrency).run
        (init s concurrency nRequests) steps).scheduler = 0

theorem conserves [Nonempty Id] {s : σ} (hs : S.Sound s) (hq : S.queued s = 0)
    (hc : 1 ≤ concurrency) {steps : List (ℕ × WorkerAction Id K)}
    (h : (machine S body concurrency).Along Enabled (init s concurrency nRequests) steps) :
    Conserves S body s concurrency nRequests steps := by
  obtain ⟨hinv, hblocked⟩ := conserved_run hs hq h
  set log := (machine S body concurrency).log (init s concurrency nRequests) steps
  set sim := (machine S body concurrency).run (init s concurrency nRequests) steps
  have hsteps : log.map Prod.fst = steps := Machine.map_fst_log
  have hsub : submissions body log = steps.filterMap body.submission := by
    rw [← hsteps, List.filterMap_map]
    rfl
  have hlength : log.length = steps.length := by
    rw [← hsteps, List.length_map]
  have hqueued := hinv.queued
  rw [hsub] at hqueued
  refine ⟨hblocked, ?_, hqueued, fun hstuck => ?_⟩
  · have := hinv.stepsLeft
    omega
  · have hdone := hinv.all_done hc hstuck
    have hnone : ∀ {f : WorkerPlace Id K → ℕ}, f .done = 0 → total f sim.workers = 0 := by
      intro f hf
      rw [total_eq_nsmul (m := 0) fun place hp => by rw [hdone place hp, hf], nsmul_zero]
    have hempty : S.queued sim.scheduler = 0 := by
      rw [← Multiset.card_eq_zero, hinv.owed]
      exact hnone rfl
    rw [hempty, zero_add] at hqueued
    have hperm : (acquisitions log).Perm ((steps.filterMap body.submission).map S.stored) :=
      Multiset.coe_eq_coe.mp hqueued
    refine ⟨?_, hperm, ?_, ?_⟩
    · rw [hinv.reported, total_eq_nsmul (m := 1) fun place hp => by rw [hdone place hp]; rfl,
        hinv.workers, smul_eq_mul, mul_one]
    · have htokens := hinv.tokens
      rw [total_eq_nsmul (m := 0) fun place hp => by rw [hdone place hp]; rfl, nsmul_zero,
        add_zero] at htokens
      rw [htokens, (hperm.map _).sum_eq, List.map_map]
      exact congrArg List.sum (List.map_congr_left fun r _ => S.maxTokens_stored r)
    · rw [S.queueDepth_eq, hempty, Multiset.card_zero]

end Simulation

/-! ## The two benchmarks -/

section Benchmarks

variable {Id K : Type} [DecidableEq Id] [Field K] [LinearOrder K]

open Simulation in
/-- **The benchmarks lose nothing.** Every interleaving of the workers of
`simulate_fcfs`, and of those of `simulate_sjf` with an `OracleSJFScheduler`,
conserves the requests. -/
theorem benchmarks_conserve [Nonempty Id] (H : RequestHeap Id K) (useOracle : Bool)
    {concurrency nRequests : ℕ} (hc : 1 ≤ concurrency) (steps : List (ℕ × WorkerAction Id K)) :
    ((machine FCFSScheduler.bag (fcfsWorker K) concurrency).Along Enabled
        (init (FCFSScheduler.init Id K) concurrency nRequests) steps →
      Conserves FCFSScheduler.bag (fcfsWorker K) (FCFSScheduler.init Id K) concurrency nRequests
        steps) ∧
      ((machine (OracleSJFScheduler.bag H) (sjfWorker K useOracle) concurrency).Along Enabled
          (init (OracleSJFScheduler.init H) concurrency nRequests) steps →
        Conserves (OracleSJFScheduler.bag H) (sjfWorker K useOracle) (OracleSJFScheduler.init H)
          concurrency nRequests steps) := by
  refine ⟨conserves trivial rfl hc, conserves rfl ?_ hc⟩
  change Multiset.map _ (PriorityQueue.init H).entries = 0
  rw [PriorityQueue.entries_init, Multiset.map_zero]

/-- Two workers at once. The first submits the longer request and is given
the other's. -/
def crossedRun : List (ℕ × WorkerAction String ℚ) :=
  [(0, .enter), (1, .enter), (0, .submit "a" 100 none 0 0 0), (1, .submit "b" 50 none 1 1 1),
    (0, .acquire 2 2), (0, .serve 100), (1, .acquire 3 3), (0, .complete), (1, .serve 200),
    (1, .complete), (1, .record), (0, .record)]

open Simulation in
theorem crossedRun_conserves :
    (acquisitions ((machine (OracleSJFScheduler.bag (listHeap PrioritizedItem.key))
        (sjfWorker ℚ true) 2).log (init (OracleSJFScheduler.init _) 2 2) crossedRun)).map
          ScheduledRequest.requestId = ["b", "a"] ∧
      (((machine (OracleSJFScheduler.bag (listHeap PrioritizedItem.key))
        (sjfWorker ℚ true) 2).run (init (OracleSJFScheduler.init _) 2 2) crossedRun).metrics.map
          RequestMetric.tokens).sum =
        ((crossedRun.filterMap (sjfWorker ℚ true).submission).map
          ScheduledRequest.maxTokens).sum := by
  have hdone : ∀ place ∈ ((machine (OracleSJFScheduler.bag (listHeap PrioritizedItem.key))
      (sjfWorker ℚ true) 2).run (init (OracleSJFScheduler.init _) 2 2) crossedRun).workers,
      place = .done := by decide +kernel
  refine ⟨by decide +kernel, ?_⟩
  refine (((benchmarks_conserve (listHeap PrioritizedItem.key) true (by decide) crossedRun).2
    ?_).ends fun _ => not_enabled_of_done hdone).2.2.1
  exact ⟨⟨rfl, by decide⟩, ⟨rfl, by decide⟩, rfl, rfl, ⟨_, rfl⟩, ⟨_, _, _, rfl⟩, ⟨_, rfl⟩,
    ⟨_, _, _, _, rfl⟩, ⟨_, _, _, rfl⟩, ⟨_, _, _, _, rfl⟩, ⟨_, _, _, _, rfl⟩, ⟨_, _, _, _, rfl⟩,
    trivial⟩

end Benchmarks

end VllmScheduler
