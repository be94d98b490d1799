import VllmScheduler.Common.Dict
import VllmScheduler.Common.Numerals
import Mathlib.Algebra.Order.Field.Basic
/-!
# Requests, and what every scheduler keeps

`python/scheduler/base_scheduler.py` and `fcfs_scheduler.py`. A request
object is shared between the scheduler, its queue and the aging loop, and
`priority` is the one attribute written after it is submitted, so a
scheduler that ages keeps that attribute apart (`Sjf.lean`) and the record
here holds the others. `messages` and `metadata` are the gateway's and no
scheduler reads them.
-/

namespace VllmScheduler

variable {Id K : Type}

/-- A request in the scheduling pipeline; `enqueueTime` is the clock
reading at its creation. -/
structure ScheduledRequest (Id K : Type) where
  requestId : Id
  prompt : String
  maxTokens : ℤ
  predictedTokens : K
  enqueueTime : K
deriving DecidableEq

/-- What the predictor returns. -/
structure Prediction (K : Type) where
  predictedTokens : K
  featureLatencyMs : K
  predictLatencyMs : K
deriving DecidableEq

/-- The counters and timings of `BaseScheduler`. -/
structure BaseScheduler (K : Type) where
  totalScheduled : ℕ
  totalCompleted : ℕ
  totalErrors : ℕ
  featureLatencies : List K
  predictLatencies : List K
  scheduleLatencies : List K
deriving DecidableEq

namespace BaseScheduler

/-- `BaseScheduler.__init__`. -/
def init (K : Type) : BaseScheduler K := ⟨0, 0, 0, [], [], []⟩

/-- `record_timing`. -/
def recordTiming (b : BaseScheduler K) (featureMs predictMs scheduleMs : K) : BaseScheduler K :=
  { b with
    featureLatencies := b.featureLatencies ++ [featureMs]
    predictLatencies := b.predictLatencies ++ [predictMs]
    scheduleLatencies := b.scheduleLatencies ++ [scheduleMs] }

/-- The counter a submission moves. -/
def scheduled (b : BaseScheduler K) : BaseScheduler K :=
  { b with totalScheduled := b.totalScheduled + 1 }

/-- The counters a completion moves. -/
def completed (b : BaseScheduler K) (success : Bool) : BaseScheduler K :=
  if success then { b with totalCompleted := b.totalCompleted + 1 }
  else { b with totalErrors := b.totalErrors + 1 }

end BaseScheduler

/-! ## First come, first served -/

/-- `FCFSScheduler`: a FIFO queue, and a dictionary of what is pending.
The two are updated by different methods: an acquire leaves the
dictionary alone and a cancel the queue. -/
structure FCFSScheduler (Id K : Type) where
  base : BaseScheduler K
  queue : List (ScheduledRequest Id K)
  pending : Dict Id (ScheduledRequest Id K)
  totalCancelled : ℕ

namespace FCFSScheduler

variable [DecidableEq Id]

/-- `FCFSScheduler.__init__`. -/
def init (Id K : Type) : FCFSScheduler Id K := ⟨BaseScheduler.init K, [], Dict.empty, 0⟩

/-- `submit`. -/
def submit (f : FCFSScheduler Id K) (request : ScheduledRequest Id K) : FCFSScheduler Id K :=
  { f with
    pending := f.pending.set request.requestId request
    queue := f.queue ++ [request]
    base := f.base.scheduled }

/-- `acquire`: the head of the queue, or nothing while the queue is empty
and the call waits. -/
def acquire (f : FCFSScheduler Id K) : FCFSScheduler Id K × Option (ScheduledRequest Id K) :=
  match f.queue with
  | [] => (f, none)
  | request :: rest => ({ f with queue := rest }, some request)

/-- `complete`. -/
def complete (f : FCFSScheduler Id K) (requestId : Id) (success : Bool) : FCFSScheduler Id K :=
  { f with
    pending := f.pending.erase requestId
    base := f.base.completed success }

/-- `cancel`: the id leaves the dictionary and stays in the queue. -/
def cancel (f : FCFSScheduler Id K) (requestId : Id) : FCFSScheduler Id K × Bool :=
  if requestId ∈ f.pending then
    ({ f with
        pending := f.pending.erase requestId
        totalCancelled := f.totalCancelled + 1 }, true)
  else (f, false)

/-- The `queue_depth` property. -/
def queueDepth (f : FCFSScheduler Id K) : ℕ := f.queue.length

variable {f : FCFSScheduler Id K} {request : ScheduledRequest Id K} {i : Id} {b : Bool}

@[simp] theorem queue_submit : (f.submit request).queue = f.queue ++ [request] := rfl

@[simp] theorem queue_complete : (f.complete i b).queue = f.queue := rfl

@[simp] theorem queue_cancel : (f.cancel i).1.queue = f.queue := by
  unfold cancel
  split <;> rfl

omit [DecidableEq Id] in
theorem acquire_eq_none (h : f.queue = []) : f.acquire = (f, none) := by
  rw [acquire, h]

omit [DecidableEq Id] in
theorem acquire_eq_some {rest : List (ScheduledRequest Id K)} (h : f.queue = request :: rest) :
    f.acquire = ({ f with queue := rest }, some request) := by
  rw [acquire, h]

end FCFSScheduler

end VllmScheduler
