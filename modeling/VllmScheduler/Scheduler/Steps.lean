import VllmScheduler.Scheduler.Sjf
import VllmScheduler.Queue.Entries
/-!
# What one step of the SJF scheduler can do

The results about the scheduler are about its queue, the queue of its
fallback, `_pending`, the request priorities and the tick under way. `core`
keeps these and drops the counters; `CoreStep` lists every way a step can
change them, with the branch of the source it comes from; and
`coreStep_step` is the one place where `step` is unfolded.
-/

namespace VllmScheduler

variable {Id K : Type} [DecidableEq Id] [Field K] [LinearOrder K] {H : RequestHeap Id K}

/-- The part of the scheduler its results speak about. -/
structure SJFCore (H : RequestHeap Id K) where
  queue : PriorityQueue H
  fallbackQueue : List (ScheduledRequest Id K)
  hasFallback : Bool
  useFallback : Bool
  pending : Dict Id (ScheduledRequest Id K)
  priority : Id → K
  tickNow : K
  tickRest : List (Id × ScheduledRequest Id K)
  aging : AgingFunction K
  timeout : K

namespace SJFCore

variable (M : MathFns K)

/-- The fallback takes the submissions and answers the acquires. -/
def Active (c : SJFCore H) : Prop := c.useFallback = true ∧ c.hasFallback = true

/-- The flag after a submission. -/
def flagAfter (c : SJFCore H) (request : ScheduledRequest Id K)
    (prediction : Option (Prediction K)) : Bool :=
  c.useFallback || (decide (PredictionFails request prediction) && c.hasFallback)

/-- `SJFScheduler.newPriority` on the core. -/
def newPriority (c : SJFCore H) (i : Id) (request : ScheduledRequest Id K) : K :=
  c.aging.boost M (c.tickNow - request.enqueueTime) (c.priority i)

/-- `SJFScheduler.TimedOut` on the core. -/
def TimedOut (c : SJFCore H) (request : ScheduledRequest Id K) : Prop :=
  c.tickNow - request.enqueueTime > c.timeout

/-- `SJFScheduler.Lowers` on the core. -/
def Lowers (c : SJFCore H) (i : Id) (request : ScheduledRequest Id K) : Prop :=
  c.newPriority M i request < c.priority i - 1 / 100

end SJFCore

/-- The core of a scheduler state. -/
def SJFScheduler.core (s : SJFScheduler H) : SJFCore H where
  queue := s.queue
  fallbackQueue := (s.fcfsFallback.map FCFSScheduler.queue).getD []
  hasFallback := s.fcfsFallback.isSome
  useFallback := s.useFallback
  pending := s.pending
  priority := s.priority
  tickNow := s.tickNow
  tickRest := s.tickRest
  aging := s.aging
  timeout := s.timeout

/-- **The ways a step can go.** -/
inductive CoreStep (M : MathFns K) (c : SJFCore H) :
    SJFOp Id K → SJFCore H → SJFOut Id K → Prop
  /-- A submission that goes to the priority queue. -/
  | enqueue (request : ScheduledRequest Id K) (prediction : Option (Prediction K)) (now : K) :
      ¬ (c.flagAfter request prediction = true ∧ c.hasFallback = true) →
      CoreStep M c (.submit request prediction now)
        { c with
          useFallback := c.flagAfter request prediction
          priority := Function.update c.priority request.requestId
            (request.predicted prediction).predictedTokens
          pending := c.pending.set request.requestId (request.predicted prediction)
          queue := c.queue.enqueue now request.requestId
            (request.predicted prediction).predictedTokens (request.predicted prediction) } .done
  /-- A submission that goes to the fallback. -/
  | divert (request : ScheduledRequest Id K) (prediction : Option (Prediction K)) (now : K) :
      c.flagAfter request prediction = true → c.hasFallback = true →
      CoreStep M c (.submit request prediction now)
        { c with
          useFallback := true
          priority := Function.update c.priority request.requestId
            (request.predicted prediction).predictedTokens
          fallbackQueue := c.fallbackQueue ++ [request.predicted prediction] } .done
  /-- An `acquire` call on the priority queue, fresh or resumed. -/
  | dequeue (op : SJFOp Id K) (now : K) :
      (op = .acquire now ∧ ¬ c.Active) ∨ op = .wake now →
      CoreStep M c op { c with queue := (c.queue.dequeue now).1 }
        (SJFScheduler.acquireOut ((c.queue.dequeue now).2.map PrioritizedItem.payload))
  /-- An `acquire` call that takes the head of the fallback's queue. -/
  | popFallback (now : K) (request : ScheduledRequest Id K)
      (rest : List (ScheduledRequest Id K)) :
      c.Active → c.fallbackQueue = request :: rest →
      CoreStep M c (.acquire now) { c with fallbackQueue := rest } (.acquired request)
  /-- An `acquire` call that finds the fallback's queue empty. -/
  | emptyFallback (now : K) :
      c.Active → c.fallbackQueue = [] → CoreStep M c (.acquire now) c .empty
  /-- A client's cancel. -/
  | cancel (i : Id) :
      CoreStep M c (.cancel i)
        { c with queue := (c.queue.cancel i).1, pending := c.pending.erase i }
        (.cancelled i (c.queue.cancel i).2)
  | complete (i : Id) (success : Bool) :
      CoreStep M c (.complete i success) { c with pending := c.pending.erase i } .done
  /-- The aging loop starts a tick. -/
  | tick (now : K) :
      c.tickRest = [] →
      CoreStep M c (.tick now) { c with tickNow := now, tickRest := c.pending.entries } .done
  /-- The aging loop drops a request past its timeout. -/
  | expire (i : Id) (request : ScheduledRequest Id K)
      (rest : List (Id × ScheduledRequest Id K)) :
      c.tickRest = (i, request) :: rest → c.TimedOut request →
      CoreStep M c .age
        { c with
          tickRest := rest
          queue := (c.queue.cancel i).1
          pending := c.pending.erase i }
        (.cancelled i (c.queue.cancel i).2)
  /-- The aging loop lowers a priority. -/
  | lower (i : Id) (request : ScheduledRequest Id K)
      (rest : List (Id × ScheduledRequest Id K)) :
      c.tickRest = (i, request) :: rest → ¬ c.TimedOut request → c.Lowers M i request →
      CoreStep M c .age
        { c with
          tickRest := rest
          queue := (c.queue.updatePriority i (c.newPriority M i request)).1
          priority := Function.update c.priority i (c.newPriority M i request) } .done
  /-- The aging loop passes a request over. -/
  | keep (i : Id) (request : ScheduledRequest Id K)
      (rest : List (Id × ScheduledRequest Id K)) :
      c.tickRest = (i, request) :: rest → ¬ c.TimedOut request → ¬ c.Lowers M i request →
      CoreStep M c .age { c with tickRest := rest } .done
  /-- A step that is not enabled, or a parked call that gives up. -/
  | idle (op : SJFOp Id K) (out : SJFOut Id K) :
      op.submittedId = none → (∀ i success, op ≠ .complete i success) →
      (out = .done ∨ out = .empty) → CoreStep M c op c out

/-- No step changes the policy. -/
theorem aging_coreStep {M : MathFns K} {c c' : SJFCore H} {op : SJFOp Id K} {out : SJFOut Id K}
    (h : CoreStep M c op c' out) : c'.aging = c.aging := by
  cases h <;> rfl

namespace SJFScheduler

variable {M : MathFns K} {s : SJFScheduler H}

omit [DecidableEq Id] in
/-- The prediction leaves the core alone but for the flag. -/
theorem core_afterPrediction (request : ScheduledRequest Id K)
    (prediction : Option (Prediction K)) :
    (s.afterPrediction request prediction).core =
      { s.core with useFallback := s.core.flagAfter request prediction } := by
  unfold afterPrediction
  by_cases hz : request.predictedTokens = 0
  · rw [if_pos hz]
    rcases prediction with - | pred
    · simp [core, SJFCore.flagAfter, PredictionFails, ScheduledRequest.needsPrediction, hz]
    · simp [core, SJFCore.flagAfter, PredictionFails]
  · rw [if_neg hz]
    simp [core, SJFCore.flagAfter, PredictionFails, ScheduledRequest.needsPrediction, hz]

omit [DecidableEq Id] [Field K] in
theorem activeFallback_eq_some {f : FCFSScheduler Id K} (h : s.activeFallback = some f) :
    s.core.Active ∧ s.fcfsFallback = some f := by
  unfold activeFallback at h
  split at h
  · rename_i hu
    exact ⟨⟨hu, by simp [core, h]⟩, h⟩
  · cases h

omit [DecidableEq Id] [Field K] in
theorem activeFallback_eq_none (h : s.activeFallback = none) : ¬ s.core.Active := by
  rintro ⟨hu, hf⟩
  simp only [core] at hu hf
  rw [activeFallback, if_pos hu] at h
  rw [h] at hf
  cases hf

omit [Field K] in
theorem core_cancel (i : Id) :
    (s.cancel i).1.core =
      { s.core with queue := (s.queue.cancel i).1, pending := s.pending.erase i } := by
  rcases hf : s.fcfsFallback with - | f <;> simp [cancel, core, hf]

theorem coreStep_submit (request : ScheduledRequest Id K) (prediction : Option (Prediction K))
    (now : K) :
    CoreStep M s.core (.submit request prediction now)
      (s.submit request prediction now).core .done := by
  have hcore := core_afterPrediction (s := s) request prediction
  have hreq := ScheduledRequest.predicted_requestId request prediction
  unfold submit
  set t := s.afterPrediction request prediction
  -- the fields of the state after the prediction, read off `hcore`
  have hq : t.queue = s.queue := congrArg SJFCore.queue hcore
  have hu : t.useFallback = s.core.flagAfter request prediction :=
    congrArg SJFCore.useFallback hcore
  have hpend : t.pending = s.pending := congrArg SJFCore.pending hcore
  have hprio : t.priority = s.priority := congrArg SJFCore.priority hcore
  have hfq : (t.fcfsFallback.map FCFSScheduler.queue).getD [] = s.core.fallbackQueue :=
    congrArg SJFCore.fallbackQueue hcore
  have hfs : t.fcfsFallback.isSome = s.core.hasFallback := congrArg SJFCore.hasFallback hcore
  have hnow : t.tickNow = s.tickNow := congrArg SJFCore.tickNow hcore
  have hrest : t.tickRest = s.tickRest := congrArg SJFCore.tickRest hcore
  have hag : t.aging = s.aging := congrArg SJFCore.aging hcore
  have hto : t.timeout = s.timeout := congrArg SJFCore.timeout hcore
  by_cases hact : s.core.flagAfter request prediction = true ∧ s.core.hasFallback = true
  · obtain ⟨f, hf⟩ := Option.isSome_iff_exists.mp (hfs.trans hact.2)
    have hfq' : f.queue = s.core.fallbackQueue := by simpa [hf] using hfq
    have h := CoreStep.divert (M := M) request prediction now hact.1 hact.2
    have hs : s.fcfsFallback.isSome = true := hact.2
    simp only [activeFallback, hu, hact.1, if_true, hf]
    simpa [core, hq, hpend, hprio, hnow, hrest, hag, hto, hfq', hu, hact.1, hreq, hs] using h
  · have h := CoreStep.enqueue (M := M) request prediction now hact
    have hnone : (if t.useFallback then t.fcfsFallback else none) = none := by
      by_cases hfl : s.core.flagAfter request prediction = true
      · rw [hu, if_pos hfl, ← Option.not_isSome_iff_eq_none, hfs]
        exact fun hh => hact ⟨hfl, hh⟩
      · rw [hu, if_neg hfl]
    simp only [activeFallback, hnone]
    simpa [core, hq, hpend, hprio, hnow, hrest, hag, hto, hu, hreq, hfq, hfs] using h

theorem coreStep_age : CoreStep M s.core .age (s.age M).1.core (s.age M).2 := by
  unfold age
  rcases hr : s.tickRest with - | ⟨⟨i, request⟩, rest⟩
  · exact .idle _ _ rfl (fun _ _ => by simp) (Or.inl rfl)
  · have hrest : s.core.tickRest = (i, request) :: rest := hr
    by_cases ht : s.TimedOut request
    · have hq : ({ s with tickRest := rest } : SJFScheduler H).TimedOut request := ht
      simp only [if_pos hq]
      rw [core_cancel]
      exact .expire i request rest hrest ht
    · have hq : ¬ ({ s with tickRest := rest } : SJFScheduler H).TimedOut request := ht
      simp only [if_neg hq]
      by_cases hl : s.Lowers M i request
      · have hl' : ({ s with tickRest := rest } : SJFScheduler H).Lowers M i request := hl
        simp only [if_pos hl']
        exact .lower i request rest hrest ht hl
      · have hl' : ¬ ({ s with tickRest := rest } : SJFScheduler H).Lowers M i request := hl
        simp only [if_neg hl']
        exact .keep i request rest hrest ht hl

/-- **Every step is one of these.** -/
theorem coreStep_step (op : SJFOp Id K) :
    CoreStep M s.core op (s.step M op).1.core (s.step M op).2 := by
  cases op with
  | submit request prediction now => exact coreStep_submit request prediction now
  | acquire now =>
    change CoreStep M s.core _ (s.acquire now).1.core (acquireOut (s.acquire now).2)
    rcases ha : s.activeFallback with - | f
    · rw [acquire, ha]
      exact .dequeue _ now (Or.inl ⟨rfl, activeFallback_eq_none ha⟩)
    · rw [acquire, ha]
      obtain ⟨hact, hf⟩ := activeFallback_eq_some ha
      have hfq : s.core.fallbackQueue = f.queue := by simp [core, hf]
      rcases hq : f.queue with - | ⟨request, rest⟩
      · have h := CoreStep.emptyFallback (M := M) now hact (hfq.trans hq)
        simpa [FCFSScheduler.acquire_eq_none hq, core, hf, acquireOut] using h
      · have h := CoreStep.popFallback (M := M) now request rest hact (hfq.trans hq)
        simpa [FCFSScheduler.acquire_eq_some hq, core, hf, acquireOut] using h
  | wake now =>
    simp only [step]
    split
    · exact .idle _ _ rfl (fun _ _ => by simp) (Or.inr rfl)
    · exact .dequeue _ now (Or.inr rfl)
  | timeOut => exact .idle _ _ rfl (fun _ _ => by simp) (Or.inr rfl)
  | complete i success =>
    have h := CoreStep.complete (M := M) (c := s.core) i success
    rcases hf : s.fcfsFallback with - | f <;> simpa [step, complete, core, hf] using h
  | cancel i =>
    simp only [step]
    rw [core_cancel]
    exact .cancel i
  | tick now =>
    simp only [step]
    split
    · exact .tick now ‹_›
    · exact .idle _ _ rfl (fun _ _ => by simp) (Or.inl rfl)
  | age => exact coreStep_age

/-- A run ages by the policy it was configured with. -/
theorem aging_run {config : AgingConfig K} {fallbackToFcfs : Bool} {timeout : K}
    {ops : List (SJFOp Id K)} :
    ((machine M H).run (init H config fallbackToFcfs timeout) ops).aging = createAging config := by
  refine Machine.run_inv_of_step (I := fun s : SJFScheduler H => s.aging = createAging config)
    ?_ rfl
  intro s op hs
  exact (aging_coreStep (coreStep_step (M := M) op)).trans hs

end SJFScheduler

end VllmScheduler
