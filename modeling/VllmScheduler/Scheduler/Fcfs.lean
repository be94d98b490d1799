import VllmScheduler.Scheduler.Sjf
/-!
# The FIFO scheduler does not withdraw what is cancelled

Whole runs of `FCFSScheduler` of `python/scheduler/fcfs_scheduler.py`. An
acquire takes from the queue and looks at nothing else, and a cancel takes
the id out of `_pending` and leaves the queue alone. So what was acquired
and what is queued make up the submissions, in order, whatever was
cancelled in between.
-/

namespace VllmScheduler

/-- The calls of its methods. -/
inductive FCFSOp (Id K : Type) where
  | submit (request : ScheduledRequest Id K)
  | acquire
  | complete (requestId : Id) (success : Bool)
  | cancel (requestId : Id)
deriving DecidableEq

/-- The request a call submits. -/
def FCFSOp.submission {Id K : Type} : FCFSOp Id K → Option (ScheduledRequest Id K)
  | .submit request => some request
  | _ => none

/-- The requests a run submits, in order. -/
def fcfsSubmissions {Id K : Type} (ops : List (FCFSOp Id K)) : List (ScheduledRequest Id K) :=
  ops.filterMap FCFSOp.submission

/-- The request a step hands out. -/
def SJFOut.acquiredRequest {Id K : Type} : SJFOut Id K → Option (ScheduledRequest Id K)
  | .acquired request => some request
  | _ => none

/-- The requests a run acquires, in order. -/
def fcfsAcquired {Id K : Type} (log : List (FCFSOp Id K × SJFOut Id K)) :
    List (ScheduledRequest Id K) :=
  log.filterMap fun e => e.2.acquiredRequest

namespace FCFSScheduler

variable {Id K : Type} [DecidableEq Id] {f : FCFSScheduler Id K} {op : FCFSOp Id K}
variable {ops : List (FCFSOp Id K)}

/-- The scheduler as a machine. An acquire that finds the queue empty waits
there; it takes a step of its own when it is woken. -/
def step (f : FCFSScheduler Id K) : FCFSOp Id K → FCFSScheduler Id K × SJFOut Id K
  | .submit request => (f.submit request, .done)
  | .acquire => (f.acquire.1, SJFScheduler.acquireOut f.acquire.2)
  | .complete requestId success => (f.complete requestId success, .done)
  | .cancel requestId => ((f.cancel requestId).1, .cancelled requestId (f.cancel requestId).2)

/-- The machine of `step`. -/
def machine (Id K : Type) [DecidableEq Id] :
    Machine (FCFSScheduler Id K) (FCFSOp Id K) (SJFOut Id K) where
  step := step

/-- The id a cancel withdraws: it answers `True` and the request is still
queued. -/
def withdrawn (f : FCFSScheduler Id K) : FCFSOp Id K → Option Id
  | .cancel i =>
    if (f.cancel i).2 = true ∧ i ∈ f.queue.map ScheduledRequest.requestId then some i else none
  | _ => none

/-- The ids a run withdraws. -/
def withdrawnIds (ops : List (FCFSOp Id K)) : List Id :=
  (machine Id K).notes withdrawn (init Id K) ops

/-- **What a scheduler that honours its cancels delivers**: the submissions
without the withdrawn ones, in order, and what is still to come of them is
what `queue_depth` counts. -/
def Delivers (ops : List (FCFSOp Id K)) : Prop :=
  ∃ rest, fcfsAcquired ((machine Id K).log (init Id K) ops) ++ rest =
      (fcfsSubmissions ops).filter (fun request => request.requestId ∉ withdrawnIds ops) ∧
    rest.length = ((machine Id K).run (init Id K) ops).queueDepth

/-! ## What it delivers -/

/-- A step moves requests from the submissions through the queue. -/
theorem queue_step :
    (f.step op).2.acquiredRequest.toList ++ (f.step op).1.queue =
      f.queue ++ op.submission.toList := by
  cases op with
  | submit request => rfl
  | acquire =>
    rcases hq : f.queue with - | ⟨request, rest⟩
    · simp [step, acquire_eq_none hq, hq, FCFSOp.submission, SJFScheduler.acquireOut,
        SJFOut.acquiredRequest]
    · simp [step, acquire_eq_some hq, FCFSOp.submission, SJFScheduler.acquireOut,
        SJFOut.acquiredRequest]
  | complete i success => exact (List.append_nil _).symm
  | cancel i => simp [step, FCFSOp.submission, SJFOut.acquiredRequest]

/-- **What was acquired and what is queued are the submissions**, in order. -/
theorem acquired_append_queue (f : FCFSScheduler Id K) (ops : List (FCFSOp Id K)) :
    fcfsAcquired ((machine Id K).log f ops) ++ ((machine Id K).run f ops).queue =
      f.queue ++ fcfsSubmissions ops := by
  induction ops generalizing f with
  | nil => exact (List.append_nil _).symm
  | cons op ops ih =>
    have hacq : fcfsAcquired ((machine Id K).log f (op :: ops)) =
        (f.step op).2.acquiredRequest.toList ++
          fcfsAcquired ((machine Id K).log (f.step op).1 ops) := filterMap_cons_toList
    have hsub : fcfsSubmissions (op :: ops) = op.submission.toList ++ fcfsSubmissions ops :=
      filterMap_cons_toList
    calc fcfsAcquired ((machine Id K).log f (op :: ops)) ++
          ((machine Id K).run f (op :: ops)).queue
        = (f.step op).2.acquiredRequest.toList ++ ((f.step op).1.queue ++ fcfsSubmissions ops) := by
          rw [hacq, List.append_assoc, Machine.run_cons]
          exact congrArg _ (ih _)
      _ = f.queue ++ fcfsSubmissions (op :: ops) := by
          rw [← List.append_assoc, queue_step, hsub, List.append_assoc]

/-- What is withdrawn was submitted. -/
theorem mem_submissions_of_withdrawn {i : Id} (h : i ∈ withdrawnIds ops) :
    i ∈ (fcfsSubmissions ops).map ScheduledRequest.requestId := by
  induction ops using List.reverseRecOn with
  | nil => cases h
  | append_singleton ops op ih =>
    rw [withdrawnIds, Machine.notes_snoc, List.mem_append] at h
    rw [fcfsSubmissions, filterMap_snoc, List.map_append, List.mem_append]
    refine Or.inl ?_
    rcases h with h | h
    · exact ih h
    · -- it is in the queue, and the queue is part of the submissions
      have hall := acquired_append_queue (init Id K) ops
      have hqueue : ∀ r ∈ ((machine Id K).run (init Id K) ops).queue, r ∈ fcfsSubmissions ops := by
        intro r hr
        have hmem := List.mem_append_right (fcfsAcquired ((machine Id K).log (init Id K) ops)) hr
        rw [hall] at hmem
        exact hmem
      rw [Option.mem_toList] at h
      cases op with
      | cancel j =>
        rw [withdrawn] at h
        split at h
        · rename_i hj
          rw [← Option.some.inj h]
          obtain ⟨r, hr, hid⟩ := List.mem_map.mp hj.2
          exact List.mem_map.mpr ⟨r, hqueue r hr, hid⟩
        · cases h
      | _ => cases h

/-- **When the FIFO scheduler honours its cancels**: exactly where nothing
that was still queued was cancelled. -/
theorem delivers_iff : Delivers ops ↔ withdrawnIds ops = [] := by
  have hall := acquired_append_queue (init Id K) ops
  constructor
  · rintro ⟨rest, heq, hlen⟩
    by_contra hne
    obtain ⟨i, hi⟩ := List.exists_mem_of_ne_nil _ hne
    obtain ⟨r, hr, rfl⟩ := List.mem_map.mp (mem_submissions_of_withdrawn hi)
    -- the filter drops `r`, and nothing was dropped from what is delivered
    have hlt : ((fcfsSubmissions ops).filter
        (fun request => request.requestId ∉ withdrawnIds ops)).length <
        (fcfsSubmissions ops).length :=
      List.length_filter_lt_length_iff_exists.mpr ⟨r, hr, by simpa using hi⟩
    have hsum := congrArg List.length hall
    have hsum' := congrArg List.length heq
    simp only [List.length_append, init, List.length_nil, queueDepth] at hsum hsum' hlen
    omega
  · intro hnil
    refine ⟨((machine Id K).run (init Id K) ops).queue, ?_, rfl⟩
    have hkeep : (fcfsSubmissions ops).filter
        (fun request => request.requestId ∉ withdrawnIds ops) = fcfsSubmissions ops :=
      List.filter_eq_self.mpr fun r _ => by simp [hnil]
    rw [hkeep]
    exact hall

/-- A queued request is cancelled, and acquired all the same. -/
def cancelThenAcquire : List (FCFSOp String ℚ) :=
  [.submit ⟨"a", "", 10, 0, 0⟩, .submit ⟨"b", "", 10, 0, 0⟩, .cancel "a", .acquire]

theorem cancelled_is_acquired :
    (((machine String ℚ).log (init String ℚ) cancelThenAcquire).map Prod.snd)[2]? =
        some (.cancelled "a" true) ∧
      (fcfsAcquired ((machine String ℚ).log (init String ℚ) cancelThenAcquire)).map
        ScheduledRequest.requestId = ["a"] ∧
      withdrawnIds cancelThenAcquire = ["a"] := by
  decide +kernel

end FCFSScheduler

end VllmScheduler
