import Mathlib.Data.List.Perm.Subperm
import VllmScheduler.Gateway.Model
import VllmScheduler.Queue.Live
/-!
# The workers do not bound the forwards

`max_workers` is the number of dispatch workers, and a worker goes back to
`acquire` as soon as it has created a task. So one worker drains the queue
while the backend has not answered a single request: with `m` requests
submitted there can be `m` forwards at once. The number of forwards stays
within `max_workers` only where no more requests than that are submitted,
or where there is no worker to forward any.
-/

namespace VllmScheduler

namespace SchedulerGateway

variable {Id K C : Type} [DecidableEq Id] [Field K] [LinearOrder K] {H : RequestHeap Id K}
variable {M : MathFns K} {g : SchedulerGateway C H}
variable {config : AgingConfig K} {fallbackToFcfs : Bool} {timeout : K} {n : ℕ}
variable {ops : List (GatewayStep Id K C)}

/-! ## The bound that holds -/

omit [DecidableEq Id] [Field K] in
theorem inFlight_le_length : g.inFlight ≤ g.tasks.length := List.countP_le_length

/-- Without re-pushes there are no more tasks than submissions. -/
theorem length_tasks_le
    (hG : (machine M C H).Along (fun g op => g.repushed M op = none)
      (init C H config fallbackToFcfs timeout n) ops) :
    ((machine M C H).run (init C H config fallbackToFcfs timeout n) ops).tasks.length ≤
      (submitted ops).length := by
  set g := (machine M C H).run (init C H config fallbackToFcfs timeout n) ops
  have hcount : ∀ i, (g.tasks.map ForwardTask.requestId).count i ≤ (submitted ops).count i := by
    intro i
    have hi := (count_tasks_le (i := i) (hG.mono fun g op h => by rw [h]; simp)).1
    exact (Nat.le_add_right _ _).trans hi
  have hsub : (g.tasks.map ForwardTask.requestId).Subperm (submitted ops) :=
    List.subperm_ext_iff.mpr fun i _ => hcount i
  have := hsub.length_le
  rwa [List.length_map] at this

/-- Without workers nothing is forwarded. -/
theorem tasks_eq_nil (hn : n = 0) :
    ((machine M C H).run (init C H config fallbackToFcfs timeout n) ops).tasks = [] := by
  have hI : ((machine M C H).run (init C H config fallbackToFcfs timeout n) ops).tasks = [] ∧
      ((machine M C H).run (init C H config fallbackToFcfs timeout n) ops).maxWorkers = 0 := by
    refine Machine.run_inv_of_step
      (I := fun g : SchedulerGateway C H => g.tasks = [] ∧ g.maxWorkers = 0) ?_ ⟨rfl, hn⟩
    rintro g op ⟨ht, hw⟩
    change (g.step M op).1.tasks = [] ∧ (g.step M op).1.maxWorkers = 0
    cases op with
    | dispatch worker now => simp [step, ht, hw]
    | giveUp worker =>
      rw [step]
      split <;> exact ⟨ht, hw⟩
    | clientTimeout i =>
      rw [step]
      split <;> exact ⟨ht, hw⟩
    | submit _ _ _ _ | tick _ | age => exact ⟨ht, hw⟩
    | chunk _ _ | finish _ _ => simp [step, ht, hw]
  exact hI.1

/-! ## The run that exceeds it -/

/-- A gateway with `k` live entries in its queue and `j` forwards under
way, the worker `0` at `acquire` and the fallback not in use. -/
structure Loaded (g : SchedulerGateway C H) (k j : ℕ) (used : List Id) : Prop where
  worker : 0 < g.maxWorkers
  unparked : g.parkedWorkers = ∅
  flag : g.scheduler.useFallback = false
  exact : g.scheduler.queue.Exact ScheduledRequest.requestId
  live : Multiset.card g.scheduler.queue.live = k
  flying : g.inFlight = j
  used : ∀ i ∈ g.scheduler.queue.pending, i ∈ used

section Loaded

variable {k j : ℕ} {used : List Id} {i : Id}

theorem loaded_init (hn : 0 < n) :
    (init C H config fallbackToFcfs timeout n).Loaded 0 0 [] where
  worker := hn
  unparked := rfl
  flag := rfl
  exact := PriorityQueue.exact_init
  live := by simp [init, SJFScheduler.init, PriorityQueue.live]
  flying := rfl
  used := fun i hi => by simp [init, SJFScheduler.init, PriorityQueue.init] at hi

omit [Field K] in
theorem Loaded.activeFallback (h : g.Loaded k j used) : g.scheduler.activeFallback = none := by
  rw [SJFScheduler.activeFallback, h.flag]
  rfl

/-- A request that brings its own prediction goes to the priority queue. -/
theorem Loaded.submit (h : g.Loaded k j used) {request : ScheduledRequest Id K}
    (hpred : request.predictedTokens ≠ 0) (hid : request.requestId ∉ used) (now : K)
    (stream : Bool) :
    (g.step M (.submit request none now stream)).1.Loaded (k + 1) j
      (used ++ [request.requestId]) := by
  have hsched : (g.step M (.submit request none now stream)).1.scheduler.queue =
      g.scheduler.queue.enqueue now request.requestId request.predictedTokens request := by
    simp [step, SchedulerGateway.submit, SJFScheduler.submit, SJFScheduler.afterPrediction,
      ScheduledRequest.predicted, hpred, SJFScheduler.activeFallback, h.flag]
  have hflag : (g.step M (.submit request none now stream)).1.scheduler.useFallback = false := by
    simp [step, SchedulerGateway.submit, SJFScheduler.submit, SJFScheduler.afterPrediction,
      ScheduledRequest.predicted, hpred, SJFScheduler.activeFallback, h.flag]
  have hnew : request.requestId ∉ g.scheduler.queue.pending := fun hm => hid (h.used _ hm)
  refine ⟨h.worker, h.unparked, hflag, ?_, ?_, h.flying, ?_⟩
  · rw [hsched]
    exact h.exact.enqueue hnew rfl
  · rw [hsched, PriorityQueue.live_enqueue h.exact hnew, Multiset.card_cons, h.live]
  · intro i hi
    rw [hsched] at hi
    rw [List.mem_append, List.mem_singleton]
    exact (Dict.mem_set.mp hi).symm.imp_left (h.used i)

/-- Worker `0` acquires a request and creates a task for it. -/
theorem Loaded.dispatch (h : g.Loaded (k + 1) j used) (now : K) :
    (g.step M (.dispatch 0 now)).1.Loaded k (j + 1) used := by
  rcases PriorityQueue.dequeue_live h.exact now with
    ⟨q, -, -, hzero, -⟩ | ⟨q, item, heq, hex, hlive, -⟩
  · have := h.live
    rw [hzero, Multiset.card_zero] at this
    omega
  · have hacq : g.scheduler.acquire now =
        ({ g.scheduler with queue := q }, some item.payload) := by
      rw [SJFScheduler.acquire, h.activeFallback]
      simp only [SJFScheduler.acquireQueue, heq, Option.map_some]
    have hstep : g.scheduler.step M (.acquire now) =
        ({ g.scheduler with queue := q }, .acquired item.payload) := by
      simp [SJFScheduler.step, hacq, SJFScheduler.acquireOut]
    have hg : (g.step M (.dispatch 0 now)).1 =
        { g with
          scheduler := { g.scheduler with queue := q }
          parkedWorkers := g.parkedWorkers.erase 0
          tasks := g.tasks ++ [⟨item.payload.requestId, .running⟩] } := by
      have hpark : (0 : ℕ) ∉ g.parkedWorkers := by
        rw [h.unparked]
        exact Finset.notMem_empty 0
      simp only [step, if_pos h.worker, SchedulerGateway.dispatch, if_neg hpark, hstep]
    rw [hg]
    refine ⟨h.worker, by simp [h.unparked], h.flag, hex, ?_, ?_, ?_⟩
    · have := h.live
      rw [hlive, Multiset.card_cons] at this
      exact Nat.succ_injective this
    · have := h.flying
      rw [inFlight] at this ⊢
      rw [List.countP_append, this]
      simp
    · intro i hi
      have hm : i ∈ (g.scheduler.queue.dequeue now).1.pending := by
        rw [heq]
        exact hi
      exact h.used i (PriorityQueue.mem_pending_of_dequeue hm).1

end Loaded

/-- A request with a prediction of its own. -/
def plainRequest (i : Id) : ScheduledRequest Id K := ⟨i, "", 128, 1, 0⟩

/-- The requests of some ids are submitted. -/
def arrivals (ids : List Id) : List (GatewayStep Id K C) :=
  ids.map fun i => .submit (plainRequest i) none 0 false

/-- Worker `0` goes round its loop `m` times. -/
def rounds (m : ℕ) : List (GatewayStep Id K C) := List.replicate m (.dispatch 0 0)

section Flood

variable {k j : ℕ} {used : List Id}

theorem loaded_arrivals {ids : List Id} (h : g.Loaded k j used) (hnd : (used ++ ids).Nodup) :
    ((machine M C H).run g (arrivals ids)).Loaded (k + ids.length) j (used ++ ids) := by
  induction ids generalizing g k used with
  | nil => simpa [arrivals] using h
  | cons i ids ih =>
    have hi : i ∉ used := fun hm => by
      have := (List.nodup_append.mp hnd).2.2 i hm i List.mem_cons_self
      exact this rfl
    have hpred : (plainRequest i : ScheduledRequest Id K).predictedTokens ≠ 0 := one_ne_zero
    have hstep : (g.step M (.submit (plainRequest i) none 0 false)).1.Loaded (k + 1) j
        (used ++ [i]) := h.submit hpred hi 0 false
    have hrest := ih hstep (by rwa [List.append_assoc, List.singleton_append])
    have hlen : k + (i :: ids).length = k + 1 + ids.length := by
      rw [List.length_cons]
      omega
    rw [List.append_assoc, List.singleton_append] at hrest
    rw [hlen]
    exact hrest

theorem loaded_rounds (h : g.Loaded k j used) :
    ((machine M C H).run g (rounds k)).Loaded 0 (j + k) used := by
  induction k generalizing g j with
  | zero => exact h
  | succ k ih =>
    have hrest := ih (Loaded.dispatch (M := M) h 0)
    have hadd : j + (k + 1) = j + 1 + k := by omega
    rw [hadd]
    exact hrest

end Flood

omit [DecidableEq Id] [LinearOrder K] in
theorem submitted_flood {ids : List Id} {m : ℕ} :
    submitted (arrivals ids ++ rounds m : List (GatewayStep Id K C)) = ids := by
  have harr : submitted (arrivals ids : List (GatewayStep Id K C)) = ids := by
    rw [submitted, arrivals, List.filterMap_map]
    exact List.filterMap_some
  have hrounds : submitted (rounds m : List (GatewayStep Id K C)) = [] := by
    rw [submitted, List.filterMap_eq_nil_iff]
    intro op hop
    rw [List.eq_of_mem_replicate hop]
    rfl
  calc submitted (arrivals ids ++ rounds m : List (GatewayStep Id K C))
      = submitted (arrivals ids : List (GatewayStep Id K C)) ++
          submitted (rounds m : List (GatewayStep Id K C)) := List.filterMap_append
    _ = ids := by rw [harr, hrounds, List.append_nil]

/-- **One worker puts every submitted request in flight.** -/
theorem inFlight_flood (hn : 0 < n) {ids : List Id} (hids : ids.Nodup) :
    ((machine M C H).run (init C H config fallbackToFcfs timeout n)
      (arrivals ids ++ rounds ids.length)).inFlight = ids.length := by
  rw [Machine.run_append]
  have hinit : (init C H config fallbackToFcfs timeout n).Loaded 0 0 [] := loaded_init hn
  have harr := loaded_arrivals (M := M) hinit (show ([] ++ ids).Nodup from hids)
  rw [Nat.zero_add] at harr
  have hround := loaded_rounds (M := M) harr
  rw [hround.flying, Nat.zero_add]

/-- **The bound holds for `m` requests, in every interleaving, exactly if
there are as many workers as requests**, or none at all. Interleavings in
which aging re-pushes a queued request are left out: they forward one
request several times. -/
theorem inFlight_le_iff [Infinite Id] (M : MathFns K) (C : Type) (H : RequestHeap Id K)
    (config : AgingConfig K) (fallbackToFcfs : Bool) (timeout : K) (n m : ℕ) :
    (∀ ops : List (GatewayStep Id K C),
      (submitted ops).Nodup → (submitted ops).length = m →
      (machine M C H).Along (fun g op => g.repushed M op = none)
        (init C H config fallbackToFcfs timeout n) ops →
      ((machine M C H).run (init C H config fallbackToFcfs timeout n) ops).inFlight ≤ n) ↔
    m ≤ n ∨ n = 0 := by
  constructor
  · intro hall
    by_contra hcon
    rw [not_or] at hcon
    -- `m` requests with ids of their own, one worker, no answer
    set ids : List Id := (List.range m).map (Infinite.natEmbedding Id)
    have hlen : ids.length = m := by simp [ids]
    have hnd : ids.Nodup :=
      List.nodup_range.map (Infinite.natEmbedding Id).injective
    have hrun := hall (arrivals ids ++ rounds ids.length) (by rwa [submitted_flood])
      (by rw [submitted_flood, hlen]) (Machine.along_of_forall ?_)
    · rw [inFlight_flood (by omega) hnd, hlen] at hrun
      omega
    · intro op hop g
      rcases List.mem_append.mp hop with hop | hop
      · obtain ⟨i, -, rfl⟩ := List.mem_map.mp hop
        rfl
      · rw [List.eq_of_mem_replicate hop]
        rfl
  · rintro (hle | rfl) ops - hm hG
    · have hlen := length_tasks_le hG
      have hfly := inFlight_le_length
        (g := (machine M C H).run (init C H config fallbackToFcfs timeout n) ops)
      omega
    · rw [inFlight, tasks_eq_nil rfl]
      exact le_rfl

/-- The default gateway with a number of workers; requests go by names and
chunks are texts. -/
def demo (workers : ℕ) :
    SchedulerGateway String (listHeap PrioritizedItem.key : RequestHeap String ℚ) :=
  init _ _ (AgingConfig.default ℚ) true 300 workers

/-- Two requests, and one worker that goes round twice. -/
def overloadedRun : List (GatewayStep String ℚ String) :=
  [.submit (chatRequest "a" 0) (some ⟨100, 1, 1⟩) 0 false,
    .submit (chatRequest "b" 1) (some ⟨50, 1, 1⟩) 1 false, .dispatch 0 2, .dispatch 0 3]

/-- **One worker, two forwards at once.** -/
theorem overloadedRun_exceeds :
    (submitted overloadedRun).Nodup ∧
      ((machine MathFns.firstOrder _ _).run (demo 1) overloadedRun).maxWorkers = 1 ∧
      ((machine MathFns.firstOrder _ _).run (demo 1) overloadedRun).inFlight = 2 := by
  decide +kernel

/-- Two workers and two requests never exceed the bound. -/
theorem two_requests_inFlight_le :
    Infinite ℕ ∧ ∀ ops : List (GatewayStep ℕ ℚ String),
      (submitted ops).Nodup → (submitted ops).length = 2 →
      (machine MathFns.firstOrder String (listHeap PrioritizedItem.key)).Along
        (fun g op => g.repushed MathFns.firstOrder op = none)
        (init String (listHeap PrioritizedItem.key) (AgingConfig.default ℚ) true 300 2) ops →
      ((machine MathFns.firstOrder String (listHeap PrioritizedItem.key)).run
        (init String (listHeap PrioritizedItem.key) (AgingConfig.default ℚ) true 300 2)
        ops).inFlight ≤ 2 :=
  ⟨inferInstance, (inFlight_le_iff MathFns.firstOrder String (listHeap PrioritizedItem.key)
    (AgingConfig.default ℚ) true 300 2 2).mpr (Or.inl le_rfl)⟩

end SchedulerGateway

end VllmScheduler
