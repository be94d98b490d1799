import Mathlib.Algebra.Order.Ring.Cast
import VllmScheduler.Common.PriorityBag
import VllmScheduler.Queue.Live
import VllmScheduler.Scheduler.Sjf
/-!
# The oracle scheduler is a priority queue

`OracleSJFScheduler` of `python/scheduler/sjf_scheduler.py` takes
`max_tokens` for the length and neither ages nor falls back. What it shows
is a history of the abstract priority queue of its live requests, least
`max_tokens` first and earlier submissions first among equals: `Tied`
relates the two states, and every step shows an allowed event. The
tombstones its queue keeps are invisible but for one thing: a second
cancel of a request that has not been purged yet answers `True` again.
-/

namespace VllmScheduler

/-- The scheduler's fields. -/
structure OracleSJFScheduler {Id K : Type} [LinearOrder K] (H : RequestHeap Id K) where
  base : BaseScheduler K
  queue : PriorityQueue H

/-- The calls of its methods. An `acquire` is one pass over the queue, by a
fresh call or by a parked one that is woken. -/
inductive OracleOp (Id K : Type)
  | submit (request : ScheduledRequest Id K) (now : K)
  | acquire (now : K)
  | complete (requestId : Id) (success : Bool)
  | cancel (requestId : Id)
deriving DecidableEq

section History

variable {Id K : Type} [Field K]

/-- The request as `submit` leaves it. -/
def ScheduledRequest.oracle (request : ScheduledRequest Id K) : ScheduledRequest Id K :=
  { request with predictedTokens := request.maxTokens }

/-- The order of service: `max_tokens`, then the time of submission. -/
def oracleKey (a : ScheduledRequest Id K × K) : ℤ ×ₗ K := toLex (a.1.maxTokens, a.2)

/-- What a step shows of the queue. -/
def oracleEvent : OracleOp Id K × SJFOut Id K → Option (BagEvent (ScheduledRequest Id K) K Id)
  | (_, .acquired request) => some (.taken request)
  | (_, .empty) => some .empty
  | (_, .cancelled requestId found) => some (.removed requestId found)
  | (.submit request now, .done) => some (.inserted (request.oracle, now))
  | (_, .done) => none

/-- What a run shows of the queue. -/
def oracleEvents (log : List (OracleOp Id K × SJFOut Id K)) :
    List (BagEvent (ScheduledRequest Id K) K Id) :=
  log.filterMap oracleEvent

/-- The requests submitted and since then neither returned nor cancelled,
with the times they were enqueued. -/
def oracleLive [DecidableEq Id] (log : List (OracleOp Id K × SJFOut Id K)) :
    Multiset (ScheduledRequest Id K × K) :=
  liveAfter ScheduledRequest.requestId 0 (oracleEvents log)

/-- The submissions of a run: ids and enqueue times. -/
def oracleSubmissions (ops : List (OracleOp Id K)) : List (Id × K) :=
  ops.filterMap fun
    | .submit request now => some (request.requestId, now)
    | _ => none

/-- The requests a run returns, in order. -/
def oracleAcquired (log : List (OracleOp Id K × SJFOut Id K)) : List (ScheduledRequest Id K) :=
  log.filterMap fun
    | (_, .acquired request) => some request
    | _ => none

end History

namespace OracleSJFScheduler

variable {Id K : Type} [DecidableEq Id] [Field K] [LinearOrder K] {H : RequestHeap Id K}

/-- `OracleSJFScheduler.__init__`. -/
def init (H : RequestHeap Id K) : OracleSJFScheduler H :=
  ⟨BaseScheduler.init K, PriorityQueue.init H⟩

/-- `submit`. -/
def submit (s : OracleSJFScheduler H) (request : ScheduledRequest Id K) (now : K) :
    OracleSJFScheduler H :=
  let request := request.oracle
  { base := s.base.scheduled
    queue := s.queue.enqueue now request.requestId request.predictedTokens request }

/-- `acquire`. -/
def acquire (s : OracleSJFScheduler H) (now : K) :
    OracleSJFScheduler H × Option (ScheduledRequest Id K) :=
  let result := s.queue.dequeue now
  ({ s with queue := result.1 }, result.2.map PrioritizedItem.payload)

/-- `complete`: the counters only. -/
def complete (s : OracleSJFScheduler H) (_requestId : Id) (success : Bool) :
    OracleSJFScheduler H :=
  { s with base := s.base.completed success }

/-- `cancel`. -/
def cancel (s : OracleSJFScheduler H) (requestId : Id) : OracleSJFScheduler H × Bool :=
  let result := s.queue.cancel requestId
  ({ s with queue := result.1 }, result.2)

/-- The `queue_depth` property. -/
def queueDepth (s : OracleSJFScheduler H) : ℕ := s.queue.depth

/-- The scheduler as a machine. -/
def step (s : OracleSJFScheduler H) : OracleOp Id K → OracleSJFScheduler H × SJFOut Id K
  | .submit request now => (s.submit request now, .done)
  | .acquire now => ((s.acquire now).1, SJFScheduler.acquireOut (s.acquire now).2)
  | .complete requestId success => (s.complete requestId success, .done)
  | .cancel requestId => ((s.cancel requestId).1, .cancelled requestId (s.cancel requestId).2)

/-- The machine of `step`. -/
def machine (H : RequestHeap Id K) :
    Machine (OracleSJFScheduler H) (OracleOp Id K) (SJFOut Id K) where
  step := step

/-- An acquire of a scheduler nothing is cancelled in: there is nothing, or
it takes a least entry. -/
theorem acquire_cases {s : OracleSJFScheduler H} (hc : s.queue.cancelled = ∅) (now : K) :
    (s.queue.entries = 0 ∧ s.acquire now = (s, none)) ∨
      ∃ s' item, s.acquire now = (s', some item.payload) ∧
        s.queue.entries = item ::ₘ s'.queue.entries ∧ s'.queue.cancelled = ∅ ∧
        ∀ y ∈ s.queue.entries, item.key ≤ y.key := by
  rcases PriorityQueue.dequeue_of_empty hc now with
    ⟨hzero, heq⟩ | ⟨q', item, heq, hent, hc', -, hmin⟩
  · exact Or.inl ⟨hzero, by rw [acquire, heq]; rfl⟩
  · exact Or.inr ⟨{ s with queue := q' }, item, by rw [acquire, heq]; rfl, hent, hc', hmin⟩

end OracleSJFScheduler

/-! ## The refinement -/

variable {Id K : Type} [DecidableEq Id] [Field K] [LinearOrder K] {H : RequestHeap Id K}

/-- **The abstract state of a queue**: its live entries, as requests with
their enqueue times. -/
structure Tied (q : PriorityQueue H) (live : Multiset (ScheduledRequest Id K × K)) : Prop where
  exact : q.Exact ScheduledRequest.requestId
  live_eq : q.live.map (fun item => (item.payload, item.enqueueTime)) = live
  priority : ∀ item ∈ q.entries, item.priority = item.payload.maxTokens
  times : (live.map Prod.snd).Nodup

section Tied

variable {q : PriorityQueue H} {live : Multiset (ScheduledRequest Id K × K)} {i : Id} {now : K}

theorem tied_init : Tied (PriorityQueue.init H) 0 where
  exact := PriorityQueue.exact_init
  live_eq := by simp [PriorityQueue.live]
  priority := fun item hm => by simp at hm
  times := Multiset.nodup_zero

/-- The live requests go by the ids of their entries. -/
theorem Tied.map_requestId (h : Tied q live) :
    live.map (fun a => a.1.requestId) = q.live.map PrioritizedItem.requestId := by
  rw [← h.live_eq, Multiset.map_map]
  refine Multiset.map_congr rfl fun item hm => ?_
  exact h.exact.tag_eq (Multiset.mem_filter.mp hm).1

theorem Tied.nodup_ids (h : Tied q live) : (live.map fun a => a.1.requestId).Nodup := by
  rw [h.map_requestId]
  exact h.exact.nodup_live

omit [DecidableEq Id] in
/-- The heap's order is the order of service. -/
theorem oracleKey_le [IsStrictOrderedRing K] {x y : PrioritizedItem Id K (ScheduledRequest Id K)}
    (hx : x.priority = x.payload.maxTokens) (hy : y.priority = y.payload.maxTokens)
    (h : x.key ≤ y.key) :
    oracleKey (x.payload, x.enqueueTime) ≤ oracleKey (y.payload, y.enqueueTime) := by
  rw [PrioritizedItem.key, PrioritizedItem.key, hx, hy, Prod.Lex.toLex_le_toLex] at h
  rw [oracleKey, oracleKey, Prod.Lex.toLex_le_toLex]
  simpa using h

/-- A filter on ids, seen on both levels. -/
theorem Tied.filter_eq (h : Tied q live) :
    (q.live.filter fun item => item.requestId ≠ i).map
        (fun item => (item.payload, item.enqueueTime)) =
      live.filter fun a => a.1.requestId ≠ i := by
  rw [← h.live_eq, Multiset.filter_map]
  congr 1
  refine Multiset.filter_congr fun item hm => ?_
  have := h.exact.tag_eq (Multiset.mem_filter.mp hm).1
  simp [Function.comp, this]

theorem Tied.enqueue (h : Tied q live) {request : ScheduledRequest Id K}
    (hi : request.requestId ∉ q.pending) (hnow : now ∉ live.map Prod.snd) :
    Tied (q.enqueue now request.requestId request.oracle.predictedTokens request.oracle)
      ((request.oracle, now) ::ₘ live) where
  exact := h.exact.enqueue hi rfl
  live_eq := by
    rw [PriorityQueue.live_enqueue h.exact hi, Multiset.map_cons, h.live_eq]
  priority := fun item hm => by
    rw [PriorityQueue.entries_enqueue, Multiset.mem_cons] at hm
    rcases hm with rfl | hm
    · rfl
    · exact h.priority item hm
  times := by
    rw [Multiset.map_cons, Multiset.nodup_cons]
    exact ⟨hnow, h.times⟩

theorem Tied.cancel (h : Tied q live) :
    Tied (q.cancel i).1 (live.filter fun a => a.1.requestId ≠ i) where
  exact := h.exact.cancel
  live_eq := by rw [PriorityQueue.live_cancel h.exact, h.filter_eq]
  priority := fun item hm => h.priority item (by rwa [PriorityQueue.entries_cancel] at hm)
  times := Multiset.nodup_of_le (Multiset.map_le_map (Multiset.filter_le _ _)) h.times

/-- **A dequeue shows an allowed take.** -/
theorem Tied.dequeue [IsStrictOrderedRing K] (h : Tied q live) (now : K) :
    (∃ q', q.dequeue now = (q', none) ∧ live = 0 ∧ Tied q' 0) ∨
      ∃ q' item, q.dequeue now = (q', some item) ∧
        (BagEvent.taken item.payload).Allowed oracleKey ScheduledRequest.requestId live ∧
        Tied q' (live.filter fun a => a.1.requestId ≠ item.payload.requestId) := by
  have hprio : ∀ item ∈ (q.dequeue now).1.entries, item.priority = item.payload.maxTokens :=
    fun item hm => h.priority item ((q.trimmed_dequeue now).entries_subset hm)
  rcases PriorityQueue.dequeue_live h.exact now with
    ⟨q', heq, hex, hzero, hzero'⟩ | ⟨q', item, heq, hex, hlive, hmin⟩
  · rw [heq] at hprio
    have hl : live = 0 := by rw [← h.live_eq, hzero, Multiset.map_zero]
    refine Or.inl ⟨q', heq, hl, hex, ?_, hprio, Multiset.nodup_zero⟩
    rw [hzero', Multiset.map_zero]
  · rw [heq] at hprio
    have hmem : item ∈ q.live := hlive ▸ Multiset.mem_cons_self item _
    have hent : ∀ y ∈ q.live, y ∈ q.entries := fun y hy => (Multiset.mem_filter.mp hy).1
    have htag := h.exact.tag_eq (hent item hmem)
    refine Or.inr ⟨q', item, heq, ⟨item.enqueueTime, ?_, ?_⟩, hex, ?_, hprio,
      Multiset.nodup_of_le (Multiset.map_le_map (Multiset.filter_le _ _)) h.times⟩
    · rw [← h.live_eq]
      exact Multiset.mem_map_of_mem (fun item => (item.payload, item.enqueueTime)) hmem
    · intro b hb hne
      rw [← h.live_eq] at hb
      obtain ⟨y, hy, rfl⟩ := Multiset.mem_map.mp hb
      have hle := oracleKey_le (h.priority _ (hent item hmem)) (h.priority _ (hent y hy))
        (hmin y hy)
      refine hle.lt_of_ne fun hkey => hne ?_
      -- one key, so one enqueue time, so one request
      have htime : item.enqueueTime = y.enqueueTime := by
        have := congrArg (fun k => (ofLex k).2) hkey
        exact this
      have hinj := Multiset.inj_on_of_nodup_map h.times
      refine (hinj _ ?_ _ ?_ htime).symm
      · rw [← h.live_eq]
        exact Multiset.mem_map_of_mem (fun item => (item.payload, item.enqueueTime)) hmem
      · rw [← h.live_eq]
        exact hb
    · have hnd := h.exact.nodup_live
      rw [hlive, Multiset.map_cons, Multiset.nodup_cons] at hnd
      have hdrop : (item ::ₘ q'.live).filter (fun y => y.requestId ≠ item.requestId) =
          q'.live.filter fun y => y.requestId ≠ item.requestId :=
        Multiset.filter_cons_of_neg _ (by simp)
      rw [htag, ← h.filter_eq, hlive, hdrop]
      congr 1
      refine (Multiset.filter_eq_self.mpr ?_).symm
      intro y hy hid
      exact hnd.1 (hid ▸ Multiset.mem_map_of_mem PrioritizedItem.requestId hy)

end Tied

namespace OracleSJFScheduler

variable {s : OracleSJFScheduler H} {live : Multiset (ScheduledRequest Id K × K)}
variable {op : OracleOp Id K} {ops : List (OracleOp Id K)}

omit [DecidableEq Id] [Field K] [LinearOrder K] in
theorem oracleSubmissions_snoc :
    oracleSubmissions (ops ++ [op]) = oracleSubmissions ops ++ oracleSubmissions [op] :=
  List.filterMap_append

omit [DecidableEq Id] [LinearOrder K] in
theorem oracleEvents_snoc {log : List (OracleOp Id K × SJFOut Id K)}
    {e : OracleOp Id K × SJFOut Id K} :
    oracleEvents (log ++ [e]) = oracleEvents log ++ (oracleEvent e).toList :=
  filterMap_snoc

/-- **Every step shows an allowed event** and keeps the two states tied. -/
theorem tied_step [IsStrictOrderedRing K] (h : Tied s.queue live)
    (hsub : ∀ i now, (i, now) ∈ oracleSubmissions [op] →
      i ∉ s.queue.pending ∧ now ∉ live.map Prod.snd) :
    Serves oracleKey ScheduledRequest.requestId live (oracleEvent (op, (s.step op).2)).toList ∧
      Tied (s.step op).1.queue
        (liveAfter ScheduledRequest.requestId live (oracleEvent (op, (s.step op).2)).toList) := by
  cases op with
  | submit request now =>
    obtain ⟨hi, hnow⟩ := hsub request.requestId now (by simp [oracleSubmissions])
    exact ⟨⟨trivial, trivial⟩, h.enqueue hi hnow⟩
  | acquire now =>
    rcases h.dequeue now with ⟨q', heq, hzero, htied⟩ | ⟨q', item, heq, hallowed, htied⟩
    · have hstep : s.step (.acquire now) = ({ s with queue := q' }, .empty) := by
        simp [step, acquire, heq, SJFScheduler.acquireOut]
      rw [hstep]
      refine ⟨⟨hzero, trivial⟩, ?_⟩
      rw [hzero]
      exact htied
    · have hstep : s.step (.acquire now) =
          ({ s with queue := q' }, .acquired item.payload) := by
        simp [step, acquire, heq, SJFScheduler.acquireOut]
      rw [hstep]
      exact ⟨⟨hallowed, trivial⟩, htied⟩
  | complete i success => exact ⟨trivial, h⟩
  | cancel i =>
    have hcancel := h.cancel (i := i)
    by_cases hi : i ∈ s.queue.pending
    · have hfound : (s.queue.cancel i).2 = true := PriorityQueue.cancel_eq_true_iff.mpr hi
      simp only [step, cancel, oracleEvent, hfound]
      exact ⟨⟨fun _ => rfl, trivial⟩, hcancel⟩
    · -- an id the queue does not list is not live
      rw [step, cancel, PriorityQueue.cancel_of_not_mem hi]
      refine ⟨⟨?_, trivial⟩, h⟩
      rintro ⟨b, hb, rfl⟩
      have hmem := Multiset.mem_map_of_mem (fun a => a.1.requestId) hb
      rw [h.map_requestId] at hmem
      obtain ⟨item, hitem, hid⟩ := Multiset.mem_map.mp hmem
      exact absurd (hid ▸ PriorityQueue.mem_pending_of_live h.exact hitem) hi

/-- A run of acquires from a tied state shows takes only, all of them
allowed. -/
theorem serves_acquires [IsStrictOrderedRing K] (h : Tied s.queue live) (times : List K) :
    Serves oracleKey ScheduledRequest.requestId live
        (oracleEvents ((machine H).log s (times.map .acquire))) ∧
      (∀ e ∈ oracleEvents ((machine H).log s (times.map .acquire)), e.IsTake) ∧
      (oracleEvents ((machine H).log s (times.map .acquire))).length = times.length := by
  induction times generalizing s live with
  | nil => exact ⟨trivial, fun e he => absurd he List.not_mem_nil, rfl⟩
  | cons now times ih =>
    have hsub : ∀ i t, (i, t) ∈ oracleSubmissions [(.acquire now : OracleOp Id K)] →
        i ∉ s.queue.pending ∧ t ∉ live.map Prod.snd := by
      simp [oracleSubmissions]
    obtain ⟨hserve, htied⟩ := tied_step h hsub
    obtain ⟨hs, ht, hl⟩ := ih htied
    have htake : ∃ e, oracleEvent (.acquire now, (s.step (.acquire now)).2) = some e ∧
        e.IsTake := by
      rcases hd : (s.acquire now).2 with - | r <;>
        simp [step, hd, SJFScheduler.acquireOut, oracleEvent, BagEvent.IsTake]
    obtain ⟨e, he, hetake⟩ := htake
    have hlog : oracleEvents ((machine H).log s (((now :: times)).map .acquire)) =
        e :: oracleEvents ((machine H).log (s.step (.acquire now)).1 (times.map .acquire)) := by
      have he' : oracleEvent (.acquire now, ((machine H).step s (.acquire now)).2) = some e := he
      rw [List.map_cons, Machine.log_cons, oracleEvents, List.filterMap_cons_some he']
      rfl
    rw [he] at hserve hs
    rw [hlog]
    refine ⟨⟨hserve.1, hs⟩, ?_, by simp [hl]⟩
    intro e' he'
    rcases List.mem_cons.mp he' with rfl | he'
    · exact hetake
    · exact ht e' he'

/-- What a step leaves listed was listed or is submitted by it. -/
theorem mem_pending_of_step {i : Id} (h : i ∈ (s.step op).1.queue.pending) :
    i ∈ s.queue.pending ∨ i ∈ (oracleSubmissions [op]).map Prod.fst := by
  cases op with
  | submit request now =>
    rcases Dict.mem_set.mp h with rfl | h
    · exact Or.inr (by simp [oracleSubmissions, ScheduledRequest.oracle])
    · exact Or.inl h
  | acquire now => exact Or.inl (PriorityQueue.mem_pending_of_dequeue h).1
  | complete j success => exact Or.inl h
  | cancel j =>
    refine Or.inl ?_
    rw [← PriorityQueue.pending_cancel (i := j)]
    exact h

theorem balanced_step (h : s.queue.Balanced) : (s.step op).1.queue.Balanced := by
  cases op with
  | submit request now => exact h.enqueue
  | acquire now => exact h.dequeue
  | complete j success => exact h
  | cancel j => exact h.cancel

/-- The event of a step brings in what the step submits. -/
theorem oracleEvent_inserted_iff {a : ScheduledRequest Id K × K} :
    oracleEvent (op, (s.step op).2) = some (.inserted a) ↔
      ∃ request now, op = .submit request now ∧ a = (request.oracle, now) := by
  cases op with
  | submit request now => simp [step, oracleEvent, eq_comm]
  | acquire now =>
    rcases hd : (s.acquire now).2 with - | r <;>
      simp [step, hd, SJFScheduler.acquireOut, oracleEvent]
  | complete j success => simp [step, oracleEvent]
  | cancel j => simp [step, oracleEvent]

theorem insertedIds_oracleEvents :
    insertedIds ScheduledRequest.requestId (oracleEvents ((machine H).log s ops)) =
      (oracleSubmissions ops).map Prod.fst := by
  induction ops generalizing s with
  | nil => rfl
  | cons op ops ih =>
    rw [Machine.log_cons, oracleEvents, List.filterMap_cons]
    cases op with
    | submit request now => exact congrArg (request.requestId :: ·) ih
    | acquire now =>
      simp only [machine, step]
      rcases hd : (s.acquire now).2 with - | r
      · exact ih
      · exact ih
    | complete j success => exact ih
    | cancel j => exact ih

/-- Every id the queue lists has been submitted. -/
theorem mem_submitted_of_pending {i : Id} (h : i ∈ ((machine H).run (init H) ops).queue.pending) :
    i ∈ (oracleSubmissions ops).map Prod.fst := by
  induction ops using List.reverseRecOn with
  | nil => simp [init, PriorityQueue.init] at h
  | append_singleton ops op ih =>
    rw [Machine.run_snoc] at h
    rw [oracleSubmissions_snoc, List.map_append, List.mem_append]
    exact (mem_pending_of_step h).imp_left ih

/-- **A run of the scheduler is a history of the abstract queue.** -/
theorem tied_run [IsStrictOrderedRing K] (hids : ((oracleSubmissions ops).map Prod.fst).Nodup)
    (hclock : ((oracleSubmissions ops).map Prod.snd).Pairwise (· < ·)) :
    Serves oracleKey ScheduledRequest.requestId 0
        (oracleEvents ((machine H).log (init H) ops)) ∧
      Tied ((machine H).run (init H) ops).queue (oracleLive ((machine H).log (init H) ops)) := by
  suffices hI : (Serves oracleKey ScheduledRequest.requestId 0
        (oracleEvents ((machine H).log (init H) ops)) ∧
      Tied ((machine H).run (init H) ops).queue (oracleLive ((machine H).log (init H) ops))) ∧
      ∀ a ∈ oracleLive ((machine H).log (init H) ops),
        a.2 ∈ (oracleSubmissions ops).map Prod.snd from hI.1
  refine Machine.log_inv (M := machine H) (s := init H)
    (H := fun ops => ((oracleSubmissions ops).map Prod.fst).Nodup ∧
      ((oracleSubmissions ops).map Prod.snd).Pairwise (· < ·))
    (I := fun ops log s => (Serves oracleKey ScheduledRequest.requestId 0 (oracleEvents log) ∧
      Tied s.queue (oracleLive log)) ∧
      ∀ a ∈ oracleLive log, a.2 ∈ (oracleSubmissions ops).map Prod.snd)
    ?_ ?_ ?_ ⟨hids, hclock⟩
  · rintro ops op ⟨hids, hclock⟩
    rw [oracleSubmissions_snoc, List.map_append] at hids hclock
    exact ⟨(List.nodup_append.mp hids).1, (List.pairwise_append.mp hclock).1⟩
  · exact ⟨⟨trivial, tied_init⟩, fun a ha => absurd ha (Multiset.notMem_zero a)⟩
  · rintro ops op ⟨hids, hclock⟩ ⟨⟨hserve, htied⟩, htimes⟩
    rw [oracleSubmissions_snoc, List.map_append] at hids hclock
    set s := (machine H).run (init H) ops
    set log := (machine H).log (init H) ops
    -- a new id and a new time
    have hsub : ∀ i now, (i, now) ∈ oracleSubmissions [op] →
        i ∉ s.queue.pending ∧ now ∉ (oracleLive log).map Prod.snd := by
      intro i now hm
      refine ⟨fun hi => ?_, fun ht => ?_⟩
      · exact (List.nodup_append.mp hids).2.2 i (mem_submitted_of_pending hi) i
          (List.mem_map_of_mem (f := Prod.fst) hm) rfl
      · obtain ⟨a, ha, rfl⟩ := Multiset.mem_map.mp ht
        exact lt_irrefl _ ((List.pairwise_append.mp hclock).2.2 _ (htimes a ha) _
          (List.mem_map_of_mem (f := Prod.snd) hm))
    obtain ⟨hstep, htied'⟩ := tied_step htied hsub
    rw [oracleLive, oracleEvents_snoc, liveAfter_append, serves_append, oracleSubmissions_snoc,
      List.map_append]
    refine ⟨⟨⟨hserve, hstep⟩, htied'⟩, fun a ha => ?_⟩
    rw [List.mem_append]
    rcases he : oracleEvent (op, ((machine H).step s op).2) with - | e
    · rw [he] at ha
      exact Or.inl (htimes a ha)
    · rw [he] at ha
      rcases mem_of_mem_after (e := e) ha with ha | rfl
      · exact Or.inl (htimes a ha)
      · obtain ⟨request, now, rfl, rfl⟩ := oracleEvent_inserted_iff.mp he
        exact Or.inr (by simp [oracleSubmissions])

omit [DecidableEq Id] [LinearOrder K] in
theorem takenValues_oracleEvents {log : List (OracleOp Id K × SJFOut Id K)} :
    takenValues (oracleEvents log) = oracleAcquired log := by
  rw [takenValues, oracleEvents, oracleAcquired, List.filterMap_filterMap]
  congr 1
  funext entry
  obtain ⟨op, out⟩ := entry
  cases out with
  | done => cases op <;> rfl
  | _ => rfl

/-- **The oracle scheduler refines the abstract priority queue.** With
distinct ids and increasing enqueue times: every acquire returns the live
request with the least `max_tokens` and enqueue time, or nothing where none
is live; no request is returned twice, nor after a cancel of it returned
`True`; as many further acquires as there are live requests return them
all; and the counters balance. -/
theorem oracle_refines [IsStrictOrderedRing K]
    (hids : ((oracleSubmissions ops).map Prod.fst).Nodup)
    (hclock : ((oracleSubmissions ops).map Prod.snd).Pairwise (· < ·)) :
    Serves oracleKey ScheduledRequest.requestId 0
        (oracleEvents ((machine H).log (init H) ops)) ∧
      ((oracleAcquired ((machine H).log (init H) ops)).map ScheduledRequest.requestId).Nodup ∧
      (∀ i before after,
        (machine H).log (init H) ops = before ++ (.cancel i, .cancelled i true) :: after →
          i ∉ (oracleAcquired after).map ScheduledRequest.requestId) ∧
      (∀ times : List K,
        times.length = Multiset.card (oracleLive ((machine H).log (init H) ops)) →
          (oracleAcquired ((machine H).log ((machine H).run (init H) ops)
            (times.map .acquire)) : Multiset (ScheduledRequest Id K)) =
          (oracleLive ((machine H).log (init H) ops)).map Prod.fst) ∧
      ((machine H).run (init H) ops).queue.totalEnqueued =
        ((machine H).run (init H) ops).queue.totalDequeued +
          ((machine H).run (init H) ops).queue.totalCancelled +
          ((machine H).run (init H) ops).queue.depth := by
  obtain ⟨hserve, htied⟩ := tied_run (H := H) hids hclock
  refine ⟨hserve, ?_, ?_, ?_, ?_⟩
  · rw [← takenValues_oracleEvents]
    refine nodup_takenValues hserve ?_ fun a ha => absurd ha (Multiset.notMem_zero a)
    rw [insertedIds_oracleEvents]
    exact hids
  · intro i before after hlog hmem
    obtain ⟨ops₁, ops₂, rfl, rfl, hout, rfl⟩ := Machine.log_eq_append_cons hlog
    rw [hlog, oracleEvents, List.filterMap_append, serves_append] at hserve
    rw [← takenValues_oracleEvents] at hmem
    obtain ⟨r, hr, rfl⟩ := List.mem_map.mp hmem
    refine not_mem_taken_of_removed hserve.2 ?_ hr rfl
    -- a cancel that answers `True` found the id listed, so it is not submitted again
    have hfound : (((machine H).run (init H) ops₁).queue.cancel r.requestId).2 = true := by
      have := congrArg (fun o : SJFOut Id K => o = .cancelled r.requestId true) hout
      simpa [machine, step, cancel] using this
    have hbefore := mem_submitted_of_pending (PriorityQueue.cancel_eq_true_iff.mp hfound)
    rw [oracleSubmissions, List.filterMap_append, List.map_append] at hids
    intro hafter
    rw [← oracleEvents, insertedIds_oracleEvents] at hafter
    exact (List.nodup_append.mp hids).2.2 _ hbefore _ hafter rfl
  · intro times hlen
    obtain ⟨hs, htake, hl⟩ := serves_acquires htied times
    rw [← takenValues_oracleEvents]
    exact takenValues_eq_of_takes hs htied.nodup_ids htake (hl.trans hlen)
  · exact Machine.run_inv_of_step (I := fun s : OracleSJFScheduler H => s.queue.Balanced)
      (fun _ _ h => balanced_step h) PriorityQueue.balanced_init

/-- A request that is cancelled, twice, and two of one length. -/
def oracleRun : List (OracleOp String ℚ) :=
  [.submit ⟨"a", "", 300, 0, 0⟩ 1, .submit ⟨"b", "", 100, 0, 0⟩ 2, .cancel "a",
    .submit ⟨"c", "", 100, 0, 0⟩ 3, .acquire 4, .complete "b" true, .cancel "a", .acquire 5]

/-- The two are returned in the order they came in. -/
theorem oracleRun_refines :
    (oracleAcquired ((machine (listHeap PrioritizedItem.key)).log (init _) oracleRun)).map
        ScheduledRequest.requestId = ["b", "c"] ∧
      Serves oracleKey ScheduledRequest.requestId 0
        (oracleEvents ((machine (listHeap PrioritizedItem.key)).log (init _) oracleRun)) :=
  ⟨by decide +kernel, (oracle_refines (by decide +kernel) (by decide +kernel)).1⟩

end OracleSJFScheduler

end VllmScheduler
