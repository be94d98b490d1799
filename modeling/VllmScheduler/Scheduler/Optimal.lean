import VllmScheduler.Common.Waiting
import VllmScheduler.Scheduler.Fcfs
import VllmScheduler.Scheduler.Oracle
/-!
# The oracle's order is the best order

A batch is submitted and one server drains it, taking a request at a time
and serving it for a time proportional to `max_tokens`. Whatever the
submission order, the oracle hands the requests out shortest first, so no
order of the batch has a smaller total wait; the FIFO scheduler's, which is
the submission order, has none either.
-/

namespace VllmScheduler

/-- The calls of a server that drains a scheduler. -/
inductive ServerOp (Id K : Type)
  | acquire (now : K)
  | complete (requestId : Id) (success : Bool)
deriving DecidableEq

namespace ServerOp

variable {Id K : Type}

def isAcquire : ServerOp Id K → Bool
  | acquire _ => true
  | complete _ _ => false

/-- The call, made to the oracle scheduler. -/
def toOracle : ServerOp Id K → OracleOp Id K
  | acquire now => .acquire now
  | complete requestId success => .complete requestId success

/-- The call, made to the FIFO scheduler. -/
def toFcfs : ServerOp Id K → FCFSOp Id K
  | acquire _ => .acquire
  | complete requestId success => .complete requestId success

end ServerOp

section Waiting

variable {Id K : Type} [Field K]

/-- How long a server takes for a request, at `rate` a token. -/
def serviceTime (rate : K) (request : ScheduledRequest Id K) : K := rate * request.maxTokens

/-- The total wait of requests that are served in order. -/
def totalWaiting (rate : K) (order : List (ScheduledRequest Id K)) : K :=
  totalWait (order.map (serviceTime rate))

/-- Their mean wait. -/
def meanWaiting (rate : K) (order : List (ScheduledRequest Id K)) : K :=
  totalWaiting rate order / order.length

variable [LinearOrder K] [IsStrictOrderedRing K] {rate : K}
variable {order order' : List (ScheduledRequest Id K)}

/-- An order by `max_tokens` waits least, among the orders of one batch. -/
theorem totalWaiting_le (hrate : 0 ≤ rate)
    (hsorted : order.Pairwise fun a b => a.maxTokens ≤ b.maxTokens)
    (hperm : (order.map (serviceTime rate)).Perm (order'.map (serviceTime rate))) :
    totalWaiting rate order ≤ totalWaiting rate order' := by
  refine totalWait_le_of_perm ?_ hperm
  rw [List.pairwise_map]
  refine hsorted.imp fun {a b} hab => ?_
  exact mul_le_mul_of_nonneg_left (Int.cast_le.mpr hab) hrate

end Waiting

/-! ## Draining a batch -/

variable {Id K : Type} [DecidableEq Id] [Field K] [LinearOrder K] {H : RequestHeap Id K}
variable {server : List (ServerOp Id K)} {batch : List (ScheduledRequest Id K × K)}

/-- What the oracle scheduler hands out of a batch, each request with the
clock reading of its submission, to a server. -/
def oracleOrder (H : RequestHeap Id K) (batch : List (ScheduledRequest Id K × K))
    (server : List (ServerOp Id K)) : List (ScheduledRequest Id K) :=
  oracleAcquired ((OracleSJFScheduler.machine H).log (OracleSJFScheduler.init H)
    (batch.map (fun r => .submit r.1 r.2) ++ server.map ServerOp.toOracle))

/-- What the FIFO scheduler hands out for the same submissions. -/
def fcfsOrder (batch : List (ScheduledRequest Id K × K)) (server : List (ServerOp Id K)) :
    List (ScheduledRequest Id K) :=
  fcfsAcquired ((FCFSScheduler.machine Id K).log (FCFSScheduler.init Id K)
    (batch.map (fun r => .submit r.1) ++ server.map ServerOp.toFcfs))

namespace OracleSJFScheduler

variable {s : OracleSJFScheduler H}

/-- The submission of a batch hands nothing out and queues it. -/
theorem submit_batch (batch : List (ScheduledRequest Id K × K)) (hc : s.queue.cancelled = ∅)
    (hp : ∀ item ∈ s.queue.entries, item.priority = item.payload.maxTokens) :
    oracleAcquired ((machine H).log s (batch.map fun r => .submit r.1 r.2)) = [] ∧
      ((machine H).run s (batch.map fun r => .submit r.1 r.2)).queue.cancelled = ∅ ∧
      (∀ item ∈ ((machine H).run s (batch.map fun r => .submit r.1 r.2)).queue.entries,
        item.priority = item.payload.maxTokens) ∧
      ((machine H).run s (batch.map fun r => .submit r.1 r.2)).queue.entries.map
          PrioritizedItem.payload =
        ↑(batch.map fun r => r.1.oracle) + s.queue.entries.map PrioritizedItem.payload := by
  induction batch generalizing s with
  | nil => exact ⟨rfl, hc, hp, by simp⟩
  | cons r batch ih =>
    have hp' : ∀ item ∈ (s.submit r.1 r.2).queue.entries,
        item.priority = item.payload.maxTokens := by
      intro item hm
      rw [submit, PriorityQueue.entries_enqueue, Multiset.mem_cons] at hm
      rcases hm with rfl | hm
      · rfl
      · exact hp item hm
    obtain ⟨hnone, hc', hp'', hent⟩ := ih (s := s.submit r.1 r.2) hc hp'
    refine ⟨hnone, hc', hp'', hent.trans ?_⟩
    rw [submit, PriorityQueue.entries_enqueue, Multiset.map_cons, List.map_cons,
      ← Multiset.cons_coe, Multiset.add_cons, Multiset.cons_add]

/-- **A drained queue is handed out shortest first.** -/
theorem drain [IsStrictOrderedRing K] (hc : s.queue.cancelled = ∅)
    (hp : ∀ item ∈ s.queue.entries, item.priority = item.payload.maxTokens)
    (h : Multiset.card s.queue.entries ≤ server.countP ServerOp.isAcquire) :
    (oracleAcquired ((machine H).log s (server.map ServerOp.toOracle)) : Multiset _) =
        s.queue.entries.map PrioritizedItem.payload ∧
      (oracleAcquired ((machine H).log s (server.map ServerOp.toOracle))).Pairwise
        fun a b => a.maxTokens ≤ b.maxTokens := by
  induction server generalizing s with
  | nil =>
    have hzero : s.queue.entries = 0 := Multiset.card_eq_zero.mp (by simpa using h)
    rw [hzero]
    exact ⟨rfl, List.Pairwise.nil⟩
  | cons op server ih =>
    cases op with
    | complete i success =>
      have hcount : Multiset.card s.queue.entries ≤ server.countP ServerOp.isAcquire := by
        simpa [ServerOp.isAcquire] using h
      exact ih (s := s.complete i success) hc hp hcount
    | acquire now =>
      rcases acquire_cases hc now with ⟨hzero, heq⟩ | ⟨s', item, heq, hent, hc', hmin⟩
      · have hlog : oracleAcquired ((machine H).log s
            ((ServerOp.acquire now :: server).map ServerOp.toOracle)) =
            oracleAcquired ((machine H).log s (server.map ServerOp.toOracle)) := by
          simp [oracleAcquired, ServerOp.toOracle, machine, step, heq, SJFScheduler.acquireOut]
        rw [hlog]
        exact ih hc hp (by simp [hzero])
      · have hlog : oracleAcquired ((machine H).log s
            ((ServerOp.acquire now :: server).map ServerOp.toOracle)) =
            item.payload :: oracleAcquired ((machine H).log s' (server.map ServerOp.toOracle)) := by
          simp [oracleAcquired, ServerOp.toOracle, machine, step, heq, SJFScheduler.acquireOut]
        have hp' : ∀ y ∈ s'.queue.entries, y.priority = y.payload.maxTokens := fun y hy =>
          hp y (hent ▸ Multiset.mem_cons_of_mem hy)
        have hcard : Multiset.card s'.queue.entries ≤ server.countP ServerOp.isAcquire := by
          rw [hent, Multiset.card_cons, List.countP_cons_of_pos (by rfl)] at h
          omega
        obtain ⟨hbag, hsorted⟩ := ih hc' hp' hcard
        rw [hlog, hent, Multiset.map_cons, ← Multiset.cons_coe, hbag, List.pairwise_cons]
        refine ⟨rfl, fun b hb => ?_, hsorted⟩
        -- what comes later was in the heap with the entry popped
        rw [← Multiset.mem_coe, hbag] at hb
        obtain ⟨y, hy, rfl⟩ := Multiset.mem_map.mp hb
        have hy' : y ∈ s.queue.entries := hent ▸ Multiset.mem_cons_of_mem hy
        have hitem : item ∈ s.queue.entries := hent ▸ Multiset.mem_cons_self item _
        have hle := oracleKey_le (hp item hitem) (hp y hy') (hmin y hy')
        rw [oracleKey, oracleKey, Prod.Lex.toLex_le_toLex] at hle
        rcases hle with hlt | ⟨hleq, -⟩
        · exact hlt.le
        · exact hleq.le

end OracleSJFScheduler

namespace FCFSScheduler

variable {f : FCFSScheduler Id K}

omit [Field K] [LinearOrder K] in
/-- The submission of a batch hands nothing out and queues it. -/
theorem submit_batch (batch : List (ScheduledRequest Id K × K)) :
    fcfsAcquired ((machine Id K).log f (batch.map fun r => .submit r.1)) = [] ∧
      ((machine Id K).run f (batch.map fun r => .submit r.1)).queue =
        f.queue ++ batch.map Prod.fst := by
  have hnone : fcfsAcquired ((machine Id K).log f (batch.map fun r => .submit r.1)) = [] := by
    induction batch generalizing f with
    | nil => rfl
    | cons r batch ih => exact ih (f := f.submit r.1)
  have hall := acquired_append_queue f (batch.map fun r => .submit r.1)
  rw [hnone, List.nil_append] at hall
  refine ⟨hnone, hall.trans ?_⟩
  rw [fcfsSubmissions, List.filterMap_map]
  exact congrArg _ (by simp [Function.comp_def, FCFSOp.submission])

omit [Field K] [LinearOrder K] in
/-- A drained queue is handed out in order. -/
theorem drain (h : f.queue.length ≤ server.countP ServerOp.isAcquire) :
    fcfsAcquired ((machine Id K).log f (server.map ServerOp.toFcfs)) = f.queue := by
  induction server generalizing f with
  | nil => exact (List.length_eq_zero_iff.mp (by simpa using h)).symm
  | cons op server ih =>
    cases op with
    | complete i success =>
      exact ih (f := f.complete i success) (by simpa [ServerOp.isAcquire] using h)
    | acquire now =>
      rcases hq : f.queue with - | ⟨request, rest⟩
      · have hlog : fcfsAcquired ((machine Id K).log f
            ((ServerOp.acquire now :: server).map ServerOp.toFcfs)) =
            fcfsAcquired ((machine Id K).log f (server.map ServerOp.toFcfs)) := by
          simp [fcfsAcquired, ServerOp.toFcfs, machine, step, acquire_eq_none hq,
            SJFScheduler.acquireOut, SJFOut.acquiredRequest]
        rw [hlog, ih (by simp [hq]), hq]
      · have hlog : fcfsAcquired ((machine Id K).log f
            ((ServerOp.acquire now :: server).map ServerOp.toFcfs)) =
            request :: fcfsAcquired ((machine Id K).log { f with queue := rest }
              (server.map ServerOp.toFcfs)) := by
          simp [fcfsAcquired, ServerOp.toFcfs, machine, step, acquire_eq_some hq,
            SJFScheduler.acquireOut, SJFOut.acquiredRequest]
        have hlen : rest.length ≤ server.countP ServerOp.isAcquire := by
          rw [hq, List.length_cons, List.countP_cons_of_pos (by rfl)] at h
          omega
        rw [hlog, ih (f := { f with queue := rest }) hlen]

end FCFSScheduler

omit [Field K] [LinearOrder K] in
/-- The FIFO scheduler's order is the submission order. -/
theorem fcfsOrder_eq (h : batch.length ≤ server.countP ServerOp.isAcquire) :
    fcfsOrder batch server = batch.map Prod.fst := by
  obtain ⟨hnone, hqueue⟩ := FCFSScheduler.submit_batch (f := FCFSScheduler.init Id K) batch
  have hlen : ((FCFSScheduler.machine Id K).run (FCFSScheduler.init Id K)
      (batch.map fun r => .submit r.1)).queue.length ≤ server.countP ServerOp.isAcquire := by
    rw [hqueue]
    simpa [FCFSScheduler.init] using h
  have hdrain := FCFSScheduler.drain hlen
  rw [fcfsOrder, Machine.log_append, fcfsAcquired, List.filterMap_append, ← fcfsAcquired,
    ← fcfsAcquired, hnone, hdrain, hqueue]
  rfl

/-- The oracle's order has the whole batch in it, shortest first. -/
theorem oracleOrder_sorted [IsStrictOrderedRing K]
    (h : batch.length ≤ server.countP ServerOp.isAcquire) :
    (oracleOrder H batch server).Perm (batch.map fun r => r.1.oracle) ∧
      (oracleOrder H batch server).Pairwise fun a b => a.maxTokens ≤ b.maxTokens := by
  obtain ⟨hnone, hc, hp, hent⟩ := OracleSJFScheduler.submit_batch
    (s := OracleSJFScheduler.init H) batch rfl fun item hm => by
      simp [OracleSJFScheduler.init] at hm
  have hzero : (OracleSJFScheduler.init H).queue.entries = 0 := PriorityQueue.entries_init
  rw [hzero, Multiset.map_zero, add_zero] at hent
  have hcard : Multiset.card ((OracleSJFScheduler.machine H).run (OracleSJFScheduler.init H)
      (batch.map fun r => .submit r.1 r.2)).queue.entries ≤ server.countP ServerOp.isAcquire := by
    have hlength := congrArg Multiset.card hent
    rw [Multiset.card_map, Multiset.coe_card, List.length_map] at hlength
    exact hlength.trans_le h
  obtain ⟨hbag, hsorted⟩ := OracleSJFScheduler.drain hc hp hcard
  have horder : oracleOrder H batch server =
      oracleAcquired ((OracleSJFScheduler.machine H).log
        ((OracleSJFScheduler.machine H).run (OracleSJFScheduler.init H)
          (batch.map fun r => .submit r.1 r.2)) (server.map ServerOp.toOracle)) := by
    rw [oracleOrder, Machine.log_append, oracleAcquired, List.filterMap_append, ← oracleAcquired,
      ← oracleAcquired, hnone, List.nil_append]
  rw [horder]
  refine ⟨Multiset.coe_eq_coe.mp ?_, hsorted⟩
  rw [hbag, hent]

/-- **The oracle is the upper bound.** A server that makes at least as many
acquires as the batch has requests is handed the whole batch, in an order
whose total and mean waits no order of the batch is below; the FIFO
scheduler's is one of them. -/
theorem oracle_waits_least [IsStrictOrderedRing K] {rate : K} (hrate : 0 ≤ rate)
    (h : batch.length ≤ server.countP ServerOp.isAcquire) :
    (oracleOrder H batch server).Perm (batch.map fun r => r.1.oracle) ∧
      (∀ order, order.Perm (batch.map Prod.fst) →
        totalWaiting rate (oracleOrder H batch server) ≤ totalWaiting rate order ∧
          meanWaiting rate (oracleOrder H batch server) ≤ meanWaiting rate order) ∧
      ∀ server', batch.length ≤ server'.countP ServerOp.isAcquire →
        fcfsOrder batch server' = batch.map Prod.fst ∧
          totalWaiting rate (oracleOrder H batch server) ≤
            totalWaiting rate (fcfsOrder batch server') ∧
          meanWaiting rate (oracleOrder H batch server) ≤
            meanWaiting rate (fcfsOrder batch server') := by
  obtain ⟨hperm, hsorted⟩ := oracleOrder_sorted (H := H) h
  have hleast : ∀ order, order.Perm (batch.map Prod.fst) →
      totalWaiting rate (oracleOrder H batch server) ≤ totalWaiting rate order ∧
        meanWaiting rate (oracleOrder H batch server) ≤ meanWaiting rate order := by
    intro order horder
    -- `submit` changes nothing the service time depends on
    have hservice : ((batch.map fun r => r.1.oracle).map (serviceTime rate)) =
        (batch.map Prod.fst).map (serviceTime rate) := by
      rw [List.map_map, List.map_map]
      rfl
    have htotal : totalWaiting rate (oracleOrder H batch server) ≤ totalWaiting rate order := by
      refine totalWaiting_le hrate hsorted ((hperm.map _).trans ?_)
      rw [hservice]
      exact (horder.map _).symm
    have hlength : (oracleOrder H batch server).length = order.length := by
      rw [hperm.length_eq, horder.length_eq, List.length_map, List.length_map]
    refine ⟨htotal, ?_⟩
    rw [meanWaiting, meanWaiting, hlength]
    exact div_le_div_of_nonneg_right htotal (Nat.cast_nonneg _)
  refine ⟨hperm, hleast, fun server' h' => ?_⟩
  have hfcfs := fcfsOrder_eq h'
  exact ⟨hfcfs, hleast _ (by rw [hfcfs])⟩

/-- A long request, a short one and one in between. -/
def threeRequests : List (ScheduledRequest String ℚ × ℚ) :=
  [(⟨"a", "", 300, 0, 0⟩, 1), (⟨"b", "", 20, 0, 0⟩, 2), (⟨"c", "", 100, 0, 0⟩, 3)]

/-- A server that takes them all and finds nothing after. -/
def threeAcquires : List (ServerOp String ℚ) :=
  [.acquire 4, .complete "b" true, .acquire 5, .complete "c" true, .acquire 6, .acquire 7]

/-- Shortest first they wait 140 seconds at one second a token, in the order
they came in 620. -/
theorem threeRequests_waits :
    totalWaiting 1 (oracleOrder (listHeap PrioritizedItem.key) threeRequests threeAcquires) = 140 ∧
      totalWaiting 1 (fcfsOrder threeRequests threeAcquires) = 620 ∧
      totalWaiting 1 (oracleOrder (listHeap PrioritizedItem.key) threeRequests threeAcquires) ≤
        totalWaiting 1 (fcfsOrder threeRequests threeAcquires) :=
  ⟨by decide +kernel, by decide +kernel,
    ((oracle_waits_least zero_le_one (by decide)).2.2 threeAcquires (by decide)).2.1⟩

end VllmScheduler
