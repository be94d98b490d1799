import Mathlib.Algebra.Field.Rat
import Mathlib.Algebra.Order.Ring.Rat
import VllmScheduler.Common.Machine
import VllmScheduler.Cpp.Aging
import VllmScheduler.Queue.Lazy
/-!
# The C++ scheduler ages copies

`SJFScheduler` of `cpp/src/priority_queue.cpp`. Every `acquire` ages the
pending requests and then dequeues. What it ages are the copies in
`pending`; what it dequeues by are the priorities in the heap, which stay as
they were enqueued. So an `acquire` returns a request that was enqueued with
the least priority, and that is the one of least aged priority unless a
request that has waited longer was aged past it. Whether one is shows in the
heap before the call (`Unpassed`): boosts add up, so what counts is by how
much they have brought two requests together.

An `acquire` reads the clock twice, once to age and once to dequeue.
-/

namespace VllmScheduler

/-- `SJFScheduler::Impl`. -/
structure CppScheduler {Id K : Type} [LinearOrder K] (H : CppHeap Id K) where
  queue : CppPriorityQueue H
  completed : ℕ
  errors : ℕ

/-- The calls on a C++ scheduler, with what they read of the clock. -/
inductive CppOp (Id K : Type) where
  | submit (req : CppRequest Id K) (now : ℤ)
  | acquire (agingNow now : ℤ)
  | complete (requestId : Id) (success : Bool)
  | cancel (requestId : Id)
deriving DecidableEq

/-- What the calls return. -/
inductive CppOut (Id K : Type) where
  | done
  | acquired (req : Option (CppRequest Id K))
  | cancelled (found : Bool)
deriving DecidableEq

namespace CppScheduler

variable {Id K : Type} [DecidableEq Id] [Field K] [LinearOrder K] {H : CppHeap Id K}

def init (H : CppHeap Id K) : CppScheduler H := ⟨CppPriorityQueue.init H, 0, 0⟩

/-- `submit`. -/
def submit (s : CppScheduler H) (now : ℤ) (req : CppRequest Id K) : CppScheduler H :=
  { s with queue := s.queue.enqueue now req }

/-- The queue after the `apply_aging(0.001, 500.0)` of an `acquire`. -/
def agedQueue (s : CppScheduler H) (now : ℤ) : CppPriorityQueue H :=
  s.queue.applyAging now (1 / 1000) 500

/-- `acquire`. -/
def acquire (s : CppScheduler H) (agingNow now : ℤ) : CppScheduler H × Option (CppRequest Id K) :=
  let result := (s.agedQueue agingNow).dequeue now
  ({ s with queue := result.1 }, result.2)

/-- `complete`. -/
def complete (s : CppScheduler H) (_requestId : Id) (success : Bool) : CppScheduler H :=
  if success then { s with completed := s.completed + 1 } else { s with errors := s.errors + 1 }

/-- `cancel`. -/
def cancel (s : CppScheduler H) (requestId : Id) : CppScheduler H × Bool :=
  let result := s.queue.cancel requestId
  ({ s with queue := result.1 }, result.2)

/-- `stats`. -/
def stats (s : CppScheduler H) : CppQueueStats K := s.queue.stats

/-- The scheduler as a machine. -/
def machine (H : CppHeap Id K) : Machine (CppScheduler H) (CppOp Id K) (CppOut Id K) where
  step s op :=
    match op with
    | .submit req now => (s.submit now req, .done)
    | .acquire agingNow now => ((s.acquire agingNow now).1, .acquired (s.acquire agingNow now).2)
    | .complete requestId success => (s.complete requestId success, .done)
    | .cancel requestId => ((s.cancel requestId).1, .cancelled (s.cancel requestId).2)

/-! ## The history -/

section History

omit [DecidableEq Id] [Field K] [LinearOrder K]

/-- The id a call submits. -/
def submittedId : CppOp Id K → Option Id
  | .submit req _ => some req.requestId
  | _ => none

/-- The submitted ids, in order. -/
def submittedIds (ops : List (CppOp Id K)) : List Id := ops.filterMap submittedId

/-- What a call reads of the clock. -/
def opReadings : CppOp Id K → List ℤ
  | .submit _ now => [now]
  | .acquire agingNow now => [agingNow, now]
  | .complete _ _ => []
  | .cancel _ => []

/-- The clock readings of a run, in order. -/
def readings (ops : List (CppOp Id K)) : List ℤ := ops.flatMap opReadings

/-- The reading at which a call ages the queue. -/
def agingReading : CppOp Id K → Option ℤ
  | .acquire agingNow _ => some agingNow
  | _ => none

variable {ops : List (CppOp Id K)} {op : CppOp Id K} {i : Id} {t : ℤ}

theorem submittedIds_snoc :
    submittedIds (ops ++ [op]) = submittedIds ops ++ (submittedId op).toList :=
  filterMap_snoc

theorem readings_snoc : readings (ops ++ [op]) = readings ops ++ opReadings op := by
  simp [readings]

end History

/-- The readings at which the queue was aged since `i` was submitted. -/
def agingReadings : List (CppOp Id K) → Id → List ℤ
  | [], _ => []
  | .submit req _ :: ops, i =>
    if req.requestId = i then ops.filterMap agingReading else agingReadings ops i
  | _ :: ops, i => agingReadings ops i

/-- What the acquires since its submission make of the priority of a
request. -/
def agedSince (ops : List (CppOp Id K)) (req : CppRequest Id K) : K :=
  CppPriorityQueue.agedBy (1 / 1000) 500 req.enqueueNs req.priority
    (agingReadings ops req.requestId)

variable {ops : List (CppOp Id K)} {op : CppOp Id K} {i : Id} {t now now' : ℤ}

section Readings

omit [Field K] [LinearOrder K]

theorem agingReadings_of_not_mem (h : i ∉ submittedIds ops) : agingReadings ops i = [] := by
  induction ops with
  | nil => rfl
  | cons op ops ih =>
    cases op with
    | submit req t =>
      rw [submittedIds, List.filterMap_cons, submittedId, List.mem_cons, not_or] at h
      rw [agingReadings, if_neg (Ne.symm h.1)]
      exact ih h.2
    | acquire | complete | cancel => exact ih h

theorem agingReadings_snoc (hop : agingReading op = none) :
    agingReadings (ops ++ [op]) i = agingReadings ops i := by
  induction ops with
  | nil =>
    cases op with
    | submit req t => simp [agingReadings]
    | acquire => cases hop
    | complete | cancel => rfl
  | cons op' ops ih =>
    cases op' with
    | submit req t => simp only [List.cons_append, agingReadings, List.filterMap_append,
        List.filterMap_cons, hop, List.filterMap_nil, List.append_nil, ih]
    | acquire | complete | cancel => exact ih

theorem agingReadings_snoc_acquire (h : i ∈ submittedIds ops) :
    agingReadings (ops ++ [.acquire now now']) i = agingReadings ops i ++ [now] := by
  induction ops with
  | nil => cases h
  | cons op ops ih =>
    cases op with
    | submit req t =>
      rw [List.cons_append, agingReadings, agingReadings]
      by_cases hi : req.requestId = i
      · rw [if_pos hi, if_pos hi, List.filterMap_append]
        rfl
      · rw [submittedIds, List.filterMap_cons, submittedId, List.mem_cons] at h
        rw [if_neg hi, if_neg hi]
        exact ih (h.resolve_left (Ne.symm hi))
    | acquire | complete | cancel => exact ih h

theorem mem_readings_of_mem_agingReadings (h : t ∈ agingReadings ops i) : t ∈ readings ops := by
  have hall : ∀ {l : List (CppOp Id K)}, t ∈ l.filterMap agingReading → t ∈ readings l := by
    intro l hl
    obtain ⟨op, hop, ht⟩ := List.mem_filterMap.mp hl
    refine List.mem_flatMap.mpr ⟨op, hop, ?_⟩
    cases op <;> simp_all [agingReading, opReadings]
  induction ops with
  | nil => cases h
  | cons op ops ih =>
    refine List.mem_append_right (opReadings op) ?_
    cases op with
    | submit req t' =>
      rw [agingReadings] at h
      split at h
      · exact hall h
      · exact ih h
    | acquire | complete | cancel => exact ih h

end Readings

/-- Aging leaves no priority below 1. -/
theorem one_le_agedSince {req : CppRequest Id K} (h : req.requestId ∈ submittedIds ops) :
    1 ≤ agedSince (ops ++ [.acquire now now']) req := by
  rw [agedSince, agingReadings_snoc_acquire h, CppPriorityQueue.agedBy_snoc]
  exact le_max_left _ _

/-! ## What a run keeps -/

/-- **The books of a run** with distinct ids and a clock that does not go
back: `pending` holds every heap item at the priority the acquires since its
submission have made of the one it was enqueued with. -/
structure Aged (q : CppPriorityQueue H) (ops : List (CppOp Id K)) : Prop where
  distinct : (q.items.map fun item => item.req.requestId).Nodup
  known : ∀ item ∈ q.items, item.req.requestId ∈ submittedIds ops
  copied : ∀ item ∈ q.items, item.req.priority = item.priority ∧
    item.req.enqueueNs = item.enqueueNs
  listed : ∀ item ∈ q.items, q.pending.get? item.req.requestId =
    some (CppPriorityQueue.withPriority item (agedSince ops item.req))
  stamped : ∀ item ∈ q.items, item.enqueueNs ∈ readings ops
  waited : ∀ item ∈ q.items, ∀ t ∈ agingReadings ops item.req.requestId, item.enqueueNs ≤ t
  ordered : ∀ x ∈ q.items, ∀ y ∈ q.items, x.priority ≤ y.priority → x.enqueueNs ≤ y.enqueueNs →
    agedSince ops x.req ≤ max 1 (agedSince ops y.req)

namespace Aged

variable {q q' : CppPriorityQueue H}

theorem init : Aged (CppPriorityQueue.init H) [] := by
  have hitems : (CppPriorityQueue.init H).items = 0 := H.bag_empty
  constructor <;> simp [hitems]

/-- A call that neither submits nor ages leaves the history as it is. -/
theorem extend (h : Aged q ops) (hsub : submittedId op = none) (hage : agingReading op = none) :
    Aged q (ops ++ [op]) := by
  have hids : submittedIds (ops ++ [op]) = submittedIds ops := by simp [submittedIds_snoc, hsub]
  have haged : ∀ req, agedSince (ops ++ [op]) req = agedSince ops req := fun req => by
    rw [agedSince, agingReadings_snoc hage, agedSince]
  have hread : ∀ t ∈ readings ops, t ∈ readings (ops ++ [op]) := fun t ht => by
    rw [readings_snoc]
    exact List.mem_append_left _ ht
  refine ⟨h.distinct, hids ▸ h.known, h.copied, ?_, fun x hx => hread _ (h.stamped x hx), ?_, ?_⟩
  · simp only [haged]
    exact h.listed
  · intro x hx
    rw [agingReadings_snoc hage]
    exact h.waited x hx
  · simp only [haged]
    exact h.ordered

/-- A popped item takes its id out of the pending map, and no other. -/
theorem pop (h : Aged q ops) {item : CppHeapItem Id K} {heap : H.Carrier}
    (hp : H.pop q.heap = some (item, heap)) (hheap : q'.heap = heap)
    (hpend : q'.pending = q.pending.erase item.req.requestId) : Aged q' ops := by
  have hsub : ∀ y ∈ q'.items, y ∈ q.items := by
    intro y hy
    rw [CppPriorityQueue.items, hheap] at hy
    exact H.mem_of_mem_pop hp hy
  have hsplit : q.items = item ::ₘ q'.items := by
    rw [CppPriorityQueue.items, CppPriorityQueue.items, hheap]
    exact H.pop_some hp
  obtain ⟨hdistinct, hne⟩ := nodup_map_cons (hsplit ▸ h.distinct)
  refine ⟨hdistinct, fun y hy => h.known y (hsub y hy), fun y hy => h.copied y (hsub y hy), ?_,
    fun y hy => h.stamped y (hsub y hy), fun y hy => h.waited y (hsub y hy),
    fun x hx y hy => h.ordered x (hsub x hx) y (hsub y hy)⟩
  intro y hy
  rw [hpend, Dict.get?_erase_of_ne (hne y hy)]
  exact h.listed y (hsub y hy)

/-- A dequeue pops one item after the other. -/
theorem dequeue (h : Aged q ops) : Aged (q.dequeue now).1 ops :=
  CppPriorityQueue.dequeueLoop_inv (I := fun q => Aged q ops)
    (fun _ _ _ hp hq => hq.pop hp rfl rfl) (fun _ _ _ hp hq => hq.pop hp rfl rfl) h

variable [IsStrictOrderedRing K]

/-- The aging call of an acquire. -/
theorem applyAging (h : Aged q ops) (hnow : ∀ t ∈ readings ops, t ≤ now) :
    Aged (q.applyAging now (1 / 1000) 500) (ops ++ [.acquire now now']) := by
  have hids : submittedIds (ops ++ [.acquire now now']) = submittedIds ops := by
    simp [submittedIds_snoc, submittedId]
  have hreadings : ∀ x ∈ q.items, agingReadings (ops ++ [.acquire now now']) x.req.requestId =
      agingReadings ops x.req.requestId ++ [now] := fun x hx =>
    agingReadings_snoc_acquire (h.known x hx)
  have haged : ∀ x ∈ q.items, agedSince (ops ++ [.acquire now now']) x.req =
      CppPriorityQueue.agedOnce (1 / 1000) 500 x.enqueueNs now (agedSince ops x.req) := by
    intro x hx
    rw [agedSince, hreadings x hx, CppPriorityQueue.agedBy_snoc, (h.copied x hx).2]
    rw [agedSince, (h.copied x hx).2]
  have hpast : ∀ x ∈ q.items, x.enqueueNs ≤ now := fun x hx => hnow _ (h.stamped x hx)
  refine ⟨h.distinct, hids ▸ h.known, h.copied, ?_, ?_, ?_, ?_⟩
  · intro x hx
    rw [CppPriorityQueue.pending_applyAging, Dict.get?_mapValues, h.listed x hx, haged x hx]
    rfl
  · intro x hx
    rw [readings_snoc]
    exact List.mem_append_left _ (h.stamped x hx)
  · intro x hx t ht
    rw [hreadings x hx, List.mem_append, List.mem_singleton] at ht
    rcases ht with ht | rfl
    · exact h.waited x hx t ht
    · exact hpast x hx
  · intro x hx y hy hpriority henq
    rw [haged x hx, haged y hy]
    refine le_max_of_le_right ?_
    exact CppPriorityQueue.agedOnce_le_agedOnce (by norm_num) (by norm_num)
      (h.ordered x hx y hy hpriority henq) henq (hpast y hy)

/-- Aging raises nothing above the priority it was enqueued with, or 1. -/
theorem agedSince_le (h : Aged q ops) {x : CppHeapItem Id K} (hx : x ∈ q.items) :
    agedSince ops x.req ≤ max 1 x.priority := by
  rw [agedSince, (h.copied x hx).1, (h.copied x hx).2]
  exact CppPriorityQueue.agedBy_le (by norm_num) (by norm_num) (h.waited x hx)

/-- What was enqueued at the latest reading has not been boosted. -/
theorem le_agedSince (h : Aged q ops) {x : CppHeapItem Id K} (hx : x ∈ q.items)
    (hlate : ∀ t ∈ readings ops, t ≤ x.enqueueNs) : x.priority ≤ agedSince ops x.req := by
  rw [agedSince, (h.copied x hx).1, (h.copied x hx).2]
  refine CppPriorityQueue.le_agedBy (by norm_num) fun t ht => ?_
  exact hlate t (mem_readings_of_mem_agingReadings ht)

omit [IsStrictOrderedRing K] in
theorem ne_of_not_mem_submittedIds (h : Aged q ops) (hnew : i ∉ submittedIds ops)
    {x : CppHeapItem Id K} (hx : x ∈ q.items) : x.req.requestId ≠ i := by
  rintro rfl
  exact hnew (h.known x hx)

/-- A submission of a new id. -/
theorem submit (h : Aged q ops) {req : CppRequest Id K} (hnew : req.requestId ∉ submittedIds ops)
    (hnow : ∀ t ∈ readings ops, t ≤ now) :
    Aged (q.enqueue now req) (ops ++ [.submit req now]) := by
  set request : CppRequest Id K :=
    { req with enqueueNs := now, priority := CppPriorityQueue.priorityOf req } with hrequest
  set item : CppHeapItem Id K := ⟨request.priority, now, request⟩ with hitem
  have hids : submittedIds (ops ++ [.submit req now]) = submittedIds ops ++ [req.requestId] := by
    simp [submittedIds_snoc, submittedId]
  have haged : ∀ r, agedSince (ops ++ [.submit req now]) r = agedSince ops r := fun r => by
    rw [agedSince, agingReadings_snoc rfl, agedSince]
  have hself : agedSince ops request = request.priority := by
    rw [agedSince, agingReadings_of_not_mem hnew]
    rfl
  have hmem : ∀ y ∈ (q.enqueue now req).items, y = item ∨ y ∈ q.items := by
    intro y hy
    rw [CppPriorityQueue.items, CppPriorityQueue.enqueue, H.bag_push, Multiset.mem_cons] at hy
    exact hy
  have hread : ∀ t ∈ readings ops, t ∈ readings (ops ++ [.submit req now]) := fun t ht => by
    rw [readings_snoc]
    exact List.mem_append_left _ ht
  refine ⟨?_, ?_, ?_, ?_, ?_, ?_, ?_⟩
  · rw [CppPriorityQueue.items, CppPriorityQueue.enqueue, H.bag_push, Multiset.map_cons,
      Multiset.nodup_cons]
    refine ⟨fun hm => ?_, h.distinct⟩
    obtain ⟨y, hy, heq⟩ := Multiset.mem_map.mp hm
    exact h.ne_of_not_mem_submittedIds hnew hy heq
  · intro y hy
    rw [hids, List.mem_append]
    rcases hmem y hy with rfl | hy
    · exact Or.inr List.mem_cons_self
    · exact Or.inl (h.known y hy)
  · intro y hy
    rcases hmem y hy with rfl | hy
    · exact ⟨rfl, rfl⟩
    · exact h.copied y hy
  · intro y hy
    rw [haged]
    show (q.pending.set req.requestId item).get? _ = _
    rcases hmem y hy with rfl | hy
    · rw [show item.req = request from rfl, hself]
      exact Dict.get?_set_self
    · rw [Dict.get?_set_of_ne (h.ne_of_not_mem_submittedIds hnew hy)]
      exact h.listed y hy
  · intro y hy
    rcases hmem y hy with rfl | hy
    · rw [readings_snoc]
      exact List.mem_append_right _ (List.mem_singleton_self now)
    · exact hread _ (h.stamped y hy)
  · intro y hy t ht
    rw [agingReadings_snoc rfl] at ht
    rcases hmem y hy with rfl | hy
    · rw [show item.req.requestId = req.requestId from rfl, agingReadings_of_not_mem hnew] at ht
      cases ht
    · exact h.waited y hy t ht
  · intro x hx y hy hpriority henq
    rw [haged, haged]
    rcases hmem x hx with rfl | hx <;> rcases hmem y hy with rfl | hy
    · exact le_max_right _ _
    · -- both were enqueued now, so the other one has not been boosted
      rw [show item.req = request from rfl, hself]
      refine le_max_of_le_right (hpriority.trans ?_)
      exact h.le_agedSince hy fun t ht => (hnow t ht).trans henq
    · rw [show item.req = request from rfl, hself]
      exact (h.agedSince_le hx).trans (max_le_max_left 1 hpriority)
    · exact h.ordered x hx y hy hpriority henq

/-- **A step keeps the books.** -/
theorem step {s : CppScheduler H} (h : Aged s.queue ops)
    (hnew : ∀ i, submittedId op = some i → i ∉ submittedIds ops)
    (hclock : ∀ t ∈ readings ops, ∀ now ∈ opReadings op, t ≤ now) :
    Aged ((machine H).step s op).1.queue (ops ++ [op]) := by
  cases op with
  | submit req now => exact h.submit (hnew _ rfl) fun t ht => hclock t ht now (by simp [opReadings])
  | acquire now now' =>
    exact (h.applyAging fun t ht => hclock t ht now (by simp [opReadings])).dequeue
  | complete requestId success =>
    refine extend ?_ rfl rfl
    cases success <;> exact h
  | cancel requestId =>
    have hcancel : Aged (s.queue.cancel requestId).1 ops := by
      rw [CppPriorityQueue.cancel]
      split
      · exact ⟨h.distinct, h.known, h.copied, h.listed, h.stamped, h.waited, h.ordered⟩
      · exact h
    exact hcancel.extend rfl rfl

end Aged

variable [IsStrictOrderedRing K] {s s' : CppScheduler H} {req : CppRequest Id K}

/-- **A run keeps the books.** -/
theorem aged_run (hids : (submittedIds ops).Nodup) (hclock : (readings ops).Pairwise (· ≤ ·)) :
    Aged ((machine H).run (init H) ops).queue ops := by
  refine Machine.log_inv (M := machine H)
    (H := fun ops => (submittedIds ops).Nodup ∧ (readings ops).Pairwise (· ≤ ·))
    (I := fun ops _ s => Aged s.queue ops) ?_ Aged.init ?_ ⟨hids, hclock⟩
  · rintro ops op ⟨hids, hclock⟩
    rw [readings_snoc, List.pairwise_append] at hclock
    exact ⟨(nodup_filterMap_snoc hids).1, hclock.1⟩
  · rintro ops op ⟨hids, hclock⟩ hs
    rw [readings_snoc, List.pairwise_append] at hclock
    exact hs.step (nodup_filterMap_snoc hids).2 hclock.2.2

/-- The request an acquire from `s` to `s'` returned has the least aged
priority, as that acquire recomputed it at `now`, among the uncancelled
requests it left queued. -/
def LeastAged (s s' : CppScheduler H) (now : ℤ) (req : CppRequest Id K) : Prop :=
  ∃ copy, (s.agedQueue now).pending.get? req.requestId = some copy ∧
    ∀ y ∈ s'.queue.items, y.req.requestId ∉ s'.queue.cancelled →
      ∃ other, (s.agedQueue now).pending.get? y.req.requestId = some other ∧
        copy.priority ≤ other.priority

/-! ## The heap before an acquire -/

/-- The boosts of a queued request together: those of the acquires since its
submission, and that of one at `now`. -/
def totalBoost (ops : List (CppOp Id K)) (now : ℤ) (item : CppHeapItem Id K) : K :=
  ((agingReadings ops item.req.requestId ++ [now]).map
    (CppPriorityQueue.boostAt (1 / 1000) 500 item.enqueueNs)).sum

/-- An uncancelled item at the front of the heap. -/
def First (q : CppPriorityQueue H) (x : CppHeapItem Id K) : Prop :=
  q.Live x ∧ ∀ y ∈ q.items, q.Live y → x.key ≤ y.key

/-- An acquire at `now` boosts `x` down to the floor of 1, or no uncancelled
request enqueued before `x` gains more on it by the boosts than it was
enqueued behind it. -/
def Unpassed (q : CppPriorityQueue H) (ops : List (CppOp Id K)) (now : ℤ)
    (x : CppHeapItem Id K) : Prop :=
  x.priority - totalBoost ops now x ≤ 1 ∨
    ∀ y ∈ q.items, q.Live y → y.enqueueNs < x.enqueueNs →
      totalBoost ops now y - totalBoost ops now x ≤ y.priority - x.priority

instance (q : CppPriorityQueue H) (x : CppHeapItem Id K) : Decidable (First q x) :=
  inferInstanceAs (Decidable (_ ∧ _))

instance (q : CppPriorityQueue H) (ops : List (CppOp Id K)) (now : ℤ)
    (x : CppHeapItem Id K) : Decidable (Unpassed q ops now x) :=
  inferInstanceAs (Decidable (_ ∨ ∀ y ∈ q.items, _ → _ → _))

section Boosts

variable {q : CppPriorityQueue H} {x x' y : CppHeapItem Id K}

/-- The copy of a request after an acquire at `now`: its boosts added up,
and the floor. -/
theorem Aged.agedSince_snoc (h : Aged q ops) (hx : x ∈ q.items)
    (hnow : ∀ t ∈ readings ops, t ≤ now) :
    agedSince (ops ++ [.acquire now now']) x.req = max 1 (x.priority - totalBoost ops now x) := by
  obtain ⟨hpriority, henq⟩ := h.copied x hx
  have hpos : ∀ b ∈ (agingReadings ops x.req.requestId ++ [now]).map
      (CppPriorityQueue.boostAt (1 / 1000) 500 x.enqueueNs), (0 : K) ≤ b := by
    intro b hb
    obtain ⟨t, ht, rfl⟩ := List.mem_map.mp hb
    refine CppPriorityQueue.boost_nonneg (by norm_num) (by norm_num) ?_
    rcases List.mem_append.mp ht with ht | ht
    · exact h.waited x hx t ht
    · rw [List.mem_singleton.mp ht]
      exact hnow _ (h.stamped x hx)
  rw [agedSince, agingReadings_snoc_acquire (h.known x hx), hpriority, henq, totalBoost,
    ← CppPriorityQueue.agedFrom_eq hpos (by simp), CppPriorityQueue.agedFrom, List.foldl_map]
  rfl

/-- A request is not passed where the copies say so. -/
theorem Aged.unpassed_iff (h : Aged q ops) (hx : x ∈ q.items)
    (hnow : ∀ t ∈ readings ops, t ≤ now) (now' : ℤ) :
    Unpassed q ops now x ↔ ∀ y ∈ q.items, q.Live y → y.enqueueNs < x.enqueueNs →
      agedSince (ops ++ [.acquire now now']) x.req ≤
        agedSince (ops ++ [.acquire now now']) y.req := by
  have hle : ∀ y ∈ q.items, (agedSince (ops ++ [.acquire now now']) x.req ≤
      agedSince (ops ++ [.acquire now now']) y.req ↔
        x.priority - totalBoost ops now x ≤ 1 ∨
          totalBoost ops now y - totalBoost ops now x ≤ y.priority - x.priority) := by
    intro y hy
    rw [h.agedSince_snoc hx hnow, h.agedSince_snoc hy hnow, max_le_iff,
      and_iff_right (le_max_left _ _), le_max_iff]
    refine or_congr_right ?_
    constructor <;> intro hle <;> linarith
  constructor
  · rintro (hfloor | hgain) y hy hlive hlt
    · exact (hle y hy).mpr (Or.inl hfloor)
    · exact (hle y hy).mpr (Or.inr (hgain y hy hlive hlt))
  · intro hall
    rcases le_or_gt (x.priority - totalBoost ops now x) 1 with hfloor | hfloor
    · exact Or.inl hfloor
    · refine Or.inr fun y hy hlive hlt => ?_
      exact ((hle y hy).mp (hall y hy hlive hlt)).resolve_left (not_le.mpr hfloor)

/-- A request at the front of the heap can be passed by one enqueued before it
only: one that waited no longer is not aged past it. -/
theorem Aged.unpassed_iff_of_first (h : Aged q ops) (hnow : ∀ t ∈ readings ops, t ≤ now)
    (hx : First q x) (now' : ℤ) :
    Unpassed q ops now x ↔ ∀ y ∈ q.items, q.Live y → y ≠ x →
      agedSince (ops ++ [.acquire now now']) x.req ≤
        agedSince (ops ++ [.acquire now now']) y.req := by
  have haged : Aged (q.applyAging now (1 / 1000) 500) (ops ++ [.acquire now now']) :=
    h.applyAging hnow
  rw [h.unpassed_iff hx.1.1 hnow now']
  constructor
  · intro hall y hy hlive _
    rcases lt_or_ge y.enqueueNs x.enqueueNs with hlt | hge
    · exact hall y hy hlive hlt
    · have hkey : x.priority ≤ y.priority :=
        (Prod.Lex.le_iff.mp (hx.2 y hy hlive)).elim le_of_lt fun h => le_of_eq h.1
      have hordered := haged.ordered x hx.1.1 y hy hkey hge
      rwa [max_eq_right (one_le_agedSince (h.known y hy))] at hordered
  · intro hall y hy hlive hlt
    refine hall y hy hlive ?_
    rintro rfl
    exact absurd hlt (lt_irrefl _)

/-- Two items at the front of the heap have the same key, and fare alike. -/
theorem Aged.unpassed_of_first (h : Aged q ops) (hnow : ∀ t ∈ readings ops, t ≤ now)
    (hx : First q x) (hx' : First q x') (hunpassed : Unpassed q ops now x) :
    Unpassed q ops now x' := by
  have hkey : x.key = x'.key := le_antisymm (hx.2 x' hx'.1.1 hx'.1) (hx'.2 x hx.1.1 hx.1)
  have hpriority : x.priority = x'.priority := congrArg (fun k => (ofLex k).1) hkey
  have henq : x.enqueueNs = x'.enqueueNs := congrArg (fun k => (ofLex k).2) hkey
  have haged : Aged (q.applyAging now (1 / 1000) 500) (ops ++ [.acquire now now]) :=
    h.applyAging hnow
  have hsame := haged.ordered x' hx'.1.1 x hx.1.1 hpriority.ge henq.ge
  rw [max_eq_right (one_le_agedSince (h.known x hx.1.1))] at hsame
  rw [h.unpassed_iff hx.1.1 hnow now] at hunpassed
  rw [h.unpassed_iff hx'.1.1 hnow now]
  exact fun y hy hlive hlt => hsame.trans (hunpassed y hy hlive (henq ▸ hlt))

end Boosts

/-- **What aging does to an `acquire`.** After any run with distinct ids and
a clock that does not go back, the request an `acquire` returns was enqueued
with a priority no greater than any that stays queued. It has the least aged
priority exactly where, in the heap before the call, no request that was
enqueued before the front one has caught up with it by its boosts. -/
theorem acquire_least_aged_iff (hids : (submittedIds ops).Nodup)
    (hclock : (readings (ops ++ [.acquire now now'])).Pairwise (· ≤ ·))
    (hs : s = (machine H).run (init H) ops) (hacq : s.acquire now now' = (s', some req)) :
    (∀ y ∈ s'.queue.items, req.priority ≤ y.req.priority) ∧
    (LeastAged s s' now req ↔
      ∀ x ∈ s.queue.items, First s.queue x → Unpassed s.queue ops now x) := by
  rw [readings_snoc, List.pairwise_append] at hclock
  have hnow : ∀ t ∈ readings ops, t ≤ now := fun t ht => hclock.2.2 t ht now (by simp [opReadings])
  have hbefore : Aged s.queue ops := hs ▸ aged_run hids hclock.1
  have haged : Aged (s.agedQueue now) (ops ++ [.acquire now now']) := hbefore.applyAging hnow
  have hsome : ((s.agedQueue now).dequeue now').2 = some req := congrArg Prod.snd hacq
  have hqueue : ((s.agedQueue now).dequeue now').1 = s'.queue :=
    congrArg (fun r => r.1.queue) hacq
  obtain ⟨x, hlive, rfl, hleast, hkept⟩ := CppPriorityQueue.dequeue_least haged.distinct hsome
  rw [hqueue] at hkept
  have hfirst : First s.queue x := ⟨hlive, fun y _ hy => hleast y hy⟩
  refine ⟨?_, ?_⟩
  · obtain ⟨item, hitem, hreq, hleft⟩ := CppPriorityQueue.dequeueLoop_some hsome
    intro y hy
    obtain ⟨hy', hle⟩ := hleft y (by rw [← hqueue] at hy; exact hy)
    rwa [← hreq, (haged.copied item hitem).1, (haged.copied y hy').1]
  -- the copies are what the history says they are
  have hcopies : LeastAged s s' now x.req ↔ ∀ y ∈ s.queue.items, s.queue.Live y → y ≠ x →
      agedSince (ops ++ [.acquire now now']) x.req ≤
        agedSince (ops ++ [.acquire now now']) y.req := by
    rw [LeastAged, haged.listed x hlive.1]
    simp only [Option.some.injEq, exists_eq_left']
    constructor
    · intro h y hy hlive' hne
      obtain ⟨hy', hc⟩ := (hkept y).mpr ⟨hlive', hne⟩
      obtain ⟨other, hother, hle⟩ := h y hy' hc
      rw [haged.listed y hy, Option.some.injEq] at hother
      rwa [← hother] at hle
    · intro h y hy hc
      obtain ⟨hlive', hne⟩ := (hkept y).mp ⟨hy, hc⟩
      exact ⟨_, haged.listed y hlive'.1, h y hlive'.1 hlive' hne⟩
  rw [hcopies, ← hbefore.unpassed_iff_of_first hnow hfirst now']
  exact ⟨fun h x' _ hx' => hbefore.unpassed_of_first hnow hfirst hx' h,
    fun h => h x hlive.1 hfirst⟩

/-- A request predicted `a` is submitted at 0 and one predicted `b` 50
seconds later. -/
def waitThenSubmit (a b : ℚ) : List (CppOp String ℚ) :=
  [.submit ⟨"a", "", 0, a, 0, 0⟩ 0, .submit ⟨"b", "", 0, b, 0, 0⟩ 50000000000]

/-- A scheduler on which that has happened. -/
def afterWait (a b : ℚ) : CppScheduler (listHeap CppHeapItem.key : CppHeap String ℚ) :=
  (machine _).run (init _) (waitThenSubmit a b)

/-- The next `acquire` takes the copy of `a` from 100 to 50, under the 60 of
`b`, and returns `b`. -/
theorem acquire_passes_aged :
    (submittedIds (waitThenSubmit 100 60)).Nodup ∧
    (readings (waitThenSubmit 100 60 ++ [.acquire 50000000000 50000000000])).Pairwise (· ≤ ·) ∧
    ((afterWait 100 60).acquire 50000000000 50000000000).2 =
      some ⟨"b", "", 0, 60, 60, 50000000000⟩ ∧
    ¬ LeastAged (afterWait 100 60) ((afterWait 100 60).acquire 50000000000 50000000000).1
      50000000000 ⟨"b", "", 0, 60, 60, 50000000000⟩ := by
  have hb : (((afterWait 100 60).agedQueue 50000000000).pending.get? "b").map
    CppHeapItem.priority = some 60 := by decide +kernel
  have ha : (((afterWait 100 60).agedQueue 50000000000).pending.get? "a").map
    CppHeapItem.priority = some 50 := by decide +kernel
  refine ⟨by decide +kernel, by decide +kernel, by decide +kernel, ?_⟩
  rintro ⟨copy, hcopy, hleast⟩
  obtain ⟨other, hother, hle⟩ :=
    hleast ⟨100, 0, "a", "", 0, 100, 100, 0⟩ (by decide +kernel) (by decide +kernel)
  rw [hcopy, Option.map_some, Option.some.injEq] at hb
  rw [hother, Option.map_some, Option.some.injEq] at ha
  rw [hb, ha] at hle
  norm_num at hle

/-- With `b` predicted 40, aging does not take `a` past it. -/
theorem acquire_least_unaged :
    (∀ y ∈ ((afterWait 100 40).acquire 50000000000 50000000000).1.queue.items,
      40 ≤ y.req.priority) ∧
    LeastAged (afterWait 100 40) ((afterWait 100 40).acquire 50000000000 50000000000).1
      50000000000 ⟨"b", "", 0, 40, 40, 50000000000⟩ := by
  have hids : (submittedIds (waitThenSubmit 100 40)).Nodup := by decide +kernel
  have hclock : (readings (waitThenSubmit 100 40 ++
    [.acquire 50000000000 50000000000])).Pairwise (· ≤ ·) := by decide +kernel
  have hacq : ((afterWait 100 40).acquire 50000000000 50000000000).2 =
    some ⟨"b", "", 0, 40, 40, 50000000000⟩ := by decide +kernel
  have h := acquire_least_aged_iff hids hclock (rfl : afterWait 100 40 = _) (Prod.ext rfl hacq)
  refine ⟨h.1, h.2.mpr ?_⟩
  decide +kernel

end CppScheduler

end VllmScheduler
