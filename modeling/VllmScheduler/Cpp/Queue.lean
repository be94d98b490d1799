import Mathlib.Algebra.Order.Field.Basic
import Mathlib.Data.Prod.Lex
import Mathlib.Tactic.GCongr
import Mathlib.Tactic.Linarith
import Mathlib.Tactic.Positivity
import VllmScheduler.Common.Dict
import VllmScheduler.Common.Heap
import VllmScheduler.Common.Numerals
/-!
# The C++ priority queue

`PriorityQueue` of `cpp/src/priority_queue.cpp`. Every method holds the
mutex from start to end, so each is one function; `now_ns()` is an argument,
an integer number of nanoseconds. Doubles are elements of an ordered field.
`pending` holds copies of the heap items, so that `apply_aging`, which
rewrites those copies, does not reach the heap. The `int32_t` of
`max_tokens` is an integer: nothing is computed with it.
-/

namespace VllmScheduler

/-- `ScheduledRequest` of the C++ runtime. -/
structure CppRequest (Id K : Type) where
  requestId : Id
  prompt : String
  maxTokens : ℤ
  predictedTokens : K
  priority : K
  enqueueNs : ℤ
deriving DecidableEq

/-- `HeapItem`. -/
structure CppHeapItem (Id K : Type) where
  priority : K
  enqueueNs : ℤ
  req : CppRequest Id K
deriving DecidableEq

/-- What `operator>` compares. -/
def CppHeapItem.key {Id K : Type} (item : CppHeapItem Id K) : K ×ₗ ℤ :=
  toLex (item.priority, item.enqueueNs)

/-- `std::priority_queue` with `std::greater`: the top is least. -/
abbrev CppHeap (Id K : Type) [LinearOrder K] : Type 1 :=
  MinHeap (CppHeapItem Id K) CppHeapItem.key

/-- `QueueStats` of the C++ runtime. -/
structure CppQueueStats (K : Type) where
  depth : ℕ
  totalEnqueued : ℕ
  totalDequeued : ℕ
  avgWaitMs : K
deriving DecidableEq

/-- `PriorityQueue::Impl`. -/
structure CppPriorityQueue {Id K : Type} [LinearOrder K] (H : CppHeap Id K) where
  heap : H.Carrier
  cancelled : Finset Id
  pending : Dict Id (CppHeapItem Id K)
  totalEnqueued : ℕ
  totalDequeued : ℕ
  waitMs : List K

namespace CppPriorityQueue

variable {Id K : Type} [DecidableEq Id] [Field K] [LinearOrder K] {H : CppHeap Id K}

def init (H : CppHeap Id K) : CppPriorityQueue H where
  heap := H.empty
  cancelled := ∅
  pending := Dict.empty
  totalEnqueued := 0
  totalDequeued := 0
  waitMs := []

/-- The priority `enqueue` gives a request. -/
def priorityOf (req : CppRequest Id K) : K :=
  if req.predictedTokens > 0 then req.predictedTokens else req.maxTokens

/-- `enqueue`. -/
def enqueue (q : CppPriorityQueue H) (now : ℤ) (req : CppRequest Id K) : CppPriorityQueue H :=
  let req := { req with enqueueNs := now, priority := priorityOf req }
  let item : CppHeapItem Id K := ⟨req.priority, req.enqueueNs, req⟩
  { q with
    pending := q.pending.set item.req.requestId item
    heap := H.push item q.heap
    totalEnqueued := q.totalEnqueued + 1 }

/-- The branch of the dequeue loop for a cancelled request. -/
def purge (q : CppPriorityQueue H) (item : CppHeapItem Id K) (heap : H.Carrier) :
    CppPriorityQueue H :=
  { q with
    heap := heap
    cancelled := q.cancelled.erase item.req.requestId
    pending := q.pending.erase item.req.requestId }

/-- Append a wait; beyond 10000 the oldest one goes. -/
def recordWait (waits : List K) (wait : K) : List K :=
  let waits := waits ++ [wait]
  if waits.length > 10000 then waits.tail else waits

/-- The branch of the dequeue loop that returns the request. -/
def serve (q : CppPriorityQueue H) (now : ℤ) (item : CppHeapItem Id K) (heap : H.Carrier) :
    CppPriorityQueue H :=
  { q with
    heap := heap
    waitMs := recordWait q.waitMs (((now - item.enqueueNs : ℤ) : K) / 1000000)
    pending := q.pending.erase item.req.requestId
    totalDequeued := q.totalDequeued + 1 }

/-- The loop of `dequeue`, over as many items as the heap holds. -/
def dequeueLoop (now : ℤ) : ℕ → CppPriorityQueue H → CppPriorityQueue H × Option (CppRequest Id K)
  | 0, q => (q, none)
  | n + 1, q =>
    match H.pop q.heap with
    | none => (q, none)
    | some (item, heap) =>
      if item.req.requestId ∈ q.cancelled then dequeueLoop now n (q.purge item heap)
      else (q.serve now item heap, some item.req)

/-- `dequeue` once its wait is over: `nullopt` where the heap is empty then
or runs empty. -/
def dequeue (q : CppPriorityQueue H) (now : ℤ) : CppPriorityQueue H × Option (CppRequest Id K) :=
  dequeueLoop now (H.size q.heap) q

/-- `cancel`. -/
def cancel (q : CppPriorityQueue H) (requestId : Id) : CppPriorityQueue H × Bool :=
  if requestId ∈ q.pending then
    ({ q with cancelled := insert requestId q.cancelled }, true)
  else (q, false)

/-- `apply_aging`. -/
def applyAging (q : CppPriorityQueue H) (now : ℤ) (factor maxBoost : K) : CppPriorityQueue H :=
  { q with
    pending := q.pending.mapValues fun item =>
      let waitS := ((now - item.enqueueNs : ℤ) : K) / 1000000000
      let boost := min maxBoost (factor * waitS * 1000)
      let priority := max 1 (item.req.priority - boost)
      { item with priority := priority, req := { item.req with priority := priority } } }

/-- `stats`. -/
def stats (q : CppPriorityQueue H) : CppQueueStats K where
  depth := H.size q.heap
  totalEnqueued := q.totalEnqueued
  totalDequeued := q.totalDequeued
  avgWaitMs := if q.waitMs = [] then 0 else q.waitMs.sum / q.waitMs.length

/-- `depth`. -/
def depth (q : CppPriorityQueue H) : ℕ := q.stats.depth

/-! ## What aging makes of a priority -/

/-- What one `apply_aging` makes of a priority. -/
def agedOnce (factor maxBoost : K) (enqueueNs now : ℤ) (priority : K) : K :=
  max 1 (priority - min maxBoost (factor * (((now - enqueueNs : ℤ) : K) / 1000000000) * 1000))

/-- What calls of `apply_aging` at the given readings make of it. -/
def agedBy (factor maxBoost : K) (enqueueNs : ℤ) (priority : K) (readings : List ℤ) : K :=
  readings.foldl (fun priority now => agedOnce factor maxBoost enqueueNs now priority) priority

/-- The copy of a heap item that `pending` holds once it is aged. -/
def withPriority (item : CppHeapItem Id K) (priority : K) : CppHeapItem Id K :=
  { item with priority := priority, req := { item.req with priority := priority } }

variable {factor maxBoost p p' : K} {enqueueNs enqueueNs' now : ℤ} {readings : List ℤ}

omit [DecidableEq Id] in
theorem pending_applyAging {q : CppPriorityQueue H} :
    (q.applyAging now factor maxBoost).pending = q.pending.mapValues fun item =>
      withPriority item (agedOnce factor maxBoost item.enqueueNs now item.req.priority) := rfl

theorem agedBy_snoc :
    agedBy factor maxBoost enqueueNs p (readings ++ [now]) =
      agedOnce factor maxBoost enqueueNs now (agedBy factor maxBoost enqueueNs p readings) := by
  simp [agedBy]

section Bounds

variable [IsStrictOrderedRing K]

/-- The boost of a wait grows with the wait. -/
theorem boost_mono (hf : 0 ≤ factor) (h : enqueueNs ≤ enqueueNs') :
    min maxBoost (factor * (((now - enqueueNs' : ℤ) : K) / 1000000000) * 1000) ≤
      min maxBoost (factor * (((now - enqueueNs : ℤ) : K) / 1000000000) * 1000) := by
  have hwait : ((now - enqueueNs' : ℤ) : K) ≤ ((now - enqueueNs : ℤ) : K) := by
    exact_mod_cast sub_le_sub_left h now
  gcongr

/-- It is not negative after a wait. -/
theorem boost_nonneg (hf : 0 ≤ factor) (hb : 0 ≤ maxBoost) (h : enqueueNs ≤ now) :
    0 ≤ min maxBoost (factor * (((now - enqueueNs : ℤ) : K) / 1000000000) * 1000) := by
  have hwait : (0 : K) ≤ ((now - enqueueNs : ℤ) : K) := by exact_mod_cast sub_nonneg.mpr h
  exact le_min hb (by positivity)

/-- **Aging keeps the order of two requests** of which the shorter one has
waited at least as long. -/
theorem agedOnce_le_agedOnce (hf : 0 ≤ factor) (hb : 0 ≤ maxBoost) (hle : p ≤ max 1 p')
    (henq : enqueueNs ≤ enqueueNs') (hnow : enqueueNs' ≤ now) :
    agedOnce factor maxBoost enqueueNs now p ≤ agedOnce factor maxBoost enqueueNs' now p' := by
  have hmono : min maxBoost (factor * (((now - enqueueNs' : ℤ) : K) / 1000000000) * 1000) ≤ _ :=
    boost_mono hf henq
  have hpos := boost_nonneg hf hb hnow
  refine max_le (le_max_left _ _) ?_
  rcases le_max_iff.mp hle with h | h
  · exact (by linarith : _ ≤ (1 : K)).trans (le_max_left _ _)
  · exact (by linarith : _ ≤ p' - _).trans (le_max_right _ _)

/-- However often a request is aged, it stays at or below where it started,
or at 1. -/
theorem agedBy_le (hf : 0 ≤ factor) (hb : 0 ≤ maxBoost) (h : ∀ t ∈ readings, enqueueNs ≤ t) :
    agedBy factor maxBoost enqueueNs p readings ≤ max 1 p := by
  induction readings using List.reverseRecOn with
  | nil => exact le_max_right _ _
  | append_singleton readings now ih =>
    have hpos := boost_nonneg hf hb (h now (by simp))
    have hprev := ih fun t ht => h t (List.mem_append_left _ ht)
    rw [agedBy_snoc]
    exact max_le (le_max_left _ _) (by linarith)

/-- Without a wait there is no boost. -/
theorem le_agedBy (hf : 0 ≤ factor) (h : ∀ t ∈ readings, t ≤ enqueueNs) :
    p ≤ agedBy factor maxBoost enqueueNs p readings := by
  induction readings using List.reverseRecOn with
  | nil => exact le_rfl
  | append_singleton readings now ih =>
    have hprev := ih fun t ht => h t (List.mem_append_left _ ht)
    have hwait : ((now - enqueueNs : ℤ) : K) ≤ 0 := by
      exact_mod_cast sub_nonpos.mpr (h now (by simp))
    have hboost : factor * (((now - enqueueNs : ℤ) : K) / 1000000000) * 1000 ≤ 0 := by
      have : ((now - enqueueNs : ℤ) : K) / 1000000000 ≤ 0 :=
        div_nonpos_of_nonpos_of_nonneg hwait (by norm_num)
      nlinarith
    rw [agedBy_snoc]
    refine le_max_of_le_right ?_
    have := min_le_right maxBoost (factor * (((now - enqueueNs : ℤ) : K) / 1000000000) * 1000)
    linarith

end Bounds

/-! ## The dequeue loop -/

/-- The heap items. -/
def items (q : CppPriorityQueue H) : Multiset (CppHeapItem Id K) := H.bag q.heap

variable {q : CppPriorityQueue H} {n : ℕ}

/-- The invariant rule of the dequeue loop. -/
theorem dequeueLoop_inv {I : CppPriorityQueue H → Prop}
    (hpurge : ∀ q item heap, H.pop q.heap = some (item, heap) → I q → I (q.purge item heap))
    (hserve : ∀ q item heap, H.pop q.heap = some (item, heap) → I q → I (q.serve now item heap))
    (hq : I q) : I (dequeueLoop now n q).1 := by
  induction n generalizing q with
  | zero => exact hq
  | succ n ih =>
    rw [dequeueLoop]
    rcases hp : H.pop q.heap with - | ⟨item, heap⟩
    · exact hq
    · by_cases hc : item.req.requestId ∈ q.cancelled
      · simp only [if_pos hc]
        exact ih (hpurge q item heap hp hq)
      · simp only [if_neg hc]
        exact hserve q item heap hp hq

/-- **What a dequeue returns.** The request of a heap item that is least
among what it leaves. -/
theorem dequeueLoop_some {req : CppRequest Id K} (h : (dequeueLoop now n q).2 = some req) :
    ∃ item ∈ q.items, item.req = req ∧
      ∀ y ∈ (dequeueLoop now n q).1.items, y ∈ q.items ∧ item.priority ≤ y.priority := by
  induction n generalizing q with
  | zero => cases h
  | succ n ih =>
    rw [dequeueLoop] at h ⊢
    rcases hp : H.pop q.heap with - | ⟨x, heap⟩
    · rw [hp] at h
      cases h
    · rw [hp] at h
      by_cases hc : x.req.requestId ∈ q.cancelled
      · simp only [if_pos hc] at h ⊢
        obtain ⟨item, hmem, hreq, hle⟩ := ih h
        exact ⟨item, H.mem_of_mem_pop hp hmem, hreq,
          fun y hy => ⟨H.mem_of_mem_pop hp (hle y hy).1, (hle y hy).2⟩⟩
      · simp only [if_neg hc, Option.some.injEq] at h ⊢
        refine ⟨x, H.mem_of_pop hp, h, fun y hy => ⟨H.mem_of_mem_pop hp hy, ?_⟩⟩
        rcases Prod.Lex.le_iff.mp (H.pop_le hp y hy) with hlt | heq
        · exact hlt.le
        · exact heq.1.le

end CppPriorityQueue

end VllmScheduler
