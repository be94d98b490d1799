import Mathlib.Algebra.BigOperators.Group.List.Basic
import Mathlib.Algebra.Field.Rat
import Mathlib.Algebra.Order.BigOperators.Group.List
import Mathlib.Algebra.Order.Group.MinMax
import Mathlib.Algebra.Order.Ring.Rat
import Mathlib.Tactic.Linarith
import VllmScheduler.Common.Machine
import VllmScheduler.Cpp.Queue
/-!
# How far the C++ queue ages a request

`apply_aging` computes a boost from the whole wait and takes it off the
priority the last call left, with a floor of 1. So the boosts of several
calls add up (`agedFrom_eq`): the cap `max_boost` holds for each of them and
not for their sum, and a request that was enqueued below 1 is lifted to the
floor. `recordOf` reads off the calls what each pending request was enqueued
with and which boosts it has had since.
-/

namespace VllmScheduler

/-- The calls on a C++ queue, with what they read of the clock. -/
inductive CppQueueOp (Id K : Type) where
  | enqueue (req : CppRequest Id K) (now : ℤ)
  | dequeue (now : ℤ)
  | cancel (requestId : Id)
  | applyAging (now : ℤ) (factor maxBoost : K)
deriving DecidableEq

/-- What the calls return. -/
inductive CppQueueOut (Id K : Type) where
  | done
  | dequeued (req : Option (CppRequest Id K))
  | cancelled (found : Bool)
deriving DecidableEq

/-- What a request was enqueued with, and the boosts it has had since. -/
structure AgingRecord (K : Type) where
  start : K
  enqueueNs : ℤ
  boosts : List K
deriving DecidableEq

namespace CppPriorityQueue

variable {Id K : Type} [DecidableEq Id] [Field K] [LinearOrder K] {H : CppHeap Id K}

/-- The queue as a machine. -/
def machine (H : CppHeap Id K) :
    Machine (CppPriorityQueue H) (CppQueueOp Id K) (CppQueueOut Id K) where
  step q op :=
    match op with
    | .enqueue req now => (q.enqueue now req, .done)
    | .dequeue now => ((q.dequeue now).1, .dequeued (q.dequeue now).2)
    | .cancel requestId => ((q.cancel requestId).1, .cancelled (q.cancel requestId).2)
    | .applyAging now factor maxBoost => (q.applyAging now factor maxBoost, .done)

/-- The boost a call of `apply_aging` computes. -/
def boostAt (factor maxBoost : K) (enqueueNs now : ℤ) : K :=
  min maxBoost (factor * (((now - enqueueNs : ℤ) : K) / 1000000000) * 1000)

/-- What boosts make of a priority, one after the other. -/
def agedFrom (start : K) (boosts : List K) : K :=
  boosts.foldl (fun priority boost => max 1 (priority - boost)) start

/-! ## The history -/

section History

/-- What a call reads of the clock. -/
def reading : CppQueueOp Id K → Option ℤ
  | .enqueue _ now | .dequeue now | .applyAging now _ _ => some now
  | .cancel _ => none

/-- The clock readings of a run, in order. -/
def readings (ops : List (CppQueueOp Id K)) : List ℤ := ops.filterMap reading

/-- The factor and the cap of a call are not negative. -/
def Nonneg : CppQueueOp Id K → Prop
  | .applyAging _ factor maxBoost => 0 ≤ factor ∧ 0 ≤ maxBoost
  | _ => True

/-- What a call does to the record of a request. -/
def note (id : Id) (record : Option (AgingRecord K)) :
    CppQueueOp Id K → Option (AgingRecord K)
  | .enqueue req now =>
    if req.requestId = id then some ⟨priorityOf req, now, []⟩ else record
  | .applyAging now factor maxBoost =>
    record.map fun r => { r with boosts := r.boosts ++ [boostAt factor maxBoost r.enqueueNs now] }
  | _ => record

/-- The record of the latest request with an id. -/
def recordOf (ops : List (CppQueueOp Id K)) (id : Id) : Option (AgingRecord K) :=
  ops.foldl (note id) none

variable {ops : List (CppQueueOp Id K)} {op : CppQueueOp Id K} {id : Id}

theorem recordOf_snoc : recordOf (ops ++ [op]) id = note id (recordOf ops id) op := by
  simp [recordOf]

omit [DecidableEq Id] [Field K] [LinearOrder K] in
theorem readings_snoc : readings (ops ++ [op]) = readings ops ++ (reading op).toList :=
  filterMap_snoc

end History

/-! ## Boosts add up -/

section Boosts

variable {start boost cap : K} {boosts : List K}

theorem agedFrom_snoc :
    agedFrom start (boosts ++ [boost]) = max 1 (agedFrom start boosts - boost) := by
  simp [agedFrom]

variable [IsStrictOrderedRing K]

/-- **Boosts add up.** The floor acts once, at the end. -/
theorem agedFrom_eq (hpos : ∀ b ∈ boosts, 0 ≤ b) (hne : boosts ≠ []) :
    agedFrom start boosts = max 1 (start - boosts.sum) := by
  induction boosts using List.reverseRecOn with
  | nil => exact absurd rfl hne
  | append_singleton boosts b ih =>
    have hb : 0 ≤ b := hpos b (by simp)
    have hprev : ∀ b ∈ boosts, 0 ≤ b := fun b hb => hpos b (List.mem_append_left _ hb)
    rw [agedFrom_snoc, List.sum_append, List.sum_singleton]
    rcases eq_or_ne boosts [] with rfl | hsome
    · simp [agedFrom]
    · -- what the floor has lifted is below it again after the next boost
      have hfloor : (1 : K) - b ≤ 1 := by linarith
      rw [ih hprev hsome, ← max_sub_sub_right, ← max_assoc, max_eq_left hfloor, sub_sub]

/-- Aging lowers a priority exactly where it started at 1 or above. -/
theorem agedFrom_le_iff (hpos : ∀ b ∈ boosts, 0 ≤ b) :
    agedFrom start boosts ≤ start ↔ boosts = [] ∨ 1 ≤ start := by
  rcases eq_or_ne boosts [] with rfl | hne
  · simp [agedFrom]
  · have hsum : 0 ≤ boosts.sum := List.sum_nonneg hpos
    rw [agedFrom_eq hpos hne, max_le_iff]
    constructor
    · exact fun h => Or.inr h.1
    · rintro (h | h)
      · exact absurd h hne
      · exact ⟨h, by linarith⟩

/-- It stays above the floor and above `start - cap` exactly where the boosts
have not passed the cap together, or the floor comes first. -/
theorem le_agedFrom_iff (hpos : ∀ b ∈ boosts, 0 ≤ b) (hcap : 0 ≤ cap) :
    min start (max 1 (start - cap)) ≤ agedFrom start boosts ↔
      start - cap ≤ 1 ∨ boosts.sum ≤ cap := by
  rcases eq_or_ne boosts [] with rfl | hne
  · simp [agedFrom, hcap]
  · rw [agedFrom_eq hpos hne]
    constructor
    · intro h
      by_contra! hnot
      obtain ⟨hfloor, hsum⟩ := hnot
      rw [max_eq_right hfloor.le, min_eq_right (by linarith), le_max_iff] at h
      rcases h with h | h <;> linarith
    · rintro (h | h)
      · rw [max_eq_left h]
        exact (min_le_right _ _).trans (le_max_left _ _)
      · exact (min_le_right _ _).trans (max_le_max_left 1 (by linarith))

end Boosts

/-! ## What a run keeps -/

/-- **The books of a run.** A pending request has the priority its record
says, and the boosts of a record are of waits after it. -/
structure Recorded (ops : List (CppQueueOp Id K)) (q : CppPriorityQueue H) : Prop where
  item : ∀ id item, q.pending.get? id = some item → ∃ record, recordOf ops id = some record ∧
    item.enqueueNs = record.enqueueNs ∧
    item.priority = agedFrom record.start record.boosts ∧
    item.req.priority = agedFrom record.start record.boosts
  past : ∀ id record, recordOf ops id = some record → record.enqueueNs ∈ readings ops
  nonneg : ∀ id record, recordOf ops id = some record → ∀ b ∈ record.boosts, 0 ≤ b

namespace Recorded

variable {ops : List (CppQueueOp Id K)} {q q' : CppPriorityQueue H}

omit [DecidableEq Id] [Field K] [LinearOrder K] in
theorem mem_readings_snoc {op : CppQueueOp Id K} {t : ℤ} (h : t ∈ readings ops) :
    t ∈ readings (ops ++ [op]) := by
  rw [readings_snoc]
  exact List.mem_append_left _ h

theorem init : Recorded [] (CppPriorityQueue.init H) where
  item := fun id item h => by cases h
  past := fun id record h => by cases h
  nonneg := fun id record h => by cases h

theorem enqueue (h : Recorded ops q) (req : CppRequest Id K) (now : ℤ) :
    Recorded (ops ++ [.enqueue req now]) (q.enqueue now req) := by
  have hself : recordOf (ops ++ [.enqueue req now]) req.requestId =
      some ⟨priorityOf req, now, []⟩ := by
    rw [recordOf_snoc, note, if_pos rfl]
  have hother : ∀ id, id ≠ req.requestId →
      recordOf (ops ++ [.enqueue req now]) id = recordOf ops id := by
    intro id hid
    rw [recordOf_snoc, note, if_neg hid.symm]
  -- a record is the new one or an old one
  have hcases : ∀ id record, recordOf (ops ++ [.enqueue req now]) id = some record →
      record = ⟨priorityOf req, now, []⟩ ∨ recordOf ops id = some record := by
    intro id record hrec
    by_cases hid : id = req.requestId
    · subst hid
      exact Or.inl (Option.some.inj (hrec.symm.trans hself))
    · exact Or.inr ((hother id hid).symm.trans hrec)
  refine ⟨?_, ?_, ?_⟩
  · intro id item hitem
    by_cases hid : id = req.requestId
    · subst hid
      have hset : (q.enqueue now req).pending.get? req.requestId = _ := Dict.get?_set_self
      rw [hset, Option.some.injEq] at hitem
      subst hitem
      exact ⟨_, hself, rfl, rfl, rfl⟩
    · rw [hother id hid]
      exact h.item id item ((Dict.get?_set_of_ne hid).symm.trans hitem)
  · intro id record hrec
    rcases hcases id record hrec with rfl | hrec
    · simp [readings_snoc, reading]
    · exact mem_readings_snoc (h.past id record hrec)
  · intro id record hrec
    rcases hcases id record hrec with rfl | hrec
    · exact fun b hb => by cases hb
    · exact h.nonneg id record hrec

/-- A call that ages nothing and takes entries out at most. -/
theorem shrink (h : Recorded ops q) {op : CppQueueOp Id K}
    (hnote : ∀ id (record : Option (AgingRecord K)), note id record op = record)
    (hsub : ∀ id item, q'.pending.get? id = some item → q.pending.get? id = some item) :
    Recorded (ops ++ [op]) q' := by
  have hrec : ∀ id, recordOf (ops ++ [op]) id = recordOf ops id := fun id => by
    rw [recordOf_snoc, hnote]
  refine ⟨?_, ?_, ?_⟩
  · intro id item hitem
    rw [hrec]
    exact h.item id item (hsub id item hitem)
  · intro id record hr
    exact mem_readings_snoc (h.past id record (hrec id ▸ hr))
  · intro id record hr
    exact h.nonneg id record (hrec id ▸ hr)

theorem applyAging [IsStrictOrderedRing K] (h : Recorded ops q) {now : ℤ} {factor maxBoost : K}
    (hf : 0 ≤ factor) (hb : 0 ≤ maxBoost) (hnow : ∀ t ∈ readings ops, t ≤ now) :
    Recorded (ops ++ [.applyAging now factor maxBoost]) (q.applyAging now factor maxBoost) := by
  have hrec : ∀ id, recordOf (ops ++ [.applyAging now factor maxBoost]) id =
      (recordOf ops id).map fun r =>
        { r with boosts := r.boosts ++ [boostAt factor maxBoost r.enqueueNs now] } := fun id => by
    rw [recordOf_snoc, note]
  refine ⟨?_, ?_, ?_⟩
  · intro id item hitem
    rw [pending_applyAging, Dict.get?_mapValues] at hitem
    obtain ⟨old, hold, rfl⟩ := Option.map_eq_some_iff.mp hitem
    obtain ⟨record, hr, henq, -, hprio⟩ := h.item id old hold
    have haged : agedOnce factor maxBoost old.enqueueNs now old.req.priority =
        agedFrom record.start
          (record.boosts ++ [boostAt factor maxBoost record.enqueueNs now]) := by
      rw [agedFrom_snoc, ← hprio, ← henq]
      rfl
    have hnew := hrec id
    rw [hr, Option.map_some] at hnew
    exact ⟨_, hnew, henq, haged, haged⟩
  · intro id record hr
    rw [hrec] at hr
    obtain ⟨old, hold, rfl⟩ := Option.map_eq_some_iff.mp hr
    exact mem_readings_snoc (h.past id old hold)
  · intro id record hr
    rw [hrec] at hr
    obtain ⟨old, hold, rfl⟩ := Option.map_eq_some_iff.mp hr
    intro b hmem
    rcases List.mem_append.mp hmem with hmem | hmem
    · exact h.nonneg id old hold b hmem
    · rw [List.mem_singleton] at hmem
      rw [hmem]
      exact boost_nonneg hf hb (hnow _ (h.past id old hold))

/-- **A call keeps the books.** -/
theorem step [IsStrictOrderedRing K] (h : Recorded ops q) {op : CppQueueOp Id K}
    (hop : Nonneg op) (hclock : (readings (ops ++ [op])).Pairwise (· ≤ ·)) :
    Recorded (ops ++ [op]) ((machine H).step q op).1 := by
  cases op with
  | enqueue req now => exact h.enqueue req now
  | dequeue now =>
    refine h.shrink (fun _ _ => rfl) fun id item hitem => ?_
    refine dequeueLoop_inv (I := fun q' : CppPriorityQueue H =>
      q'.pending.get? id = some item → q.pending.get? id = some item) ?_ ?_ (fun hq => hq) hitem
    · exact fun q' x heap _ hq' hx => hq' (Dict.get?_of_get?_erase hx)
    · exact fun q' x heap _ hq' hx => hq' (Dict.get?_of_get?_erase hx)
  | cancel requestId =>
    refine h.shrink (fun _ _ => rfl) fun id item hitem => ?_
    have hpend : (q.cancel requestId).1.pending = q.pending := by
      rw [CppPriorityQueue.cancel]
      split <;> rfl
    exact hpend ▸ hitem
  | applyAging now factor maxBoost =>
    rw [readings_snoc, List.pairwise_append] at hclock
    exact h.applyAging hop.1 hop.2 fun t ht => hclock.2.2 t ht now (by simp [reading])

end Recorded

variable {ops : List (CppQueueOp Id K)}

/-- **A run keeps the books.** -/
theorem recorded_run [IsStrictOrderedRing K] (hops : ∀ op ∈ ops, Nonneg op)
    (hclock : (readings ops).Pairwise (· ≤ ·)) :
    Recorded ops ((machine H).run (CppPriorityQueue.init H) ops) := by
  refine Machine.log_inv (M := machine H)
    (H := fun ops => (∀ op ∈ ops, Nonneg op) ∧ (readings ops).Pairwise (· ≤ ·))
    (I := fun ops _ q => Recorded ops q) ?_ Recorded.init ?_ ⟨hops, hclock⟩
  · rintro ops op ⟨hops, hclock⟩
    rw [readings_snoc] at hclock
    exact ⟨fun o ho => hops o (List.mem_append_left _ ho), (List.pairwise_append.mp hclock).1⟩
  · rintro ops op ⟨hops, hclock⟩ h
    exact h.step (hops op (by simp)) hclock

/-- **How far aging goes.** After any calls with a nondecreasing clock and
factors and caps that are not negative, a pending request that was enqueued
with priority `p0` is at or below `p0` exactly where it was never aged or
`p0` is at least 1. It is at or above `min(p0, max(1, p0 - cap))` exactly
where `p0 - cap` is at most 1, so that the floor is the bound, or its boosts
sum up to no more than the cap. -/
theorem pending_bounds_iff [IsStrictOrderedRing K] (hops : ∀ op ∈ ops, Nonneg op)
    (hclock : (readings ops).Pairwise (· ≤ ·)) {id : Id} {item : CppHeapItem Id K} {cap : K}
    (hcap : 0 ≤ cap)
    (hitem : ((machine H).run (CppPriorityQueue.init H) ops).pending.get? id = some item) :
    ∃ p0 enqueueNs boosts, recordOf ops id = some ⟨p0, enqueueNs, boosts⟩ ∧
      (item.req.priority ≤ p0 ↔ boosts = [] ∨ 1 ≤ p0) ∧
      (min p0 (max 1 (p0 - cap)) ≤ item.req.priority ↔ p0 - cap ≤ 1 ∨ boosts.sum ≤ cap) := by
  have hbooks : Recorded ops ((machine H).run (CppPriorityQueue.init H) ops) :=
    recorded_run hops hclock
  obtain ⟨⟨p0, enqueueNs, boosts⟩, hrec, -, -, hprio⟩ := hbooks.item id item hitem
  have hpos := hbooks.nonneg id _ hrec
  refine ⟨p0, enqueueNs, boosts, hrec, ?_, ?_⟩
  · rw [hprio]
    exact agedFrom_le_iff hpos
  · rw [hprio]
    exact le_agedFrom_iff hpos hcap

/-! ## Two calls, and a short request -/

instance : ∀ op : CppQueueOp Id K, Decidable (Nonneg op)
  | .applyAging _ factor maxBoost => inferInstanceAs (Decidable (0 ≤ factor ∧ 0 ≤ maxBoost))
  | .enqueue _ _ | .dequeue _ | .cancel _ => isTrue trivial

/-- A request is enqueued at 0 and aged at two readings, with the arguments
an `acquire` of the scheduler passes. -/
def agedTwice (predicted : ℚ) (first second : ℤ) : List (CppQueueOp String ℚ) :=
  [.enqueue ⟨"a", "", 256, predicted, 0, 0⟩ 0, .applyAging first (1 / 1000) 500,
    .applyAging second (1 / 1000) 500]

/-- The queue they leave. -/
def afterAging (ops : List (CppQueueOp String ℚ)) :
    CppPriorityQueue (listHeap CppHeapItem.key : CppHeap String ℚ) :=
  (machine _).run (init _) ops

/-- **Aging passes its bounds.** A request enqueued with 1000 is at 1 after
two boosts of 500, below 1000 - 500; one enqueued with 1/2 is lifted to 1. -/
theorem aging_passes_bounds :
    (∀ op ∈ agedTwice 1000 500000000000 501000000000, Nonneg op) ∧
    (readings (agedTwice 1000 500000000000 501000000000)).Pairwise (· ≤ ·) ∧
    ((afterAging (agedTwice 1000 500000000000 501000000000)).pending.get? "a").map
      (fun item => item.req.priority) = some 1 ∧
    (1 : ℚ) < min 1000 (max 1 (1000 - 500)) ∧
    (∀ op ∈ agedTwice (1 / 2) 0 0, Nonneg op) ∧
    (readings (agedTwice (1 / 2) 0 0)).Pairwise (· ≤ ·) ∧
    ((afterAging (agedTwice (1 / 2) 0 0)).pending.get? "a").map
      (fun item => item.req.priority) = some 1 ∧
    (1 / 2 : ℚ) < 1 := by
  decide +kernel

/-- Two boosts that stay under the cap together: 100 and 200 off 1000. -/
theorem aging_within_bounds :
    ∃ item, (afterAging (agedTwice 1000 100000000000 200000000000)).pending.get? "a" = some item ∧
      item.req.priority ≤ 1000 ∧ min 1000 (max 1 (1000 - 500)) ≤ item.req.priority := by
  have hops : ∀ op ∈ agedTwice 1000 100000000000 200000000000, Nonneg op := by decide +kernel
  have hclock : (readings (agedTwice 1000 100000000000 200000000000)).Pairwise (· ≤ ·) := by
    decide +kernel
  have hpending :
      ((afterAging (agedTwice 1000 100000000000 200000000000)).pending.get? "a").isSome := by
    decide +kernel
  have hrecord : recordOf (agedTwice 1000 100000000000 200000000000) "a" =
      some ⟨1000, 0, [100, 200]⟩ := by
    decide +kernel
  obtain ⟨item, hitem⟩ := Option.isSome_iff_exists.mp hpending
  obtain ⟨p0, enqueueNs, boosts, hrec, hupper, hlower⟩ :=
    pending_bounds_iff hops hclock (by norm_num : (0 : ℚ) ≤ 500) hitem
  rw [hrecord] at hrec
  cases hrec
  exact ⟨item, hitem, hupper.mpr (Or.inr (by norm_num)), hlower.mpr (Or.inr (by norm_num))⟩

end CppPriorityQueue

end VllmScheduler
