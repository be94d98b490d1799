import VllmScheduler.Scheduler.Dispatch
/-!
# What a cancel answers

`SJFScheduler.cancel` of `python/scheduler/sjf_scheduler.py` tells both of
its queues and returns what the priority queue says: that the id is in the
queue's `_pending`. So its answer is wrong for a request that waits in the
fallback's queue, which the priority queue does not list, and for one that
was cancelled before and whose entry has not been purged, which it still
lists. It is right for every other id.
-/

namespace VllmScheduler

variable {Id K : Type} [DecidableEq Id] [Field K] [LinearOrder K] {H : RequestHeap Id K}

/-- The id was cancelled, by a client or by the aging loop, while it
waited. -/
def Withdrawn (log : List (SJFOp Id K × SJFOut Id K)) (i : Id) : Prop :=
  ∃ before op found after, log = before ++ (op, .cancelled i found) :: after ∧ i ∈ waiting before

/-- The ids withdrawn after a step. -/
def withdrawnStep (waiting : Finset Id) (withdrawn : Id → Prop) (out : SJFOut Id K) : Id → Prop :=
  match out with
  | .cancelled j _ => fun i => withdrawn i ∨ (i = j ∧ i ∈ waiting)
  | _ => withdrawn

omit [Field K] [LinearOrder K] in
theorem withdrawn_snoc {log : List (SJFOp Id K × SJFOut Id K)} {op : SJFOp Id K}
    {out : SJFOut Id K} :
    Withdrawn (log ++ [(op, out)]) = withdrawnStep (waiting log) (Withdrawn log) out := by
  have hiff : ∀ i, Withdrawn (log ++ [(op, out)]) i ↔
      Withdrawn log i ∨ (∃ found, out = .cancelled i found) ∧ i ∈ waiting log := by
    intro i
    constructor
    · rintro ⟨before, op', found, after, heq, hw⟩
      -- the cancel is the last step, or one before it
      rcases List.eq_nil_or_concat' after with rfl | ⟨after, last, rfl⟩
      · obtain ⟨rfl, hlast⟩ := List.append_inj' heq rfl
        cases hlast
        exact Or.inr ⟨⟨found, rfl⟩, hw⟩
      · rw [← List.cons_append, ← List.append_assoc] at heq
        exact Or.inl ⟨before, op', found, after, (List.append_inj' heq rfl).1, hw⟩
    · rintro (⟨before, op', found, after, rfl, hw⟩ | ⟨⟨found, rfl⟩, hw⟩)
      · exact ⟨before, op', found, after ++ [(op, out)], by simp, hw⟩
      · exact ⟨log, op, found, [], rfl, hw⟩
  funext i
  rw [hiff i]
  cases out with
  | cancelled j found => simp [withdrawnStep, eq_comm]
  | _ => simp [withdrawnStep]

omit [DecidableEq Id] [Field K] [LinearOrder K] in
theorem withdrawnStep_acquireOut {waiting : Finset Id} {withdrawn : Id → Prop}
    {o : Option (ScheduledRequest Id K)} :
    withdrawnStep waiting withdrawn (SJFScheduler.acquireOut o) = withdrawn := by
  cases o <;> rfl

/-! ## Where the ids are -/

/-- **Where the ids are.** What the priority queue lists is waiting or was
withdrawn, what waits is in one of the two queues, and the two have no id in
common. -/
structure Placed (q : PriorityQueue H) (fallback : List (ScheduledRequest Id K))
    (waiting : Finset Id) (withdrawn : Id → Prop) (submitted : List Id) : Prop where
  linked : q.Linked ScheduledRequest.requestId
  listed : ∀ {i}, i ∈ q.pending → i ∈ waiting ∨ withdrawn i
  held : ∀ {i}, i ∈ waiting → i ∈ q.pending ∨ i ∈ fallback.map ScheduledRequest.requestId
  apart : ∀ {i}, i ∈ fallback.map ScheduledRequest.requestId → i ∉ q.pending
  tombstoned : ∀ {i}, i ∈ q.cancelled → withdrawn i
  gone : ∀ {i}, withdrawn i → i ∉ waiting
  submitted : ∀ {i}, i ∈ waiting ∨ withdrawn i ∨ i ∈ fallback.map ScheduledRequest.requestId →
    i ∈ submitted

namespace Placed

variable {q : PriorityQueue H} {fallback : List (ScheduledRequest Id K)} {waiting : Finset Id}
variable {withdrawn : Id → Prop} {submitted : List Id} {i : Id} {now p : K}

omit [Field K] in
theorem nil : Placed (PriorityQueue.init H) [] ∅ (fun _ => False) [] where
  linked := PriorityQueue.linked_init
  listed := fun h => by simp [PriorityQueue.init] at h
  held := fun h => by simp at h
  apart := fun h => by simp at h
  tombstoned := fun h => by simp [PriorityQueue.init] at h
  gone := fun h => h.elim
  submitted := fun h => by simp at h

omit [Field K] in
/-- **The answer of a cancel**, for ids in their places: it is right for an
id unless that waits in the fallback's queue, or is withdrawn and listed. -/
theorem truthful_iff (h : Placed q fallback waiting withdrawn submitted) :
    ((q.cancel i).2 = true ↔ i ∈ waiting) ↔
      ¬ (i ∈ waiting ∧ i ∈ fallback.map ScheduledRequest.requestId) ∧
        ¬ (withdrawn i ∧ i ∈ q.pending) := by
  rw [PriorityQueue.cancel_eq_true_iff]
  constructor
  · intro hright
    refine ⟨fun ⟨hw, hf⟩ => h.apart hf (hright.mpr hw), fun ⟨hwd, hp⟩ => ?_⟩
    exact h.gone hwd (hright.mp hp)
  · rintro ⟨hfallback, hlisted⟩
    constructor
    · intro hp
      exact (h.listed hp).resolve_right fun hwd => hlisted ⟨hwd, hp⟩
    · intro hw
      exact (h.held hw).resolve_right fun hf => hfallback ⟨hw, hf⟩

omit [Field K] in
/-- A new request goes to the priority queue. -/
theorem enqueue (h : Placed q fallback waiting withdrawn submitted) (hi : i ∉ submitted)
    {x : ScheduledRequest Id K} (hx : x.requestId = i) :
    Placed (q.enqueue now i p x) fallback (insert i waiting) withdrawn (submitted ++ [i]) where
  linked := h.linked.enqueue hx
  listed := fun {j} hj => by
    rcases Dict.mem_set.mp hj with rfl | hj
    · exact Or.inl (Finset.mem_insert_self _ _)
    · exact (h.listed hj).imp_left Finset.mem_insert_of_mem
  held := fun {j} hj => by
    rcases Finset.mem_insert.mp hj with rfl | hj
    · exact Or.inl (Dict.mem_set.mpr (Or.inl rfl))
    · exact (h.held hj).imp_left fun hp => Dict.mem_set.mpr (Or.inr hp)
  apart := fun {j} hj hp => by
    rcases Dict.mem_set.mp hp with rfl | hp
    · exact hi (h.submitted (Or.inr (Or.inr hj)))
    · exact h.apart hj hp
  tombstoned := h.tombstoned
  gone := fun {j} hwd hj => by
    rcases Finset.mem_insert.mp hj with rfl | hj
    · exact hi (h.submitted (Or.inr (Or.inl hwd)))
    · exact h.gone hwd hj
  submitted := fun {j} hj => by
    rw [List.mem_append, List.mem_singleton]
    rcases hj with hj | hj
    · rcases Finset.mem_insert.mp hj with rfl | hj
      · exact Or.inr rfl
      · exact Or.inl (h.submitted (Or.inl hj))
    · exact Or.inl (h.submitted (Or.inr hj))

omit [Field K] in
/-- A new request goes to the fallback. -/
theorem divert (h : Placed q fallback waiting withdrawn submitted) (hi : i ∉ submitted)
    {x : ScheduledRequest Id K} (hx : x.requestId = i) :
    Placed q (fallback ++ [x]) (insert i waiting) withdrawn (submitted ++ [i]) := by
  have hmap : (fallback ++ [x]).map ScheduledRequest.requestId =
      fallback.map ScheduledRequest.requestId ++ [i] := by
    rw [List.map_append, List.map_singleton, hx]
  -- a new id is neither waiting nor withdrawn, so the queue does not list it
  have hnew : i ∉ q.pending := fun hp => hi (h.submitted ((h.listed hp).imp_right Or.inl))
  refine ⟨h.linked, fun hp => (h.listed hp).imp_left Finset.mem_insert_of_mem, ?_, ?_,
    h.tombstoned, ?_, ?_⟩
  · intro j hj
    rw [hmap, List.mem_append, List.mem_singleton]
    rcases Finset.mem_insert.mp hj with rfl | hj
    · exact Or.inr (Or.inr rfl)
    · exact (h.held hj).imp_right Or.inl
  · intro j hj
    rw [hmap, List.mem_append, List.mem_singleton] at hj
    rcases hj with hj | rfl
    · exact h.apart hj
    · exact hnew
  · intro j hwd hj
    rcases Finset.mem_insert.mp hj with rfl | hj
    · exact hi (h.submitted (Or.inr (Or.inl hwd)))
    · exact h.gone hwd hj
  · intro j hj
    rw [hmap, List.mem_append, List.mem_singleton, Finset.mem_insert] at hj
    rw [List.mem_append, List.mem_singleton]
    rcases hj with (rfl | hj) | hj | hj | rfl
    · exact Or.inr rfl
    · exact Or.inl (h.submitted (Or.inl hj))
    · exact Or.inl (h.submitted (Or.inr (Or.inl hj)))
    · exact Or.inl (h.submitted (Or.inr (Or.inr hj)))
    · exact Or.inr rfl

/-- An `acquire` on the priority queue. What it purges is not waiting. -/
theorem dequeue (h : Placed q fallback waiting withdrawn submitted) (now : K) :
    Placed (q.dequeue now).1 fallback
      (waiting.filter fun i => (q.dequeue now).2.map PrioritizedItem.requestId ≠ some i)
      withdrawn submitted where
  linked := h.linked.dequeue
  listed := fun {j} hj => by
    obtain ⟨hp, hne⟩ := PriorityQueue.mem_pending_of_dequeue hj
    exact (h.listed hp).imp_left fun hw => Finset.mem_filter.mpr ⟨hw, hne⟩
  held := fun {j} hj => by
    obtain ⟨hw, hne⟩ := Finset.mem_filter.mp hj
    refine (h.held hw).imp_left fun hp => ?_
    obtain ⟨item, hget⟩ := Dict.mem_iff_exists.mp hp
    have hnc : j ∉ q.cancelled := fun hc => h.gone (h.tombstoned hc) hw
    rw [← PriorityQueue.get?_dequeue hnc hne] at hget
    exact Dict.mem_iff_exists.mpr ⟨item, hget⟩
  apart := fun hj hp => h.apart hj (PriorityQueue.mem_pending_of_dequeue hp).1
  tombstoned := fun hj => h.tombstoned ((q.trimmed_dequeue now).cancelled_subset hj)
  gone := fun hwd hj => h.gone hwd (Finset.mem_filter.mp hj).1
  submitted := fun hj => h.submitted (hj.imp_left fun hw => (Finset.mem_filter.mp hw).1)

omit [Field K] in
/-- An `acquire` on the fallback. -/
theorem popFallback {request : ScheduledRequest Id K} {rest : List (ScheduledRequest Id K)}
    (h : Placed q (request :: rest) waiting withdrawn submitted) :
    Placed q rest (waiting.erase request.requestId) withdrawn submitted where
  linked := h.linked
  listed := fun {j} hp => by
    have hne : j ≠ request.requestId := by
      rintro rfl
      exact h.apart List.mem_cons_self hp
    exact (h.listed hp).imp_left fun hw => Finset.mem_erase.mpr ⟨hne, hw⟩
  held := fun {j} hj => by
    obtain ⟨hne, hw⟩ := Finset.mem_erase.mp hj
    exact (h.held hw).imp_right fun hf => (List.mem_cons.mp hf).resolve_left hne
  apart := fun hj => h.apart (List.mem_cons_of_mem _ hj)
  tombstoned := h.tombstoned
  gone := fun hwd hj => h.gone hwd (Finset.mem_of_mem_erase hj)
  submitted := fun hj => h.submitted
    (hj.imp Finset.mem_of_mem_erase fun hj => hj.imp_right (List.mem_cons_of_mem _))

omit [Field K] in
/-- A cancel. -/
theorem cancel (h : Placed q fallback waiting withdrawn submitted) :
    Placed (q.cancel i).1 fallback (waiting.erase i)
      (fun j => withdrawn j ∨ (j = i ∧ j ∈ waiting)) submitted where
  linked := h.linked.cancel
  listed := fun {j} hj => by
    rw [PriorityQueue.pending_cancel] at hj
    rcases h.listed hj with hw | hwd
    · by_cases hji : j = i
      · exact Or.inr (Or.inr ⟨hji, hw⟩)
      · exact Or.inl (Finset.mem_erase.mpr ⟨hji, hw⟩)
    · exact Or.inr (Or.inl hwd)
  held := fun hj => by
    rw [PriorityQueue.pending_cancel]
    exact h.held (Finset.mem_of_mem_erase hj)
  apart := fun hj => by
    rw [PriorityQueue.pending_cancel]
    exact h.apart hj
  tombstoned := fun {j} hj => by
    rcases PriorityQueue.mem_cancelled_cancel.mp hj with hj | ⟨rfl, hp⟩
    · exact Or.inl (h.tombstoned hj)
    · exact (h.listed hp).symm.imp_right fun hw => ⟨rfl, hw⟩
  gone := fun {j} hwd hj => by
    obtain ⟨hne, hw⟩ := Finset.mem_erase.mp hj
    rcases hwd with hwd | ⟨rfl, -⟩
    · exact h.gone hwd hw
    · exact hne rfl
  submitted := fun {j} hj => by
    rcases hj with hj | (hj | ⟨-, hj⟩) | hj
    · exact h.submitted (Or.inl (Finset.mem_of_mem_erase hj))
    · exact h.submitted (Or.inr (Or.inl hj))
    · exact h.submitted (Or.inl hj)
    · exact h.submitted (Or.inr (Or.inr hj))

omit [Field K] in
/-- An `update_priority`: it lists the ids it listed, and takes a tombstone
down. -/
theorem updatePriority (h : Placed q fallback waiting withdrawn submitted) :
    Placed (q.updatePriority i p).1 fallback waiting withdrawn submitted := by
  rcases hget : q.pending.get? i with - | old
  · rw [PriorityQueue.updatePriority_of_none hget]
    exact h
  · have hmem : ∀ {j}, j ∈ (q.updatePriority i p).1.pending ↔ j ∈ q.pending := by
      intro j
      rw [PriorityQueue.pending_updatePriority hget, Dict.mem_set]
      refine ⟨?_, Or.inr⟩
      rintro (rfl | hj)
      · exact Dict.mem_iff_exists.mpr ⟨old, hget⟩
      · exact hj
    refine ⟨h.linked.updatePriority, fun hj => h.listed (hmem.mp hj),
      fun hj => (h.held hj).imp_left hmem.mpr, fun hj hp => h.apart hj (hmem.mp hp), ?_,
      h.gone, h.submitted⟩
    intro j hj
    rw [PriorityQueue.cancelled_updatePriority hget] at hj
    exact h.tombstoned (Finset.mem_of_mem_erase hj)

end Placed

section Steps

variable {M : MathFns K} {c c' : SJFCore H} {op : SJFOp Id K} {out : SJFOut Id K}
variable {waiting : Finset Id} {withdrawn : Id → Prop} {submitted : List Id}

/-- **One step keeps the ids in their places.** -/
theorem placed_coreStep (h : CoreStep M c op c' out)
    (hp : Placed c.queue c.fallbackQueue waiting withdrawn submitted)
    (hnew : ∀ i, op.submittedId = some i → i ∉ submitted) :
    Placed c'.queue c'.fallbackQueue (waitingStep waiting (op, out))
      (withdrawnStep waiting withdrawn out) (submitted ++ op.submittedId.toList) := by
  have hsame : op.submittedId = none → submitted ++ op.submittedId.toList = submitted :=
    append_toList_of_none
  cases h with
  | enqueue request prediction now _ =>
    rw [submittedId_submit]
    exact hp.enqueue (hnew _ submittedId_submit) (ScheduledRequest.predicted_requestId _ _)
  | divert request prediction now _ _ =>
    rw [submittedId_submit]
    exact hp.divert (hnew _ submittedId_submit) (ScheduledRequest.predicted_requestId _ _)
  | dequeue _ now hop =>
    have hop' : op = .acquire now ∨ op = .wake now := hop.imp_left And.left
    have hnone : op.submittedId = none := by
      rcases hop' with rfl | rfl <;> rfl
    have hid := acquiredId_dequeue hp.linked now
    rw [acquiredId_acquireOut] at hid
    rw [hsame hnone, waitingStep_acquireOut hop', hid, withdrawnStep_acquireOut]
    exact hp.dequeue now
  | popFallback now request rest _ hq =>
    rw [hq] at hp
    rw [hsame rfl]
    exact hp.popFallback
  | cancel i =>
    rw [hsame rfl]
    exact hp.cancel
  | expire i request rest _ _ =>
    rw [hsame rfl]
    exact hp.cancel
  | lower i request rest _ _ _ =>
    rw [hsame rfl]
    exact hp.updatePriority
  | emptyFallback now _ _ | complete i success | tick now _ | keep i request rest _ _ _ =>
    rw [hsame rfl]
    exact hp
  | idle _ _ hsub _ hout =>
    rw [hsame hsub, waitingStep_of_idle hsub hout]
    rcases hout with rfl | rfl
    · exact hp
    · exact hp

end Steps

namespace SJFScheduler

variable {M : MathFns K} {ops : List (SJFOp Id K)} {config : AgingConfig K}
variable {fallbackToFcfs : Bool} {timeout : K} {i : Id}

theorem placed_run (hids : DistinctIds ops) :
    Placed ((machine M H).run (init H config fallbackToFcfs timeout) ops).core.queue
      ((machine M H).run (init H config fallbackToFcfs timeout) ops).core.fallbackQueue
      (waiting ((machine M H).log (init H config fallbackToFcfs timeout) ops))
      (Withdrawn ((machine M H).log (init H config fallbackToFcfs timeout) ops))
      (submittedIds ops) := by
  refine Machine.log_inv (M := machine M H) (s := init H config fallbackToFcfs timeout)
    (H := DistinctIds)
    (I := fun ops log s => Placed s.core.queue s.core.fallbackQueue (waiting log) (Withdrawn log)
      (submittedIds ops)) (fun _ _ h => h.of_snoc.1) ?_ ?_ hids
  · have hnone : Withdrawn ([] : List (SJFOp Id K × SJFOut Id K)) = fun _ => False := by
      funext i
      simp [Withdrawn]
    have hqueue : (init H config fallbackToFcfs timeout).core.fallbackQueue = [] := by
      cases fallbackToFcfs <;> rfl
    rw [hnone, hqueue]
    exact Placed.nil
  · intro ops op hids hp
    rw [waiting_snoc, withdrawn_snoc, submittedIds_snoc]
    exact placed_coreStep (coreStep_step op) hp hids.of_snoc.2

/-- **When a cancel tells the truth**: for an id that neither waits in the
fallback's queue, nor was cancelled before and is still listed by the
priority queue. -/
theorem cancel_truthful_iff (hids : DistinctIds ops) :
    ((((machine M H).run (init H config fallbackToFcfs timeout) ops).cancel i).2 = true ↔
        i ∈ waiting ((machine M H).log (init H config fallbackToFcfs timeout) ops)) ↔
      ¬ (i ∈ waiting ((machine M H).log (init H config fallbackToFcfs timeout) ops) ∧
          i ∈ ((machine M H).run (init H config fallbackToFcfs timeout)
            ops).core.fallbackQueue.map ScheduledRequest.requestId) ∧
        ¬ (Withdrawn ((machine M H).log (init H config fallbackToFcfs timeout) ops) i ∧
          i ∈ ((machine M H).run (init H config fallbackToFcfs timeout) ops).queue.pending) :=
  (placed_run hids).truthful_iff

/-- Two requests, one of them acquired. -/
def acquiredRun : List (SJFOp String ℚ) :=
  [chatSubmit "a" 0 100, chatSubmit "b" 1 50, .acquire 2]

/-- A cancel of the other is right. -/
theorem acquiredRun_truthful :
    (((machine MathFns.firstOrder _).run defaultScheduler acquiredRun).cancel "a").2 = true ∧
      "a" ∈ waiting (defaultLog acquiredRun) ∧
      ¬ (Withdrawn (defaultLog acquiredRun) "a" ∧
        "a" ∈ ((machine MathFns.firstOrder _).run defaultScheduler acquiredRun).queue.pending) :=
  ⟨by decide +kernel, by decide +kernel,
    ((cancel_truthful_iff (by decide +kernel)).mp (by decide +kernel)).2⟩

/-- A request goes to the fallback. -/
def divertedRun : List (SJFOp String ℚ) :=
  [.submit (chatRequest "a" 0) none 0]

/-- A request is cancelled. -/
def withdrawnRun : List (SJFOp String ℚ) :=
  [chatSubmit "a" 0 100, .cancel "a"]

/-- A cancel of the first answers `False` while it waits, and a second cancel
of the other answers `True`. -/
theorem cancel_untruthful :
    DistinctIds divertedRun ∧ "a" ∈ waiting (defaultLog divertedRun) ∧
      (((machine MathFns.firstOrder _).run defaultScheduler divertedRun).cancel "a").2 = false ∧
      DistinctIds withdrawnRun ∧ "a" ∉ waiting (defaultLog withdrawnRun) ∧
      (((machine MathFns.firstOrder _).run defaultScheduler withdrawnRun).cancel "a").2 = true := by
  decide +kernel

end SJFScheduler

end VllmScheduler
