import VllmScheduler.Queue.Runs
/-!
# Lowered priorities are honoured

Runs of the Python priority queue in which every id is enqueued once, no id
is cancelled, and `update_priority` only ever lowers a priority, as the
aging loop does. Every call of it that succeeds leaves an older copy of the
request in the heap, and a copy stays there when the request is returned.
The newest copy of a request that has not been returned is the one
`_pending` lists, and it comes before the older ones: so what a `dequeue`
returns for the first time is the newest copy, and it comes before the newest
copies of all the others.
-/

namespace VllmScheduler

section History

variable {Id K P : Type} [DecidableEq Id]

/-- The id a call enqueues. -/
def PQOp.enqueuedId : PQOp Id K P → Option Id
  | enqueue requestId _ _ _ => some requestId
  | _ => none

/-- The ids a run enqueues, in order. -/
def enqueuedIds (ops : List (PQOp Id K P)) : List Id := ops.filterMap PQOp.enqueuedId

/-- The id a step returns. -/
def PQOut.returnedId : PQOut Id K P → Option Id
  | returned item => some item.requestId
  | _ => none

/-- The ids a run returns, in order. -/
def returnedIds (log : List (PQOp Id K P × PQOut Id K P)) : List Id :=
  log.filterMap fun e => e.2.returnedId

/-- What a step makes of the items as their callers last set them. -/
def latestStep (latest : Id → Option (PrioritizedItem Id K P))
    (e : PQOp Id K P × PQOut Id K P) : Id → Option (PrioritizedItem Id K P) :=
  match e with
  | (.enqueue requestId priority payload now, _) =>
    Function.update latest requestId (some ⟨priority, now, requestId, payload⟩)
  | (.updatePriority requestId newPriority, .updated true) =>
    Function.update latest requestId
      ((latest requestId).map fun item => { item with priority := newPriority })
  | _ => latest

/-- **The items as their callers last set them**: with the payload and the
time of their enqueue and the priority set last. -/
def latest (log : List (PQOp Id K P × PQOut Id K P)) : Id → Option (PrioritizedItem Id K P) :=
  log.foldl latestStep fun _ => none

theorem latest_snoc {log : List (PQOp Id K P × PQOut Id K P)} {e : PQOp Id K P × PQOut Id K P} :
    latest (log ++ [e]) = latestStep (latest log) e := by
  rw [latest, List.foldl_append]
  rfl

end History

namespace PriorityQueue

variable {Id K P : Type} [DecidableEq Id] [Field K] [LinearOrder K] {H : Heapq Id K P}

/-- A call the aging loop could make, if it is not one of the others: an
update that lowers the priority. No cancel finds its id. -/
def Lowering (q : PriorityQueue H) : PQOp Id K P → Prop
  | .updatePriority i newPriority => ∀ item ∈ q.pending.get? i, newPriority < item.priority
  | .cancel i => i ∉ q.pending
  | _ => True

instance decidableLowering (q : PriorityQueue H) : ∀ op, Decidable (q.Lowering op)
  | .updatePriority i newPriority =>
    inferInstanceAs (Decidable (∀ item ∈ q.pending.get? i, newPriority < item.priority))
  | .cancel i => inferInstanceAs (Decidable (i ∉ q.pending))
  | .enqueue _ _ _ _ | .dequeue _ => isTrue trivial

/-- **The newest copies.** `_pending` lists the requests not returned yet, as
they were last set, and a request's listed copy comes before its others. -/
structure Newest (ops : List (PQOp Id K P)) (log : List (PQOp Id K P × PQOut Id K P))
    (q : PriorityQueue H) : Prop extends Tidy q where
  uncancelled : q.cancelled = ∅
  get?_eq : ∀ i, q.pending.get? i = if i ∈ returnedIds log then none else latest log i
  dominates : ∀ {y}, y ∈ q.entries → y.requestId ∉ returnedIds log →
    ∃ x, q.pending.get? y.requestId = some x ∧ x.key ≤ y.key ∧
      x.enqueueTime = y.enqueueTime ∧ x.payload = y.payload
  enqueued : ∀ {y}, y ∈ q.entries → y.requestId ∈ enqueuedIds ops
  returned : ∀ i ∈ returnedIds log, i ∈ enqueuedIds ops

variable {q q' : PriorityQueue H} {item : PrioritizedItem Id K P} {op : PQOp Id K P}
variable {ops : List (PQOp Id K P)} {log : List (PQOp Id K P × PQOut Id K P)} {i : Id} {p now : K}

omit [Field K] in
theorem newest_init : (init H).Newest [] [] where
  toTidy := tidy_init
  uncancelled := rfl
  get?_eq := fun i => by simp [init, returnedIds, latest]
  dominates := fun h => by simp at h
  enqueued := fun h => by simp at h
  returned := fun i h => by simp [returnedIds] at h

omit [Field K] in
/-- A listed id has not been returned. -/
theorem Newest.not_returned (h : q.Newest ops log) (hget : q.pending.get? i = some item) :
    i ∉ returnedIds log := by
  intro hi
  rw [h.get?_eq, if_pos hi] at hget
  cases hget

/-- **A first return is the newest copy**, and comes before the newest copies
of all others. -/
theorem Newest.first_return (h : q.Newest ops log) (hret : (q.dequeue now).2 = some item)
    (hfirst : item.requestId ∉ returnedIds log) :
    latest log item.requestId = some item ∧
      ∀ j x, latest log j = some x → j ∉ returnedIds log → item.key ≤ x.key := by
  rcases dequeue_of_empty h.uncancelled now with ⟨-, heq⟩ | ⟨q', item', heq, hent, -, -, hmin⟩
  · rw [heq] at hret
    cases hret
  · rw [heq] at hret
    obtain rfl := Option.some.inj hret
    have hlisted : ∀ j x, latest log j = some x → j ∉ returnedIds log → item'.key ≤ x.key := by
      intro j x hx hj
      exact hmin x (h.mem_entries (by rw [h.get?_eq, if_neg hj, hx]))
    refine ⟨?_, hlisted⟩
    obtain ⟨x, hget, hle, htime, hpayload⟩ :=
      h.dominates (hent ▸ Multiset.mem_cons_self item' _) hfirst
    have hlatest : latest log item'.requestId = some x := by
      rw [← hget, h.get?_eq, if_neg hfirst]
    -- the listed copy comes neither after the one returned nor before it
    have hkey : x.key = item'.key := le_antisymm hle (hlisted _ x hlatest hfirst)
    have hpriority : x.priority = item'.priority := congrArg (fun k => (ofLex k).1) hkey
    have hx : x = item' := by
      rcases x with ⟨xp, xt, xi, xx⟩
      rcases item' with ⟨yp, yt, yi, yx⟩
      simp only at hpriority htime hpayload
      have hid : xi = yi := h.requestId_eq hget
      rw [hpriority, htime, hid, hpayload]
    rw [hlatest, hx]

/-! ## What the steps keep -/

variable {ops' : List (PQOp Id K P)} {log' : List (PQOp Id K P × PQOut Id K P)}

omit [Field K] in
/-- Nothing happens. -/
theorem Newest.still (h : q.Newest ops log) (henq : enqueuedIds ops' = enqueuedIds ops)
    (hret : returnedIds log' = returnedIds log) (hlatest : latest log' = latest log) :
    q.Newest ops' log' where
  toTidy := h.toTidy
  uncancelled := h.uncancelled
  get?_eq := by rw [hret, hlatest]; exact h.get?_eq
  dominates := by rw [hret]; exact h.dominates
  enqueued := by rw [henq]; exact h.enqueued
  returned := by rw [hret, henq]; exact h.returned

omit [Field K] in
/-- A copy comes in that is before the other copies of its id. -/
theorem Newest.push (h : q.Newest ops log) (hent : q'.entries = item ::ₘ q.entries)
    (hpend : q'.pending = q.pending.set item.requestId item) (hcan : q'.cancelled = ∅)
    (hret : returnedIds log' = returnedIds log)
    (hlatest : latest log' = Function.update (latest log) item.requestId (some item))
    (hnew : item.requestId ∉ returnedIds log)
    (hfirst : ∀ y ∈ q.entries, y.requestId = item.requestId →
      item.key ≤ y.key ∧ item.enqueueTime = y.enqueueTime ∧ item.payload = y.payload)
    (henq : ∀ i ∈ enqueuedIds ops, i ∈ enqueuedIds ops')
    (hmem : item.requestId ∈ enqueuedIds ops') : q'.Newest ops' log' where
  toTidy := h.toTidy.push rfl hent hpend (by rw [hcan]; exact Finset.empty_subset _)
  uncancelled := hcan
  get?_eq := fun i => by
    rw [hpend, hret, hlatest]
    by_cases hi : i = item.requestId
    · subst hi
      rw [Dict.get?_set_self, if_neg hnew, Function.update_self]
    · rw [Dict.get?_set_of_ne hi, Function.update_of_ne hi]
      exact h.get?_eq i
  dominates := fun {y} hy hy' => by
    rw [hret] at hy'
    rw [hent, Multiset.mem_cons] at hy
    rw [hpend]
    by_cases hi : y.requestId = item.requestId
    · rw [hi, Dict.get?_set_self]
      rcases hy with rfl | hy
      · exact ⟨y, rfl, le_rfl, rfl, rfl⟩
      · exact ⟨item, rfl, hfirst y hy hi⟩
    · rw [Dict.get?_set_of_ne hi]
      exact h.dominates (hy.resolve_left fun heq => hi (heq ▸ rfl)) hy'
  enqueued := fun {y} hy => by
    rw [hent, Multiset.mem_cons] at hy
    rcases hy with rfl | hy
    · exact hmem
    · exact henq _ (h.enqueued hy)
  returned := fun i hi => by
    rw [hret] at hi
    exact henq i (h.returned i hi)

omit [Field K] in
/-- A copy is returned, and its id is not listed any more. -/
theorem Newest.pop (h : q.Newest ops log) (hent : q.entries = item ::ₘ q'.entries)
    (hpend : q'.pending = q.pending.erase item.requestId) (hcan : q'.cancelled = ∅)
    (henq : enqueuedIds ops' = enqueuedIds ops)
    (hret : returnedIds log' = returnedIds log ++ [item.requestId])
    (hlatest : latest log' = latest log) : q'.Newest ops' log' where
  toTidy := h.toTidy.pop hent hpend fun j hj => absurd (hcan ▸ hj) (Finset.notMem_empty j)
  uncancelled := hcan
  get?_eq := fun i => by
    rw [hpend, hret, hlatest]
    by_cases hi : i = item.requestId
    · subst hi
      rw [Dict.get?_erase_self, if_pos (by simp)]
    · rw [Dict.get?_erase_of_ne hi, h.get?_eq]
      simp [hi]
  dominates := fun {y} hy hy' => by
    rw [hret, List.mem_append, List.mem_singleton, not_or] at hy'
    rw [hpend, Dict.get?_erase_of_ne hy'.2]
    exact h.dominates (hent ▸ Multiset.mem_cons_of_mem hy) hy'.1
  enqueued := fun {y} hy => by
    rw [henq]
    exact h.enqueued (hent ▸ Multiset.mem_cons_of_mem hy)
  returned := fun i hi => by
    rw [henq]
    rw [hret, List.mem_append, List.mem_singleton] at hi
    rcases hi with hi | rfl
    · exact h.returned i hi
    · exact h.enqueued (hent ▸ Multiset.mem_cons_self item _)

/-- **A step keeps the newest copies first.** -/
theorem Newest.step (h : q.Newest ops log) (hids : (enqueuedIds (ops ++ [op])).Nodup)
    (hG : q.Lowering op) :
    (q.step op).1.Newest (ops ++ [op]) (log ++ [(op, (q.step op).2)]) := by
  have henq : enqueuedIds (ops ++ [op]) = enqueuedIds ops ++ op.enqueuedId.toList := filterMap_snoc
  have hret : returnedIds (log ++ [(op, (q.step op).2)]) =
      returnedIds log ++ (q.step op).2.returnedId.toList := filterMap_snoc
  have hmono : ∀ i ∈ enqueuedIds ops, i ∈ enqueuedIds (ops ++ [op]) := by
    intro i hi
    rw [henq]
    exact List.mem_append_left _ hi
  cases op with
  | enqueue j priority payload now =>
    have hj : j ∉ enqueuedIds ops := (nodup_filterMap_snoc hids).2 j rfl
    refine h.push entries_enqueue rfl h.uncancelled (hret.trans (List.append_nil _)) latest_snoc
      (fun hr => hj (h.returned j hr)) ?_ hmono ?_
    · intro y hy (hid : y.requestId = j)
      exact absurd (hid ▸ h.enqueued hy) hj
    · rw [henq]
      exact List.mem_append_right _ (List.mem_singleton_self j)
  | dequeue now =>
    rcases dequeue_of_empty h.uncancelled now with ⟨-, heq⟩ | ⟨q', item, heq, hent, hcan, hpend, -⟩
    · have hstep : q.step (.dequeue now) = (q, .empty) := by
        rw [PriorityQueue.step, heq]
        rfl
      rw [hstep] at hret ⊢
      exact h.still (henq.trans (List.append_nil _)) (hret.trans (List.append_nil _)) latest_snoc
    · have hstep : q.step (.dequeue now) = (q', .returned item) := by
        rw [PriorityQueue.step, heq]
        rfl
      rw [hstep] at hret ⊢
      exact h.pop hent hpend hcan (henq.trans (List.append_nil _)) hret latest_snoc
  | cancel j =>
    have hstep : q.step (.cancel j) = (q, .cancelled false) := by
      rw [PriorityQueue.step, cancel_of_not_mem hG]
    rw [hstep] at hret ⊢
    exact h.still (henq.trans (List.append_nil _)) (hret.trans (List.append_nil _)) latest_snoc
  | updatePriority j newPriority =>
    rcases hget : q.pending.get? j with - | old
    · have hstep : q.step (.updatePriority j newPriority) = (q, .updated false) := by
        rw [PriorityQueue.step, updatePriority_of_none hget]
      rw [hstep] at hret ⊢
      exact h.still (henq.trans (List.append_nil _)) (hret.trans (List.append_nil _)) latest_snoc
    · have hout : (q.step (.updatePriority j newPriority)).2 = .updated true := by
        rw [PriorityQueue.step, updatePriority_eq_true hget]
      rw [hout] at hret ⊢
      have hid : old.requestId = j := h.requestId_eq hget
      have hnew : j ∉ returnedIds log := h.not_returned hget
      have hold : latest log j = some old := by
        rw [← hget, h.get?_eq, if_neg hnew]
      refine h.push (entries_updatePriority hget) (pending_updatePriority hget) ?_
        (hret.trans (List.append_nil _)) ?_ hnew ?_ hmono ?_
      · rw [PriorityQueue.step, cancelled_updatePriority hget, h.uncancelled]
        rfl
      · rw [latest_snoc, latestStep, hold, Option.map_some, hid]
      · -- the copy that was the newest is before the others, and the new one before it
        intro y hy (hyid : y.requestId = j)
        obtain ⟨x, hx, hle, htime, hpayload⟩ := h.dominates hy (hyid ▸ hnew)
        rw [hyid, hget] at hx
        obtain rfl := Option.some.inj hx
        refine ⟨le_trans ?_ hle, htime, hpayload⟩
        exact Prod.Lex.toLex_le_toLex.mpr (Or.inl (hG old hget))
      · have hmem := h.enqueued (h.mem_entries hget)
        rw [hid] at hmem
        exact hmono j hmem

theorem newest_run (hids : (enqueuedIds ops).Nodup)
    (hG : (machine H).Along Lowering (init H) ops) :
    ((machine H).run (init H) ops).Newest ops ((machine H).log (init H) ops) := by
  refine Machine.log_inv (M := machine H) (s := init H)
    (H := fun ops => (enqueuedIds ops).Nodup ∧ (machine H).Along Lowering (init H) ops)
    (I := fun ops log q => q.Newest ops log) ?_ newest_init ?_ ⟨hids, hG⟩
  · rintro ops op ⟨hids, hG⟩
    exact ⟨(nodup_filterMap_snoc hids).1, (Machine.along_snoc.mp hG).1⟩
  · rintro ops op ⟨hids, hG⟩ h
    exact h.step hids (Machine.along_snoc.mp hG).2

/-- **Lowered priorities are honoured.** The first time an id is returned, the
item is the one its callers last set, and no id not yet returned has a
smaller priority and enqueue time. -/
theorem first_return_is_newest (hids : (enqueuedIds ops).Nodup)
    (hG : (machine H).Along Lowering (init H) ops)
    {before after : List (PQOp Id K P × PQOut Id K P)}
    (hlog : (machine H).log (init H) ops = before ++ (op, .returned item) :: after)
    (hfirst : item.requestId ∉ returnedIds before) :
    latest before item.requestId = some item ∧
      ∀ j x, latest before j = some x → j ∉ returnedIds before → item.key ≤ x.key := by
  obtain ⟨ops₁, ops₂, rfl, rfl, hout, -⟩ := Machine.log_eq_append_cons hlog
  rw [enqueuedIds, List.filterMap_append] at hids
  have hnewest : ((machine H).run (init H) ops₁).Newest ops₁ ((machine H).log (init H) ops₁) :=
    newest_run (List.nodup_append.mp hids).1 (Machine.along_append.mp hG).1
  cases op with
  | dequeue now =>
    have hret : (((machine H).run (init H) ops₁).dequeue now).2 = some item :=
      dequeueOut_eq_returned hout.symm
    exact hnewest.first_return hret hfirst
  | enqueue _ _ _ _ | cancel _ | updatePriority _ _ => cases hout

/-- Two requests; the later and longer one is lowered twice, and returned
three times. -/
def lowerTwice : List (PQOp String ℚ Unit) :=
  [.enqueue "a" 5 () 0, .enqueue "b" 9 () 1, .updatePriority "b" 7, .updatePriority "b" 3,
    .dequeue 2, .dequeue 3, .dequeue 4, .dequeue 5]

theorem lowerTwice_newest :
    ((machine (listHeap PrioritizedItem.key)).log (init _) lowerTwice).map Prod.snd =
        [.done, .done, .updated true, .updated true, .returned ⟨3, 1, "b", ()⟩,
          .returned ⟨5, 0, "a", ()⟩, .returned ⟨7, 1, "b", ()⟩, .returned ⟨9, 1, "b", ()⟩] ∧
      latest ((machine (listHeap PrioritizedItem.key)).log (init _) (lowerTwice.take 4)) "b" =
        some ⟨3, 1, "b", ()⟩ := by
  have hG : (machine (listHeap PrioritizedItem.key)).Along Lowering (init _) lowerTwice := by
    decide +kernel
  have hlog : (machine (listHeap PrioritizedItem.key)).log (init _) lowerTwice =
      (machine (listHeap PrioritizedItem.key)).log (init _) (lowerTwice.take 4) ++
        (.dequeue 2, .returned ⟨3, 1, "b", ()⟩) ::
          [(.dequeue 3, .returned ⟨5, 0, "a", ()⟩), (.dequeue 4, .returned ⟨7, 1, "b", ()⟩),
            (.dequeue 5, .returned ⟨9, 1, "b", ()⟩)] := by
    decide +kernel
  exact ⟨by decide +kernel,
    (first_return_is_newest (by decide +kernel) hG hlog (by decide +kernel)).1⟩

end PriorityQueue

end VllmScheduler
