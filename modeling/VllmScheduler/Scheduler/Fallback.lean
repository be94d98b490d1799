import VllmScheduler.Queue.Live
import VllmScheduler.Scheduler.Dispatch
/-!
# Requests left behind by the fallback

The scheduler keeps two queues and one flag. The flag, once a prediction
has failed, sends submissions, acquires and the depth to the FCFS queue and
never comes back, so what the priority queue holds at that moment can no
longer be reached. `StrandsNone` names the steps that do no such thing:
a prediction fails only when the priority queue holds no live entry, a
cancel does not address a request of the FCFS queue (it would stay there),
and no aging step re-pushes a queued request. Along such steps exactly one
of the two queues holds the waiting requests, and it is the one the flag
points to (`Serving`).
-/

namespace VllmScheduler

variable {Id K : Type} [DecidableEq Id] [Field K] [LinearOrder K] {H : RequestHeap Id K}

namespace SJFScheduler

/-- The step strands no request. -/
def StrandsNone (M : MathFns K) (s : SJFScheduler H) : SJFOp Id K → Prop
  | .submit request prediction _ =>
    PredictionFails request prediction → s.useFallback = false → s.queue.live = 0
  | .cancel i => i ∉ s.core.fallbackQueue.map ScheduledRequest.requestId
  | .age => s.repushed M .age = none
  | _ => True

instance (M : MathFns K) (s : SJFScheduler H) :
    ∀ op, Decidable (s.StrandsNone M op)
  | .submit request prediction _ =>
    inferInstanceAs (Decidable
      (PredictionFails request prediction → s.useFallback = false → s.queue.live = 0))
  | .cancel i =>
    inferInstanceAs (Decidable (i ∉ s.core.fallbackQueue.map ScheduledRequest.requestId))
  | .age => inferInstanceAs (Decidable (s.repushed M .age = none))
  | .acquire _ | .wake _ | .timeOut | .complete _ _ | .tick _ => isTrue trivial

end SJFScheduler

/-- **The waiting ids sit in the queue the flag points to**, each once; the
other queue holds none. -/
structure SJFCore.Serving (c : SJFCore H) (waiting : Finset Id) (submitted : List Id) : Prop where
  exact : c.queue.Exact ScheduledRequest.requestId
  hasFallback : c.hasFallback = true
  queued : c.queue.live.map PrioritizedItem.requestId +
    (c.fallbackQueue.map ScheduledRequest.requestId : List Id) = waiting.val
  flagDown : c.useFallback = false → c.fallbackQueue = []
  flagUp : c.useFallback = true → c.queue.live = 0
  /-- What the aging loop knows of is not in the fallback's queue. -/
  apart : ∀ r ∈ c.fallbackQueue,
    r.requestId ∉ c.pending ∧ r.requestId ∉ c.tickRest.map Prod.fst
  /-- An id not yet submitted is nowhere. -/
  fresh : ∀ i ∉ submitted, i ∉ c.queue.pending ∧ i ∉ c.pending ∧
    i ∉ c.tickRest.map Prod.fst ∧ i ∉ waiting

namespace SJFCore.Serving

variable {c : SJFCore H} {waiting : Finset Id} {submitted : List Id} {i : Id}

omit [Field K] in
theorem mem_waiting_of_fallback (h : c.Serving waiting submitted) {r : ScheduledRequest Id K}
    (hr : r ∈ c.fallbackQueue) : r.requestId ∈ waiting := by
  rw [← Finset.mem_val, ← h.queued, Multiset.mem_add, Multiset.mem_coe]
  exact Or.inr (List.mem_map_of_mem hr)

omit [Field K] in
theorem mem_waiting_of_live (h : c.Serving waiting submitted)
    {item : PrioritizedItem Id K (ScheduledRequest Id K)} (hi : item ∈ c.queue.live) :
    item.requestId ∈ waiting := by
  rw [← Finset.mem_val, ← h.queued, Multiset.mem_add]
  exact Or.inl (Multiset.mem_map_of_mem _ hi)

omit [Field K] in
/-- A submission to the priority queue. -/
theorem enqueue (h : c.Serving waiting submitted) (hi : i ∉ submitted)
    (hflag : c.useFallback = false) {now p : K} {x : ScheduledRequest Id K}
    (hx : x.requestId = i) {priority : Id → K} :
    SJFCore.Serving
      { c with
        useFallback := false
        priority := priority
        pending := c.pending.set i x
        queue := c.queue.enqueue now i p x } (insert i waiting) (submitted ++ [i]) := by
  obtain ⟨hq, -, -, hw⟩ := h.fresh i hi
  have hnil := h.flagDown hflag
  refine ⟨h.exact.enqueue hq hx, h.hasFallback, ?_, fun _ => hnil, by simp, ?_, ?_⟩
  · rw [Finset.insert_val_of_notMem hw, PriorityQueue.live_enqueue h.exact hq,
      Multiset.map_cons, Multiset.cons_add, h.queued]
  · simp [hnil]
  · intro j hj
    rw [List.mem_append, List.mem_singleton, not_or] at hj
    obtain ⟨h1, h2, h3, h4⟩ := h.fresh j hj.1
    simp [PriorityQueue.enqueue, hj.2, h1, h2, h3, h4]

omit [Field K] in
/-- A submission to the fallback. -/
theorem divert (h : c.Serving waiting submitted) (hi : i ∉ submitted)
    (hlive : c.queue.live = 0) {x : ScheduledRequest Id K} (hx : x.requestId = i)
    {priority : Id → K} :
    SJFCore.Serving
      { c with
        useFallback := true
        priority := priority
        fallbackQueue := c.fallbackQueue ++ [x] } (insert i waiting) (submitted ++ [i]) := by
  obtain ⟨-, hp, ht, hw⟩ := h.fresh i hi
  refine ⟨h.exact, h.hasFallback, ?_, by simp, fun _ => hlive, ?_, ?_⟩
  · have hqueued := h.queued
    rw [hlive, Multiset.map_zero, zero_add] at hqueued
    rw [Finset.insert_val_of_notMem hw, hlive, Multiset.map_zero, zero_add, ← hqueued,
      List.map_append, List.map_singleton, hx, ← Multiset.coe_add, Multiset.coe_singleton,
      add_comm, Multiset.singleton_add]
  · intro r hr
    rcases List.mem_append.mp hr with hr | hr
    · exact h.apart r hr
    · rw [List.mem_singleton] at hr
      rw [hr, hx]
      exact ⟨hp, ht⟩
  · intro j hj
    rw [List.mem_append, List.mem_singleton, not_or] at hj
    obtain ⟨h1, h2, h3, h4⟩ := h.fresh j hj.1
    exact ⟨h1, h2, h3, by simp [hj.2, h4]⟩

omit [Field K] in
/-- A delivery from the priority queue. -/
theorem dequeue (h : c.Serving waiting submitted) {q : PriorityQueue H}
    (hq : q.Exact ScheduledRequest.requestId) (hsub : ∀ j ∈ q.pending, j ∈ c.queue.pending)
    {item : PrioritizedItem Id K (ScheduledRequest Id K)}
    (hlive : c.queue.live = item ::ₘ q.live) :
    SJFCore.Serving { c with queue := q } (waiting.erase item.requestId) submitted := by
  have hup : c.useFallback = false := by
    by_contra hne
    have := h.flagUp (by simpa using hne)
    rw [this] at hlive
    exact Multiset.zero_ne_cons hlive
  refine ⟨hq, h.hasFallback, ?_, h.flagDown, by simp [hup], h.apart, ?_⟩
  · rw [Finset.erase_val, ← h.queued, hlive, Multiset.map_cons, Multiset.cons_add,
      Multiset.erase_cons_head]
  · intro j hj
    obtain ⟨h1, h2, h3, h4⟩ := h.fresh j hj
    exact ⟨fun hm => h1 (hsub j hm), h2, h3, fun hm => h4 (Finset.mem_of_mem_erase hm)⟩

omit [Field K] in
/-- A delivery from the fallback. -/
theorem popFallback (h : c.Serving waiting submitted) (hup : c.useFallback = true)
    {request : ScheduledRequest Id K} {rest : List (ScheduledRequest Id K)}
    (hq : c.fallbackQueue = request :: rest) :
    SJFCore.Serving { c with fallbackQueue := rest } (waiting.erase request.requestId)
      submitted := by
  have hqueued := h.queued
  have hzero := h.flagUp hup
  refine ⟨h.exact, h.hasFallback, ?_, fun hdown => ?_, h.flagUp, ?_, ?_⟩
  · rw [hzero, hq, Multiset.map_zero, zero_add, List.map_cons, ← Multiset.cons_coe] at hqueued
    rw [hzero, Multiset.map_zero, zero_add, Finset.erase_val, ← hqueued,
      Multiset.erase_cons_head]
  · rw [hup] at hdown
    cases hdown
  · intro r hr
    exact h.apart r (hq ▸ List.mem_cons_of_mem _ hr)
  · intro j hj
    obtain ⟨h1, h2, h3, h4⟩ := h.fresh j hj
    exact ⟨h1, h2, h3, fun hm => h4 (Finset.mem_of_mem_erase hm)⟩

omit [Field K] in
/-- A cancel of an id the fallback's queue does not hold. -/
theorem cancel (h : c.Serving waiting submitted)
    (hi : i ∉ c.fallbackQueue.map ScheduledRequest.requestId)
    {rest : List (Id × ScheduledRequest Id K)} (hrest : rest ⊆ c.tickRest) :
    SJFCore.Serving
      { c with
        tickRest := rest
        queue := (c.queue.cancel i).1
        pending := c.pending.erase i } (waiting.erase i) submitted := by
  refine ⟨h.exact.cancel, h.hasFallback, ?_, h.flagDown, ?_, ?_, ?_⟩
  · rw [Finset.erase_val, waiting.nodup.erase_eq_filter, ← h.queued, Multiset.filter_add,
      PriorityQueue.live_cancel h.exact, Multiset.filter_map]
    congr 1
    refine (Multiset.filter_eq_self.mpr ?_).symm
    rintro j hj rfl
    exact hi hj
  · intro hup
    rw [PriorityQueue.live_cancel h.exact, h.flagUp hup, Multiset.filter_zero]
  · intro r hr
    obtain ⟨h1, h2⟩ := h.apart r hr
    exact ⟨fun hm => h1 (Dict.mem_erase.mp hm).2, fun hm => h2 (List.map_subset _ hrest hm)⟩
  · intro j hj
    obtain ⟨h1, h2, h3, h4⟩ := h.fresh j hj
    refine ⟨?_, fun hm => h2 (Dict.mem_erase.mp hm).2,
      fun hm => h3 (List.map_subset _ hrest hm), fun hm => h4 (Finset.mem_of_mem_erase hm)⟩
    rwa [PriorityQueue.pending_cancel]

omit [Field K] in
/-- A change to the priority queue that its live entries do not show, and a
step of the aging loop along its snapshot. -/
theorem quiet (h : c.Serving waiting submitted) {q : PriorityQueue H}
    (hq : q.Exact ScheduledRequest.requestId) (hsub : ∀ j ∈ q.pending, j ∈ c.queue.pending)
    (hlive : q.live = c.queue.live) {priority : Id → K} {tickNow : K}
    {pending : Dict Id (ScheduledRequest Id K)} (hpend : ∀ j ∈ pending, j ∈ c.pending)
    {rest : List (Id × ScheduledRequest Id K)}
    (hrest : ∀ j ∈ rest.map Prod.fst, j ∈ c.pending ∨ j ∈ c.tickRest.map Prod.fst) :
    SJFCore.Serving
      { c with
        queue := q
        priority := priority
        pending := pending
        tickNow := tickNow
        tickRest := rest } waiting submitted := by
  refine ⟨hq, h.hasFallback, hlive ▸ h.queued, h.flagDown, fun hup => hlive.trans (h.flagUp hup),
    ?_, ?_⟩
  · intro r hr
    obtain ⟨h1, h2⟩ := h.apart r hr
    exact ⟨fun hm => h1 (hpend _ hm), fun hm => (hrest _ hm).elim h1 h2⟩
  · intro j hj
    obtain ⟨h1, h2, h3, h4⟩ := h.fresh j hj
    exact ⟨fun hm => h1 (hsub j hm), fun hm => h2 (hpend j hm),
      fun hm => (hrest j hm).elim h2 h3, h4⟩

end SJFCore.Serving

section Steps

variable {M : MathFns K} {c c' : SJFCore H} {op : SJFOp Id K} {out : SJFOut Id K}
variable {waiting : Finset Id} {submitted : List Id}

/-- What an `acquire` on the priority queue does to the waiting ids. -/
theorem serving_dequeue (h : c.Serving waiting submitted) (now : K)
    (hop : (op = .acquire now ∧ ¬ c.Active) ∨ op = .wake now) :
    SJFCore.Serving { c with queue := (c.queue.dequeue now).1 }
      (waitingStep waiting (op, SJFScheduler.acquireOut
        ((c.queue.dequeue now).2.map PrioritizedItem.payload))) submitted := by
  have hsub : ∀ j ∈ (c.queue.dequeue now).1.pending, j ∈ c.queue.pending :=
    fun j hj => (PriorityQueue.mem_pending_of_dequeue hj).1
  rcases PriorityQueue.dequeue_live h.exact now with
    ⟨q, heq, hex, hzero, hzero'⟩ | ⟨q, item, heq, hex, hlive, -⟩
  · rw [heq] at hsub ⊢
    have hw : waitingStep waiting (op, SJFOut.empty) = waiting := by
      rcases hop with ⟨rfl, -⟩ | rfl <;> rfl
    rw [show SJFScheduler.acquireOut (Option.map PrioritizedItem.payload
      (q, (none : Option (PrioritizedItem Id K (ScheduledRequest Id K)))).2) = SJFOut.empty
      from rfl, hw]
    exact h.quiet hex hsub (hzero'.trans hzero.symm) (fun _ => id) (fun _ => Or.inr)
  · rw [heq] at hsub ⊢
    have hmem : item ∈ c.queue.entries := by
      have : item ∈ c.queue.live := hlive ▸ Multiset.mem_cons_self item _
      exact (Multiset.mem_filter.mp this).1
    have hw : waitingStep waiting (op, SJFOut.acquired item.payload) =
        waiting.erase item.requestId := by
      rw [← h.exact.tag_eq hmem]
      rcases hop with ⟨rfl, -⟩ | rfl <;> rfl
    rw [show SJFScheduler.acquireOut (Option.map PrioritizedItem.payload (q, some item).2) =
      SJFOut.acquired item.payload from rfl, hw]
    exact h.dequeue hex hsub hlive

/-- **One step keeps every waiting id reachable.** -/
theorem serving_coreStep (h : CoreStep M c op c' out) (hs : c.Serving waiting submitted)
    (hnew : ∀ i, op.submittedId = some i → i ∉ submitted)
    (hfail : ∀ request prediction now, op = .submit request prediction now →
      PredictionFails request prediction → c.useFallback = false → c.queue.live = 0)
    (hcancel : ∀ i, op = .cancel i → i ∉ c.fallbackQueue.map ScheduledRequest.requestId)
    (hre : ∀ i request rest, op = .age → c.tickRest = (i, request) :: rest →
      ¬ c.TimedOut request → c.Lowers M i request → i ∉ c.queue.pending) :
    c'.Serving (waitingStep waiting (op, out)) (submitted ++ op.submittedId.toList) := by
  have hkeep : op.submittedId = none → submitted ++ op.submittedId.toList = submitted :=
    append_toList_of_none
  cases h with
  | enqueue request prediction now hact =>
    have hflag : c.flagAfter request prediction = false := by
      by_contra hne
      exact hact ⟨by simpa using hne, hs.hasFallback⟩
    have hdown : c.useFallback = false := by
      rw [SJFCore.flagAfter, Bool.or_eq_false_iff] at hflag
      exact hflag.1
    rw [submittedId_submit, hflag]
    exact hs.enqueue (hnew _ submittedId_submit) hdown (ScheduledRequest.predicted_requestId _ _)
  | divert request prediction now hflag hhas =>
    -- the flag was up already, or this prediction fails on a drained queue
    have hlive : c.queue.live = 0 := by
      by_cases hup : c.useFallback = true
      · exact hs.flagUp hup
      · have hdown : c.useFallback = false := by simpa using hup
        have hf : PredictionFails request prediction := by
          simpa [SJFCore.flagAfter, hdown, hhas] using hflag
        exact hfail request prediction now rfl hf hdown
    rw [submittedId_submit]
    exact hs.divert (hnew _ submittedId_submit) hlive (ScheduledRequest.predicted_requestId _ _)
  | dequeue _ now hop =>
    have hnone : op.submittedId = none := by
      rcases hop with ⟨rfl, -⟩ | rfl <;> rfl
    rw [hkeep hnone]
    exact serving_dequeue hs now hop
  | popFallback now request rest hact hq =>
    rw [hkeep rfl]
    exact hs.popFallback hact.1 hq
  | emptyFallback now _ _ => rwa [hkeep rfl]
  | cancel i =>
    rw [hkeep rfl]
    exact hs.cancel (hcancel i rfl) (List.Subset.refl _)
  | complete i success =>
    rw [hkeep rfl]
    exact hs.quiet hs.exact (fun _ => id) rfl (fun j hj => (Dict.mem_erase.mp hj).2)
      (fun _ => Or.inr)
  | tick now _ =>
    rw [hkeep rfl]
    exact hs.quiet hs.exact (fun _ => id) rfl (fun _ => id) (fun _ => Or.inl)
  | expire i request rest hrest _ =>
    rw [hkeep rfl]
    refine hs.cancel ?_ (hrest ▸ List.subset_cons_self _ _)
    -- the snapshot holds no request of the fallback's queue
    intro hmem
    obtain ⟨r, hr, rfl⟩ := List.mem_map.mp hmem
    exact (hs.apart r hr).2 (by simp [hrest])
  | lower i request rest hrest hto hlo =>
    rw [hkeep rfl]
    have hnone := Dict.get?_eq_none_iff.mpr (hre i request rest rfl hrest hto hlo)
    rw [PriorityQueue.updatePriority_of_none hnone]
    exact hs.quiet hs.exact (fun _ => id) rfl (fun _ => id)
      (fun j hj => Or.inr (by rw [hrest, List.map_cons]; exact List.mem_cons_of_mem _ hj))
  | keep i request rest hrest _ _ =>
    rw [hkeep rfl]
    exact hs.quiet hs.exact (fun _ => id) rfl (fun _ => id)
      (fun j hj => Or.inr (by rw [hrest, List.map_cons]; exact List.mem_cons_of_mem _ hj))
  | idle _ _ hsub hcomp hout =>
    rw [hkeep hsub]
    rwa [waitingStep_of_idle hsub hout]

end Steps

namespace SJFScheduler

variable {M : MathFns K} {s : SJFScheduler H} {ops : List (SJFOp Id K)}
variable {config : AgingConfig K} {timeout : K} {waiting : Finset Id} {submitted : List Id}

theorem serving_init : (init H config true timeout).core.Serving ∅ [] where
  exact := PriorityQueue.exact_init
  hasFallback := rfl
  queued := by
    rw [core, PriorityQueue.live]
    simp [init, FCFSScheduler.init]
  flagDown := fun _ => rfl
  flagUp := fun h => by cases h
  apart := fun r h => by cases h
  fresh := fun i _ => by simp [core, init, PriorityQueue.init]

/-- **Along steps that strand none, every waiting id stays reachable.** -/
theorem serving_run (hids : DistinctIds ops)
    (hG : (machine M H).Along (StrandsNone M) (init H config true timeout) ops) :
    ((machine M H).run (init H config true timeout) ops).core.Serving
      (VllmScheduler.waiting ((machine M H).log (init H config true timeout) ops))
      (submittedIds ops) := by
  refine Machine.log_inv (M := machine M H) (s := init H config true timeout)
    (H := fun ops => DistinctIds ops ∧
      (machine M H).Along (StrandsNone M) (init H config true timeout) ops)
    (I := fun ops log s => s.core.Serving (VllmScheduler.waiting log) (submittedIds ops))
    ?_ serving_init ?_ ⟨hids, hG⟩
  · exact fun _ _ h => ⟨h.1.of_snoc.1, (Machine.along_snoc.mp h.2).1⟩
  · rintro ops op ⟨hids, hG⟩ ih
    have hguard := (Machine.along_snoc.mp hG).2
    set s := (machine M H).run (init H config true timeout) ops
    rw [waiting_snoc, submittedIds_snoc]
    refine serving_coreStep (coreStep_step (M := M) (s := s) op) ih hids.of_snoc.2 ?_ ?_ ?_
    · rintro request prediction now rfl
      exact hguard
    · rintro i rfl
      exact hguard
    · rintro i request rest rfl
      refine not_mem_pending_of_repushed ?_ request rest rfl
      rw [show s.repushed M .age = none from hguard]
      simp

/-- Where the waiting ids are reachable, an acquire returns one of them. -/
theorem acquire_of_serving (h : s.core.Serving waiting submitted) (hw : waiting.Nonempty)
    (now : K) :
    (∃ request, (s.acquire now).2 = some request ∧ request.requestId ∈ waiting) ∧
      0 < s.queueDepth := by
  obtain ⟨i, hi⟩ := hw
  have hcard : i ∈ s.core.queue.live.map PrioritizedItem.requestId +
      (s.core.fallbackQueue.map ScheduledRequest.requestId : List Id) := by
    rw [h.queued]
    exact hi
  rw [acquire, queueDepth]
  rcases ha : s.activeFallback with - | f
  · -- the flag is down, so the id has a live entry
    have hdown : s.core.useFallback = false := by
      by_contra hne
      exact activeFallback_eq_none ha ⟨by simpa using hne, h.hasFallback⟩
    rw [h.flagDown hdown, List.map_nil, Multiset.coe_nil, add_zero] at hcard
    obtain ⟨y, hy, -⟩ := Multiset.mem_map.mp hcard
    refine ⟨?_, PriorityQueue.depth_pos_of_live hy⟩
    rcases PriorityQueue.dequeue_live h.exact now with
      ⟨q, -, -, hzero, -⟩ | ⟨q, item, heq, -, hlive, -⟩
    · rw [hzero] at hy
      exact absurd hy (Multiset.notMem_zero y)
    · have hmem : item ∈ s.core.queue.live := hlive ▸ Multiset.mem_cons_self item _
      refine ⟨item.payload, ?_, ?_⟩
      · rw [acquireQueue]
        exact congrArg (fun r => r.2.map PrioritizedItem.payload) heq
      · rw [h.exact.tag_eq (Multiset.mem_filter.mp hmem).1]
        exact h.mem_waiting_of_live hmem
  · -- the flag is up, so the id is in the fallback's queue
    obtain ⟨hact, hf⟩ := activeFallback_eq_some ha
    have hfq : s.core.fallbackQueue = f.queue := by simp [core, hf]
    rw [h.flagUp hact.1, Multiset.map_zero, zero_add, hfq, Multiset.mem_coe] at hcard
    rcases hq : f.queue with - | ⟨request, rest⟩
    · simp [hq] at hcard
    · refine ⟨⟨request, by simp [FCFSScheduler.acquire_eq_some hq], ?_⟩, ?_⟩
      · exact h.mem_waiting_of_fallback (by simp [hfq, hq])
      · simp [FCFSScheduler.queueDepth, hq]

/-- **No request is left behind** along steps that strand none: while some
request waits, an acquire returns a waiting one, and the depth is
positive. -/
theorem acquire_returns_waiting (hids : DistinctIds ops)
    (hG : (machine M H).Along (StrandsNone M) (init H config true timeout) ops)
    (hw : (VllmScheduler.waiting
      ((machine M H).log (init H config true timeout) ops)).Nonempty) (now : K) :
    (∃ request,
      (((machine M H).run (init H config true timeout) ops).acquire now).2 = some request ∧
      request.requestId ∈ VllmScheduler.waiting
        ((machine M H).log (init H config true timeout) ops)) ∧
      0 < ((machine M H).run (init H config true timeout) ops).queueDepth :=
  acquire_of_serving (serving_run hids hG) hw now

/-- A submission at which the predictor raises. -/
def failedSubmit (i : String) (created : ℚ) : SJFOp String ℚ :=
  .submit (chatRequest i created) none created

/-- A prediction fails while a request is queued, and one acquire
follows. -/
def strandingRun : List (SJFOp String ℚ) :=
  [chatSubmit "a" 0 100, failedSubmit "b" 1, .acquire 2]

/-- **A failing prediction strands the queued request**: it waits, the next
acquire finds nothing, and the depth reads zero. -/
theorem strandingRun_strands :
    DistinctIds strandingRun ∧ VllmScheduler.waiting (defaultLog strandingRun) = {"a"} ∧
      (((machine MathFns.firstOrder _).run defaultScheduler strandingRun).acquire 3).2 = none ∧
      ((machine MathFns.firstOrder _).run defaultScheduler strandingRun).queueDepth = 0 := by
  decide +kernel

/-- A prediction fails on a drained queue; requests of both kinds follow,
and one of them is cancelled before. -/
def drainedRun : List (SJFOp String ℚ) :=
  [chatSubmit "a" 0 100, chatSubmit "b" 1 50, .acquire 2, .cancel "a", failedSubmit "c" 3,
    chatSubmit "d" 4 10, .acquire 5]

theorem drainedRun_acquires :
    (∃ request, (((machine MathFns.firstOrder _).run
        (init (listHeap PrioritizedItem.key) (AgingConfig.default ℚ) true 300)
        drainedRun).acquire 6).2 = some request ∧
      request.requestId ∈ VllmScheduler.waiting (defaultLog drainedRun)) ∧
      0 < ((machine MathFns.firstOrder (listHeap PrioritizedItem.key)).run
        (init (listHeap PrioritizedItem.key) (AgingConfig.default ℚ) true 300)
        drainedRun).queueDepth :=
  acquire_returns_waiting (by decide +kernel) (by decide +kernel)
    (by decide +kernel) 6

end SJFScheduler

end VllmScheduler
