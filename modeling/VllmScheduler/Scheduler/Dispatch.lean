import VllmScheduler.Scheduler.Steps
/-!
# At most one dispatch, and none after a cancel

`update_priority` pushes a second entry for a queued request and leaves the
first one in the heap without a tombstone, so an aged request can be handed
out twice, and a cancel, which puts up one tombstone, stops only one of the
two. This file shows that the re-push is the whole of the defect. The
account is per id: the entries of an id and its deliveries together never
exceed its submissions as long as no aging step re-pushes that id
(`copies_coreStep`), and then one tombstone is enough (`Dead`). The aging
of other requests, in any number and at any moment, does no harm.
-/

namespace VllmScheduler

variable {Id K : Type} [DecidableEq Id] [Field K] [LinearOrder K] {H : RequestHeap Id K}

namespace SJFScheduler

/-- The id whose queued entry a step is about to push again: the aging loop
handles a request that has not timed out, whose priority it lowers, and
that the queue still lists. -/
def repushed (M : MathFns K) (s : SJFScheduler H) : SJFOp Id K → Option Id
  | .age =>
    match s.tickRest with
    | [] => none
    | (i, request) :: _ =>
      if ¬ s.TimedOut request ∧ s.Lowers M i request ∧ i ∈ s.queue.pending then some i else none
  | _ => none

end SJFScheduler

namespace SJFCore

/-- The entries of an id, in the priority queue and in the fallback's. -/
def copies (c : SJFCore H) (i : Id) : ℕ :=
  c.queue.copies i + (c.fallbackQueue.map ScheduledRequest.requestId).count i

/-- An id that will not be handed out: whatever entry it has left is in the
priority queue, alone and under a tombstone. -/
def Dead (c : SJFCore H) (i : Id) : Prop :=
  ((i ∈ c.queue.cancelled ∧ c.queue.copies i ≤ 1) ∨ c.queue.copies i = 0) ∧
    i ∉ c.fallbackQueue.map ScheduledRequest.requestId

end SJFCore

section Steps

variable {M : MathFns K} {c c' : SJFCore H} {op : SJFOp Id K} {out : SJFOut Id K} {i : Id}

omit [DecidableEq Id] [Field K] [LinearOrder K] in
theorem acquiredId_acquireOut (o : Option (ScheduledRequest Id K)) :
    (SJFScheduler.acquireOut o).acquiredId = o.map ScheduledRequest.requestId := by
  cases o <;> rfl

/-- What `acquire` shows of a dequeue is the id of the entry. -/
theorem acquiredId_dequeue (hl : c.queue.Linked ScheduledRequest.requestId) (now : K) :
    (SJFScheduler.acquireOut ((c.queue.dequeue now).2.map PrioritizedItem.payload)).acquiredId =
      (c.queue.dequeue now).2.map PrioritizedItem.requestId := by
  rw [acquiredId_acquireOut]
  rcases c.queue.dequeue_cases now with ⟨q', -, -, heq⟩ | ⟨q', item, heap, hq', hpop, -, heq⟩
  · simp [heq]
  · have hlink : q'.Linked ScheduledRequest.requestId :=
      hq'.inv (I := fun r => r.Linked ScheduledRequest.requestId)
        (fun _ _ _ hp _ h => h.pop (PriorityQueue.entries_eq_of_purge hp) rfl) hl
    have hmem : item ∈ q'.entries := H.mem_of_pop hpop
    simp [heq, hlink.tag_eq hmem]

/-- The link between `_pending` and the heap survives every step. -/
theorem linked_coreStep (h : CoreStep M c op c' out)
    (hl : c.queue.Linked ScheduledRequest.requestId) :
    c'.queue.Linked ScheduledRequest.requestId := by
  cases h with
  | enqueue request prediction now _ =>
    exact hl.enqueue (ScheduledRequest.predicted_requestId request prediction)
  | dequeue _ now _ => exact hl.dequeue
  | cancel j => exact hl.cancel
  | expire j request rest _ _ => exact hl.cancel
  | lower j request rest _ _ _ => exact hl.updatePriority
  | _ => exact hl

/-- **The account of one step.** A delivery takes an entry, and only a
submission or a re-push of the id adds one. -/
theorem copies_coreStep (h : CoreStep M c op c' out)
    (hl : c.queue.Linked ScheduledRequest.requestId)
    (hre : ∀ request rest, op = .age → c.tickRest = (i, request) :: rest →
      ¬ c.TimedOut request → c.Lowers M i request → i ∉ c.queue.pending) :
    c'.copies i + hit i out.acquiredId ≤ c.copies i + hit i op.submittedId := by
  cases h with
  | enqueue request prediction now _ =>
    have := PriorityQueue.copies_enqueue c.queue now i request.requestId
      (request.predicted prediction).predictedTokens (request.predicted prediction)
    simp only [SJFCore.copies, SJFOut.acquiredId, SJFOp.submittedId, SJFOp.submission,
      Option.map_some, ScheduledRequest.predicted_requestId, this, hit]
    split
    · simp
      omega
    · simp
  | divert request prediction now _ _ =>
    simp only [SJFCore.copies, SJFOut.acquiredId, SJFOp.submittedId, SJFOp.submission,
      Option.map_some, ScheduledRequest.predicted_requestId, hit, List.map_append,
      List.map_cons, List.map_nil, List.count_append, List.count_singleton, Option.some.injEq,
      beq_iff_eq]
    split
    · simp
      omega
    · simp
  | dequeue _ now _ =>
    rw [acquiredId_dequeue hl]
    have := PriorityQueue.copies_dequeue c.queue now i
    simp only [SJFCore.copies]
    omega
  | popFallback now request rest _ hq =>
    simp only [SJFCore.copies, hq, SJFOut.acquiredId, hit, List.map_cons, List.count_cons,
      Option.some.injEq, beq_iff_eq]
    omega
  | emptyFallback now _ _ => simp [SJFOut.acquiredId, hit]
  | cancel j =>
    simp only [SJFCore.copies, PriorityQueue.copies_cancel, SJFOut.acquiredId, hit]
    simp
  | complete j success => simp [SJFCore.copies, SJFOut.acquiredId, hit]
  | tick now _ => simp [SJFCore.copies, SJFOut.acquiredId, hit]
  | expire j request rest _ _ =>
    simp only [SJFCore.copies, PriorityQueue.copies_cancel, SJFOut.acquiredId, hit]
    simp
  | lower j request rest hrest hto hlo =>
    have hsame : (c.queue.updatePriority j (c.newPriority M j request)).1.copies i =
        c.queue.copies i := by
      by_cases hij : i = j
      · -- the id itself: it is no longer listed, so nothing is pushed
        subst hij
        have hnone := Dict.get?_eq_none_iff.mpr (hre request rest rfl hrest hto hlo)
        rw [PriorityQueue.updatePriority_of_none hnone]
      · exact PriorityQueue.copies_updatePriority_of_ne hij
    simp [SJFCore.copies, hsame, SJFOut.acquiredId, hit]
  | keep j request rest _ _ _ => simp [SJFCore.copies, SJFOut.acquiredId, hit]
  | idle _ _ hsub _ hout =>
    rcases hout with rfl | rfl <;> simp [SJFOut.acquiredId, hit]

/-- **The dead stay dead.** No step hands a dead id out, unless it is
submitted or re-pushed first. -/
theorem dead_coreStep (h : CoreStep M c op c' out)
    (hl : c.queue.Linked ScheduledRequest.requestId)
    (hre : ∀ request rest, op = .age → c.tickRest = (i, request) :: rest →
      ¬ c.TimedOut request → c.Lowers M i request → i ∉ c.queue.pending)
    (hsub : op.submittedId ≠ some i) (hd : c.Dead i) :
    c'.Dead i ∧ out.acquiredId ≠ some i := by
  obtain ⟨hq, hf⟩ := hd
  cases h with
  | enqueue request prediction now _ =>
    have hne : request.requestId ≠ i := fun heq => hsub (heq ▸ submittedId_submit)
    have hcop := PriorityQueue.copies_enqueue c.queue now i request.requestId
      (request.predicted prediction).predictedTokens (request.predicted prediction)
    rw [hit, if_neg (by simpa using hne), Nat.add_zero] at hcop
    refine ⟨⟨?_, hf⟩, by simp [SJFOut.acquiredId]⟩
    rw [hcop]
    exact hq
  | divert request prediction now _ _ =>
    have hne : request.requestId ≠ i := fun heq => hsub (heq ▸ submittedId_submit)
    refine ⟨⟨hq, ?_⟩, by simp [SJFOut.acquiredId]⟩
    rw [List.map_append, List.mem_append, List.map_singleton, List.mem_singleton,
      ScheduledRequest.predicted_requestId]
    rintro (h | h)
    · exact hf h
    · exact hne h.symm
  | dequeue _ now _ =>
    rw [acquiredId_dequeue hl]
    obtain ⟨hq', hout⟩ := PriorityQueue.dequeue_of_tombstone now hq
    exact ⟨⟨hq'.imp And.symm id, hf⟩, hout⟩
  | popFallback now request rest _ hfq =>
    rw [hfq, List.map_cons, List.mem_cons, not_or] at hf
    exact ⟨⟨hq, hf.2⟩, by simpa [SJFOut.acquiredId] using Ne.symm hf.1⟩
  | emptyFallback now _ _ => exact ⟨⟨hq, hf⟩, by simp [SJFOut.acquiredId]⟩
  | cancel j =>
    refine ⟨⟨?_, hf⟩, by simp [SJFOut.acquiredId]⟩
    rw [PriorityQueue.copies_cancel]
    exact hq.imp (And.imp_left fun h => PriorityQueue.cancelled_subset_cancel h) id
  | complete j success => exact ⟨⟨hq, hf⟩, by simp [SJFOut.acquiredId]⟩
  | tick now _ => exact ⟨⟨hq, hf⟩, by simp [SJFOut.acquiredId]⟩
  | expire j request rest _ _ =>
    refine ⟨⟨?_, hf⟩, by simp [SJFOut.acquiredId]⟩
    rw [PriorityQueue.copies_cancel]
    exact hq.imp (And.imp_left fun h => PriorityQueue.cancelled_subset_cancel h) id
  | lower j request rest hrest hto hlo =>
    refine ⟨⟨?_, hf⟩, by simp [SJFOut.acquiredId]⟩
    rcases hget : c.queue.pending.get? j with - | old
    · rw [PriorityQueue.updatePriority_of_none hget]
      exact hq
    · -- the tombstone taken down is another id's
      have hij : i ≠ j := by
        rintro rfl
        have hno := hre request rest rfl hrest hto hlo
        rw [Dict.get?_eq_none_iff.mpr hno] at hget
        cases hget
      rw [PriorityQueue.copies_updatePriority_of_ne hij,
        PriorityQueue.cancelled_updatePriority hget]
      exact hq.imp (And.imp_left fun h => Finset.mem_erase.mpr ⟨hij, h⟩) id
  | keep j request rest _ _ _ => exact ⟨⟨hq, hf⟩, by simp [SJFOut.acquiredId]⟩
  | idle _ _ _ _ hout =>
    refine ⟨⟨hq, hf⟩, ?_⟩
    rcases hout with rfl | rfl <;> simp [SJFOut.acquiredId]

/-- **A cancel that answers `True` leaves the id dead**, where the id has no
second entry: the one it has is in the priority queue, now under a
tombstone. -/
theorem dead_of_cancelled (h : CoreStep M c op c' (.cancelled i true))
    (hl : c.queue.Linked ScheduledRequest.requestId) (hle : c.copies i ≤ 1) :
    c'.Dead i ∧ 1 ≤ c.copies i := by
  have hdead : (c.queue.cancel i).2 = true →
      (((i ∈ (c.queue.cancel i).1.cancelled ∧ (c.queue.cancel i).1.copies i ≤ 1) ∨
        (c.queue.cancel i).1.copies i = 0) ∧
        i ∉ c.fallbackQueue.map ScheduledRequest.requestId) ∧ 1 ≤ c.copies i := by
    intro hfound
    have hmem := PriorityQueue.cancel_eq_true_iff.mp hfound
    obtain ⟨item, hget⟩ := Dict.mem_iff_exists.mp hmem
    have hone := PriorityQueue.one_le_copies (hl.mem_entries hget) (hl.requestId_eq hget)
    rw [SJFCore.copies] at hle ⊢
    refine ⟨⟨Or.inl ⟨?_, ?_⟩, ?_⟩, by omega⟩
    · exact PriorityQueue.mem_cancelled_cancel.mpr (Or.inr ⟨rfl, hmem⟩)
    · rw [PriorityQueue.copies_cancel]
      omega
    · rw [← List.count_eq_zero]
      omega
  generalize hout : (SJFOut.cancelled i true : SJFOut Id K) = out at h
  cases h with
  | cancel j =>
    injection hout with hj hfound
    subst hj
    exact hdead hfound.symm
  | expire j request rest _ _ =>
    injection hout with hj hfound
    subst hj
    exact hdead hfound.symm
  | dequeue _ now _ =>
    cases hd : (c.queue.dequeue now).2 <;> simp [SJFScheduler.acquireOut, hd] at hout
  | idle _ _ _ _ h => rcases h with rfl | rfl <;> cases hout
  | _ => cases hout

end Steps

namespace SJFScheduler

variable {M : MathFns K} {s : SJFScheduler H} {i : Id}

/-- A step that does not re-push an id meets the branch condition of the
two step lemmas. -/
theorem not_mem_pending_of_repushed {op : SJFOp Id K} (h : s.repushed M op ≠ some i)
    (request : ScheduledRequest Id K) (rest : List (Id × ScheduledRequest Id K))
    (hop : op = .age) (hrest : s.core.tickRest = (i, request) :: rest)
    (hto : ¬ s.core.TimedOut request) (hlo : s.core.Lowers M i request) :
    i ∉ s.core.queue.pending := by
  subst hop
  intro hmem
  have hrest' : s.tickRest = (i, request) :: rest := hrest
  apply h
  rw [repushed, hrest']
  exact if_pos ⟨hto, hlo, hmem⟩

variable {ops : List (SJFOp Id K)} {config : AgingConfig K} {fallbackToFcfs : Bool} {timeout : K}

theorem linked_run (M : MathFns K) (config : AgingConfig K) (fallbackToFcfs : Bool) (timeout : K)
    (ops : List (SJFOp Id K)) :
    ((machine M H).run (init H config fallbackToFcfs timeout) ops).core.queue.Linked
      ScheduledRequest.requestId :=
  Machine.run_inv_of_step
    (I := fun s : SJFScheduler H => s.core.queue.Linked ScheduledRequest.requestId)
    (fun _ op hl => linked_coreStep (coreStep_step op) hl) PriorityQueue.linked_init

@[simp] theorem copies_core_init : (init H config fallbackToFcfs timeout).core.copies i = 0 := by
  cases fallbackToFcfs <;> simp [SJFCore.copies, core, init, FCFSScheduler.init]

/-- **The account of a run.** While no step re-pushes an id, its deliveries
and its entries together do not exceed its submissions. -/
theorem count_acquired_add_copies_le
    (hG : (machine M H).Along (fun s op => s.repushed M op ≠ some i)
      (init H config fallbackToFcfs timeout) ops) :
    (acquiredIds ((machine M H).log (init H config fallbackToFcfs timeout) ops)).count i +
        ((machine M H).run (init H config fallbackToFcfs timeout) ops).core.copies i ≤
      (submittedIds ops).count i := by
  refine Machine.log_inv (M := machine M H) (s := init H config fallbackToFcfs timeout)
    (H := (machine M H).Along (fun s op => s.repushed M op ≠ some i)
      (init H config fallbackToFcfs timeout))
    (I := fun ops log s =>
      (acquiredIds log).count i + s.core.copies i ≤ (submittedIds ops).count i)
    (fun _ _ h => (Machine.along_snoc.mp h).1) (by simp [acquiredIds]) ?_ hG
  intro ops op hG ih
  set s := (machine M H).run (init H config fallbackToFcfs timeout) ops
  have hstep : s.repushed M op ≠ some i := (Machine.along_snoc.mp hG).2
  have hacc := copies_coreStep (i := i) (coreStep_step (M := M) (s := s) op)
    (linked_run M config fallbackToFcfs timeout ops)
    (not_mem_pending_of_repushed hstep)
  rw [acquiredIds, submittedIds, count_filterMap_snoc, count_filterMap_snoc]
  rw [acquiredIds, submittedIds] at ih
  change _ + hit i (s.step M op).2.acquiredId + (s.step M op).1.core.copies i ≤ _
  omega

/-! ## At most one dispatch -/

/-- **An id is handed out at most once** in every run in which no aging
step re-pushes that id, whatever happens to the others. -/
theorem count_acquired_le_one (hids : DistinctIds ops)
    (hG : (machine M H).Along (fun s op => s.repushed M op ≠ some i)
      (init H config fallbackToFcfs timeout) ops) :
    (acquiredIds ((machine M H).log (init H config fallbackToFcfs timeout) ops)).count i ≤ 1 := by
  have hacc := count_acquired_add_copies_le hG
  have hsub : (submittedIds ops).count i ≤ 1 := List.nodup_iff_count_le_one.mp hids i
  omega

/-- A request waits a hundred seconds and is aged once; two acquires
follow. -/
def agedRun : List (SJFOp String ℚ) :=
  [chatSubmit "x" 0 100, .tick 100, .age, .acquire 101, .acquire 102]

/-- **Aging hands a request out twice**: both acquires return it. -/
theorem agedRun_acquires_twice :
    DistinctIds agedRun ∧ PredictorNeverFails agedRun ∧
      acquiredIds (defaultLog agedRun) = ["x", "x"] ∧
      ¬ (acquiredIds (defaultLog agedRun)).Nodup := by
  decide +kernel

/-- The same run with a second request, too young to be aged. -/
def mixedRun : List (SJFOp String ℚ) :=
  [chatSubmit "x" 0 100, chatSubmit "y" 95 50, .tick 100, .age, .age, .acquire 101,
    .acquire 102, .acquire 103]

/-- The young request is handed out once, though the old one is twice. -/
theorem mixedRun_count_le_one :
    (acquiredIds (defaultLog mixedRun)).count "x" = 2 ∧
      (acquiredIds (defaultLog mixedRun)).count "y" ≤ 1 :=
  ⟨by decide +kernel, count_acquired_le_one (by decide +kernel) (by decide +kernel)⟩

/-! ## No dispatch after a cancel -/

/-- A run that starts with a dead id and neither submits nor re-pushes it
does not hand it out. -/
theorem not_mem_acquired_of_dead (hl : s.core.queue.Linked ScheduledRequest.requestId)
    (hd : s.core.Dead i) (hsub : i ∉ submittedIds ops)
    (hG : (machine M H).Along (fun s op => s.repushed M op ≠ some i) s ops) :
    i ∉ acquiredIds ((machine M H).log s ops) := by
  induction ops generalizing s with
  | nil => simp [acquiredIds]
  | cons op ops ih =>
    have hop : op.submittedId ≠ some i := fun h => hsub (by simp [submittedIds, h])
    have hops : i ∉ submittedIds ops := fun h => hsub (by
      rw [submittedIds] at h ⊢
      rw [List.filterMap_cons]
      split
      · exact h
      · exact List.mem_cons_of_mem _ h)
    obtain ⟨hd', hout⟩ := dead_coreStep (coreStep_step (M := M) op) hl
      (not_mem_pending_of_repushed hG.1) hop hd
    have hrest := ih (linked_coreStep (coreStep_step (M := M) op) hl) hd' hops hG.2
    rw [Machine.log_cons, acquiredIds, List.filterMap_cons]
    split
    · exact hrest
    · rename_i j hj
      rw [List.mem_cons, not_or]
      refine ⟨fun hij => hout ?_, hrest⟩
      rw [hij]
      exact hj

/-- **A cancel is final.** In every run in which no aging step re-pushes an
id, once a `cancel` of the id, a client's or the aging loop's, has returned
`True`, no later `acquire` returns it. -/
theorem not_mem_acquired_of_cancelled (hids : DistinctIds ops)
    (hG : (machine M H).Along (fun s op => s.repushed M op ≠ some i)
      (init H config fallbackToFcfs timeout) ops)
    {before after : List (SJFOp Id K × SJFOut Id K)} {op : SJFOp Id K}
    (hlog : (machine M H).log (init H config fallbackToFcfs timeout) ops =
      before ++ (op, .cancelled i true) :: after) :
    i ∉ acquiredIds after := by
  obtain ⟨ops₁, ops₂, rfl, rfl, hout, rfl⟩ := Machine.log_eq_append_cons hlog
  obtain ⟨hG₁, hG₂⟩ := Machine.along_append.mp hG
  rw [DistinctIds, submittedIds, List.filterMap_append, List.nodup_append] at hids
  have hacc := count_acquired_add_copies_le hG₁
  have hcount : (submittedIds ops₁).count i ≤ 1 := List.nodup_iff_count_le_one.mp hids.1 i
  have hlink := linked_run (H := H) M config fallbackToFcfs timeout ops₁
  have hstep := coreStep_step (M := M)
    (s := (machine M H).run (init H config fallbackToFcfs timeout) ops₁) op
  obtain ⟨hdead, hone⟩ := dead_of_cancelled (hout ▸ hstep) hlink (by omega)
  -- the id has been submitted already, so it is not submitted again
  have hsub₁ : i ∈ submittedIds ops₁ := List.count_pos_iff.mp (by omega)
  have hsub₂ : i ∉ submittedIds ops₂ := by
    intro h
    refine hids.2.2 i hsub₁ i ?_ rfl
    rw [List.filterMap_cons]
    split
    · exact h
    · exact List.mem_cons_of_mem _ h
  exact not_mem_acquired_of_dead (linked_coreStep hstep hlink) hdead hsub₂ hG₂.2

/-- A request is aged once, then cancelled; one acquire follows. -/
def agedCancelRun : List (SJFOp String ℚ) :=
  [chatSubmit "x" 0 100, .tick 100, .age, .cancel "x", .acquire 101]

/-- **A cancel after aging is not final**: it answers `True`, and the next
acquire, having purged the aged entry, returns the old one. -/
theorem agedCancelRun_acquires :
    DistinctIds agedCancelRun ∧ ∃ before after,
      defaultLog agedCancelRun = before ++ (.cancel "x", .cancelled "x" true) :: after ∧
        "x" ∈ acquiredIds after :=
  ⟨by decide +kernel, (defaultLog agedCancelRun).take 3, (defaultLog agedCancelRun).drop 4,
    by decide +kernel, by decide +kernel⟩

/-- The two requests of `mixedRun`, the young one cancelled after the
tick. -/
def mixedCancelRun : List (SJFOp String ℚ) :=
  [chatSubmit "x" 0 100, chatSubmit "y" 95 50, .tick 100, .age, .age, .cancel "y",
    .acquire 101, .acquire 102]

/-- The young request stays cancelled while the old one is handed out
twice. -/
theorem mixedCancelRun_not_acquired :
    acquiredIds (defaultLog mixedCancelRun) = ["x", "x"] ∧
      "y" ∉ acquiredIds ((defaultLog mixedCancelRun).drop 6) := by
  have hlog : defaultLog mixedCancelRun = (defaultLog mixedCancelRun).take 5 ++
      (.cancel "y", .cancelled "y" true) :: (defaultLog mixedCancelRun).drop 6 := by
    decide +kernel
  have hG : (machine MathFns.firstOrder _).Along
      (fun s op => s.repushed MathFns.firstOrder op ≠ some "y") defaultScheduler
      mixedCancelRun := by
    decide +kernel
  exact ⟨by decide +kernel, not_mem_acquired_of_cancelled (by decide +kernel) hG hlog⟩

end SJFScheduler

end VllmScheduler
