import Mathlib.Algebra.Field.Rat
import Mathlib.Algebra.Order.Ring.Cast
import Mathlib.Algebra.Order.Ring.Rat
import VllmScheduler.Common.LazyRank
import VllmScheduler.Queue.Lazy
import VllmScheduler.Scheduler.Oracle
/-!
# A predictor is as good as its ranking

`SJFScheduler` orders its queue by predicted lengths and
`OracleSJFScheduler` by `max_tokens`. A predictor that puts the requests in
the order of their `max_tokens`, however wrong its numbers are, makes the
first answer every call as the second does, while the aging loop finds
nothing to do. The two may sit on different heaps.

The proof gives the entries of the one queue the priorities of the other:
both are queues with lazy deletion, and these look at the order only.
-/

namespace VllmScheduler

/-! ## The same calls on the oracle -/

variable {Id K : Type} [DecidableEq Id] [Field K] [LinearOrder K]

/-- The call on the oracle that a step is; the aging loop and a call that
gives up have none. -/
def SJFOp.oracleOp : SJFOp Id K → Option (OracleOp Id K)
  | .submit request _ now => some (.submit request now)
  | .acquire now | .wake now => some (.acquire now)
  | .complete requestId success => some (.complete requestId success)
  | .cancel requestId => some (.cancel requestId)
  | .timeOut | .tick _ | .age => none

/-- What a client sees of an answer. -/
def SJFOut.answer : SJFOut Id K → Option (LazyAnswer Id)
  | .done => none
  | .acquired request => some (.dequeued (some request.requestId))
  | .empty => some (.dequeued none)
  | .cancelled _ found => some (.cancelled found)

/-- The answers to the calls of a run. -/
def answers (log : List (SJFOp Id K × SJFOut Id K)) : List (LazyAnswer Id) :=
  log.filterMap fun e => e.1.oracleOp.bind fun _ => e.2.answer

/-- The answers of the oracle. -/
def oracleAnswers (log : List (OracleOp Id K × SJFOut Id K)) : List (LazyAnswer Id) :=
  log.filterMap fun e => e.2.answer

/-- **The predictor ranks the requests by `max_tokens`**: it never fails, and
of two predictions the one for fewer tokens is the lower. Ids and times of
the submissions are distinct. -/
structure RanksByMaxTokens (ops : List (SJFOp Id K)) : Prop where
  ids : DistinctIds ops
  times : ((submissions ops).map Prod.snd).Nodup
  predictor : PredictorNeverFails ops
  order : ∀ e ∈ submissions ops, ∀ e' ∈ submissions ops,
    e.1.predictedTokens ≤ e'.1.predictedTokens ↔ e.1.maxTokens ≤ e'.1.maxTokens

/-- The aging loop finds nothing to do, and only parked calls resume. -/
def SJFScheduler.Calm (M : MathFns K) {H : RequestHeap Id K} (s : SJFScheduler H) :
    SJFOp Id K → Prop
  | .wake _ => s.parked ≠ 0
  | .age =>
    match s.tickRest with
    | [] => True
    | (i, request) :: _ => ¬ s.TimedOut request ∧ ¬ s.Lowers M i request
  | _ => True

instance (M : MathFns K) {H : RequestHeap Id K} (s : SJFScheduler H) :
    ∀ op : SJFOp Id K, Decidable (s.Calm M op)
  | .wake _ => inferInstanceAs (Decidable (s.parked ≠ 0))
  | .age =>
    match h : s.tickRest with
    | [] => isTrue (by rw [SJFScheduler.Calm, h]; trivial)
    | (i, request) :: _ =>
      decidable_of_iff (¬ s.TimedOut request ∧ ¬ s.Lowers M i request)
        (by rw [SJFScheduler.Calm, h])
  | .submit _ _ _ | .acquire _ | .timeOut | .complete _ _ | .cancel _ | .tick _ => isTrue trivial

/-! ## The two queues -/

/-- The oracle's key of an id, among the submissions. -/
def oracleRank (subs : List (ScheduledRequest Id K × K)) (i : Id) : K ×ₗ K :=
  match subs.find? fun e => e.1.requestId = i with
  | some e => toLex ((e.1.maxTokens : K), e.2)
  | none => toLex (0, 0)

omit [LinearOrder K] in
theorem oracleRank_of_mem {subs : List (ScheduledRequest Id K × K)}
    (hids : (subs.map fun e => e.1.requestId).Nodup) {e : ScheduledRequest Id K × K}
    (he : e ∈ subs) : oracleRank subs e.1.requestId = toLex ((e.1.maxTokens : K), e.2) := by
  have hfind : (subs.find? fun e' => e'.1.requestId = e.1.requestId) = some e := by
    induction subs with
    | nil => cases he
    | cons a subs ih =>
      rw [List.map_cons, List.nodup_cons] at hids
      rcases List.mem_cons.mp he with rfl | he
      · simp
      · have hne : a.1.requestId ≠ e.1.requestId := fun heq =>
          hids.1 (heq ▸ List.mem_map_of_mem (f := fun e => e.1.requestId) he)
        rw [List.find?_cons_of_neg (by simpa using hne)]
        exact ih hids.2 he
  rw [oracleRank, hfind]

/-- The entry a submission makes. -/
def submittedEntry (e : ScheduledRequest Id K × K) : (K ×ₗ K) × Id :=
  (toLex (e.1.predictedTokens, e.2), e.1.requestId)

variable {H H' : RequestHeap Id K}

/-- **How the two queues stand to each other** after the submissions
`subs`. -/
structure Mirrors (rank : Id → K ×ₗ K) (subs : List (ScheduledRequest Id K × K))
    (q : PriorityQueue H) (q' : PriorityQueue H') : Prop where
  queue : q'.keyed = q.keyed.rerank rank
  entries : q.keyed.entries ≤ (subs.map submittedEntry : Multiset ((K ×ₗ K) × Id))
  linked : q.Linked ScheduledRequest.requestId
  oracleLinked : q'.Linked ScheduledRequest.requestId

/-- The ranks of the submissions are the oracle's keys, and in the order of
the predictions. -/
structure RankedBy (rank : Id → K ×ₗ K) (subs : List (ScheduledRequest Id K × K)) : Prop where
  times : (subs.map Prod.snd).Nodup
  order : ∀ e ∈ subs, ∀ e' ∈ subs,
    e.1.predictedTokens ≤ e'.1.predictedTokens ↔ e.1.maxTokens ≤ e'.1.maxTokens
  rank_eq : ∀ e ∈ subs, rank e.1.requestId = toLex ((e.1.maxTokens : K), e.2)

section Queues

variable {rank : Id → K ×ₗ K} {subs : List (ScheduledRequest Id K × K)}
variable {q : PriorityQueue H} {q' : PriorityQueue H'} {now : K} {i : Id}

omit [Field K] in
theorem mirrors_init : Mirrors rank subs (PriorityQueue.init H) (PriorityQueue.init H') where
  queue := by simp [PriorityQueue.keyed, PriorityQueue.lazyBy_init, LazyQueue.init,
    LazyQueue.rerank, LazyQueue.rerankEntries]
  entries := by simp [PriorityQueue.keyed, PriorityQueue.lazyBy_init, LazyQueue.init]
  linked := PriorityQueue.linked_init
  oracleLinked := PriorityQueue.linked_init

omit [DecidableEq Id] in
theorem RankedBy.sublist {subs' : List (ScheduledRequest Id K × K)} (h : RankedBy rank subs)
    (hsub : subs'.Sublist subs) : RankedBy rank subs' where
  times := h.times.sublist (hsub.map _)
  order e he e' he' := h.order e (hsub.subset he) e' (hsub.subset he')
  rank_eq e he := h.rank_eq e (hsub.subset he)

omit [DecidableEq Id] in
/-- The keys of two submissions come in the order of their ranks. -/
theorem RankedBy.rank_le [IsStrictOrderedRing K] (h : RankedBy rank subs)
    {e e' : ScheduledRequest Id K × K} (he : e ∈ subs) (he' : e' ∈ subs)
    (hle : (submittedEntry e).1 ≤ (submittedEntry e').1) :
    rank e.1.requestId ≤ rank e'.1.requestId := by
  rw [h.rank_eq e he, h.rank_eq e' he', Prod.Lex.toLex_le_toLex]
  rcases Prod.Lex.toLex_le_toLex.mp hle with hlt | ⟨heq, ht⟩
  · refine Or.inl (Int.cast_lt.mpr ?_)
    rw [← not_le, ← h.order e' he' e he]
    exact not_le.mpr hlt
  · have hmax : e.1.maxTokens = e'.1.maxTokens :=
      le_antisymm ((h.order e he e' he').mp heq.le) ((h.order e' he' e he).mp heq.ge)
    exact Or.inr ⟨congrArg Int.cast hmax, ht⟩

omit [DecidableEq Id] in
/-- No two submissions have one rank. -/
theorem RankedBy.nodup_rank (h : RankedBy rank subs) :
    (subs.map fun e => rank e.1.requestId).Nodup := by
  have heq : (subs.map fun e => rank e.1.requestId) =
      subs.map fun e => toLex ((e.1.maxTokens : K), e.2) :=
    List.map_congr_left h.rank_eq
  rw [heq]
  refine List.Nodup.of_map (fun k => (ofLex k).2) ?_
  rw [List.map_map]
  exact h.times

namespace Mirrors

theorem ranks [IsStrictOrderedRing K] (h : Mirrors rank subs q q') (hr : RankedBy rank subs) :
    LazyQueue.Ranks rank q.keyed.entries := by
  intro x hx y hy hle
  obtain ⟨e, he, rfl⟩ := List.mem_map.mp (Multiset.mem_coe.mp (Multiset.mem_of_le h.entries hx))
  obtain ⟨e', he', rfl⟩ := List.mem_map.mp (Multiset.mem_coe.mp (Multiset.mem_of_le h.entries hy))
  exact hr.rank_le he he' hle

theorem nodup_ranks (h : Mirrors rank subs q q') (hr : RankedBy rank subs) :
    ((q.keyed.rerank rank).entries.map Prod.fst).Nodup := by
  have hmap : (q.keyed.rerank rank).entries.map Prod.fst =
      q.keyed.entries.map fun x => rank x.2 := Multiset.map_map _ _ _
  rw [hmap]
  refine Multiset.nodup_of_le (Multiset.map_le_map h.entries) ?_
  rw [Multiset.map_coe, Multiset.coe_nodup, List.map_map]
  exact hr.nodup_rank

/-- **A dequeue of the one is a dequeue of the other.** -/
theorem dequeue [IsStrictOrderedRing K] (h : Mirrors rank subs q q') (hr : RankedBy rank subs)
    (now : K) :
    (q.dequeue now).2.map PrioritizedItem.requestId =
        (q'.dequeue now).2.map PrioritizedItem.requestId ∧
      Mirrors rank subs (q.dequeue now).1 (q'.dequeue now).1 := by
  have hd' := q'.dequeues_keyed now
  rw [h.queue] at hd'
  have hd := q.dequeues_keyed now
  obtain ⟨hout, hqueue⟩ := hd.agree (h.ranks hr) (h.nodup_ranks hr) hd'
  exact ⟨hout, hqueue.symm, hd.le.trans h.entries, h.linked.dequeue, h.oracleLinked.dequeue⟩

omit [Field K] in
theorem cancel (h : Mirrors rank subs q q') :
    (q.cancel i).2 = (q'.cancel i).2 ∧ Mirrors rank subs (q.cancel i).1 (q'.cancel i).1 := by
  have hlisted : i ∈ q'.pending ↔ i ∈ q.pending :=
    Set.ext_iff.mp (congrArg LazyQueue.listed h.queue) i
  refine ⟨?_, ?_, ?_, h.linked.cancel, h.oracleLinked.cancel⟩
  · rw [Bool.eq_iff_iff, PriorityQueue.cancel_eq_true_iff, PriorityQueue.cancel_eq_true_iff,
      hlisted]
  · by_cases hi : i ∈ q.pending
    · rw [PriorityQueue.keyed_cancel_of_mem hi, PriorityQueue.keyed_cancel_of_mem (hlisted.mpr hi),
        h.queue, LazyQueue.rerank_mark]
    · rw [PriorityQueue.cancel_of_not_mem hi,
        PriorityQueue.cancel_of_not_mem (fun hi' => hi (hlisted.mp hi'))]
      exact h.queue
  · have hentries : (q.cancel i).1.keyed.entries = q.keyed.entries := by
      rw [PriorityQueue.keyed, PriorityQueue.lazyBy, PriorityQueue.heap_cancel]
      rfl
    rw [hentries]
    exact h.entries

/-- A submission reaches both. -/
theorem enqueue (h : Mirrors rank subs q q') {request : ScheduledRequest Id K}
    (hrank : rank request.requestId = toLex ((request.maxTokens : K), now)) :
    Mirrors rank (subs ++ [(request, now)])
      (q.enqueue now request.requestId request.predictedTokens request)
      (q'.enqueue now request.requestId (request.maxTokens : K) request.oracle) where
  queue := by
    rw [PriorityQueue.keyed_enqueue, PriorityQueue.keyed_enqueue, h.queue,
      LazyQueue.rerank_enqueue, hrank]
  entries := by
    rw [PriorityQueue.keyed_enqueue, List.map_append, ← Multiset.coe_add, add_comm]
    exact Multiset.cons_le_cons _ h.entries
  linked := h.linked.enqueue rfl
  oracleLinked := h.oracleLinked.enqueue rfl

end Mirrors

/-- What a dequeue hands out names its own id. -/
theorem requestId_payload_dequeue (hq : q.Linked ScheduledRequest.requestId) :
    ((q.dequeue now).2.map PrioritizedItem.payload).map ScheduledRequest.requestId =
      (q.dequeue now).2.map PrioritizedItem.requestId := by
  rcases hres : (q.dequeue now).2 with - | item
  · rfl
  · exact congrArg some (hq.tag_eq (PriorityQueue.key_le_of_dequeue hq hres).1)

end Queues

omit [DecidableEq Id] [Field K] [LinearOrder K] in
theorem answer_acquireOut {result : Option (ScheduledRequest Id K)} :
    (SJFScheduler.acquireOut result).answer =
      some (.dequeued (result.map ScheduledRequest.requestId)) := by
  cases result <;> rfl

/-! ## The two runs -/

section Runs

variable {M : MathFns K} {rank : Id → K ×ₗ K} {subs : List (ScheduledRequest Id K × K)}
variable {s : SJFScheduler H} {o : OracleSJFScheduler H'} {op : SJFOp Id K}

/-- Where the predictor answers, a submission goes to the priority queue. -/
theorem submit_of_answered (hflag : s.useFallback = false) {request : ScheduledRequest Id K}
    {prediction : Option (Prediction K)} (hok : ¬ PredictionFails request prediction) (now : K) :
    (s.submit request prediction now).useFallback = false ∧
      (s.submit request prediction now).queue =
        s.queue.enqueue now request.requestId (request.predicted prediction).predictedTokens
          (request.predicted prediction) := by
  have hafter : (s.afterPrediction request prediction).useFallback = false ∧
      (s.afterPrediction request prediction).queue = s.queue := by
    unfold SJFScheduler.afterPrediction
    split
    · rename_i hz
      rcases prediction with - | pred
      · exact absurd ⟨hz, rfl⟩ hok
      · exact ⟨hflag, rfl⟩
    · exact ⟨hflag, rfl⟩
  simp only [SJFScheduler.submit, SJFScheduler.activeFallback, hafter.1, hafter.2,
    ScheduledRequest.predicted_requestId, Bool.false_eq_true, if_false, and_self]

/-- A pass over the two queues, by a fresh call or by a parked one. -/
theorem Mirrors.pass [IsStrictOrderedRing K] {q : PriorityQueue H} {q' : PriorityQueue H'}
    (h : Mirrors rank subs q q') (hr : RankedBy rank subs) (now : K) :
    Mirrors rank subs (q.dequeue now).1 (q'.dequeue now).1 ∧
      (SJFScheduler.acquireOut ((q.dequeue now).2.map PrioritizedItem.payload)).answer =
        (SJFScheduler.acquireOut ((q'.dequeue now).2.map PrioritizedItem.payload)).answer := by
  obtain ⟨hout, hnext⟩ := h.dequeue hr now
  rw [answer_acquireOut, answer_acquireOut, requestId_payload_dequeue h.linked,
    requestId_payload_dequeue h.oracleLinked, hout]
  exact ⟨hnext, rfl⟩

/-- The moves of the aging loop and a call that gives up leave the queue
alone. -/
theorem queue_of_quiet (hflag : s.useFallback = false) (hcalm : s.Calm M op)
    (hop : op.oracleOp = none) :
    (s.step M op).1.useFallback = false ∧ (s.step M op).1.queue = s.queue := by
  cases op with
  | timeOut => exact ⟨hflag, rfl⟩
  | tick now =>
    rw [SJFScheduler.step]
    split <;> exact ⟨hflag, rfl⟩
  | age =>
    rcases hrest : s.tickRest with - | ⟨⟨i, request⟩, rest⟩
    · simp only [SJFScheduler.step, SJFScheduler.age, hrest]
      exact ⟨hflag, trivial⟩
    · simp only [SJFScheduler.Calm, hrest] at hcalm
      have htimed : ¬ ({ s with tickRest := rest } : SJFScheduler H).TimedOut request := hcalm.1
      have hlower : ¬ ({ s with tickRest := rest } : SJFScheduler H).Lowers M i request := hcalm.2
      simp only [SJFScheduler.step, SJFScheduler.age, hrest, if_neg htimed, if_neg hlower]
      exact ⟨hflag, trivial⟩
  | submit | acquire | wake | complete | cancel => cases hop

/-- **One step of the two.** -/
theorem mirrors_step [IsStrictOrderedRing K] (hflag : s.useFallback = false)
    (h : Mirrors rank subs s.queue o.queue) (hr : RankedBy rank (subs ++ op.submission.toList))
    (hok : ¬ op.Fails) (hcalm : s.Calm M op) {p : OracleOp Id K} (hp : op.oracleOp = some p) :
    (s.step M op).1.useFallback = false ∧
      Mirrors rank (subs ++ op.submission.toList) (s.step M op).1.queue (o.step p).1.queue ∧
      (s.step M op).2.answer = (o.step p).2.answer := by
  have hacquire : ∀ now, s.acquire now = s.acquireQueue now := by
    intro now
    rw [SJFScheduler.acquire, SJFScheduler.activeFallback, hflag]
    rfl
  have hbefore : RankedBy rank subs := hr.sublist (List.sublist_append_left _ _)
  cases op with
  | submit request prediction now =>
    obtain rfl : OracleOp.submit request now = p := Option.some.inj hp
    obtain ⟨hflag', hqueue⟩ := submit_of_answered hflag hok now
    have hmem : (request.predicted prediction, now) ∈
        subs ++ (SJFOp.submit request prediction now).submission.toList := by
      simp [SJFOp.submission]
    have hsame : (request.predicted prediction).maxTokens = request.maxTokens ∧
        (request.predicted prediction).oracle = request.oracle := by
      unfold ScheduledRequest.predicted
      split
      · split <;> exact ⟨rfl, rfl⟩
      · exact ⟨rfl, rfl⟩
    have hboth := h.enqueue (hr.rank_eq _ hmem)
    rw [ScheduledRequest.predicted_requestId, hsame.1, hsame.2] at hboth
    refine ⟨hflag', ?_, rfl⟩
    rw [SJFScheduler.step, hqueue]
    exact hboth
  | acquire now =>
    obtain rfl : OracleOp.acquire now = p := Option.some.inj hp
    simp only [SJFScheduler.step, hacquire, SJFScheduler.acquireQueue, OracleSJFScheduler.step,
      OracleSJFScheduler.acquire, SJFOp.submission, Option.toList_none, List.append_nil]
    exact ⟨hflag, h.pass hbefore now⟩
  | wake now =>
    obtain rfl : OracleOp.acquire now = p := Option.some.inj hp
    have hparked : s.parked ≠ 0 := hcalm
    simp only [SJFScheduler.step, if_neg hparked, SJFScheduler.acquireQueue,
      OracleSJFScheduler.step, OracleSJFScheduler.acquire, SJFOp.submission, Option.toList_none,
      List.append_nil]
    exact ⟨hflag, h.pass hbefore now⟩
  | complete requestId success =>
    obtain rfl : OracleOp.complete requestId success = p := Option.some.inj hp
    simp only [SJFOp.submission, Option.toList_none, List.append_nil]
    exact ⟨hflag, h, rfl⟩
  | cancel requestId =>
    obtain rfl : OracleOp.cancel requestId = p := Option.some.inj hp
    obtain ⟨hfound, hnext⟩ := h.cancel (i := requestId)
    simp only [SJFOp.submission, Option.toList_none, List.append_nil]
    exact ⟨hflag, hnext, congrArg (fun found => some (LazyAnswer.cancelled found)) hfound⟩
  | timeOut | tick | age => cases hp

variable {ops : List (SJFOp Id K)} {config : AgingConfig K} {fallbackToFcfs : Bool} {timeout : K}

/-- What the two runs have in common, as long as the ranks are right. -/
theorem mirrors_run [IsStrictOrderedRing K] (H' : RequestHeap Id K)
    (hrank : RankedBy rank (submissions ops))
    (hok : PredictorNeverFails ops)
    (hcalm : (SJFScheduler.machine M H).Along (SJFScheduler.Calm M)
      (SJFScheduler.init H config fallbackToFcfs timeout) ops) :
    let s := (SJFScheduler.machine M H).run (SJFScheduler.init H config fallbackToFcfs timeout) ops
    let calls := ops.filterMap SJFOp.oracleOp
    s.useFallback = false ∧
      Mirrors rank (submissions ops) s.queue
        ((OracleSJFScheduler.machine H').run (OracleSJFScheduler.init H') calls).queue ∧
      answers ((SJFScheduler.machine M H).log
          (SJFScheduler.init H config fallbackToFcfs timeout) ops) =
        oracleAnswers ((OracleSJFScheduler.machine H').log (OracleSJFScheduler.init H') calls) := by
  induction ops using List.reverseRecOn with
  | nil => exact ⟨rfl, mirrors_init, rfl⟩
  | append_singleton ops op ih =>
    rw [submissions_snoc] at hrank
    obtain ⟨hcalm, hcalm'⟩ := Machine.along_snoc.mp hcalm
    obtain ⟨hflag, hmirrors, hanswers⟩ := ih (hrank.sublist (List.sublist_append_left _ _))
      (fun op hop => hok op (List.mem_append_left _ hop)) hcalm
    have hlast : ¬ op.Fails := hok op (by simp)
    rw [submissions_snoc, Machine.run_snoc, Machine.log_snoc, filterMap_snoc]
    set s := (SJFScheduler.machine M H).run (SJFScheduler.init H config fallbackToFcfs timeout) ops
    rcases hp : op.oracleOp with - | p
    · have hsub : op.submission = none := by
        cases op with
        | submit => cases hp
        | _ => rfl
      obtain ⟨hflag', hqueue⟩ := queue_of_quiet hflag hcalm' hp
      rw [Option.toList_none, List.append_nil, hsub, Option.toList_none, List.append_nil]
      refine ⟨hflag', ?_, ?_⟩
      · have hsame : ((SJFScheduler.machine M H).step s op).1.queue = s.queue := hqueue
        rw [hsame]
        exact hmirrors
      · rw [answers, filterMap_snoc, ← hanswers, hp]
        exact List.append_nil _
    · obtain ⟨hflag', hmirrors', hanswer⟩ := mirrors_step hflag hmirrors hrank hlast hcalm' hp
      rw [Option.toList_some]
      dsimp only
      rw [Machine.run_snoc, Machine.log_snoc]
      refine ⟨hflag', hmirrors', ?_⟩
      rw [answers, filterMap_snoc, oracleAnswers, filterMap_snoc, hp, Option.bind_some]
      exact congrArg₂ (· ++ ·) hanswers (congrArg Option.toList hanswer)

/-- **A predictor is as good as its ranking.** Let the predictor rank the
requests by `max_tokens`, and let the aging loop find nothing to do. Then
every call on the SJF scheduler is answered as the same call on the oracle
scheduler: the acquires return the same ids in the same order, the cancels
the same answers, and the queues are of one depth. -/
theorem ranking_suffices [IsStrictOrderedRing K] (hranks : RanksByMaxTokens ops)
    (hcalm : (SJFScheduler.machine M H).Along (SJFScheduler.Calm M)
      (SJFScheduler.init H config fallbackToFcfs timeout) ops) :
    let calls := ops.filterMap SJFOp.oracleOp
    answers ((SJFScheduler.machine M H).log
        (SJFScheduler.init H config fallbackToFcfs timeout) ops) =
      oracleAnswers ((OracleSJFScheduler.machine H').log (OracleSJFScheduler.init H') calls) ∧
    ((SJFScheduler.machine M H).run
        (SJFScheduler.init H config fallbackToFcfs timeout) ops).queueDepth =
      ((OracleSJFScheduler.machine H').run (OracleSJFScheduler.init H') calls).queueDepth := by
  have hids : ((submissions ops).map fun e => e.1.requestId).Nodup := by
    rw [map_requestId_submissions]
    exact hranks.ids
  have hrank : RankedBy (oracleRank (submissions ops)) (submissions ops) :=
    ⟨hranks.times, hranks.order, fun e he => oracleRank_of_mem hids he⟩
  obtain ⟨hflag, hmirrors, hanswers⟩ := mirrors_run H' hrank hranks.predictor hcalm
  refine ⟨hanswers, ?_⟩
  rw [SJFScheduler.queueDepth, SJFScheduler.activeFallback, hflag, OracleSJFScheduler.queueDepth]
  have hcard := congrArg (fun q => Multiset.card q.entries) hmirrors.queue
  rw [LazyQueue.card_rerank, PriorityQueue.card_keyed, PriorityQueue.card_keyed] at hcard
  exact hcard.symm

/-- Three requests with predictions that are off by far and in order, a tick
of the aging loop, an acquire, a cancel and two more acquires. -/
def offByFar : List (SJFOp String ℚ) :=
  [.submit ⟨"a", "", 100, 0, 0⟩ (some ⟨9, 1, 1⟩) 0, .submit ⟨"b", "", 20, 0, 1⟩ (some ⟨2, 1, 1⟩) 1,
    .submit ⟨"c", "", 50, 0, 2⟩ (some ⟨3, 1, 1⟩) 2, .tick 3, .age, .age, .age, .acquire 4,
    .cancel "c", .acquire 5, .acquire 6]

theorem offByFar_as_oracle :
    answers (defaultLog offByFar) =
        [.dequeued (some "b"), .cancelled true, .dequeued (some "a"), .dequeued none] ∧
      answers (defaultLog offByFar) =
        oracleAnswers ((OracleSJFScheduler.machine (listHeap PrioritizedItem.key)).log
          (OracleSJFScheduler.init _) (offByFar.filterMap SJFOp.oracleOp)) := by
  have hranks : RanksByMaxTokens offByFar :=
    ⟨by decide +kernel, by decide +kernel, by decide +kernel, by decide +kernel⟩
  have hcalm : (SJFScheduler.machine MathFns.firstOrder (listHeap PrioritizedItem.key)).Along
      (SJFScheduler.Calm MathFns.firstOrder)
      (SJFScheduler.init _ (AgingConfig.default ℚ) true 300) offByFar := by
    decide +kernel
  exact ⟨by decide +kernel, (ranking_suffices hranks hcalm).1⟩

end Runs

end VllmScheduler
