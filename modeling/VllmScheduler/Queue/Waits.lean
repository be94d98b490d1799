import VllmScheduler.Queue.Runs
/-!
# The wait times of the Python priority queue

`_wait_times` of `PriorityQueue` in `python/scheduler/priority_queue.py`. Every
item a `dequeue` returns adds its wait, and a list of more than ten thousand is
cut to its last five thousand. So the list is what came last of all waits, all
of them at first, and between five and ten thousand from then on.
-/

namespace VllmScheduler

namespace PriorityQueue

variable {Id K P : Type} [Field K]

/-- The wait, in milliseconds, of the item a call returned. -/
def waitOf : PQOp Id K P × PQOut Id K P → Option K
  | (.dequeue now, .returned item) => some ((now - item.enqueueTime) * 1000)
  | _ => none

/-- The waits of all items that were dequeued, in order. -/
def waits (log : List (PQOp Id K P × PQOut Id K P)) : List K := log.filterMap waitOf

/-! ## The window -/

section Window

variable {all recent : List K}

/-- The waits that are kept, of all that there were. -/
structure RecentWaits (all recent : List K) : Prop where
  suffix : recent <:+ all
  length_le : recent.length ≤ 10000
  keeps_all : all.length ≤ 10000 → recent.length = all.length
  keeps_half : 10000 < all.length → 5000 ≤ recent.length

omit [Field K] in
theorem RecentWaits.nil : RecentWaits ([] : List K) [] where
  suffix := List.suffix_rfl
  length_le := Nat.zero_le _
  keeps_all := fun _ => rfl
  keeps_half := fun h => absurd h (Nat.not_lt_zero _)

omit [Field K] in
/-- **A wait more.** The cut comes with the first wait that makes ten thousand
and one. -/
theorem RecentWaits.record (h : RecentWaits all recent) (wait : K) :
    RecentWaits (all ++ [wait]) (recordWait recent wait) := by
  have hall : (all ++ [wait]).length = all.length + 1 := by simp
  have hrecent : (recent ++ [wait]).length = recent.length + 1 := by simp
  obtain ⟨before, hbefore⟩ := h.suffix
  have hsuffix : recent ++ [wait] <:+ all ++ [wait] :=
    ⟨before, by rw [← hbefore, List.append_assoc]⟩
  have hle := h.suffix.length_le
  have hcap := h.length_le
  rw [recordWait]
  simp only [hrecent]
  split
  · have hcut : ((recent ++ [wait]).drop (recent.length + 1 - 5000)).length = 5000 := by
      rw [List.length_drop, hrecent]
      omega
    refine ⟨(List.drop_suffix _ _).trans hsuffix, by omega, fun hfew => ?_, fun _ => hcut.ge⟩
    omega
  · refine ⟨hsuffix, by omega, fun hfew => ?_, fun hmany => ?_⟩
    · have := h.keeps_all (by omega)
      omega
    · rcases Nat.lt_or_ge 10000 all.length with hlt | hge
      · have := h.keeps_half hlt
        omega
      · have := h.keeps_all hge
        omega

end Window

/-! ## Runs -/

section Runs

variable [DecidableEq Id] [LinearOrder K] {H : Heapq Id K P} {q : PriorityQueue H}

/-- What the queue keeps of the waits, and how many it has counted. -/
structure Recorded (all : List K) (q : PriorityQueue H) : Prop where
  recent : RecentWaits all q.waitTimes
  total : q.totalDequeued = all.length

omit [Field K] [DecidableEq Id] in
/-- A call that returns no item changes neither. -/
theorem Recorded.unchanged {all : List K} {q' : PriorityQueue H} (h : q.Recorded all)
    (hwaits : q'.waitTimes = q.waitTimes) (htotal : q'.totalDequeued = q.totalDequeued) :
    q'.Recorded (all ++ (none : Option K).toList) := by
  rw [Option.toList_none, List.append_nil]
  exact ⟨hwaits ▸ h.recent, htotal.trans h.total⟩

theorem Recorded.dequeue {all : List K} (h : q.Recorded all) (now : K) :
    (q.dequeue now).1.Recorded
      (all ++ (waitOf (.dequeue now, dequeueOut (q.dequeue now).2)).toList) := by
  have hpurged : ∀ {q'}, Purges q q' → q'.Recorded all := fun hq =>
    hq.inv (fun _ _ _ _ _ hr => ⟨hr.recent, hr.total⟩) h
  rcases q.dequeue_cases now with ⟨q', hq', -, heq⟩ | ⟨q', item, heap, hq', -, -, heq⟩
  · rw [heq]
    exact (hpurged hq').unchanged rfl rfl
  · rw [heq]
    refine ⟨(hpurged hq').recent.record _, ?_⟩
    show q'.totalDequeued + 1 = (all ++ [_]).length
    rw [(hpurged hq').total, List.length_append]
    rfl

theorem Recorded.step {all : List K} (h : q.Recorded all) (op : PQOp Id K P) :
    (q.step op).1.Recorded (all ++ (waitOf (op, (q.step op).2)).toList) := by
  cases op with
  | enqueue i priority payload now => exact h.unchanged rfl rfl
  | dequeue now => exact h.dequeue now
  | cancel i =>
    rw [PriorityQueue.step, PriorityQueue.cancel]
    split
    · exact h.unchanged rfl rfl
    · exact h.unchanged rfl rfl
  | updatePriority i newPriority =>
    rw [PriorityQueue.step, PriorityQueue.updatePriority]
    split
    · exact h.unchanged rfl rfl
    · exact h.unchanged rfl rfl

theorem recorded_run (ops : List (PQOp Id K P)) :
    ((machine H).run (init H) ops).Recorded (waits ((machine H).log (init H) ops)) := by
  induction ops using List.reverseRecOn with
  | nil => exact ⟨RecentWaits.nil, rfl⟩
  | append_singleton ops op ih =>
    rw [Machine.run_snoc, Machine.log_snoc, waits, filterMap_snoc]
    exact ih.step op

/-- **The wait times are those of the last dequeues.** They are what came last
of all waits: all of them as long as there are ten thousand at most, then five
thousand at least and ten thousand at most. The average and the maximum are
taken of these. -/
theorem wait_times_recent (ops : List (PQOp Id K P)) :
    let q := (machine H).run (init H) ops
    let all := waits ((machine H).log (init H) ops)
    let recent := all.drop (all.length - q.waitTimes.length)
    q.waitTimes <:+ all ∧ q.waitTimes.length ≤ 10000 ∧
      (q.totalDequeued ≤ 10000 → q.waitTimes.length = q.totalDequeued) ∧
      (10000 < q.totalDequeued → 5000 ≤ q.waitTimes.length) ∧
      q.stats.avgWaitMs = (if recent = [] then 0 else recent.sum / recent.length) ∧
      q.stats.maxWaitMs = recent.max?.getD 0 := by
  intro q all recent
  obtain ⟨hrecent, htotal⟩ := recorded_run (H := H) ops
  have heq : q.waitTimes = recent := List.suffix_iff_eq_drop.mp hrecent.suffix
  refine ⟨hrecent.suffix, hrecent.length_le, fun hfew => ?_, fun hmany => ?_, ?_, ?_⟩
  · rw [htotal] at hfew ⊢
    exact hrecent.keeps_all hfew
  · rw [htotal] at hmany
    exact hrecent.keeps_half hmany
  · rw [stats, heq]
  · rw [stats, heq]

end Runs

end PriorityQueue

end VllmScheduler
