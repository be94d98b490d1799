import VllmScheduler.Gateway.Workers
/-!
# Which streaming clients are told that their stream has ended

The generator of `submit_chat_stream` reads its queue until it gets `None`,
and only one line puts it there: the one after the last chunk, inside the
`try` block of `_forward_request`. The `except` branch settles the future
of a plain request and forgets the queue of a streaming one, and the aging
loop cancels a request without a word to its client. So a client whose
backend call raises, or whose request is dropped, waits for good. For a
request that aging has not duplicated the terminator arrives, once and
last, exactly if its forward went through.
-/

namespace VllmScheduler

/-- What a stream queue that has been closed has received: chunks, then one
terminator. -/
def Terminated {C : Type} (queue : List (Option C)) : Prop :=
  ∃ chunks : List C, queue = chunks.map some ++ [none]

theorem not_terminated_of_chunks {C : Type} {queue : List (Option C)} {chunks : List C}
    (h : queue = chunks.map some) : ¬ Terminated queue := by
  rintro ⟨chunks', h'⟩
  have hmem : none ∈ chunks.map some := by
    rw [← h, h']
    simp
  simp at hmem

namespace SchedulerGateway

variable {Id K C : Type} [DecidableEq Id] [Field K] [LinearOrder K] {H : RequestHeap Id K}
variable {M : MathFns K} {g : SchedulerGateway C H} {i : Id}

/-- A forward of the request has gone through. -/
def EndedNormally (g : SchedulerGateway C H) (i : Id) : Prop :=
  ∃ task ∈ g.tasks, task.requestId = i ∧ task.status = .succeeded

/-- The request has left the system: its forward has finished, or the aging
loop has dropped it. -/
def Left (g : SchedulerGateway C H) (log : List (GatewayStep Id K C × SJFOut Id K)) (i : Id) :
    Prop :=
  (∃ task ∈ g.tasks, task.requestId = i ∧ task.status ≠ .running) ∨
    (.age, .cancelled i true) ∈ log

/-- **What the queue of a request holds**: chunks only until a forward has
gone through, and then the terminator behind them. -/
structure Streamed (g : SchedulerGateway C H) (i : Id) : Prop where
  unclosed : ¬ g.EndedNormally i → ∃ chunks : List C, g.received i = chunks.map some
  closed : g.EndedNormally i → g.streams i = true → Terminated (g.received i)

section Tasks

omit [Field K] [LinearOrder K]

/-- An id that occurs once names one task. -/
theorem task_unique {tasks : List (ForwardTask Id)} {a b : ForwardTask Id}
    (hcount : (tasks.map ForwardTask.requestId).count i ≤ 1) (ha : a ∈ tasks) (hb : b ∈ tasks)
    (hai : a.requestId = i) (hbi : b.requestId = i) : a = b := by
  induction tasks with
  | nil => cases ha
  | cons c tasks ih =>
    have hnone : c.requestId = i → ∀ d ∈ tasks, d.requestId ≠ i := by
      intro hci d hd hdi
      have hpos : 0 < (tasks.map ForwardTask.requestId).count i :=
        List.count_pos_iff.mpr (List.mem_map.mpr ⟨d, hd, hdi⟩)
      rw [List.map_cons, hci, List.count_cons_self] at hcount
      omega
    rcases List.mem_cons.mp ha with rfl | hat <;> rcases List.mem_cons.mp hb with rfl | hbt
    · rfl
    · exact absurd hbi (hnone hai b hbt)
    · exact absurd hai (hnone hbi a hat)
    · refine ih ?_ hat hbt
      rw [List.map_cons] at hcount
      exact (List.count_le_count_cons).trans hcount

omit [DecidableEq Id] in
/-- A task of another id survives a change of one task. -/
theorem mem_set_of_ne {tasks : List (ForwardTask Id)} {t : ℕ} {a old new : ForwardTask Id}
    (ht : tasks[t]? = some old) (ha : a ∈ tasks) (hne : a.requestId ≠ old.requestId) :
    a ∈ tasks.set t new := by
  obtain ⟨k, hk⟩ := List.mem_iff_getElem?.mp ha
  refine List.mem_iff_getElem?.mpr ⟨k, ?_⟩
  have htk : t ≠ k := by
    rintro rfl
    rw [ht, Option.some.injEq] at hk
    exact hne (hk ▸ rfl)
  rw [List.getElem?_set_ne htk]
  exact hk

omit [DecidableEq Id] in
theorem mem_set_self {tasks : List (ForwardTask Id)} {t : ℕ} {old new : ForwardTask Id}
    (ht : tasks[t]? = some old) : new ∈ tasks.set t new := by
  obtain ⟨hlt, -⟩ := List.getElem?_eq_some_iff.mp ht
  refine List.mem_iff_getElem?.mpr ⟨t, ?_⟩
  simp [hlt]

end Tasks

section Steps

omit [DecidableEq Id] [Field K] in
/-- `Streamed` reads whether a task of the id has ended normally, whether the id
streams, and what its queue has received. -/
theorem Streamed.congr (h : g.Streamed i) {g' : SchedulerGateway C H}
    (hended : g'.EndedNormally i ↔ g.EndedNormally i) (hstreams : g'.streams i = g.streams i)
    (hreceived : g'.received i = g.received i) : g'.Streamed i := by
  refine ⟨fun hn => ?_, fun he hs => ?_⟩
  · rw [hreceived]
    exact h.unclosed fun he => hn (hended.mpr he)
  · rw [hreceived]
    exact h.closed (hended.mp he) (hstreams ▸ hs)

omit [Field K] in
/-- With its one task running, a request has not ended. -/
theorem not_endedNormally_of_running
    (hcount : (g.tasks.map ForwardTask.requestId).count i ≤ 1) {t : ℕ}
    (ht : g.tasks[t]? = some ⟨i, .running⟩) : ¬ g.EndedNormally i := by
  rintro ⟨task, hmem, hid, hstatus⟩
  have hrun : (⟨i, .running⟩ : ForwardTask Id) ∈ g.tasks := List.mem_of_getElem? ht
  rw [task_unique hcount hmem hrun hid rfl] at hstatus
  cases hstatus

/-- The end of the one forward of a request. -/
theorem Streamed.finish_self (h : g.Streamed i)
    (hcount : (g.tasks.map ForwardTask.requestId).count i ≤ 1) {t : ℕ}
    (ht : g.tasks[t]? = some ⟨i, .running⟩) (result : BackendResult) :
    (g.step M (.finish t result)).1.Streamed i := by
  have hopen := not_endedNormally_of_running hcount ht
  obtain ⟨chunks, hchunks⟩ := h.unclosed hopen
  simp only [step, ht]
  cases hok : result.ok with
  | true =>
    refine ⟨fun hn => absurd ?_ hn, fun _ hs => ⟨chunks, ?_⟩⟩
    · exact ⟨⟨i, .succeeded⟩, mem_set_self ht, rfl, rfl⟩
    · have hs' : g.streams i = true := hs
      simp [settle, hok, hs', hchunks]
  | false =>
    refine ⟨fun _ => ⟨chunks, ?_⟩, fun he => ?_⟩
    · simp [settle, hok, hchunks]
    · -- no other task of the request could have succeeded
      obtain ⟨task, hmem, hid, hstatus⟩ := he
      rcases List.mem_or_eq_of_mem_set hmem with hold | rfl
      · exact absurd ⟨task, hold, hid, hstatus⟩ hopen
      · cases hstatus

/-- The end of a forward of another request. -/
theorem Streamed.finish_other (h : g.Streamed i) {t : ℕ} {j : Id} (hij : i ≠ j)
    (ht : g.tasks[t]? = some ⟨j, .running⟩) (result : BackendResult) :
    (g.step M (.finish t result)).1.Streamed i := by
  simp only [step, ht]
  refine h.congr ⟨?_, ?_⟩ rfl ?_
  · rintro ⟨task, hmem, hid, hstatus⟩
    rcases List.mem_or_eq_of_mem_set hmem with hold | rfl
    · exact ⟨task, hold, hid, hstatus⟩
    · exact absurd hid.symm hij
  · rintro ⟨task, hmem, hid, hstatus⟩
    exact ⟨task, mem_set_of_ne ht hmem (hid ▸ hij), hid, hstatus⟩
  · unfold settle
    dsimp only
    split
    · exact Function.update_of_ne hij _ _
    · rfl

/-- **One step keeps the account of a queue**, where the request has at
most one task and is not submitted anew. -/
theorem Streamed.step (h : g.Streamed i)
    (hcount : (g.tasks.map ForwardTask.requestId).count i ≤ 1) {op : GatewayStep Id K C}
    (hnew : submittedId op = some i → i ∉ g.tasks.map ForwardTask.requestId) :
    (g.step M op).1.Streamed i := by
  cases op with
  | submit request prediction now stream =>
    by_cases hi : request.requestId = i
    · have hnone : ¬ (g.step M (.submit request prediction now stream)).1.EndedNormally i := by
        rintro ⟨task, hmem, hid, -⟩
        exact hnew (congrArg some hi) (hid ▸ List.mem_map_of_mem hmem)
      refine ⟨fun _ => ⟨[], ?_⟩, fun he => absurd he hnone⟩
      simp [SchedulerGateway.step, SchedulerGateway.submit, hi]
    · refine h.congr Iff.rfl ?_ ?_ <;>
        exact Function.update_of_ne (Ne.symm hi) _ _
  | dispatch worker now =>
    rw [SchedulerGateway.step]
    split
    · rw [SchedulerGateway.dispatch]
      split
      · refine h.congr ⟨?_, ?_⟩ rfl rfl
        · rintro ⟨task, hmem, hid, hstatus⟩
          rcases List.mem_append.mp hmem with hmem | hmem
          · exact ⟨task, hmem, hid, hstatus⟩
          · rw [List.mem_singleton.mp hmem] at hstatus
            cases hstatus
        · rintro ⟨task, hmem, hid, hstatus⟩
          exact ⟨task, List.mem_append_left _ hmem, hid, hstatus⟩
      · exact h.congr Iff.rfl rfl rfl
    · exact h
  | giveUp worker =>
    rw [SchedulerGateway.step]
    split
    · exact h.congr Iff.rfl rfl rfl
    · exact h
  | chunk t data =>
    rcases ht : g.tasks[t]? with - | ⟨j, - | - | -⟩
    case some.running =>
      simp only [SchedulerGateway.step, ht]
      split
      · by_cases hij : i = j
        · -- the one task of the request is running, so its queue is still open
          subst hij
          have hopen := not_endedNormally_of_running hcount ht
          obtain ⟨chunks, hchunks⟩ := h.unclosed hopen
          refine ⟨fun _ => ⟨chunks ++ [data], ?_⟩, fun he => absurd he hopen⟩
          simp [hchunks]
        · exact h.congr Iff.rfl rfl (Function.update_of_ne hij _ _)
      · exact h
    all_goals simpa only [SchedulerGateway.step, ht] using h
  | finish t result =>
    rcases ht : g.tasks[t]? with - | ⟨j, - | - | -⟩
    case some.running =>
      by_cases hij : i = j
      · subst hij
        exact h.finish_self hcount ht result
      · exact h.finish_other hij ht result
    all_goals simpa only [SchedulerGateway.step, ht] using h
  | clientTimeout j =>
    rw [SchedulerGateway.step]
    split
    · exact h.congr Iff.rfl rfl rfl
    · exact h
  | tick now => exact h.congr Iff.rfl rfl rfl
  | age => exact h.congr Iff.rfl rfl rfl

end Steps

variable {config : AgingConfig K} {fallbackToFcfs : Bool} {timeout : K} {n : ℕ}
variable {ops : List (GatewayStep Id K C)}

theorem streamed_run (hids : (submitted ops).Nodup)
    (hG : (machine M C H).Along (fun g op => g.repushed M op ≠ some i)
      (init C H config fallbackToFcfs timeout n) ops) :
    ((machine M C H).run (init C H config fallbackToFcfs timeout n) ops).Streamed i := by
  refine Machine.log_inv (M := machine M C H) (s := init C H config fallbackToFcfs timeout n)
    (H := fun ops => (submitted ops).Nodup ∧
      (machine M C H).Along (fun g op => g.repushed M op ≠ some i)
        (init C H config fallbackToFcfs timeout n) ops)
    (I := fun _ _ g => g.Streamed i) ?_ ?_ ?_ ⟨hids, hG⟩
  · rintro ops op ⟨hids, hG⟩
    rw [submitted, List.filterMap_append] at hids
    exact ⟨(List.nodup_append.mp hids).1, (Machine.along_snoc.mp hG).1⟩
  · refine ⟨fun _ => ⟨[], rfl⟩, ?_⟩
    rintro ⟨task, hmem, -⟩
    cases hmem
  · rintro ops op ⟨hids, hG⟩ h
    have hcount := (count_tasks_le (Machine.along_snoc.mp hG).1).1
    have hsub := List.nodup_iff_count_le_one.mp hids i
    rw [submitted, count_filterMap_snoc, ← submitted] at hsub
    refine h.step (le_trans (Nat.le_add_right _ _) (hcount.trans (by omega))) ?_
    intro hop hmem
    -- a request submitted now has not been submitted before, so it has no task
    rw [hit, if_pos hop] at hsub
    have := List.count_pos_iff.mpr hmem
    omega

/-- **A streaming client is told exactly if its forward went through.** For
a request that no aging step re-pushes: once it has left the system its
queue has received chunks and then one `None` just in case its forward has
ended without an exception. -/
theorem terminated_iff_endedNormally (hids : (submitted ops).Nodup)
    (hG : (machine M C H).Along (fun g op => g.repushed M op ≠ some i)
      (init C H config fallbackToFcfs timeout n) ops)
    (hstream : ((machine M C H).run
      (init C H config fallbackToFcfs timeout n) ops).streams i = true) :
    (((machine M C H).run (init C H config fallbackToFcfs timeout n) ops).Left
        ((machine M C H).log (init C H config fallbackToFcfs timeout n) ops) i →
      Terminated (((machine M C H).run
        (init C H config fallbackToFcfs timeout n) ops).received i)) ↔
    (((machine M C H).run (init C H config fallbackToFcfs timeout n) ops).Left
        ((machine M C H).log (init C H config fallbackToFcfs timeout n) ops) i →
      ((machine M C H).run
        (init C H config fallbackToFcfs timeout n) ops).EndedNormally i) := by
  have h := streamed_run hids hG
  refine forall_congr' fun _ => ⟨fun hterm => ?_, fun hended => h.closed hended hstream⟩
  by_contra hn
  obtain ⟨chunks, hchunks⟩ := h.unclosed hn
  exact not_terminated_of_chunks hchunks hterm

/-- A streaming request. -/
def streamSubmit (i : String) (created : ℚ) : GatewayStep String ℚ String :=
  .submit (chatRequest i created) (some ⟨100, 1, 1⟩) created true

/-- The backend raises after one chunk. -/
def raisedRun : List (GatewayStep String ℚ String) :=
  [streamSubmit "a" 0, .dispatch 0 1, .chunk 0 "x", .finish 0 (.raised "reset")]

/-- The request waits past its timeout and the aging loop drops it. -/
def droppedRun : List (GatewayStep String ℚ String) :=
  [streamSubmit "a" 0, .tick 400, .age]

/-- **Two ways to leave a client waiting.** The forward has finished and
the queue holds a chunk and no terminator; the request has been dropped and
the queue holds nothing. -/
theorem streams_left_open :
    (∃ task ∈ ((machine MathFns.firstOrder _ _).run (demo 1) raisedRun).tasks,
      task.requestId = "a" ∧ task.status ≠ .running) ∧
    ((machine MathFns.firstOrder _ _).run (demo 1) raisedRun).received "a" = [some "x"] ∧
    (.age, .cancelled "a" true) ∈ (machine MathFns.firstOrder _ _).log (demo 1) droppedRun ∧
    ((machine MathFns.firstOrder _ _).run (demo 1) droppedRun).received "a" = [] := by
  decide +kernel

/-- One stream goes through and one raises. -/
def mixedStreams : List (GatewayStep String ℚ String) :=
  [streamSubmit "a" 0, streamSubmit "b" 1, .dispatch 0 2, .dispatch 0 3, .chunk 0 "x",
    .chunk 1 "y", .finish 1 (.raised "reset"), .chunk 0 "z", .finish 0 (.answered 200 "")]

/-- The one that goes through is terminated. -/
theorem mixedStreams_terminated :
    Terminated (((machine MathFns.firstOrder _ _).run (demo 1) mixedStreams).received "a") := by
  have hended : ((machine MathFns.firstOrder _ _).run (demo 1) mixedStreams).EndedNormally "a" :=
    ⟨⟨"a", .succeeded⟩, by decide +kernel, rfl, rfl⟩
  have hG : (machine MathFns.firstOrder String _).Along
      (fun g op => g.repushed MathFns.firstOrder op ≠ some "a") (demo 1) mixedStreams := by
    decide +kernel
  have hstream : ((machine MathFns.firstOrder _ _).run (demo 1) mixedStreams).streams "a" =
      true := by
    decide +kernel
  exact (terminated_iff_endedNormally (by decide +kernel) hG hstream).mpr (fun _ => hended)
    (Or.inl ⟨⟨"a", .succeeded⟩, by decide +kernel, rfl, by decide⟩)

end SchedulerGateway

end VllmScheduler
