import VllmScheduler.Scheduler.Fallback
/-!
# Orderly runs and what they keep

A run is orderly when ids are distinct, the predictor never fails, the
clock strictly increases, requests are created before they are submitted
and only acquired requests are completed. `Booked` is what such a run keeps
between the scheduler's structures and the submissions so far: the heap
entries are copies of submissions at priorities not below the request's
own, the listed copy stands at exactly that priority, a waiting request is
listed everywhere and has no tombstone, and the aging loop's snapshot runs
through the requests in the order they were submitted.
-/

namespace VllmScheduler

/-! ## The runs it is about -/

section Runs

variable {Id K : Type} [Field K] [LinearOrder K]

/-- The clock reading a step makes. -/
def SJFOp.reading : SJFOp Id K → Option K
  | .submit _ _ now => some now
  | .acquire now => some now
  | .wake now => some now
  | .tick now => some now
  | _ => none

/-- The clock readings of a run, in order. -/
def readings (ops : List (SJFOp Id K)) : List K := ops.filterMap SJFOp.reading

/-- The id a step completes. -/
def SJFOp.completedId : SJFOp Id K → Option Id
  | .complete i _ => some i
  | _ => none

/-- `complete` is called only for requests that have been acquired. -/
def CompletesAcquired (log : List (SJFOp Id K × SJFOut Id K)) : Prop :=
  ∀ n < log.length, ∀ i ∈ (log[n]?).bind fun e => e.1.completedId, i ∈ acquiredIds (log.take n)

/-- **An orderly run**: distinct ids, a predictor that never fails, a clock
that strictly increases, requests created before they are submitted, and
completions of acquired requests only. -/
structure Orderly (ops : List (SJFOp Id K)) (log : List (SJFOp Id K × SJFOut Id K)) : Prop where
  ids : DistinctIds ops
  predictor : PredictorNeverFails ops
  clock : (readings ops).Pairwise (· < ·)
  created : ∀ e ∈ submissions ops, e.1.enqueueTime ≤ e.2
  completes : CompletesAcquired log

instance [DecidableEq Id] (log : List (SJFOp Id K × SJFOut Id K)) :
    Decidable (CompletesAcquired log) :=
  inferInstanceAs (Decidable (∀ n < log.length,
    ∀ i ∈ (log[n]?).bind fun e => e.1.completedId, i ∈ acquiredIds (log.take n)))

/-- The one request is submitted before the other, is created no later and
predicted no longer. -/
structure Precedes (a b : ScheduledRequest Id K × K) : Prop where
  submitted : a.2 < b.2
  created : a.1.enqueueTime ≤ b.1.enqueueTime
  predicted : a.1.predictedTokens ≤ b.1.predictedTokens

variable {ops : List (SJFOp Id K)} {op : SJFOp Id K}
variable {log : List (SJFOp Id K × SJFOut Id K)} {out : SJFOut Id K}

omit [Field K] [LinearOrder K] in
theorem readings_snoc : readings (ops ++ [op]) = readings ops ++ op.reading.toList :=
  filterMap_snoc

/-- The reading of a submission is one of the run's. -/
theorem mem_readings_of_submission {e : ScheduledRequest Id K × K} (h : e ∈ submissions ops) :
    e.2 ∈ readings ops := by
  obtain ⟨op, hop, he⟩ := List.mem_filterMap.mp h
  refine List.mem_filterMap.mpr ⟨op, hop, ?_⟩
  cases op <;> simp only [SJFOp.submission, Option.some.injEq, reduceCtorEq] at he
  rw [← he]
  rfl

omit [Field K] [LinearOrder K] in
theorem CompletesAcquired.of_snoc (h : CompletesAcquired (log ++ [(op, out)])) :
    ∀ i, op.completedId = some i → i ∈ acquiredIds log := by
  intro i hi
  have := h log.length (by simp) i (by simpa using hi)
  simpa using this

/-- What an orderly run says about its last step. -/
theorem Orderly.of_snoc (h : Orderly (ops ++ [op]) (log ++ [(op, out)])) :
    ¬ op.Fails ∧ (∀ now, op.reading = some now → ∀ e ∈ submissions ops, e.2 < now) ∧
      (∀ i, op.completedId = some i → i ∈ acquiredIds log) := by
  refine ⟨h.predictor op (by simp), ?_, h.completes.of_snoc⟩
  have hclock := h.clock
  rw [readings_snoc, List.pairwise_append] at hclock
  intro now hnow e he
  exact hclock.2.2 e.2 (mem_readings_of_submission he) now (by simp [hnow])

end Runs

/-! ## Lists in submission order -/

section Tracks

variable {Id K : Type} {l l₁ l₂ : List (Id × ScheduledRequest Id K)}
variable {subs : List (ScheduledRequest Id K × K)} {a b e : ScheduledRequest Id K × K}

/-- The list holds requests of the run under their ids, in the order they
were submitted. -/
def Tracks (l : List (Id × ScheduledRequest Id K)) (subs : List (ScheduledRequest Id K × K)) :
    Prop :=
  ∃ L : List (ScheduledRequest Id K × K), L.Sublist subs ∧ l = L.map fun e => (e.1.requestId, e.1)

theorem Tracks.append (h : Tracks l subs) (more : List (ScheduledRequest Id K × K)) :
    Tracks l (subs ++ more) := by
  obtain ⟨L, hL, rfl⟩ := h
  exact ⟨L, hL.trans (List.sublist_append_left _ _), rfl⟩

theorem Tracks.snoc (h : Tracks l subs) : Tracks (l ++ [(e.1.requestId, e.1)]) (subs ++ [e]) := by
  obtain ⟨L, hL, rfl⟩ := h
  exact ⟨L ++ [e], hL.append (List.Sublist.refl _), by simp⟩

theorem Tracks.sublist (h : Tracks l subs) (hl : l₁.Sublist l) : Tracks l₁ subs := by
  obtain ⟨L, hL, rfl⟩ := h
  obtain ⟨L₁, hL₁, rfl⟩ := List.sublist_map_iff.mp hl
  exact ⟨L₁, hL₁.trans hL, rfl⟩

theorem Tracks.exists_mem (h : Tracks l subs) {i : Id} {r : ScheduledRequest Id K}
    (hm : (i, r) ∈ l) : ∃ t, (r, t) ∈ subs ∧ r.requestId = i := by
  obtain ⟨L, hL, rfl⟩ := h
  obtain ⟨e, he, heq⟩ := List.mem_map.mp hm
  simp only [Prod.mk.injEq] at heq
  obtain ⟨hi, rfl⟩ := heq
  exact ⟨e.2, hL.subset he, hi⟩

theorem Tracks.mem_ids (h : Tracks l subs) {i : Id} (hm : i ∈ l.map Prod.fst) :
    i ∈ subs.map fun e => e.1.requestId := by
  obtain ⟨⟨j, r⟩, hjr, rfl⟩ := List.mem_map.mp hm
  obtain ⟨t, ht, hi⟩ := h.exists_mem hjr
  exact List.mem_map.mpr ⟨(r, t), ht, hi⟩

theorem Tracks.nodup_ids (h : Tracks l subs) (hids : (subs.map fun e => e.1.requestId).Nodup) :
    (l.map Prod.fst).Nodup := by
  obtain ⟨L, hL, rfl⟩ := h
  rw [List.map_map]
  exact hids.sublist (hL.map _)

/-- With distinct ids a submission is known by its id. -/
theorem eq_of_requestId_eq (hids : (subs.map fun e => e.1.requestId).Nodup) (ha : a ∈ subs)
    (hb : b ∈ subs) (h : a.1.requestId = b.1.requestId) : a = b :=
  List.inj_on_of_nodup_map hids ha hb h

/-- **What was submitted earlier stands further left.** -/
theorem Tracks.mem_left [LinearOrder K] (h : Tracks l subs)
    (hids : (subs.map fun e => e.1.requestId).Nodup) (htime : subs.Pairwise fun a b => a.2 < b.2)
    (ha : a ∈ subs) (hb : b ∈ subs) (hab : a.2 < b.2) (hal : a.1.requestId ∈ l.map Prod.fst)
    (hl : l = l₁ ++ (b.1.requestId, b.1) :: l₂) : a.1.requestId ∈ l₁.map Prod.fst := by
  obtain ⟨L, hL, rfl⟩ := h
  obtain ⟨L₁, L', rfl, rfl, hL'⟩ := List.map_eq_append_iff.mp hl
  obtain ⟨b', L₂, rfl, hb', rfl⟩ := List.map_eq_cons_iff.mp hL'
  have hbeq : b' = b := eq_of_requestId_eq hids (hL.subset (by simp)) hb (congrArg Prod.fst hb')
  subst hbeq
  -- the entry of the earlier request is the request itself
  rw [List.map_map] at hal
  obtain ⟨a', ha', haid⟩ := List.mem_map.mp hal
  have haeq : a' = a := eq_of_requestId_eq hids (hL.subset ha') ha haid
  subst haeq
  have hpair := htime.sublist hL
  rw [List.pairwise_append, List.pairwise_cons] at hpair
  rcases List.mem_append.mp ha' with hmem | hmem
  · rw [List.map_map]
    exact List.mem_map_of_mem (f := Prod.fst ∘ fun e => (e.1.requestId, e.1)) hmem
  · rcases List.mem_cons.mp hmem with rfl | hmem
    · exact absurd hab (lt_irrefl _)
    · exact absurd hab (hpair.2.1.1 a' hmem).not_gt

end Tracks

/-! ## The books -/

variable {Id K : Type} [DecidableEq Id] [Field K] [LinearOrder K] {H : RequestHeap Id K}

/-- **The books of an orderly run**: how the core relates to the
submissions so far and to the waiting ids. -/
structure SJFCore.Booked (c : SJFCore H) (subs : List (ScheduledRequest Id K × K))
    (waiting : Finset Id) : Prop where
  flag : c.useFallback = false
  linked : c.queue.Linked ScheduledRequest.requestId
  /-- An entry is a copy of a submission. -/
  entry : ∀ item ∈ c.queue.entries, (item.payload, item.enqueueTime) ∈ subs
  /-- It stands no lower than the request's priority. -/
  copy : ∀ item ∈ c.queue.entries, c.priority item.requestId ≤ item.priority
  /-- The listed copy stands at the request's priority. -/
  listed : ∀ {i item}, c.queue.pending.get? i = some item → item.priority = c.priority i
  tombstone : ∀ i ∈ c.queue.cancelled, i ∈ subs.map fun e => e.1.requestId
  waits : ∀ i ∈ waiting, i ∈ c.queue.pending ∧ i ∉ c.queue.cancelled ∧ i ∈ c.pending
  pending : Tracks c.pending.entries subs
  tickRest : Tracks c.tickRest subs
  waited : ∀ e ∈ c.tickRest, e.2.enqueueTime ≤ c.tickNow
  /-- Aging only lowers. -/
  lowered : ∀ e ∈ subs, c.priority e.1.requestId ≤ e.1.predictedTokens

namespace SJFCore.Booked

variable {c : SJFCore H} {subs : List (ScheduledRequest Id K × K)} {waiting : Finset Id} {i : Id}

omit [Field K] in
theorem mem_ids_of_entry (h : c.Booked subs waiting)
    {item : PrioritizedItem Id K (ScheduledRequest Id K)} (hm : item ∈ c.queue.entries) :
    item.requestId ∈ subs.map fun e => e.1.requestId := by
  rw [← h.linked.tag_eq hm]
  exact List.mem_map.mpr ⟨_, h.entry item hm, rfl⟩

omit [Field K] in
theorem mem_ids_of_listed (h : c.Booked subs waiting) (hi : i ∈ c.queue.pending) :
    i ∈ subs.map fun e => e.1.requestId := by
  obtain ⟨item, hget⟩ := Dict.mem_iff_exists.mp hi
  rw [← h.linked.requestId_eq hget]
  exact h.mem_ids_of_entry (h.linked.mem_entries hget)

omit [Field K] in
/-- A submission of a new id. -/
theorem enqueue (h : c.Booked subs waiting) {x : ScheduledRequest Id K} {now : K}
    (hx : x.requestId = i) (hi : i ∉ subs.map fun e => e.1.requestId) :
    SJFCore.Booked
      { c with
        useFallback := false
        priority := Function.update c.priority i x.predictedTokens
        pending := c.pending.set i x
        queue := c.queue.enqueue now i x.predictedTokens x } (subs ++ [(x, now)])
      (insert i waiting) := by
  have hpend : i ∉ c.pending := fun hm => hi (h.pending.mem_ids hm)
  have hne : ∀ {j}, (j ∈ subs.map fun e => e.1.requestId) → j ≠ i := by
    rintro j hj rfl
    exact hi hj
  have hprio : ∀ {j}, j ≠ i →
      Function.update c.priority i x.predictedTokens j = c.priority j :=
    fun hj => Function.update_of_ne hj _ _
  refine ⟨rfl, h.linked.enqueue hx, ?_, ?_, ?_, ?_, ?_, ?_, h.tickRest.append _, h.waited, ?_⟩
  · intro item hm
    rw [PriorityQueue.entries_enqueue, Multiset.mem_cons] at hm
    rcases hm with rfl | hm
    · simp
    · exact List.mem_append_left _ (h.entry item hm)
  · intro item hm
    rw [PriorityQueue.entries_enqueue, Multiset.mem_cons] at hm
    rcases hm with rfl | hm
    · simp
    · exact (hprio (hne (h.mem_ids_of_entry hm))).trans_le (h.copy item hm)
  · intro j item hget
    by_cases hj : j = i
    · subst hj
      simp only [PriorityQueue.enqueue, Dict.get?_set_self, Option.some.injEq] at hget
      simp [← hget]
    · simp only [PriorityQueue.enqueue, Dict.get?_set_of_ne hj] at hget
      exact (h.listed hget).trans (hprio hj).symm
  · intro j hj
    rw [List.map_append, List.mem_append]
    exact Or.inl (h.tombstone j hj)
  · intro j hj
    rcases Finset.mem_insert.mp hj with rfl | hj
    · refine ⟨Dict.mem_set.mpr (Or.inl rfl), fun hc => hi (h.tombstone j hc),
        Dict.mem_set.mpr (Or.inl rfl)⟩
    · obtain ⟨h1, h2, h3⟩ := h.waits j hj
      exact ⟨Dict.mem_set.mpr (Or.inr h1), h2, Dict.mem_set.mpr (Or.inr h3)⟩
  · have := h.pending.snoc (e := (x, now))
    rw [hx] at this
    rwa [Dict.entries_set_of_not_mem hpend]
  · intro e he
    rcases List.mem_append.mp he with he | he
    · exact (hprio (hne (List.mem_map_of_mem he))).trans_le (h.lowered e he)
    · rw [List.mem_singleton.mp he, hx]
      exact (Function.update_self ..).le

omit [Field K] in
/-- A step that trims the queue and `_pending` but keeps the waiting ids
in. -/
theorem trim (h : c.Booked subs waiting) {q : PriorityQueue H} (hq : c.queue.Trimmed q)
    (hl : q.Linked ScheduledRequest.requestId) {pending : Dict Id (ScheduledRequest Id K)}
    (hpend : pending.entries.Sublist c.pending.entries) {waiting' : Finset Id}
    (hw : ∀ j ∈ waiting', j ∈ waiting ∧ j ∈ q.pending ∧ j ∈ pending) :
    SJFCore.Booked { c with queue := q, pending := pending } subs waiting' where
  flag := h.flag
  linked := hl
  entry := fun item hm => h.entry item (hq.entries_subset hm)
  copy := fun item hm => h.copy item (hq.entries_subset hm)
  listed := fun hget => h.listed (hq.get?_of_get? hget)
  tombstone := fun j hj => h.tombstone j (hq.cancelled_subset hj)
  waits := fun j hj => by
    obtain ⟨hj, hq', hp⟩ := hw j hj
    exact ⟨hq', fun hc => (h.waits j hj).2.1 (hq.cancelled_subset hc), hp⟩
  pending := h.pending.sublist hpend
  tickRest := h.tickRest
  waited := h.waited
  lowered := h.lowered

omit [Field K] in
/-- A cancel, by a client or by the aging loop. -/
theorem cancel (h : c.Booked subs waiting) (i : Id) :
    SJFCore.Booked { c with queue := (c.queue.cancel i).1, pending := c.pending.erase i } subs
      (waiting.erase i) where
  flag := h.flag
  linked := h.linked.cancel
  entry := fun item hm => h.entry item (by rwa [PriorityQueue.entries_cancel] at hm)
  copy := fun item hm => h.copy item (by rwa [PriorityQueue.entries_cancel] at hm)
  listed := fun hget => h.listed (by rwa [PriorityQueue.pending_cancel] at hget)
  tombstone := fun j hj => by
    rcases PriorityQueue.mem_cancelled_cancel.mp hj with hj | ⟨rfl, hi⟩
    · exact h.tombstone j hj
    · exact h.mem_ids_of_listed hi
  waits := fun j hj => by
    obtain ⟨hne, hj⟩ := Finset.mem_erase.mp hj
    obtain ⟨h1, h2, h3⟩ := h.waits j hj
    refine ⟨by rwa [PriorityQueue.pending_cancel], ?_, Dict.mem_erase.mpr ⟨hne, h3⟩⟩
    intro hc
    rcases PriorityQueue.mem_cancelled_cancel.mp hc with hc | ⟨rfl, -⟩
    · exact h2 hc
    · exact hne rfl
  pending := h.pending.sublist Dict.entries_erase_sublist
  tickRest := h.tickRest
  waited := h.waited
  lowered := h.lowered

omit [Field K] in
/-- A priority goes down, with a new copy at it where the id is listed. -/
theorem lower (h : c.Booked subs waiting) {p : K} (hp : p ≤ c.priority i) :
    SJFCore.Booked
      { c with
        queue := (c.queue.updatePriority i p).1
        priority := Function.update c.priority i p } subs waiting := by
  have hle : ∀ j, Function.update c.priority i p j ≤ c.priority j := by
    intro j
    by_cases hj : j = i
    · subst hj
      rwa [Function.update_self]
    · rw [Function.update_of_ne hj]
  have hprio : ∀ {j}, j ≠ i → Function.update c.priority i p j = c.priority j :=
    fun hj => Function.update_of_ne hj _ _
  have hself : Function.update c.priority i p i = p := Function.update_self ..
  have hlow : ∀ e ∈ subs, Function.update c.priority i p e.1.requestId ≤ e.1.predictedTokens :=
    fun e he => (hle _).trans (h.lowered e he)
  rcases hget : c.queue.pending.get? i with - | old
  · rw [PriorityQueue.updatePriority_of_none hget]
    refine ⟨h.flag, h.linked, h.entry, fun item hm => (hle _).trans (h.copy item hm), ?_,
      h.tombstone, h.waits, h.pending, h.tickRest, h.waited, hlow⟩
    intro j item hj
    have hji : j ≠ i := by
      rintro rfl
      rw [hget] at hj
      cases hj
    exact (h.listed hj).trans (hprio hji).symm
  · have hent := PriorityQueue.entries_updatePriority (p := p) hget
    have hpend := PriorityQueue.pending_updatePriority (p := p) hget
    have hcan := PriorityQueue.cancelled_updatePriority (p := p) hget
    refine ⟨h.flag, h.linked.updatePriority, ?_, ?_, ?_, ?_, ?_, h.pending, h.tickRest, h.waited,
      hlow⟩
    · intro item hm
      rw [hent, Multiset.mem_cons] at hm
      rcases hm with rfl | hm
      · exact h.entry old (h.linked.mem_entries hget)
      · exact h.entry item hm
    · intro item hm
      rw [hent, Multiset.mem_cons] at hm
      rcases hm with rfl | hm
      · exact hself.le
      · exact (hle _).trans (h.copy item hm)
    · intro j item hj
      rw [hpend] at hj
      by_cases hji : j = i
      · subst hji
        rw [Dict.get?_set_self, Option.some.injEq] at hj
        rw [← hj]
        exact hself.symm
      · rw [Dict.get?_set_of_ne hji] at hj
        exact (h.listed hj).trans (hprio hji).symm
    · intro j hj
      rw [hcan] at hj
      exact h.tombstone j (Finset.mem_of_mem_erase hj)
    · intro j hj
      obtain ⟨h1, h2, h3⟩ := h.waits j hj
      rw [hpend, hcan]
      exact ⟨Dict.mem_set.mpr (Or.inr h1), fun hc => h2 (Finset.mem_of_mem_erase hc), h3⟩

end SJFCore.Booked

section Steps

variable {M : MathFns K} {c c' : SJFCore H} {op : SJFOp Id K} {out : SJFOut Id K}
variable {subs : List (ScheduledRequest Id K × K)} {waiting : Finset Id}

end Steps

end VllmScheduler
