import Mathlib.Algebra.Field.Rat
import Mathlib.Algebra.Order.Ring.Rat
import VllmScheduler.Scheduler.Reload
/-!
# When a reload is atomic and effective

A reload that raises nothing is to leave a scheduler that no later run tells
from a new one with the requested settings and the same requests. Two
schedulers that agree on what their calls look at show the same on every run
(`Alike`, `Twins`). A probe tells the others apart: a request that is submitted
and left until it is past its timeout is cancelled by the next tick, unless it
has gone to the fallback, another tick is under way or the aging loop has ended.
-/

namespace VllmScheduler

variable {Id K : Type}

namespace ReloadableScheduler

variable [DecidableEq Id] [Field K] [LinearOrder K] {H : RequestHeap Id K}
variable {M : MathFns K}

/-! ## Alike schedulers -/

section Alike

variable {a b : SJFScheduler H} {i : Id} {now : K}

/-- Two schedulers that differ in their settings and counters, and in what no
call looks at any more: a flag without a fallback, the time of a tick that is
over. -/
structure Alike (a b : SJFScheduler H) : Prop where
  queue : a.queue = b.queue
  fcfsFallback : a.fcfsFallback = b.fcfsFallback
  active : a.activeFallback = b.activeFallback
  timeout : a.timeout = b.timeout
  pending : a.pending = b.pending
  priority : a.priority = b.priority
  parked : a.parked = b.parked
  tickRest : a.tickRest = b.tickRest
  tickNow : a.tickRest ≠ [] → a.tickNow = b.tickNow

omit [DecidableEq Id] [Field K] in
/-- What is done to the fallback is done to it where it is active. -/
theorem activeFallback_map (f : FCFSScheduler Id K → FCFSScheduler Id K) :
    ({ a with fcfsFallback := a.fcfsFallback.map f } : SJFScheduler H).activeFallback =
      a.activeFallback.map f := by
  unfold SJFScheduler.activeFallback
  split <;> rfl

omit [DecidableEq Id] [Field K] in
theorem activeFallback_of_some {f g : FCFSScheduler Id K} (h : a.activeFallback = some f) :
    ({ a with fcfsFallback := some g } : SJFScheduler H).activeFallback = some g := by
  unfold SJFScheduler.activeFallback at h ⊢
  split at h
  · rename_i hflag
    rw [if_pos hflag]
  · cases h

namespace Alike

omit [DecidableEq Id] in
theorem afterPrediction (h : Alike a b) (request : ScheduledRequest Id K)
    (prediction : Option (Prediction K)) :
    Alike (a.afterPrediction request prediction) (b.afterPrediction request prediction) := by
  unfold SJFScheduler.afterPrediction
  by_cases hz : request.predictedTokens = 0
  · rw [if_pos hz, if_pos hz]
    rcases prediction with - | pred
    · -- the flag goes up where there is a fallback, and means nothing where there is none
      refine { h with active := ?_ }
      have hfallback := h.fcfsFallback
      unfold SJFScheduler.activeFallback
      rcases hf : b.fcfsFallback with - | f <;> simp [hfallback, hf]
    · exact { h with }
  · rwa [if_neg hz, if_neg hz]

omit [Field K] in
/-- A request goes where the flag sends it. -/
theorem place (h : Alike a b) (request : ScheduledRequest Id K) (now : K) :
    Alike
      (match a.activeFallback with
        | some fallback => { a with fcfsFallback := some (fallback.submit request) }
        | none =>
          { a with
            pending := a.pending.set request.requestId request
            queue := a.queue.enqueue now request.requestId request.predictedTokens request })
      (match b.activeFallback with
        | some fallback => { b with fcfsFallback := some (fallback.submit request) }
        | none =>
          { b with
            pending := b.pending.set request.requestId request
            queue := b.queue.enqueue now request.requestId request.predictedTokens request }) := by
  rcases hactive : a.activeFallback with - | f
  · rw [h.active.symm.trans hactive]
    refine { h with queue := ?_, pending := ?_ }
    · exact congrArg (PriorityQueue.enqueue · now _ _ _) h.queue
    · exact congrArg (Dict.set · _ _) h.pending
  · have hactive' : b.activeFallback = some f := h.active.symm.trans hactive
    rw [hactive']
    refine { h with fcfsFallback := rfl, active := ?_ }
    rw [activeFallback_of_some hactive, activeFallback_of_some hactive']

theorem submit (h : Alike a b) (request : ScheduledRequest Id K)
    (prediction : Option (Prediction K)) (now : K) :
    Alike (a.submit request prediction now) (b.submit request prediction now) := by
  have h' := h.afterPrediction request prediction
  have hnext : ∀ (i : Id) (p : K), Alike
      { a.afterPrediction request prediction with
        base := (a.afterPrediction request prediction).base.scheduled
        priority := Function.update (a.afterPrediction request prediction).priority i p }
      { b.afterPrediction request prediction with
        base := (b.afterPrediction request prediction).base.scheduled
        priority := Function.update (b.afterPrediction request prediction).priority i p } :=
    fun i p => { h' with priority := congrArg (Function.update · i p) h'.priority }
  exact (hnext _ _).place (request.predicted prediction) now

theorem acquireQueue (h : Alike a b) (now : K) :
    (a.acquireQueue now).2 = (b.acquireQueue now).2 ∧
      Alike (a.acquireQueue now).1 (b.acquireQueue now).1 := by
  have hqueue : a.queue.dequeue now = b.queue.dequeue now := by rw [h.queue]
  refine ⟨congrArg (fun r => r.2.map PrioritizedItem.payload) hqueue, ?_⟩
  exact { h with queue := congrArg (fun r => r.1) hqueue }

theorem acquire (h : Alike a b) (now : K) :
    (a.acquire now).2 = (b.acquire now).2 ∧ Alike (a.acquire now).1 (b.acquire now).1 := by
  unfold SJFScheduler.acquire
  rcases hactive : a.activeFallback with - | f
  · rw [h.active.symm.trans hactive]
    exact h.acquireQueue now
  · have hactive' : b.activeFallback = some f := h.active.symm.trans hactive
    rw [hactive']
    refine ⟨rfl, { h with fcfsFallback := rfl, active := ?_ }⟩
    dsimp only
    rw [activeFallback_of_some hactive, activeFallback_of_some hactive']

omit [Field K] in
theorem complete (h : Alike a b) (success : Bool) :
    Alike (a.complete i success) (b.complete i success) := by
  refine ⟨h.queue, ?_, ?_, h.timeout, ?_, h.priority, h.parked, h.tickRest, h.tickNow⟩
  · exact congrArg (Option.map _) h.fcfsFallback
  · exact (activeFallback_map _).trans ((congrArg (Option.map _) h.active).trans
      (activeFallback_map _).symm)
  · exact congrArg (Dict.erase · i) h.pending

omit [Field K] in
theorem cancel (h : Alike a b) :
    (a.cancel i).2 = (b.cancel i).2 ∧ Alike (a.cancel i).1 (b.cancel i).1 := by
  have hqueue : a.queue.cancel i = b.queue.cancel i := by rw [h.queue]
  refine ⟨congrArg (fun r => r.2) hqueue, congrArg (fun r => r.1) hqueue, ?_, ?_, h.timeout, ?_,
    h.priority, h.parked, h.tickRest, h.tickNow⟩
  · exact congrArg (Option.map _) h.fcfsFallback
  · exact (activeFallback_map _).trans ((congrArg (Option.map _) h.active).trans
      (activeFallback_map _).symm)
  · exact congrArg (Dict.erase · i) h.pending

omit [DecidableEq Id] in
theorem timedOut_iff (h : Alike a b) (hrest : a.tickRest ≠ []) (request : ScheduledRequest Id K) :
    a.TimedOut request ↔ b.TimedOut request := by
  rw [SJFScheduler.TimedOut, SJFScheduler.TimedOut, h.tickNow hrest, h.timeout]

/-- The aging loop goes the same way, where it has the same function or does
not come to it. -/
theorem age (h : Alike a b) (haging : a.aging = b.aging ∨ ¬ BoostsNext a) :
    (a.age M).2 = (b.age M).2 ∧ Alike (a.age M).1 (b.age M).1 := by
  unfold SJFScheduler.age
  rcases hrest : a.tickRest with - | ⟨⟨i, request⟩, rest⟩
  · rw [← h.tickRest, hrest]
    exact ⟨rfl, h⟩
  · have hne : a.tickRest ≠ [] := by rw [hrest]; exact List.cons_ne_nil _ _
    rw [← h.tickRest, hrest]
    dsimp only
    have hnow := h.tickNow hne
    have h' : Alike { a with tickRest := rest } { b with tickRest := rest } :=
      { h with tickRest := rfl, tickNow := fun _ => hnow }
    by_cases ht : ({ a with tickRest := rest } : SJFScheduler H).TimedOut request
    · have ht' : ({ b with tickRest := rest } : SJFScheduler H).TimedOut request :=
        (h.timedOut_iff hne request).mp ht
      rw [if_pos ht, if_pos ht']
      obtain ⟨hfound, hnext⟩ := h'.cancel (i := i)
      exact ⟨congrArg (SJFOut.cancelled i) hfound, hnext⟩
    · have ht' : ¬ ({ b with tickRest := rest } : SJFScheduler H).TimedOut request :=
        fun hb => ht ((h.timedOut_iff hne request).mpr hb)
      rw [if_neg ht, if_neg ht']
      have hsame : a.aging = b.aging := by
        refine haging.resolve_right (not_not.mpr ?_)
        rw [BoostsNext, hrest]
        exact ht
      have hnew : ({ a with tickRest := rest } : SJFScheduler H).newPriority M i request =
          ({ b with tickRest := rest } : SJFScheduler H).newPriority M i request := by
        simp only [SJFScheduler.newPriority, hsame, hnow, h.priority]
      have hlowers : ({ a with tickRest := rest } : SJFScheduler H).Lowers M i request ↔
          ({ b with tickRest := rest } : SJFScheduler H).Lowers M i request := by
        rw [SJFScheduler.Lowers, SJFScheduler.Lowers, hnew]
        show _ < a.priority i - 1 / 100 ↔ _ < b.priority i - 1 / 100
        rw [h.priority]
      by_cases hl : ({ a with tickRest := rest } : SJFScheduler H).Lowers M i request
      · rw [if_pos hl, if_pos (hlowers.mp hl), hnew]
        refine ⟨rfl, { h' with queue := ?_, priority := ?_ }⟩
        · exact congrArg (fun q => (PriorityQueue.updatePriority q i _).1) h.queue
        · exact congrArg (Function.update · i _) h.priority
      · rw [if_neg hl, if_neg fun hb => hl (hlowers.mpr hb)]
        exact ⟨rfl, h'⟩

theorem step (h : Alike a b) (op : SJFOp Id K)
    (haging : op = .age → a.aging = b.aging ∨ ¬ BoostsNext a) :
    (a.step M op).2 = (b.step M op).2 ∧ Alike (a.step M op).1 (b.step M op).1 := by
  cases op with
  | submit request prediction now => exact ⟨rfl, h.submit request prediction now⟩
  | acquire now =>
    obtain ⟨hout, hnext⟩ := h.acquire now
    refine ⟨congrArg SJFScheduler.acquireOut hout, { hnext with parked := ?_ }⟩
    simp only [SJFScheduler.step, hout, h.active, h.parked]
  | wake now =>
    obtain ⟨hout, hnext⟩ := h.acquireQueue now
    simp only [SJFScheduler.step, h.parked]
    split
    · exact ⟨rfl, h⟩
    · exact ⟨congrArg SJFScheduler.acquireOut hout, { hnext with parked := by simp only [hout] }⟩
  | timeOut => exact ⟨rfl, { h with parked := congrArg (· - 1) h.parked }⟩
  | complete requestId success => exact ⟨rfl, h.complete success⟩
  | cancel requestId =>
    obtain ⟨hfound, hnext⟩ := h.cancel (i := requestId)
    exact ⟨congrArg (SJFOut.cancelled requestId) hfound, hnext⟩
  | tick now =>
    simp only [SJFScheduler.step, ← h.tickRest]
    split
    · exact ⟨rfl, { h with tickRest := congrArg Dict.entries h.pending, tickNow := fun _ => rfl }⟩
    · exact ⟨rfl, h⟩
  | age => exact h.age (haging rfl)

omit [DecidableEq Id] in
theorem boostsNext_iff (h : Alike a b) : BoostsNext a ↔ BoostsNext b := by
  unfold BoostsNext
  rw [← h.tickRest]
  rcases hrest : a.tickRest with - | ⟨⟨i, request⟩, rest⟩
  · exact Iff.rfl
  · exact not_congr (h.timedOut_iff (by rw [hrest]; exact List.cons_ne_nil _ _) request)

end Alike

end Alike

/-! ## The aging loop -/

section AgingLoop

variable {s t : ReloadableScheduler H} {f : AgingFunction K}

theorem step_age_of_ended (h : s.loopEnded = true) : s.step M .age = (s, .done) := by
  rw [step, if_pos h]

theorem step_tick_of_ended {now : K} (h : s.loopEnded = true) :
    s.step M (.tick now) = (s, .done) := by
  rw [step, if_pos h]

theorem step_age_of_some (h : s.loopEnded = false) (hf : s.aging.function = some f) :
    s.step M .age =
      (s.withScheduler (SJFScheduler.step M { s.scheduler with aging := f } .age).1,
        (SJFScheduler.step M { s.scheduler with aging := f } .age).2) := by
  simp only [step, h, hf, Bool.false_eq_true, if_false]

theorem step_age_of_boosts (h : s.loopEnded = false) (hf : s.aging.function = none)
    (hb : BoostsNext s.scheduler) :
    s.step M .age =
      ({ s with loopEnded := true, scheduler := { s.scheduler with tickRest := [] } }, .done) := by
  simp only [step, h, hf, if_pos hb, Bool.false_eq_true, if_false]

theorem step_age_of_none (h : s.loopEnded = false) (hf : s.aging.function = none)
    (hb : ¬ BoostsNext s.scheduler) :
    s.step M .age =
      (s.withScheduler (s.scheduler.step M .age).1, (s.scheduler.step M .age).2) := by
  simp only [step, h, hf, if_neg hb, Bool.false_eq_true, if_false]

theorem step_tick {now : K} (h : s.loopEnded = false) :
    s.step M (.tick now) =
      (s.withScheduler (s.scheduler.step M (.tick now)).1,
        (s.scheduler.step M (.tick now)).2) := by
  simp only [step, h, Bool.false_eq_true, if_false]

/-- Alike schedulers with one aging object, whose loops run or have ended. -/
structure Twins (s t : ReloadableScheduler H) : Prop where
  scheduler : Alike s.scheduler t.scheduler
  aging : s.aging = t.aging
  loopEnded : s.loopEnded = t.loopEnded

theorem Twins.step (h : Twins s t) (op : SJFOp Id K) :
    (s.step M op).2 = (t.step M op).2 ∧ Twins (s.step M op).1 (t.step M op).1 := by
  have hother : op ≠ .age →
      (s.scheduler.step M op).2 = (t.scheduler.step M op).2 ∧
        Twins (s.withScheduler (s.scheduler.step M op).1)
          (t.withScheduler (t.scheduler.step M op).1) := by
    intro hop
    obtain ⟨hout, hnext⟩ := h.scheduler.step (M := M) op fun hage => absurd hage hop
    exact ⟨hout, hnext, h.aging, h.loopEnded⟩
  cases op with
  | submit | acquire | wake | timeOut | complete | cancel => exact hother (by simp)
  | tick now =>
    cases hs : s.loopEnded with
    | true =>
      rw [step_tick_of_ended hs, step_tick_of_ended (h.loopEnded ▸ hs)]
      exact ⟨rfl, h⟩
    | false =>
      rw [step_tick hs, step_tick (h.loopEnded ▸ hs)]
      exact hother (by simp)
  | age =>
    cases hs : s.loopEnded with
    | true =>
      rw [step_age_of_ended hs, step_age_of_ended (h.loopEnded ▸ hs)]
      exact ⟨rfl, h⟩
    | false =>
      have ht : t.loopEnded = false := h.loopEnded ▸ hs
      rcases hf : s.aging.function with - | f
      · have hf' : t.aging.function = none := h.aging ▸ hf
        by_cases hb : BoostsNext s.scheduler
        · rw [step_age_of_boosts hs hf hb,
            step_age_of_boosts ht hf' (h.scheduler.boostsNext_iff.mp hb)]
          refine ⟨rfl, ?_, h.aging, rfl⟩
          exact { h.scheduler with tickRest := rfl, tickNow := fun hne => absurd rfl hne }
        · rw [step_age_of_none hs hf hb,
            step_age_of_none ht hf' (mt h.scheduler.boostsNext_iff.mpr hb)]
          obtain ⟨hout, hnext⟩ := h.scheduler.step (M := M) .age fun _ => Or.inr hb
          exact ⟨hout, hnext, h.aging, h.loopEnded⟩
      · rw [step_age_of_some hs hf, step_age_of_some ht (h.aging ▸ hf)]
        have halike : Alike { s.scheduler with aging := f } { t.scheduler with aging := f } :=
          { h.scheduler with }
        obtain ⟨hout, hnext⟩ := halike.step (M := M) .age fun _ => Or.inl rfl
        exact ⟨hout, hnext, h.aging, h.loopEnded⟩

/-- **Twins show the same on every run.** -/
theorem Twins.log_eq (h : Twins s t) (ops : List (SJFOp Id K)) :
    (machine M H).log s ops = (machine M H).log t ops :=
  Machine.log_eq_of_rel (M := machine M H) (fun _ _ op h => h.step op) h ops

end AgingLoop

/-! ## A run that tells a scheduler at rest -/

section Probe

variable {s t : ReloadableScheduler H} {a : SJFScheduler H} {i : Id}
variable {request : ScheduledRequest Id K} {rest : List (Id × ScheduledRequest Id K)}

theorem sjf_age_of_nil (h : a.tickRest = []) : (a.step M .age).2 = .done := by
  simp only [SJFScheduler.step, SJFScheduler.age, h]

theorem sjf_age_of_kept (h : a.tickRest = (i, request) :: rest) (hkept : ¬ a.TimedOut request) :
    (a.step M .age).2 = .done := by
  have hkept' : ¬ ({ a with tickRest := rest } : SJFScheduler H).TimedOut request := hkept
  simp only [SJFScheduler.step, SJFScheduler.age, h, if_neg hkept']
  split <;> rfl

theorem sjf_age_of_timedOut (h : a.tickRest = (i, request) :: rest) (ht : a.TimedOut request) :
    (a.step M .age).2 = .cancelled i (a.queue.cancel i).2 := by
  have ht' : ({ a with tickRest := rest } : SJFScheduler H).TimedOut request := ht
  simp only [SJFScheduler.step, SJFScheduler.age, h, if_pos ht']
  rfl

theorem age_of_nil (h : s.scheduler.tickRest = []) : (s.step M .age).2 = .done := by
  cases hs : s.loopEnded with
  | true => rw [step_age_of_ended hs]
  | false =>
    rcases hf : s.aging.function with - | f
    · have hb : ¬ BoostsNext s.scheduler := by rw [BoostsNext, h]; exact id
      rw [step_age_of_none hs hf hb]
      exact sjf_age_of_nil h
    · rw [step_age_of_some hs hf]
      exact sjf_age_of_nil (a := { s.scheduler with aging := f }) h

/-- The aging loop shows nothing of a request it does not drop. -/
theorem age_of_kept (h : s.scheduler.tickRest = (i, request) :: rest)
    (hkept : ¬ s.scheduler.TimedOut request) : (s.step M .age).2 = .done := by
  cases hs : s.loopEnded with
  | true => rw [step_age_of_ended hs]
  | false =>
    rcases hf : s.aging.function with - | f
    · have hb : BoostsNext s.scheduler := by rw [BoostsNext, h]; exact hkept
      rw [step_age_of_boosts hs hf hb]
    · rw [step_age_of_some hs hf]
      exact sjf_age_of_kept (a := { s.scheduler with aging := f }) h hkept

theorem age_of_timedOut (hs : s.loopEnded = false)
    (h : s.scheduler.tickRest = (i, request) :: rest) (ht : s.scheduler.TimedOut request) :
    (s.step M .age).2 = .cancelled i (s.scheduler.queue.cancel i).2 := by
  rcases hf : s.aging.function with - | f
  · have hb : ¬ BoostsNext s.scheduler := by rw [BoostsNext, h]; exact not_not.mpr ht
    rw [step_age_of_none hs hf hb]
    exact sjf_age_of_timedOut h ht
  · rw [step_age_of_some hs hf]
    exact sjf_age_of_timedOut (a := { s.scheduler with aging := f }) h ht

/-- Completions empty `_pending` and touch nothing else that matters here. -/
theorem run_complete (ids : List Id) (s : ReloadableScheduler H) :
    let s' := (machine M H).run s (ids.map fun i => .complete i true)
    s'.scheduler.pending = ids.foldl Dict.erase s.scheduler.pending ∧
      s'.scheduler.tickRest = s.scheduler.tickRest ∧
      s'.scheduler.tickNow = s.scheduler.tickNow ∧
      s'.scheduler.timeout = s.scheduler.timeout ∧ (s'.AtRest ↔ s.AtRest) ∧
      s'.loopEnded = s.loopEnded := by
  induction ids generalizing s with
  | nil => exact ⟨rfl, rfl, rfl, rfl, Iff.rfl, rfl⟩
  | cons i ids ih =>
    obtain ⟨hpending, hrest, hnow, htimeout, hat, hloop⟩ :=
      ih (s.withScheduler (s.scheduler.complete i true))
    refine ⟨hpending, hrest, hnow, htimeout, hat.trans ?_, hloop⟩
    have hactive : (s.scheduler.complete i true).activeFallback =
        s.scheduler.activeFallback.map fun f => f.complete i true := activeFallback_map _
    show (s.scheduler.complete i true).activeFallback = none ∧ _ ↔ _
    rw [hactive, Option.map_eq_none_iff]
    rfl

variable [Inhabited Id]

/-- A request with a prediction of its own, made at time 0. -/
def probe : ScheduledRequest Id K := ⟨default, "", 0, 1, 0⟩

/-- It is submitted, and the aging loop looks once it is past its timeout. -/
def probeOps (timeout : K) : List (SJFOp Id K) := [.submit probe none 0, .tick (timeout + 1)]

/-- The probe goes to `_pending` where the scheduler works on its priority
queue, and nowhere near it otherwise. -/
theorem submit_probe (a : SJFScheduler H) :
    let a' := a.submit probe none 0
    a'.tickRest = a.tickRest ∧ a'.tickNow = a.tickNow ∧ a'.timeout = a.timeout ∧
      a'.pending =
        if a.activeFallback = none then a.pending.set default probe else a.pending := by
  have hpred : (probe : ScheduledRequest Id K).predicted none = probe := if_neg one_ne_zero
  have hafter : a.afterPrediction probe none = a := if_neg one_ne_zero
  have hactive : ({ a with
      base := a.base.scheduled
      priority := Function.update a.priority (probe : ScheduledRequest Id K).requestId
        (probe : ScheduledRequest Id K).predictedTokens } : SJFScheduler H).activeFallback =
      a.activeFallback := rfl
  unfold SJFScheduler.submit
  rw [hpred, hafter]
  simp only [hactive]
  rcases a.activeFallback with - | f
  · exact ⟨rfl, rfl, rfl, rfl⟩
  · exact ⟨rfl, rfl, rfl, rfl⟩

theorem probe_of_atRest [IsStrictOrderedRing K] (h : s.AtRest)
    (hpending : s.scheduler.pending.entries = []) :
    ∃ found, (((machine M H).run s (probeOps s.scheduler.timeout)).step M .age).2 =
      .cancelled default found := by
  obtain ⟨hactive, hrest, hloop⟩ := h
  obtain ⟨hrest', -, htimeout, hpending'⟩ := submit_probe s.scheduler
  rw [if_pos hactive] at hpending'
  have hentries : (s.scheduler.pending.set default probe).entries = [(default, probe)] := by
    have hnew : (default : Id) ∉ s.scheduler.pending := by
      rw [Dict.mem_iff, Dict.keys, hpending]
      exact List.not_mem_nil
    rw [Dict.entries_set_of_not_mem hnew, hpending]
    rfl
  set s' := s.withScheduler (s.scheduler.submit probe none 0)
  have htick : (s'.scheduler.step M (.tick (s.scheduler.timeout + 1))).1 =
      { s'.scheduler with
        tickNow := s.scheduler.timeout + 1
        tickRest := [(default, probe)] } := by
    have hnil : s'.scheduler.tickRest = [] := hrest'.trans hrest
    have hset : s'.scheduler.pending.entries = [(default, probe)] :=
      (congrArg Dict.entries hpending').trans hentries
    rw [SJFScheduler.step, if_pos hnil, hset]
  have hrun : (machine M H).run s (probeOps s.scheduler.timeout) =
      s'.withScheduler
        { s'.scheduler with
          tickNow := s.scheduler.timeout + 1
          tickRest := [(default, probe)] } := by
    show (s'.step M (.tick _)).1 = _
    rw [step_tick (show s'.loopEnded = false from hloop), htick]
  rw [hrun]
  refine ⟨_, age_of_timedOut hloop rfl ?_⟩
  show s.scheduler.timeout + 1 - 0 > s'.scheduler.timeout
  have hsame : s'.scheduler.timeout = s.scheduler.timeout := htimeout
  rw [hsame, sub_zero]
  exact lt_add_one _

/-- Nothing shows where the scheduler is not at rest, unless a tick under way
comes to a request it drops. -/
theorem probe_of_not_atRest (h : ¬ s.AtRest) (hpending : s.scheduler.pending.entries = [])
    (hkept : s.loopEnded = false → ∀ i request rest,
      s.scheduler.tickRest = (i, request) :: rest → ¬ s.scheduler.TimedOut request) :
    (((machine M H).run s (probeOps s.scheduler.timeout)).step M .age).2 = .done := by
  obtain ⟨hrest', hnow', htimeout, hpending'⟩ := submit_probe s.scheduler
  set s' := s.withScheduler (s.scheduler.submit probe none 0)
  show ((s'.step M (.tick (s.scheduler.timeout + 1))).1.step M .age).2 = .done
  cases hloop : s.loopEnded with
  | true =>
    have hended : s'.loopEnded = true := hloop
    rw [step_tick_of_ended hended, step_age_of_ended hended]
  | false =>
    rw [step_tick (show s'.loopEnded = false from hloop)]
    rcases hrest : s.scheduler.tickRest with - | ⟨⟨i, request⟩, rest⟩
    · -- the tick starts, and finds nothing: the probe has gone to the fallback
      have hnil : s'.scheduler.tickRest = [] := hrest'.trans hrest
      have hactive : s.scheduler.activeFallback ≠ none := fun hnone => h ⟨hnone, hrest, hloop⟩
      rw [if_neg hactive] at hpending'
      refine age_of_nil ?_
      rw [SJFScheduler.step, if_pos hnil]
      exact (congrArg Dict.entries hpending').trans hpending
    · -- a tick is under way and goes on
      have hcons : s'.scheduler.tickRest = (i, request) :: rest := hrest'.trans hrest
      have hne : s'.scheduler.tickRest ≠ [] := by rw [hcons]; exact List.cons_ne_nil _ _
      rw [SJFScheduler.step, if_neg hne]
      refine age_of_kept hcons ?_
      show ¬ (s'.scheduler.tickNow - request.enqueueTime > s'.scheduler.timeout)
      have hsame : s'.scheduler.tickNow = s.scheduler.tickNow := hnow'
      have hsame' : s'.scheduler.timeout = s.scheduler.timeout := htimeout
      rw [hsame, hsame']
      exact hkept hloop i request rest hrest

/-- **Only a scheduler at rest passes for one.** -/
theorem atRest_of_log_eq [IsStrictOrderedRing K] (ht : t.AtRest)
    (hpending : s.scheduler.pending = t.scheduler.pending)
    (htimeout : s.scheduler.timeout = t.scheduler.timeout)
    (hlog : ∀ ops, (machine M H).log s ops = (machine M H).log t ops) : s.AtRest := by
  by_contra hs
  by_cases hdrops : s.loopEnded = false ∧ ∃ i request rest,
      s.scheduler.tickRest = (i, request) :: rest ∧ s.scheduler.TimedOut request
  · -- the tick under way drops its next request
    obtain ⟨hloop, i, request, rest, hrest, hout⟩ := hdrops
    have hone : ((machine M H).step s .age).2 = ((machine M H).step t .age).2 := by
      simpa using hlog [.age]
    have hs' : (s.step M .age).2 = .cancelled i (s.scheduler.queue.cancel i).2 :=
      age_of_timedOut hloop hrest hout
    have ht' : (t.step M .age).2 = .done := age_of_nil ht.2.1
    cases hs'.symm.trans (hone.trans ht')
  · -- what is pending is completed first, so that the probe is alone
    set ops : List (SJFOp Id K) := s.scheduler.pending.keys.map fun i => .complete i true
    obtain ⟨hsp, hsr, hsn, hst, hsa, hsl⟩ := run_complete (M := M) s.scheduler.pending.keys s
    obtain ⟨htp, -, -, htt, hta, -⟩ := run_complete (M := M) s.scheduler.pending.keys t
    have hone : ((machine M H).step ((machine M H).run ((machine M H).run s ops)
          (probeOps s.scheduler.timeout)) .age).2 =
        ((machine M H).step ((machine M H).run ((machine M H).run t ops)
          (probeOps s.scheduler.timeout)) .age).2 := by
      have hlog' := Machine.log_run_eq hlog (ops ++ probeOps s.scheduler.timeout) [.age]
      rw [Machine.run_append, Machine.run_append] at hlog'
      simpa using hlog'
    obtain ⟨found, hfound⟩ := probe_of_atRest (M := M) (hta.mpr ht) (by
      rw [htp, ← hpending]
      exact Dict.entries_foldl_erase_keys)
    have hdone := probe_of_not_atRest (M := M) (fun h => hs (hsa.mp h)) (by
      rw [hsp]
      exact Dict.entries_foldl_erase_keys) (by
      intro hloop i request rest hrest hout
      refine hdrops ⟨hsl.symm.trans hloop, i, request, rest, hsr.symm.trans hrest, ?_⟩
      rw [SJFScheduler.TimedOut, ← hsn, ← hst]
      exact hout)
    rw [hst] at hdone
    rw [htt, ← htimeout] at hfound
    cases hdone.symm.trans (hone.trans hfound)

end Probe

/-! ## When a reload is atomic and effective -/

section Reload

variable {s t : ReloadableScheduler H} {aging : RawAgingConfig K}
variable {flag : Bool} {timeout : K}

omit [DecidableEq Id] in
/-- A new scheduler is at rest, whatever its queues are given. -/
theorem atRest_withContents {fresh : ReloadableScheduler H}
    (h : construct H aging flag timeout = .ok fresh) : (fresh.withContents s).AtRest := by
  obtain ⟨-, -, hinit, hloop⟩ := construct_eq_ok h
  refine ⟨?_, ?_, hloop⟩
  · rw [withContents, hinit]
    rfl
  · rw [withContents, hinit]
    rfl

omit [DecidableEq Id] in
/-- The reloaded scheduler is a twin of the new one where it is at rest and has
a fallback exactly if the new one has. -/
theorem twins_withContents {fresh : ReloadableScheduler H}
    (hfresh : construct H aging flag s.scheduler.timeout = .ok fresh)
    (hcreate : aging.create = .ok t.aging) (hloop : t.loopEnded = s.loopEnded)
    (hsched : t.scheduler = { s.scheduler with fallbackToFcfs := flag }) (hrest : s.AtRest)
    (hflag : s.scheduler.fcfsFallback.isSome = flag) : Twins t (fresh.withContents s) := by
  obtain ⟨hmade, -, hinit, -⟩ := construct_eq_ok hfresh
  obtain ⟨hactive, hnil, hended⟩ : (fresh.withContents s).AtRest := atRest_withContents hfresh
  have haging : t.aging = fresh.aging := Except.ok.inj (hcreate.symm.trans hmade)
  have hfallback : s.scheduler.fcfsFallback = (fresh.withContents s).scheduler.fcfsFallback := by
    rw [withContents, hinit]
    rcases hf : s.scheduler.fcfsFallback with - | f <;> rw [hf] at hflag <;>
      simp [withScheduler, SJFScheduler.init, ← hflag]
  have htimeout : s.scheduler.timeout = (fresh.withContents s).scheduler.timeout := by
    rw [withContents, hinit]
    rfl
  refine ⟨?_, haging, (hloop.trans hrest.2.2).trans hended.symm⟩
  rw [hsched]
  exact {
    queue := rfl
    fcfsFallback := hfallback
    active := hrest.1.trans hactive.symm
    timeout := htimeout
    pending := rfl
    priority := rfl
    parked := rfl
    tickRest := hrest.2.1.trans hnil.symm
    tickNow := fun h => absurd hrest.2.1 h }

/-- A reload that raises nothing leaves the settings `aging` and `flag`: it is
effective exactly where it finds the scheduler at rest and `flag` says whether
there is a fallback. -/
theorem effective_iff [Inhabited Id] [IsStrictOrderedRing K] (hcreate : aging.create = .ok t.aging)
    (hloop : t.loopEnded = s.loopEnded)
    (hsched : t.scheduler = { s.scheduler with fallbackToFcfs := flag }) :
    ((∃ fresh, construct H aging flag s.scheduler.timeout = .ok fresh ∧
        ∀ ops, (machine M H).log t ops = (machine M H).log (fresh.withContents s) ops) ∧
      ∀ ops request prediction now, PredictionFails request prediction →
        (Switches M ((machine M H).run t ops) request prediction now ↔ flag = true)) ↔
      s.AtRest ∧ s.scheduler.fcfsFallback.isSome = flag := by
  have hsome : t.scheduler.fcfsFallback = s.scheduler.fcfsFallback := by rw [hsched]
  constructor
  · rintro ⟨⟨fresh, hfresh, hlog⟩, hswitch⟩
    constructor
    · have hinit := (construct_eq_ok hfresh).2.2.1
      have hrest : t.AtRest := by
        refine atRest_of_log_eq (atRest_withContents hfresh) ?_ ?_ hlog
        · rw [hsched]
          rfl
        · rw [hsched, withContents, hinit]
          rfl
      rw [AtRest, hsched, hloop] at hrest
      exact hrest
    · -- a request without a prediction, submitted right after the reload
      have hfails : PredictionFails (⟨default, "", 0, 0, 0⟩ : ScheduledRequest Id K) none :=
        ⟨rfl, rfl⟩
      have h := (switches_iff hfails).symm.trans (hswitch [] _ _ 0 hfails)
      rw [Machine.run_nil, hsome] at h
      exact Bool.eq_iff_iff.mpr h
  · rintro ⟨hrest, hflag⟩
    obtain ⟨fresh, hfresh⟩ :
        ∃ fresh, construct H aging flag s.scheduler.timeout = .ok fresh :=
      exists_construct hcreate
    refine ⟨⟨fresh, hfresh, fun ops => ?_⟩, fun ops request prediction now hfails => ?_⟩
    · exact (twins_withContents hfresh hcreate hloop hsched hrest hflag).log_eq ops
    · rw [switches_iff hfails, isSome_fallback_run, hsome, hflag]

/-- What is left to show once the aging part has gone through. -/
theorem atomicAndEffective_iff_of_accepted [Inhabited Id] [IsStrictOrderedRing K]
    {config : List (String × ConfigValue K)}
    (hasked : s.requestedAging config = .ok aging) (ht : s.onReload config = (t, none))
    (hcreate : aging.create = .ok t.aging)
    (hloop : t.loopEnded = s.loopEnded)
    (hsched : t.scheduler = { s.scheduler with fallbackToFcfs := s.requestedFallback config }) :
    s.AtomicAndEffective M config ↔ s.Harmless config := by
  have heffective := effective_iff (M := M) hcreate hloop hsched
  simp only [AtomicAndEffective, Harmless, ht, hasked, hcreate, Except.ok.injEq]
  rw [← heffective]
  simp

/-- **When a reload is atomic and effective**: exactly where it is harmless.
Where it raises, `AgingConfig(**…)` must have raised, or what it built is the
configuration there was. Where it does not, the requested flag must be true
exactly if the scheduler has had a fallback from its construction on. -/
theorem atomicAndEffective_iff [Inhabited Id] [IsStrictOrderedRing K] (s : ReloadableScheduler H)
    (config : List (String × ConfigValue K)) :
    s.AtomicAndEffective M config ↔ s.Harmless config := by
  rcases hkey : config.lookup "aging" with - | value
  · have hasked : s.requestedAging config = .ok s.agingConfig := by rw [requestedAging, hkey]
    obtain ⟨t, ht, haging, hmade, hloop, hsched⟩ := reloaded_fallback s config
    have hreload : s.onReload config = (t, none) := by
      rw [onReload, hkey]
      exact ht
    rcases hcreate : s.agingConfig.create with error | made
    · -- a scheduler that an earlier reload has left with a refused configuration
      simp only [AtomicAndEffective, Harmless, hreload, hasked, hcreate, hkey]
      refine iff_of_false ?_ (by simp)
      rintro ⟨⟨aging, fresh, hsome, hfresh, -⟩, -⟩
      cases hsome
      have hok := (construct_eq_ok hfresh).1
      rw [hcreate] at hok
      cases hok
    · have hkept : s.agingConfig.create = .ok t.aging := by
        rw [hmade, hcreate, s.created made hcreate]
      exact atomicAndEffective_iff_of_accepted hasked hreload hkept hloop hsched
  · have hasked : s.requestedAging config = value.agingConfig := by rw [requestedAging, hkey]
    rcases hvalue : value.agingConfig with error | aging <;> rw [hvalue] at hasked
    · -- `AgingConfig` raises before anything is assigned
      have hreload : s.onReload config = (s, some error) := by
        simp only [onReload, hkey, reloadAging, hvalue]
      simp [AtomicAndEffective, Harmless, hreload, hasked]
    · rcases hcreate : aging.create with error | made
      · obtain ⟨t, ht, hconfig, hmade, hsched⟩ :=
          reloadAging_refused (H := H) (s := s) hvalue hcreate
        have hreload : s.onReload config = (t, some error) := by
          simp only [onReload, hkey, ht]
        simp [AtomicAndEffective, Harmless, hreload, hasked, hcreate, hkey, hconfig, hmade, hsched]
      · obtain ⟨u, hu, hconfig, hmade, hended, hrest⟩ :=
          reloadAging_accepted (H := H) (s := s) hvalue hcreate
        obtain ⟨t, ht, haging, hmade', hloop, hsched⟩ := reloaded_fallback u config
        have hreload : s.onReload config = (t, none) := by
          simp only [onReload, hkey, hu]
          exact ht
        have hflag : u.requestedFallback config = s.requestedFallback config := by
          rw [requestedFallback, requestedFallback, hrest]
        rw [hrest, hflag] at hsched
        have hkept : aging.create = .ok t.aging := by rw [hmade', hmade, hcreate]
        exact atomicAndEffective_iff_of_accepted hasked hreload hkept (hloop.trans hended) hsched

end Reload

/-! ## A reload half done, and one without effect -/

/-- The default configuration. -/
def defaultConfig : RawAgingConfig ℚ := ⟨.text "linear", .number (1 / 1000), .number 500, .number 0⟩

/-- A scheduler constructed with it. -/
def demo (fallbackToFcfs : Bool) :
    ReloadableScheduler (listHeap PrioritizedItem.key : RequestHeap String ℚ) where
  scheduler := SJFScheduler.init _ (AgingConfig.default ℚ) fallbackToFcfs 300
  agingConfig := defaultConfig
  aging := ⟨.linear, defaultConfig⟩
  loopEnded := false
  created := fun _ h => (Except.ok.inj h).symm

/-- A policy that `create_aging` does not know. -/
def unknownPolicy : List (String × ConfigValue ℚ) :=
  [("aging", .mapping [(some "policy", .text "quadratic")])]

/-- The flag alone. -/
def newFlag (flag : Bool) : List (String × ConfigValue ℚ) := [("fallback_to_fcfs", .bool flag)]

/-- A request the predictor has to be asked about. -/
def unpredicted : ScheduledRequest String ℚ := ⟨"a", "", 128, 0, 0⟩

/-- The flag the scheduler was constructed with may be set again. -/
theorem reload_same_flag :
    (demo true).AtomicAndEffective MathFns.firstOrder (newFlag true) :=
  (atomicAndEffective_iff _ _).mpr ⟨⟨rfl, rfl, rfl⟩, rfl⟩

/-- **A reload half done, and one without effect.** An unknown policy raises
after `aging_config` has been assigned. A flag that is taken back leaves a
scheduler that switches, and one that is set leaves one that does not. -/
theorem reload_not_atomic_nor_effective :
    ((demo true).onReload unknownPolicy).2 = some .keyError ∧
    ((demo true).onReload unknownPolicy).1.agingConfig ≠ (demo true).agingConfig ∧
    PredictionFails unpredicted none ∧
    ((demo true).onReload (newFlag false)).2 = none ∧
    ((demo true).onReload (newFlag false)).1.scheduler.fallbackToFcfs = false ∧
    Switches MathFns.firstOrder ((demo true).onReload (newFlag false)).1 unpredicted none 0 ∧
    ((demo false).onReload (newFlag true)).2 = none ∧
    ((demo false).onReload (newFlag true)).1.scheduler.fallbackToFcfs = true ∧
    ¬ Switches MathFns.firstOrder ((demo false).onReload (newFlag true)).1 unpredicted none 0 := by
  refine ⟨by decide +kernel, ?_, by decide +kernel, by decide +kernel, by decide +kernel, ?_,
    by decide +kernel, by decide +kernel, ?_⟩
  · intro hsame
    have hpolicy : ConfigValue.text "quadratic" = (ConfigValue.text "linear" : ConfigValue ℚ) :=
      congrArg RawAgingConfig.policy hsame
    exact absurd (ConfigValue.text.inj hpolicy) (by decide)
  · rw [Switches]
    decide +kernel
  · rw [Switches]
    decide +kernel

end ReloadableScheduler

end VllmScheduler
