import Mathlib.Algebra.BigOperators.Group.List.Basic
import Mathlib.Algebra.Order.BigOperators.Group.List
import Mathlib.Tactic.Linarith
import VllmScheduler.Scheduler.Orderly
/-!
# Aging compounds

A tick computes the new priority of a request from its whole wait, but from
the priority the last tick left and not from the predicted length. So the
deductions of the ticks add up: a request stands at its predicted length
less the sum of every deduction that passed the threshold. Each of them is
capped at `max_boost`; their sum is not.

`agedWaits` lists the waits at which the aging loop has handled a request.
One deduction is what the policy means to take off, and a second one is too
much: the priority is within the threshold of one application of the policy
exactly where at most one of the waits passes it.
-/

namespace VllmScheduler

variable {Id K : Type} [Field K] [LinearOrder K]

/-! ## Deductions -/

/-- What one application of a policy takes off after a wait. -/
def AgingFunction.deduction (M : MathFns K) (f : AgingFunction K) (w : K) : K :=
  min (f.rise M w) f.config.maxBoost

/-- The deduction is large enough for the aging loop to act on it. -/
def AgingFunction.Bites (M : MathFns K) (f : AgingFunction K) (w : K) : Prop :=
  1 / 100 < f.deduction M w

instance (M : MathFns K) (f : AgingFunction K) (w : K) : Decidable (f.Bites M w) :=
  inferInstanceAs (Decidable (1 / 100 < f.deduction M w))

/-- What a list of waits has taken off. -/
def AgingFunction.taken (M : MathFns K) (f : AgingFunction K) (waits : List K) : K :=
  ((waits.filter fun w => f.Bites M w).map (f.deduction M)).sum

section Deductions

variable {M : MathFns K} {f : AgingFunction K} {w w' p : K} {waits : List K}

theorem AgingFunction.boost_eq_sub : f.boost M w p = p - f.deduction M w := f.boost_eq

@[simp] theorem AgingFunction.taken_nil : f.taken M [] = 0 := rfl

theorem AgingFunction.taken_snoc_of_bites (h : f.Bites M w) :
    f.taken M (waits ++ [w]) = f.taken M waits + f.deduction M w := by
  simp [taken, List.filter_append, h]

theorem AgingFunction.taken_snoc_of_not_bites (h : ¬ f.Bites M w) :
    f.taken M (waits ++ [w]) = f.taken M waits := by
  simp [taken, List.filter_append, h]

variable [IsStrictOrderedRing K]

theorem AgingFunction.deduction_mono (hf : 0 ≤ f.config.factor) (hw : 0 ≤ w) (hww : w ≤ w') :
    f.deduction M w ≤ f.deduction M w' := f.min_rise_mono hf hw hww

theorem AgingFunction.rise_zero : f.rise M 0 = 0 := by
  cases f with
  | linearAging config => exact mul_zero _
  | logarithmicAging config => simp [rise, M.log1p_zero]
  | exponentialAging config => simp [rise, M.exp_zero]

theorem AgingFunction.deduction_nonneg (hf : 0 ≤ f.config.factor) (hb : 0 ≤ f.config.maxBoost)
    (hw : 0 ≤ w) : 0 ≤ f.deduction M w := by
  refine le_min ?_ hb
  calc
    0 = f.rise M 0 := f.rise_zero.symm
    _ ≤ f.rise M w := f.rise_mono hf le_rfl hw

/-- Waits that bite take off more than the threshold each. -/
theorem AgingFunction.lt_taken (h : ∀ w ∈ waits, f.Bites M w) (hne : waits ≠ []) :
    1 / 100 < (waits.map (f.deduction M)).sum := by
  have hpos : ∀ d ∈ waits.map (f.deduction M), 0 ≤ d := by
    intro d hd
    obtain ⟨w, hw, rfl⟩ := List.mem_map.mp hd
    have hbite : 1 / 100 < f.deduction M w := h w hw
    linarith
  obtain ⟨w, rest, rfl⟩ := List.exists_cons_of_ne_nil hne
  rw [List.map_cons, List.sum_cons]
  have hrest : 0 ≤ (rest.map (f.deduction M)).sum :=
    List.sum_nonneg fun d hd => hpos d (List.mem_cons_of_mem _ hd)
  have hbite : 1 / 100 < f.deduction M w := h w List.mem_cons_self
  linarith

omit [IsStrictOrderedRing K] in
theorem AgingFunction.taken_eq_zero (h : (waits.filter fun w => f.Bites M w) = []) :
    f.taken M waits = 0 := by
  rw [taken, h]
  rfl

theorem AgingFunction.lt_taken_of_ne_nil (h : (waits.filter fun w => f.Bites M w) ≠ []) :
    1 / 100 < f.taken M waits :=
  lt_taken (fun _ hw => by simpa using (List.mem_filter.mp hw).2) h

/-- **One deduction is what the policy means, two are too much.** After
growing waits of which the last is `w`, what was taken off stays within the
cap and within the threshold of one deduction at `w` exactly where at most
one of the waits bites. -/
theorem AgingFunction.taken_within_iff (hf : 0 ≤ f.config.factor) (hb : 0 ≤ f.config.maxBoost)
    (hsorted : (waits ++ [w]).Pairwise (· ≤ ·)) (hnonneg : ∀ v ∈ waits ++ [w], 0 ≤ v) :
    (f.taken M (waits ++ [w]) ≤ f.config.maxBoost ∧
        |f.taken M (waits ++ [w]) - f.deduction M w| ≤ 1 / 100) ↔
      ((waits ++ [w]).filter fun v => f.Bites M v).length ≤ 1 := by
  have hcap : f.deduction M w ≤ f.config.maxBoost := min_le_right _ _
  have hw : 0 ≤ f.deduction M w := f.deduction_nonneg hf hb (hnonneg w (by simp))
  by_cases hbite : f.Bites M w
  · have hlen : ((waits ++ [w]).filter fun v => f.Bites M v).length =
        (waits.filter fun v => f.Bites M v).length + 1 := by
      simp [List.filter_append, hbite]
    rw [taken_snoc_of_bites hbite, hlen, add_sub_cancel_right]
    constructor
    · rintro ⟨-, habs⟩
      by_contra hmany
      -- the waits before the last one have taken off too much already
      have hne : (waits.filter fun v => f.Bites M v) ≠ [] := by
        rintro hnil
        rw [hnil] at hmany
        simp at hmany
      have hlt : 1 / 100 < f.taken M waits := lt_taken_of_ne_nil hne
      exact absurd (le_abs_self (f.taken M waits)) (not_le.mpr (habs.trans_lt hlt))
    · intro hone
      have hnil : (waits.filter fun v => f.Bites M v) = [] :=
        List.length_eq_zero_iff.mp (by omega)
      rw [taken_eq_zero hnil, zero_add, abs_zero]
      exact ⟨hcap, by norm_num⟩
  · -- the last wait is the longest, so none before it bites either
    have hnil : (waits.filter fun v => f.Bites M v) = [] := by
      rw [List.filter_eq_nil_iff]
      intro v hv
      have hvw : v ≤ w := (List.pairwise_append.mp hsorted).2.2 v hv w (by simp)
      have hle : f.deduction M v ≤ f.deduction M w :=
        f.deduction_mono hf (hnonneg v (List.mem_append_left _ hv)) hvw
      have hnb : f.deduction M w ≤ 1 / 100 := not_lt.mp hbite
      simpa [Bites] using hle.trans hnb
    have hsmall : f.deduction M w ≤ 1 / 100 := not_lt.mp hbite
    rw [taken_snoc_of_not_bites hbite, taken_eq_zero hnil, zero_sub, abs_neg, abs_of_nonneg hw]
    refine iff_of_true ⟨hb, hsmall⟩ ?_
    simp [List.filter_append, hnil, hbite]

end Deductions

/-! ## What a run takes off -/

section Runs

variable [DecidableEq Id] {H : RequestHeap Id K} {M : MathFns K}

/-- The wait at which a step of the aging loop handles the request with id
`i` without dropping it. -/
def SJFScheduler.agedWait (i : Id) (s : SJFScheduler H) : SJFOp Id K → Option K
  | .age =>
    match s.tickRest with
    | [] => none
    | (j, request) :: _ =>
      if j = i ∧ ¬ s.TimedOut request then some (s.tickNow - request.enqueueTime) else none
  | _ => none

/-- The waits at which a run has handled the request with id `i`. -/
def agedWaits (M : MathFns K) (s : SJFScheduler H) (ops : List (SJFOp Id K)) (i : Id) : List K :=
  (SJFScheduler.machine M H).notes (SJFScheduler.agedWait i) s ops

/-- The requests of a list of entries are submissions under their ids. -/
def Submitted (l : List (Id × ScheduledRequest Id K)) (ops : List (SJFOp Id K)) : Prop :=
  ∀ e ∈ l, ∃ t, (e.2, t) ∈ submissions ops ∧ e.2.requestId = e.1

/-- **The account of the aging loop.** `waits` are the waits at which it has
handled each request so far. -/
structure SJFCore.Aged (M : MathFns K) (c : SJFCore H) (ops : List (SJFOp Id K))
    (waits : Id → List K) : Prop where
  pending : Submitted c.pending.entries ops
  tickRest : Submitted c.tickRest ops
  waited : ∀ e ∈ c.tickRest, e.2.enqueueTime ≤ c.tickNow
  read : c.tickNow ∈ readings ops ∨ c.tickRest = [] ∧ ∀ i, waits i = []
  fresh : ∀ i, i ∉ submittedIds ops → waits i = []
  sorted : ∀ i, (waits i).Pairwise (· ≤ ·)
  range : ∀ e ∈ submissions ops, ∀ w ∈ waits e.1.requestId,
    0 ≤ w ∧ w ≤ c.tickNow - e.1.enqueueTime
  priority : ∀ e ∈ submissions ops,
    c.priority e.1.requestId = e.1.predictedTokens - c.aging.taken M (waits e.1.requestId)

variable {c c' : SJFCore H} {ops : List (SJFOp Id K)} {op : SJFOp Id K} {waits : Id → List K}

omit [DecidableEq Id] in
theorem Submitted.extend {l : List (Id × ScheduledRequest Id K)} (h : Submitted l ops) :
    Submitted l (ops ++ [op]) := by
  intro e he
  obtain ⟨t, ht, hid⟩ := h e he
  exact ⟨t, by rw [submissions_snoc]; exact List.mem_append_left _ ht, hid⟩

omit [DecidableEq Id] in
theorem mem_submittedIds_of_mem {e : ScheduledRequest Id K × K} (he : e ∈ submissions ops) :
    e.1.requestId ∈ submittedIds ops := by
  rw [← map_requestId_submissions]
  exact List.mem_map_of_mem he

namespace SJFCore.Aged

omit [DecidableEq Id] in
/-- A step that submits nothing leaves the account as it is. -/
theorem extend (h : c.Aged M ops waits) (hop : op.submission = none) :
    c.Aged M (ops ++ [op]) waits := by
  have hsubs : submissions (ops ++ [op]) = submissions ops := by simp [submissions_snoc, hop]
  have hids : submittedIds (ops ++ [op]) = submittedIds ops := by
    rw [← map_requestId_submissions, hsubs, map_requestId_submissions]
  refine ⟨h.pending.extend, h.tickRest.extend, h.waited, ?_, ?_, h.sorted, ?_, ?_⟩
  · rw [readings_snoc, List.mem_append]
    exact h.read.imp_left Or.inl
  · rw [hids]
    exact h.fresh
  · rw [hsubs]
    exact h.range
  · rw [hsubs]
    exact h.priority

omit [DecidableEq Id] in
/-- So does one that only takes entries out of `_pending`. -/
theorem trim (h : c.Aged M ops waits) (hpend : c'.pending.entries ⊆ c.pending.entries)
    (hrest : c'.tickRest = c.tickRest) (hnow : c'.tickNow = c.tickNow)
    (hprio : c'.priority = c.priority) (hag : c'.aging = c.aging) : c'.Aged M ops waits where
  pending := fun e he => h.pending e (hpend he)
  tickRest := by rw [hrest]; exact h.tickRest
  waited := by rw [hrest, hnow]; exact h.waited
  read := by rw [hrest, hnow]; exact h.read
  fresh := h.fresh
  sorted := h.sorted
  range := by rw [hnow]; exact h.range
  priority := by rw [hprio, hag]; exact h.priority

/-- A new request has been handled at no wait, and stands at its predicted
length. -/
theorem submit (h : c.Aged M ops waits) {x : ScheduledRequest Id K} {now : K}
    (hop : op.submission = some (x, now)) (hnew : x.requestId ∉ submittedIds ops)
    (hpend : ∀ e ∈ c'.pending.entries, e = (x.requestId, x) ∨ e ∈ c.pending.entries)
    (hrest : c'.tickRest = c.tickRest) (hnow : c'.tickNow = c.tickNow)
    (hprio : c'.priority = Function.update c.priority x.requestId x.predictedTokens)
    (hag : c'.aging = c.aging) : c'.Aged M (ops ++ [op]) waits := by
  have hsubs : submissions (ops ++ [op]) = submissions ops ++ [(x, now)] := by
    simp [submissions_snoc, hop]
  have hmem : ∀ e ∈ submissions (ops ++ [op]), e ∈ submissions ops ∨ e = (x, now) := by
    intro e he
    rw [hsubs, List.mem_append] at he
    exact he.imp_right List.mem_singleton.mp
  have hnone : waits x.requestId = [] := h.fresh _ hnew
  refine ⟨?_, by rw [hrest]; exact h.tickRest.extend, by rw [hrest, hnow]; exact h.waited, ?_, ?_,
    h.sorted, ?_, ?_⟩
  · intro e he
    rcases hpend e he with rfl | he
    · exact ⟨now, by simp [hsubs], rfl⟩
    · exact h.pending.extend e he
  · rw [hrest, hnow, readings_snoc, List.mem_append]
    exact h.read.imp_left Or.inl
  · intro i hi
    refine h.fresh i fun hold => hi ?_
    rw [submittedIds_snoc]
    exact List.mem_append_left _ hold
  · intro e he w hw
    rcases hmem e he with he | rfl
    · rw [hnow]
      exact h.range e he w hw
    · rw [hnone] at hw
      cases hw
  · intro e he
    rw [hprio, hag]
    rcases hmem e he with he | rfl
    · have hne : e.1.requestId ≠ x.requestId := fun heq =>
        hnew (heq ▸ mem_submittedIds_of_mem he)
      rw [Function.update_of_ne hne]
      exact h.priority e he
    · rw [Function.update_self, hnone, AgingFunction.taken_nil, sub_zero]

variable [IsStrictOrderedRing K]

omit [DecidableEq Id] in
/-- A tick reads a later clock and copies `_pending`. -/
theorem tick (h : c.Aged M ops waits) {now : K}
    (hclock : ∀ t ∈ readings ops, t ≤ now)
    (hcreated : ∀ e ∈ submissions ops, e.1.enqueueTime ≤ now) :
    SJFCore.Aged M { c with tickNow := now, tickRest := c.pending.entries }
      (ops ++ [.tick now]) waits := by
  have hsubs : submissions (ops ++ [.tick now]) = submissions ops := by
    simp [submissions_snoc, SJFOp.submission]
  have hext : c.Aged M (ops ++ [.tick now]) waits := h.extend rfl
  refine ⟨hext.pending, hext.pending, ?_, ?_, hext.fresh, h.sorted, ?_, hext.priority⟩
  · intro e he
    obtain ⟨t, ht, -⟩ := h.pending e he
    exact hcreated _ ht
  · refine Or.inl ?_
    rw [readings_snoc]
    simp [SJFOp.reading]
  · intro e he w hw
    rw [hsubs] at he
    obtain ⟨hpos, hle⟩ := h.range e he w hw
    rcases h.read with hread | ⟨-, hnone⟩
    · exact ⟨hpos, hle.trans (sub_le_sub_right (hclock _ hread) _)⟩
    · rw [hnone] at hw
      cases hw

omit [DecidableEq Id] [IsStrictOrderedRing K] in
/-- While a snapshot is being worked off its tick has read the clock, and
what is left of it is as the whole was. -/
theorem tail (h : c.Aged M ops waits) {e : Id × ScheduledRequest Id K}
    {rest : List (Id × ScheduledRequest Id K)} (hr : c.tickRest = e :: rest) :
    c.tickNow ∈ readings ops ∧ Submitted rest ops ∧
      ∀ e ∈ rest, e.2.enqueueTime ≤ c.tickNow := by
  have hsub : ∀ e ∈ rest, e ∈ c.tickRest := by
    rw [hr]
    exact fun _ => List.mem_cons_of_mem _
  refine ⟨h.read.resolve_right fun hnone => ?_, fun e he => h.tickRest e (hsub e he),
    fun e he => h.waited e (hsub e he)⟩
  rw [hr] at hnone
  exact List.cons_ne_nil _ _ hnone.1

omit [DecidableEq Id] [IsStrictOrderedRing K] in
/-- The aging loop passes over the head of its snapshot. -/
theorem skip (h : c.Aged M ops waits) {e : Id × ScheduledRequest Id K}
    {rest : List (Id × ScheduledRequest Id K)} (hr : c.tickRest = e :: rest)
    (hpend : c'.pending.entries ⊆ c.pending.entries) (hrest : c'.tickRest = rest)
    (hnow : c'.tickNow = c.tickNow) (hprio : c'.priority = c.priority)
    (hag : c'.aging = c.aging) : c'.Aged M ops waits where
  pending := fun e he => h.pending e (hpend he)
  tickRest := by rw [hrest]; exact (h.tail hr).2.1
  waited := by rw [hrest, hnow]; exact (h.tail hr).2.2
  read := by rw [hnow]; exact Or.inl (h.tail hr).1
  fresh := h.fresh
  sorted := h.sorted
  range := by rw [hnow]; exact h.range
  priority := by rw [hprio, hag]; exact h.priority

/-- The aging loop handles the head of its snapshot: one more wait, and one
more deduction where it bites. -/
theorem visit (h : c.Aged M ops waits) (hids : DistinctIds ops) {i : Id}
    {request : ScheduledRequest Id K} {rest : List (Id × ScheduledRequest Id K)}
    (hr : c.tickRest = (i, request) :: rest)
    (hpend : c'.pending = c.pending) (hrest : c'.tickRest = rest) (hnow : c'.tickNow = c.tickNow)
    (hag : c'.aging = c.aging)
    (hprio : c'.priority = Function.update c.priority i
      (if c.aging.Bites M (c.tickNow - request.enqueueTime) then
        c.priority i - c.aging.deduction M (c.tickNow - request.enqueueTime)
      else c.priority i)) :
    c'.Aged M ops fun j =>
      waits j ++ (if i = j then some (c.tickNow - request.enqueueTime) else none).toList := by
  set w := c.tickNow - request.enqueueTime
  have hids' : ((submissions ops).map fun e => e.1.requestId).Nodup := by
    rwa [map_requestId_submissions]
  have hhead : (i, request) ∈ c.tickRest := by
    rw [hr]
    exact List.mem_cons_self
  obtain ⟨t, ht, hid⟩ := h.tickRest _ hhead
  -- the submission of this id is the request of the snapshot
  have hthis : ∀ e ∈ submissions ops, e.1.requestId = i → e = (request, t) := fun e he heq =>
    eq_of_requestId_eq hids' he ht (heq.trans hid.symm)
  have hpos : 0 ≤ w := sub_nonneg.mpr (h.waited _ hhead)
  have hself : waits i ++ (if i = i then some w else none).toList = waits i ++ [w] := by simp
  have hother : ∀ {j}, j ≠ i → waits j ++ (if i = j then some w else none).toList = waits j := by
    intro j hj
    simp [Ne.symm hj]
  have hle : ∀ v ∈ waits i, v ≤ w := by
    intro v hv
    have := (h.range (request, t) ht v (by rwa [hid])).2
    exact this
  obtain ⟨hread, hsubmitted, hwaited⟩ := h.tail hr
  refine ⟨by rw [hpend]; exact h.pending, by rw [hrest]; exact hsubmitted,
    by rw [hrest, hnow]; exact hwaited, by rw [hnow]; exact Or.inl hread, ?_, ?_, ?_, ?_⟩
  · intro j hj
    have hji : j ≠ i := by
      rintro rfl
      have hmem := mem_submittedIds_of_mem ht
      rw [hid] at hmem
      exact hj hmem
    rw [hother hji]
    exact h.fresh j hj
  · intro j
    by_cases hji : j = i
    · subst hji
      rw [hself, List.pairwise_append]
      refine ⟨h.sorted j, List.pairwise_singleton _ _, fun v hv v' hv' => ?_⟩
      rw [List.mem_singleton.mp hv']
      exact hle v hv
    · rw [hother hji]
      exact h.sorted j
  · intro e he v hv
    rw [hnow]
    by_cases hji : e.1.requestId = i
    · obtain rfl := hthis e he hji
      rw [hji, hself, List.mem_append, List.mem_singleton] at hv
      rcases hv with hv | rfl
      · exact h.range _ he v (by rwa [hji])
      · exact ⟨hpos, le_rfl⟩
    · rw [hother hji] at hv
      exact h.range e he v hv
  · intro e he
    rw [hprio, hag]
    by_cases hji : e.1.requestId = i
    · rw [hji, Function.update_self, hself]
      have hold := h.priority e he
      rw [hji] at hold
      by_cases hb : c.aging.Bites M w
      · rw [if_pos hb, AgingFunction.taken_snoc_of_bites hb, hold, sub_add_eq_sub_sub]
      · rw [if_neg hb, AgingFunction.taken_snoc_of_not_bites hb, hold]
    · rw [Function.update_of_ne hji, hother hji]
      exact h.priority e he

end SJFCore.Aged

namespace SJFScheduler

variable {s : SJFScheduler H} [IsStrictOrderedRing K]

omit [DecidableEq Id] in
/-- The threshold test of the aging loop is about the deduction alone. -/
theorem lowers_iff_bites {i : Id} {request : ScheduledRequest Id K} :
    s.Lowers M i request ↔ s.aging.Bites M (s.tickNow - request.enqueueTime) := by
  rw [Lowers, newPriority, AgingFunction.boost_eq_sub, AgingFunction.Bites]
  exact sub_lt_sub_iff_left _

/-- A step of the aging loop keeps the account. -/
theorem aged_age (h : s.core.Aged M ops waits) (hids : DistinctIds ops) :
    (s.age M).1.core.Aged M ops fun j => waits j ++ (s.agedWait j .age).toList := by
  rcases hr : s.tickRest with - | ⟨⟨i, request⟩, rest⟩
  · have hage : s.age M = (s, .done) := by simp only [age, hr]
    have hnone : ∀ j, s.agedWait j .age = none := fun j => by simp only [agedWait, hr]
    simpa [hage, hnone] using h
  · have hrest : s.core.tickRest = (i, request) :: rest := hr
    by_cases ht : s.TimedOut request
    · have hnone : ∀ j, s.agedWait j .age = none := fun j => by simp [agedWait, hr, ht]
      have hage : (s.age M).1 = (({ s with tickRest := rest } : SJFScheduler H).cancel i).1 := by
        have ht' : ({ s with tickRest := rest } : SJFScheduler H).TimedOut request := ht
        simp only [age, hr, if_pos ht']
      simp only [hnone, Option.toList_none, List.append_nil]
      rw [hage, core_cancel]
      exact h.skip hrest Dict.entries_erase_sublist.subset rfl rfl rfl rfl
    · have hsome : ∀ j, s.agedWait j .age =
          if i = j then some (s.tickNow - request.enqueueTime) else none := fun j => by
        simp [agedWait, hr, ht]
      have ht' : ¬ ({ s with tickRest := rest } : SJFScheduler H).TimedOut request := ht
      simp only [hsome]
      by_cases hl : s.Lowers M i request
      · have hl' : ({ s with tickRest := rest } : SJFScheduler H).Lowers M i request := hl
        have hage : (s.age M).1.core =
            { s.core with
              tickRest := rest
              queue := (s.queue.updatePriority i (s.newPriority M i request)).1
              priority := Function.update s.priority i (s.newPriority M i request) } := by
          simp only [age, hr, if_neg ht', if_pos hl']
          rfl
        rw [hage]
        refine h.visit hids hrest rfl rfl rfl rfl ?_
        have hb : s.core.aging.Bites M (s.core.tickNow - request.enqueueTime) :=
          lowers_iff_bites.mp hl
        rw [if_pos hb]
        exact congrArg (Function.update s.priority i) AgingFunction.boost_eq_sub
      · have hl' : ¬ ({ s with tickRest := rest } : SJFScheduler H).Lowers M i request := hl
        have hage : (s.age M).1.core = { s.core with tickRest := rest } := by
          simp only [age, hr, if_neg ht', if_neg hl']
          rfl
        rw [hage]
        refine h.visit hids hrest rfl rfl rfl rfl ?_
        have hb : ¬ s.core.aging.Bites M (s.core.tickNow - request.enqueueTime) := fun hb =>
          hl (lowers_iff_bites.mpr hb)
        rw [if_neg hb, Function.update_eq_self]

/-- **A step keeps the account.** -/
theorem aged_step (h : s.core.Aged M ops waits) (hids : DistinctIds ops)
    (hnew : ∀ i, op.submittedId = some i → i ∉ submittedIds ops)
    (hclock : ∀ now, op.reading = some now → ∀ t ∈ readings ops, t ≤ now)
    (hcreated : ∀ e ∈ submissions ops, e.1.enqueueTime ≤ e.2) :
    (s.step M op).1.core.Aged M (ops ++ [op]) fun j =>
      waits j ++ (s.agedWait j op).toList := by
  by_cases hage : op = .age
  · subst hage
    exact (aged_age h hids).extend rfl
  · have hnone : ∀ j, s.agedWait j op = none := by
      intro j
      cases op <;> first | rfl | exact absurd rfl hage
    simp only [hnone, Option.toList_none, List.append_nil]
    have hstep := coreStep_step (M := M) (s := s) op
    generalize (s.step M op).1.core = c' at hstep
    generalize (s.step M op).2 = out at hstep
    cases hstep with
    | enqueue request prediction now _ =>
      have hid := ScheduledRequest.predicted_requestId request prediction
      refine h.submit rfl (hnew _ rfl) ?_ rfl rfl ?_ rfl
      · intro e he
        rw [hid]
        exact Dict.mem_entries_set he
      · rw [hid]
    | divert request prediction now _ _ =>
      have hid := ScheduledRequest.predicted_requestId request prediction
      refine h.submit rfl (hnew _ rfl) (fun e he => Or.inr he) rfl rfl ?_ rfl
      rw [hid]
    | dequeue op now hop =>
      have hsub : op.submission = none := by rcases hop with ⟨rfl, -⟩ | rfl <;> rfl
      exact SJFCore.Aged.trim (h.extend hsub) (fun _ he => he) rfl rfl rfl rfl
    | popFallback now request rest _ _ =>
      exact SJFCore.Aged.trim (h.extend rfl) (fun _ he => he) rfl rfl rfl rfl
    | emptyFallback now _ _ => exact h.extend rfl
    | cancel i =>
      exact SJFCore.Aged.trim (h.extend rfl) Dict.entries_erase_sublist.subset rfl rfl rfl rfl
    | complete i success =>
      exact SJFCore.Aged.trim (h.extend rfl) Dict.entries_erase_sublist.subset rfl rfl rfl rfl
    | tick now _ =>
      refine h.tick (hclock now rfl) fun e he => (hcreated e he).trans ?_
      exact hclock now rfl e.2 (mem_readings_of_submission he)
    | expire => exact absurd rfl hage
    | lower => exact absurd rfl hage
    | keep => exact absurd rfl hage
    | idle op out hsub _ _ =>
      refine h.extend ?_
      cases op <;> first | rfl | cases hsub

variable {config : AgingConfig K} {fallbackToFcfs : Bool} {timeout : K}

/-- **The account of a run.** -/
theorem aged_run (hids : DistinctIds ops) (hclock : (readings ops).Pairwise (· ≤ ·))
    (hcreated : ∀ e ∈ submissions ops, e.1.enqueueTime ≤ e.2) :
    ((machine M H).run (init H config fallbackToFcfs timeout) ops).core.Aged M ops
      (agedWaits M (init H config fallbackToFcfs timeout) ops) := by
  refine Machine.log_inv (M := machine M H)
    (H := fun ops => DistinctIds ops ∧ (readings ops).Pairwise (· ≤ ·) ∧
      ∀ e ∈ submissions ops, e.1.enqueueTime ≤ e.2)
    (I := fun ops _ s => s.core.Aged M ops
      (agedWaits M (init H config fallbackToFcfs timeout) ops)) ?_ ?_ ?_ ⟨hids, hclock, hcreated⟩
  · rintro ops op ⟨hids, hclock, hcreated⟩
    refine ⟨hids.of_snoc.1, ?_, fun e he => hcreated e ?_⟩
    · rw [readings_snoc] at hclock
      exact (List.pairwise_append.mp hclock).1
    · rw [submissions_snoc]
      exact List.mem_append_left _ he
  · refine ⟨?_, ?_, ?_, Or.inr ⟨rfl, fun _ => rfl⟩, fun _ _ => rfl, fun _ => List.Pairwise.nil,
      ?_, ?_⟩
    · exact fun e he => nomatch he
    · exact fun e he => nomatch he
    · exact fun e he => nomatch he
    · exact fun e he => nomatch he
    · exact fun e he => nomatch he
  · rintro ops op ⟨hids, hclock, hcreated⟩ h
    rw [readings_snoc, List.pairwise_append] at hclock
    have hstep := aged_step h hids.of_snoc.1 hids.of_snoc.2
      (fun now hnow t ht => hclock.2.2 t ht now (by simp [hnow]))
      (fun e he => hcreated e (by rw [submissions_snoc]; exact List.mem_append_left _ he))
    have hwaits : agedWaits M (init H config fallbackToFcfs timeout) (ops ++ [op]) = fun j =>
        agedWaits M (init H config fallbackToFcfs timeout) ops j ++
          (agedWait j ((machine M H).run (init H config fallbackToFcfs timeout) ops)
            op).toList := by
      funext j
      exact Machine.notes_snoc
    rw [hwaits]
    exact hstep

/-- **Where aging keeps to its bound.** For every policy with a nonnegative
factor and cap, every run with distinct ids and a clock that does not go
back, and every request the aging loop has handled, at the wait `w` last:
its priority is at least the predicted length less `max_boost` and within
0.01 of what one tick at that time would give, exactly where the loop has
acted on at most one of its waits. -/
theorem aging_bounded_iff (hf : 0 ≤ config.factor) (hb : 0 ≤ config.maxBoost)
    (hids : DistinctIds ops) (hclock : (readings ops).Pairwise (· ≤ ·))
    (hcreated : ∀ e ∈ submissions ops, e.1.enqueueTime ≤ e.2)
    {request : ScheduledRequest Id K} {t w : K} (hsub : (request, t) ∈ submissions ops)
    (hlast : (agedWaits M (init H config fallbackToFcfs timeout) ops
      request.requestId).getLast? = some w) :
    (request.predictedTokens - config.maxBoost ≤
        ((machine M H).run (init H config fallbackToFcfs timeout) ops).priority
          request.requestId ∧
      |((machine M H).run (init H config fallbackToFcfs timeout) ops).priority
          request.requestId - (createAging config).boost M w request.predictedTokens| ≤
        1 / 100) ↔
    ((agedWaits M (init H config fallbackToFcfs timeout) ops request.requestId).filter
      fun v => (createAging config).Bites M v).length ≤ 1 := by
  have h : ((machine M H).run (init H config fallbackToFcfs timeout) ops).core.Aged M ops
      (agedWaits M (init H config fallbackToFcfs timeout) ops) := aged_run hids hclock hcreated
  obtain ⟨waits, hwaits⟩ := List.getLast?_eq_some_iff.mp hlast
  have hprio := h.priority _ hsub
  have hsorted := h.sorted request.requestId
  have hrange := h.range _ hsub
  simp only [hwaits] at hprio hsorted hrange
  rw [hwaits]
  set s := (machine M H).run (init H config fallbackToFcfs timeout) ops
  set f := createAging config with hfdef
  have hconfig : f.config = config := createAging_config config
  have haging : s.core.aging = f := aging_run
  rw [haging] at hprio
  have hprio' : s.priority request.requestId =
      request.predictedTokens - f.taken M (waits ++ [w]) := hprio
  -- both sides speak about what was taken off
  have hbound : request.predictedTokens - config.maxBoost ≤ s.priority request.requestId ↔
      f.taken M (waits ++ [w]) ≤ f.config.maxBoost := by
    rw [hprio', hconfig]
    exact sub_le_sub_iff_left _
  have hdist : |s.priority request.requestId - f.boost M w request.predictedTokens| =
      |f.taken M (waits ++ [w]) - f.deduction M w| := by
    rw [hprio', AgingFunction.boost_eq_sub, sub_sub_sub_cancel_left, abs_sub_comm]
  rw [hbound, hdist]
  exact AgingFunction.taken_within_iff (by rwa [hconfig]) (by rwa [hconfig]) hsorted
    fun v hv => (hrange v hv).1

/-- A request predicted at 100 tokens and two ticks, at 20 and 40 seconds. -/
def twoTicks : List (SJFOp String ℚ) :=
  [chatSubmit "a" 0 100, .tick 20, .age, .tick 40, .age]

/-- A policy that reaches its cap. -/
def steepAging : AgingConfig ℚ := ⟨.linear, 1, 5, 0⟩

/-- Under the defaults the two ticks take off 0.02 and 0.04, and one at 40
seconds would take off 0.04. Under a steeper policy with a cap of 5 they
take off 5 each. -/
theorem twoTicks_compound :
    ((machine MathFns.firstOrder _).run defaultScheduler twoTicks).priority "a" = 100 - 6 / 100 ∧
    (createAging (AgingConfig.default ℚ)).boost MathFns.firstOrder 40 100 = 100 - 4 / 100 ∧
    ((machine MathFns.firstOrder (listHeap PrioritizedItem.key)).run
      (init _ steepAging true 300) twoTicks).priority "a" = 100 - 10 ∧
    agedWaits MathFns.firstOrder defaultScheduler twoTicks "a" = [20, 40] := by
  decide +kernel

/-- Three ticks of which only the last is late enough to act. -/
def lateTick : List (SJFOp String ℚ) :=
  [chatSubmit "a" 0 100, .tick 1, .age, .tick 5, .age, .tick 40, .age]

/-- One deduction stays within the bound. -/
theorem lateTick_bounded :
    100 - 500 ≤ ((machine MathFns.firstOrder _).run defaultScheduler lateTick).priority "a" ∧
    |((machine MathFns.firstOrder _).run defaultScheduler lateTick).priority "a" -
      (createAging (AgingConfig.default ℚ)).boost MathFns.firstOrder 40 100| ≤ 1 / 100 := by
  have hsub : ((⟨"a", "", 128, 100, 0⟩ : ScheduledRequest String ℚ), (0 : ℚ)) ∈
      submissions lateTick := by
    decide +kernel
  have hlast : (agedWaits MathFns.firstOrder
      (init (listHeap PrioritizedItem.key) (AgingConfig.default ℚ) true 300) lateTick
      "a").getLast? = some 40 := by
    decide +kernel
  exact (aging_bounded_iff (by decide +kernel) (by decide +kernel) (by decide +kernel)
    (by decide +kernel) (by decide +kernel) hsub hlast).mpr (by decide +kernel)

end SJFScheduler

end Runs

end VllmScheduler
