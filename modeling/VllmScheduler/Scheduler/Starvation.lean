import VllmScheduler.Scheduler.Compounding
import VllmScheduler.Scheduler.Overtaking
/-!
# Aging prevents starvation

A long request is passed by shorter ones that come later. Every tick that
acts on it takes something off its priority, and since the ticks add up,
newcomers stop passing it: once it stands at or below a length `L`, a
request submitted from then on and predicted at `L` tokens or more is not
acquired while it waits. `Guarded` is the invariant, about one request and
its newcomers. It starts out true, since at first there are none, and is
kept as `Ranked` is, for the same reason: where the aging loop lowers a
newcomer it lowers the older request as much or more.
-/

namespace VllmScheduler

variable {Id K : Type} [Field K] [LinearOrder K]

/-- A submission that is none of the `old` ones, comes after `a`, was
created no earlier and is predicted at `L` tokens or more. -/
structure Newcomer (old : List (ScheduledRequest Id K × K)) (a : ScheduledRequest Id K × K)
    (L : K) (b : ScheduledRequest Id K × K) : Prop where
  new : b ∉ old
  submitted : a.2 < b.2
  created : a.1.enqueueTime ≤ b.1.enqueueTime
  predicted : L ≤ b.1.predictedTokens

/-- **What keeps newcomers behind `a`.** It stands at `L` or below; while it
waits it stands no higher than any newcomer, and where a tick is about to
lower a newcomer it stands no higher than the result, or is to be lowered
first. -/
structure SJFCore.Guarded {H : RequestHeap Id K} (M : MathFns K) (c : SJFCore H)
    (old : List (ScheduledRequest Id K × K)) (a : ScheduledRequest Id K × K) (L : K)
    (subs : List (ScheduledRequest Id K × K)) (waiting : Finset Id) : Prop where
  low : c.priority a.1.requestId ≤ L
  order : a.1.requestId ∈ waiting → ∀ b ∈ subs, Newcomer old a L b →
    c.priority a.1.requestId ≤ c.priority b.1.requestId
  midTick : a.1.requestId ∈ waiting → ∀ b ∈ subs, Newcomer old a L b →
    ∀ l₁ l₂, c.tickRest = l₁ ++ (b.1.requestId, b.1) :: l₂ →
      a.1.requestId ∈ l₁.map Prod.fst ∨
        (c.Lowers M b.1.requestId b.1 →
          c.priority a.1.requestId ≤ c.newPriority M b.1.requestId b.1)

section Steps

variable [DecidableEq Id] {H : RequestHeap Id K}
variable {M : MathFns K} {c c' : SJFCore H} {op : SJFOp Id K} {out : SJFOut Id K}
variable {old subs : List (ScheduledRequest Id K × K)} {waiting waiting' : Finset Id}
variable {a b : ScheduledRequest Id K × K} {i : Id} {L : K}

omit [DecidableEq Id] in
/-- Where the later one of two requests is lowered, so is the earlier one,
and to no more. -/
theorem lowers_of_created [IsStrictOrderedRing K] (hf : 0 ≤ c.aging.config.factor)
    (hcreated : a.1.enqueueTime ≤ b.1.enqueueTime)
    (hle : c.priority a.1.requestId ≤ c.priority b.1.requestId)
    (hwait : b.1.enqueueTime ≤ c.tickNow) (hlo : c.Lowers M b.1.requestId b.1) :
    c.Lowers M a.1.requestId a.1 ∧
      c.newPriority M a.1.requestId a.1 ≤ c.newPriority M b.1.requestId b.1 := by
  have hcap := AgingFunction.min_rise_mono (M := M) hf (sub_nonneg.mpr hwait)
    (sub_le_sub_left hcreated c.tickNow)
  simp only [SJFCore.Lowers, SJFCore.newPriority, AgingFunction.boost_eq] at hlo ⊢
  constructor <;> linarith

namespace SJFCore.Guarded

omit [DecidableEq Id] in
/-- Fewer waiting ids, everything else in place. -/
theorem mono (h : c.Guarded M old a L subs waiting) (hsub : waiting' ⊆ waiting)
    (hp : c'.priority = c.priority) (hr : c'.tickRest = c.tickRest)
    (hn : c'.tickNow = c.tickNow) (ha : c'.aging = c.aging) :
    c'.Guarded M old a L subs waiting' := by
  refine ⟨hp ▸ h.low, fun hw b hb hnew => ?_, fun hw b hb hnew l₁ l₂ hl => ?_⟩
  · rw [hp]
    exact h.order (hsub hw) b hb hnew
  · rw [hr] at hl
    have := h.midTick (hsub hw) b hb hnew l₁ l₂ hl
    simpa only [SJFCore.Lowers, SJFCore.newPriority, hp, hn, ha] using this

/-- A newcomer comes in at its prediction, which is not below `L`. -/
theorem enqueue (h : c.Guarded M old a L subs waiting) (hb : c.Booked subs waiting)
    (has : a ∈ subs) {x : ScheduledRequest Id K} {now : K} (hx : x.requestId = i)
    (hi : i ∉ subs.map fun e => e.1.requestId)
    (hp : c'.priority = Function.update c.priority i x.predictedTokens)
    (hr : c'.tickRest = c.tickRest) (hn : c'.tickNow = c.tickNow) (ha : c'.aging = c.aging) :
    c'.Guarded M old a L (subs ++ [(x, now)]) (insert i waiting) := by
  have hne : ∀ e ∈ subs, e.1.requestId ≠ i := by
    rintro e he rfl
    exact hi (List.mem_map_of_mem he)
  have hold : ∀ e ∈ subs, c'.priority e.1.requestId = c.priority e.1.requestId := by
    intro e he
    rw [hp, Function.update_of_ne (hne e he)]
  have hwold : a.1.requestId ∈ insert i waiting → a.1.requestId ∈ waiting := fun hw =>
    (Finset.mem_insert.mp hw).resolve_left (hne a has)
  refine ⟨(hold a has).trans_le h.low, fun hw b hb' hnew => ?_,
    fun hw b hb' hnew l₁ l₂ hl => ?_⟩
  · rcases List.mem_append.mp hb' with hbs | hbs
    · rw [hold a has, hold b hbs]
      exact h.order (hwold hw) b hbs hnew
    · rw [List.mem_singleton.mp hbs] at hnew ⊢
      rw [hold a has, hx, hp, Function.update_self]
      exact h.low.trans hnew.predicted
  · rw [hr] at hl
    -- what is left of a tick's snapshot was submitted before
    have hbs : b ∈ subs := by
      refine (List.mem_append.mp hb').resolve_right fun hbs => hi ?_
      rw [List.mem_singleton.mp hbs] at hl
      refine hb.tickRest.mem_ids ?_
      rw [hl, ← hx]
      simp
    have := h.midTick (hwold hw) b hbs hnew l₁ l₂ hl
    simpa only [SJFCore.Lowers, SJFCore.newPriority, hold a has, hold b hbs, hn, ha] using this

/-- A tick starts with the whole of `_pending`, in which a waiting request
stands to the left of its newcomers. -/
theorem tick (h : c.Guarded M old a L subs waiting) (hb : c.Booked subs waiting)
    (hids : (subs.map fun e => e.1.requestId).Nodup) (htime : subs.Pairwise fun a b => a.2 < b.2)
    (has : a ∈ subs) (now : K) :
    SJFCore.Guarded M { c with tickNow := now, tickRest := c.pending.entries } old a L subs
      waiting := by
  refine ⟨h.low, h.order, fun hw b hb' hnew l₁ l₂ hl => Or.inl ?_⟩
  exact hb.pending.mem_left hids htime has hb' hnew.submitted (hb.waits _ hw).2.2 hl

/-- **The aging loop passes one request**, which may be the older one, a
newcomer or neither. -/
theorem pass [IsStrictOrderedRing K] (h : c.Guarded M old a L subs waiting)
    (hb : c.Booked subs waiting) (hids : (subs.map fun e => e.1.requestId).Nodup)
    (has : a ∈ subs) (hf : 0 ≤ c.aging.config.factor) {request : ScheduledRequest Id K}
    {rest : List (Id × ScheduledRequest Id K)}
    (hrest : c.tickRest = (i, request) :: rest) (hsub : waiting' ⊆ waiting)
    (hset : c'.priority i = c.priority i ∨
      (c.Lowers M i request ∧ c'.priority i = c.newPriority M i request))
    (hdone : i ∈ waiting' → c.Lowers M i request → c'.priority i ≤ c.newPriority M i request)
    (hp : ∀ j, j ≠ i → c'.priority j = c.priority j) (hr : c'.tickRest = rest)
    (hn : c'.tickNow = c.tickNow) (ha : c'.aging = c.aging) :
    c'.Guarded M old a L subs waiting' := by
  obtain ⟨t, ht, hreq⟩ := hb.tickRest.exists_mem (hrest ▸ List.mem_cons_self : (i, request) ∈ _)
  have hhead : ∀ e ∈ subs, e.1.requestId = i → e = (request, t) := fun e he hei =>
    eq_of_requestId_eq hids he ht (hei.trans hreq.symm)
  have hle : ∀ j, c'.priority j ≤ c.priority j := by
    intro j
    by_cases hj : j = i
    · subst hj
      rcases hset with heq | ⟨hlo, heq⟩
      · exact heq.le
      · have hpos : (0 : K) < 1 / 100 := by norm_num
        rw [SJFCore.Lowers] at hlo
        linarith
    · exact (hp j hj).le
  refine ⟨(hle _).trans h.low, fun hw b hb' hnew => ?_, fun hw b hb' hnew l₁ l₂ hl => ?_⟩
  · have hord := h.order (hsub hw) b hb' hnew
    by_cases hbi : b.1.requestId = i
    · -- a newcomer is handled: the older request was to be lowered first
      have hbeq := hhead b hb' hbi
      have hai : a.1.requestId ≠ i := by
        intro hai
        have hab := hnew.submitted
        rw [hhead a has hai, hbeq] at hab
        exact lt_irrefl _ hab
      rcases hset with heq | ⟨hlo, heq⟩
      · rw [hbi, heq, hp _ hai, ← hbi]
        exact hord
      · have hb1 : b.1 = request := by rw [hbeq]
        have hmid := h.midTick (hsub hw) b hb' hnew [] rest (by rw [hrest, hbi, hb1]; rfl)
        rw [hbi, hb1] at hmid
        rw [hp _ hai, hbi, heq]
        exact (hmid.resolve_left (by simp)) hlo
    · rw [hp _ hbi]
      exact (hle _).trans hord
  · rw [hr] at hl
    have hnd := hb.tickRest.nodup_ids hids
    have hbi : b.1.requestId ≠ i := by
      rw [hrest, hl, List.map_cons, List.nodup_cons] at hnd
      rintro rfl
      exact hnd.1 (by simp)
    have hmid := h.midTick (hsub hw) b hb' hnew ((i, request) :: l₁) l₂ (by
      rw [hrest, hl]
      rfl)
    simp only [SJFCore.Lowers, SJFCore.newPriority, hp _ hbi, hn, ha]
    rw [List.map_cons, List.mem_cons, or_assoc] at hmid
    rcases hmid with (hai : a.1.requestId = i) | hmem | hmid
    · -- the older request is handled, with the newcomer still to come
      refine Or.inr fun hlo => ?_
      have hwait : b.1.enqueueTime ≤ c.tickNow := by
        refine hb.waited (b.1.requestId, b.1) ?_
        rw [hrest, hl]
        simp
      obtain ⟨hlo', hnewp⟩ := lowers_of_created hf hnew.created
        (h.order (hsub hw) b hb' hnew) hwait hlo
      have ha1 : a.1 = request := by rw [hhead a has hai]
      rw [hai, ha1] at hlo' hnewp
      rw [hai]
      exact (hdone (hai ▸ hw) hlo').trans hnewp
    · exact Or.inl hmem
    · exact Or.inr fun hlo => (hle _).trans (hmid hlo)

end SJFCore.Guarded

end Steps

/-! ## How far the ticks have lowered a request -/

section Deductions

variable [IsStrictOrderedRing K] {M : MathFns K} {f : AgingFunction K} {w : K} {waits : List K}

end Deductions

/-! ## Runs -/

namespace SJFScheduler

variable [DecidableEq Id] [IsStrictOrderedRing K] {H : RequestHeap Id K} {M : MathFns K}
variable {ops₁ ops₂ : List (SJFOp Id K)} {old : List (ScheduledRequest Id K × K)}
variable {config : AgingConfig K} {fallbackToFcfs : Bool} {timeout L : K}
variable {a b : ScheduledRequest Id K × K}

end SJFScheduler

end VllmScheduler
