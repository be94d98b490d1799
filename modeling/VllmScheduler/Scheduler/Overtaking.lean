import VllmScheduler.Scheduler.Orderly
/-!
# No overtaking under aging

Aging lowers the priorities of waiting requests one by one, on what earlier
ticks have left, with a threshold, and leaves old entries behind in the
heap. None of this lets a request overtake one that was created and
submitted earlier with no larger prediction. `Ranked` is the order that
holds: the priority of a waiting request is not above that of a request it
precedes, and where a tick is about to lower the later one's, the earlier
one's is not above the result, or is to be lowered first. On top of the
books it puts the listed copy of the earlier request before every copy of
the later one, so a dequeue does not come to the later one's.
-/

namespace VllmScheduler

variable {Id K : Type} [DecidableEq Id] [Field K] [LinearOrder K] {H : RequestHeap Id K}

/-- **The order aging keeps** among the submissions so far. -/
structure SJFCore.Ranked (M : MathFns K) (c : SJFCore H)
    (subs : List (ScheduledRequest Id K × K)) (waiting : Finset Id) : Prop where
  order : ∀ a ∈ subs, ∀ b ∈ subs, a.1.requestId ∈ waiting → Precedes a b →
    c.priority a.1.requestId ≤ c.priority b.1.requestId
  midTick : ∀ a ∈ subs, ∀ b ∈ subs, a.1.requestId ∈ waiting → Precedes a b →
    ∀ l₁ l₂, c.tickRest = l₁ ++ (b.1.requestId, b.1) :: l₂ →
      a.1.requestId ∈ l₁.map Prod.fst ∨
        (c.Lowers M b.1.requestId b.1 →
          c.priority a.1.requestId ≤ c.newPriority M b.1.requestId b.1)

section Steps

variable {M : MathFns K} {c c' : SJFCore H} {op : SJFOp Id K} {out : SJFOut Id K}
variable {subs : List (ScheduledRequest Id K × K)} {waiting waiting' : Finset Id}
variable {a b : ScheduledRequest Id K × K} {i : Id}

omit [DecidableEq Id] in
/-- **Boosts respect the order.** Where the later request is lowered, so is
the earlier one, and to no more. -/
theorem lowers_of_precedes [IsStrictOrderedRing K] (hf : 0 ≤ c.aging.config.factor)
    (hab : Precedes a b) (hle : c.priority a.1.requestId ≤ c.priority b.1.requestId)
    (hwait : b.1.enqueueTime ≤ c.tickNow) (hlo : c.Lowers M b.1.requestId b.1) :
    c.Lowers M a.1.requestId a.1 ∧
      c.newPriority M a.1.requestId a.1 ≤ c.newPriority M b.1.requestId b.1 := by
  have hcap := AgingFunction.min_rise_mono (M := M) hf (sub_nonneg.mpr hwait)
    (sub_le_sub_left hab.created c.tickNow)
  simp only [SJFCore.Lowers, SJFCore.newPriority, AgingFunction.boost_eq] at hlo ⊢
  constructor <;> linarith

namespace SJFCore.Ranked

omit [DecidableEq Id] in
/-- Fewer waiting ids, everything else in place. -/
theorem mono (h : c.Ranked M subs waiting) (hsub : waiting' ⊆ waiting)
    (hp : c'.priority = c.priority) (hr : c'.tickRest = c.tickRest)
    (hn : c'.tickNow = c.tickNow) (ha : c'.aging = c.aging) : c'.Ranked M subs waiting' := by
  refine ⟨fun a ha b hb hw hab => ?_, fun a ha' b hb hw hab l₁ l₂ hl => ?_⟩
  · rw [hp]
    exact h.order a ha b hb (hsub hw) hab
  · rw [hr] at hl
    have := h.midTick a ha' b hb (hsub hw) hab l₁ l₂ hl
    simpa only [SJFCore.Lowers, SJFCore.newPriority, hp, hn, ha] using this

/-- A submission comes last, at its prediction. -/
theorem enqueue (h : c.Ranked M subs waiting) (hb : c.Booked subs waiting)
    {x : ScheduledRequest Id K} {now : K} (hx : x.requestId = i)
    (hi : i ∉ subs.map fun e => e.1.requestId) (hnow : ∀ e ∈ subs, e.2 < now)
    (hp : c'.priority = Function.update c.priority i x.predictedTokens)
    (hr : c'.tickRest = c.tickRest) (hn : c'.tickNow = c.tickNow) (ha : c'.aging = c.aging) :
    c'.Ranked M (subs ++ [(x, now)]) (insert i waiting) := by
  have hold : ∀ e ∈ subs, c'.priority e.1.requestId = c.priority e.1.requestId := by
    intro e he
    rw [hp, Function.update_of_ne]
    rintro rfl
    exact hi (List.mem_map_of_mem he)
  have hwold : ∀ e ∈ subs, e.1.requestId ∈ insert i waiting → e.1.requestId ∈ waiting := by
    intro e he hw
    refine (Finset.mem_insert.mp hw).resolve_left ?_
    rintro rfl
    exact hi (List.mem_map_of_mem he)
  -- nothing comes after the new submission
  have hlast : ∀ b ∈ subs ++ [(x, now)], ¬ Precedes (x, now) b := by
    intro b hb hab
    rcases List.mem_append.mp hb with hb | hb
    · exact (hnow b hb).not_gt hab.submitted
    · rw [List.mem_singleton.mp hb] at hab
      exact lt_irrefl _ hab.submitted
  refine ⟨fun a ha' b hb' hw hab => ?_, fun a ha' b hb' hw hab l₁ l₂ hl => ?_⟩
  · rcases List.mem_append.mp ha' with has | has
    · rcases List.mem_append.mp hb' with hbs | hbs
      · rw [hold a has, hold b hbs]
        exact h.order a has b hbs (hwold a has hw) hab
      · rw [List.mem_singleton.mp hbs] at hab ⊢
        rw [hold a has, hx, hp, Function.update_self]
        exact (hb.lowered a has).trans hab.predicted
    · rw [List.mem_singleton.mp has] at hab
      exact absurd hab (hlast b hb')
  · rcases List.mem_append.mp ha' with has | has
    · rw [hr] at hl
      have hbs : b ∈ subs := by
        refine (List.mem_append.mp hb').resolve_right fun hbs => hi ?_
        rw [List.mem_singleton.mp hbs] at hl
        refine hb.tickRest.mem_ids ?_
        rw [hl, ← hx]
        simp
      have := h.midTick a has b hbs (hwold a has hw) hab l₁ l₂ hl
      simpa only [SJFCore.Lowers, SJFCore.newPriority, hold a has, hold b hbs, hn, ha] using this
    · rw [List.mem_singleton.mp has] at hab
      exact absurd hab (hlast b hb')

/-- A tick starts with the whole of `_pending`, in which the earlier of two
waiting requests stands further left. -/
theorem tick (h : c.Ranked M subs waiting) (hb : c.Booked subs waiting)
    (hids : (subs.map fun e => e.1.requestId).Nodup) (htime : subs.Pairwise fun a b => a.2 < b.2)
    (now : K) :
    SJFCore.Ranked M { c with tickNow := now, tickRest := c.pending.entries } subs waiting := by
  refine ⟨h.order, fun a ha b hb' hw hab l₁ l₂ hl => Or.inl ?_⟩
  have hmem : a.1.requestId ∈ c.pending := (hb.waits _ hw).2.2
  exact hb.pending.mem_left hids htime ha hb' hab.submitted hmem hl

/-- **The aging loop passes one request.** Its priority is kept or is the
new one, and if it still waits, what had to be taken off has been taken
off. -/
theorem pass [IsStrictOrderedRing K] (h : c.Ranked M subs waiting) (hb : c.Booked subs waiting)
    (hids : (subs.map fun e => e.1.requestId).Nodup) (hf : 0 ≤ c.aging.config.factor)
    {request : ScheduledRequest Id K} {rest : List (Id × ScheduledRequest Id K)}
    (hrest : c.tickRest = (i, request) :: rest) (hsub : waiting' ⊆ waiting)
    (hset : c'.priority i = c.priority i ∨
      (c.Lowers M i request ∧ c'.priority i = c.newPriority M i request))
    (hdone : i ∈ waiting' → c.Lowers M i request → c'.priority i ≤ c.newPriority M i request)
    (hp : ∀ j, j ≠ i → c'.priority j = c.priority j) (hr : c'.tickRest = rest)
    (hn : c'.tickNow = c.tickNow) (ha : c'.aging = c.aging) :
    c'.Ranked M subs waiting' := by
  -- the head of the snapshot is a submission
  obtain ⟨t, ht, hreq⟩ := hb.tickRest.exists_mem (hrest ▸ List.mem_cons_self : (i, request) ∈ _)
  have hhead : ∀ e ∈ subs, e.1.requestId = i → e = (request, t) := fun e he hei =>
    eq_of_requestId_eq hids he ht (hei.trans hreq.symm)
  have hle : ∀ j, c'.priority j ≤ c.priority j := by
    intro j
    by_cases hj : j = i
    · subst hj
      rcases hset with heq | ⟨hlo, heq⟩
      · exact heq.le
      · have hpos : (0 : K) < 1 / 100 := by norm_num
        rw [SJFCore.Lowers] at hlo
        linarith
    · exact (hp j hj).le
  refine ⟨fun a ha' b hb' hw hab => ?_, fun a ha' b hb' hw hab l₁ l₂ hl => ?_⟩
  · have hord := h.order a ha' b hb' (hsub hw) hab
    by_cases hbi : b.1.requestId = i
    · -- the later request is the one handled
      have hbeq := hhead b hb' hbi
      have hai : a.1.requestId ≠ i := by
        intro hai
        rw [hhead a ha' hai, hbeq] at hab
        exact lt_irrefl _ hab.submitted
      rcases hset with heq | ⟨hlo, heq⟩
      · rw [hbi, heq, hp _ hai, ← hbi]
        exact hord
      · have hb1 : b.1 = request := by rw [hbeq]
        have := h.midTick a ha' b hb' (hsub hw) hab [] rest (by rw [hrest, hbi, hb1]; rfl)
        rw [hbi, hb1] at this
        rw [hp _ hai, hbi, heq]
        exact (this.resolve_left (by simp)) hlo
    · rw [hp _ hbi]
      exact (hle _).trans hord
  · rw [hr] at hl
    have hnd := hb.tickRest.nodup_ids hids
    have hbi : b.1.requestId ≠ i := by
      rw [hrest, hl, List.map_cons, List.nodup_cons] at hnd
      rintro rfl
      exact hnd.1 (by simp)
    have hmid := h.midTick a ha' b hb' (hsub hw) hab ((i, request) :: l₁) l₂ (by
      rw [hrest, hl]
      rfl)
    simp only [SJFCore.Lowers, SJFCore.newPriority, hp _ hbi, hn, ha]
    rw [List.map_cons, List.mem_cons, or_assoc] at hmid
    rcases hmid with (hai : a.1.requestId = i) | hmem | hmid
    · -- the earlier request is the one handled
      refine Or.inr fun hlo => ?_
      have haeq := hhead a ha' hai
      have hwait : b.1.enqueueTime ≤ c.tickNow := by
        refine hb.waited (b.1.requestId, b.1) ?_
        rw [hrest, hl]
        simp
      obtain ⟨hlo', hnew⟩ := lowers_of_precedes hf hab
        (h.order a ha' b hb' (hsub hw) hab) hwait hlo
      have ha1 : a.1 = request := by rw [haeq]
      rw [hai, ha1] at hlo' hnew
      rw [hai]
      exact (hdone (hai ▸ hw) hlo').trans hnew
    · exact Or.inl hmem
    · exact Or.inr fun hlo => (hle _).trans (hmid hlo)

end SJFCore.Ranked

end Steps

namespace SJFScheduler

variable {M : MathFns K} {ops : List (SJFOp Id K)}
variable {config : AgingConfig K} {fallbackToFcfs : Bool} {timeout : K}

end SJFScheduler

end VllmScheduler
