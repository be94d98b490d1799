import Mathlib.Algebra.Field.Rat
import Mathlib.Algebra.Order.Ring.Rat
import Mathlib.Tactic.Linarith
import Mathlib.Tactic.Ring
import VllmScheduler.Common.Machine
import VllmScheduler.Queue.Lazy
/-!
# The Go aging loop does not reach the heap

`agingLoop` rewrites the `Priority` of the pending requests and the heap is
ordered by the priority its items copied at `Submit`. So an `Acquire`
returns a request that was predicted shortest, whatever the ticks have done
since, and that is the one of least current priority only where no queued
request has waited long enough to be boosted past it.

`lastTick` reads the history: the tick that last rewrote a request. With it
the current priority of every queued request is known (`Aged`), and what an
`Acquire` is about to do shows in the heap before it (`Unpassed`).
-/

namespace VllmScheduler

/-- The calls on an engine and the ticks of its aging loop. -/
inductive EngineOp (Id K : Type) where
  | submit (request : GoRequest Id K) (now : K)
  | cancel (id : Id)
  | acquire
  | complete (id : Id) (success : Bool)
  | tick (now : K)
deriving DecidableEq

/-- What a step shows; an `acquire` that would wait shows `none`. -/
inductive EngineOut where
  | done
  | cancelled (found : Bool)
  | acquired (ref : Option ℕ)
deriving DecidableEq

namespace Engine

variable {Id K : Type} [DecidableEq Id] [Field K] [LinearOrder K] {H : GoHeap ℕ K}

/-- The engine as a machine; every submission is of a new request. -/
def step (e : Engine Id H) : EngineOp Id K → Engine Id H × EngineOut
  | .submit request now => (e.submitNew request now, .done)
  | .cancel id => ((e.cancel id).1, .cancelled (e.cancel id).2)
  | .acquire => (e.acquire.1, .acquired e.acquire.2)
  | .complete id success => (e.complete id success, .done)
  | .tick now => (e.agingTick now, .done)

/-- The machine of `step`. -/
def machine (Id : Type) [DecidableEq Id] (H : GoHeap ℕ K) :
    Machine (Engine Id H) (EngineOp Id K) EngineOut where
  step := step

/-! ## The history -/

section History

omit [DecidableEq Id] [Field K] [LinearOrder K]

/-- The id a step submits. -/
def submittedId : EngineOp Id K → Option Id
  | .submit request _ => some request.id
  | _ => none

/-- The submitted ids, in order. -/
def submittedIds (ops : List (EngineOp Id K)) : List Id := ops.filterMap submittedId

/-- The clock reading of a tick. -/
def tickReading : EngineOp Id K → Option K
  | .tick now => some now
  | _ => none

/-- The last tick since the submission with number `r`. -/
def lastTick : List (EngineOp Id K) → ℕ → Option K
  | [], _ => none
  | .submit _ _ :: ops, 0 => (ops.filterMap tickReading).getLast?
  | .submit _ _ :: ops, r + 1 => lastTick ops r
  | _ :: ops, r => lastTick ops r

variable {ops : List (EngineOp Id K)} {op : EngineOp Id K} {r : ℕ} {now : K}

theorem submittedIds_snoc :
    submittedIds (ops ++ [op]) = submittedIds ops ++ (submittedId op).toList :=
  filterMap_snoc

theorem lastTick_snoc_tick (hr : r < (submittedIds ops).length) :
    lastTick (ops ++ [.tick now]) r = some now := by
  induction ops generalizing r with
  | nil => exact absurd hr (Nat.not_lt_zero r)
  | cons op ops ih =>
    cases op with
    | submit request t =>
      cases r with
      | zero => simp [lastTick, tickReading]
      | succ r => exact ih (Nat.lt_of_succ_lt_succ hr)
    | cancel | acquire | complete | tick => exact ih hr

theorem lastTick_snoc (hop : tickReading op = none) :
    lastTick (ops ++ [op]) r = lastTick ops r := by
  induction ops generalizing r with
  | nil =>
    cases op with
    | submit => cases r <;> rfl
    | cancel | acquire | complete => rfl
    | tick => cases hop
  | cons op' ops ih =>
    cases op' with
    | submit request t =>
      cases r with
      | zero => simp [lastTick, hop]
      | succ r => exact ih
    | cancel | acquire | complete | tick => exact ih

/-- A submission that has not happened has seen no tick. -/
theorem lastTick_of_le (hr : (submittedIds ops).length ≤ r) : lastTick ops r = none := by
  induction ops generalizing r with
  | nil => rfl
  | cons op ops ih =>
    cases op with
    | submit request t =>
      cases r with
      | zero => exact absurd hr (Nat.not_succ_le_zero _)
      | succ r => exact ih (Nat.le_of_succ_le_succ hr)
    | cancel | acquire | complete | tick => exact ih hr

end History

/-- The boost of the latest tick, for a request enqueued at `enqueuedAt`. -/
def boostSince (e : Engine Id H) (tick : Option K) (enqueuedAt : K) : K :=
  match tick with
  | none => 0
  | some now => e.agingBoost (now - enqueuedAt)

/-- The boost a request has had from the latest tick of the history. -/
def boostOf (e : Engine Id H) (ops : List (EngineOp Id K)) (ref : ℕ) : K :=
  e.boostSince (lastTick ops ref) (e.objects ref).enqueuedAt

/-! ## What a run keeps -/

/-- **The books of a run** with distinct ids: every heap item is the listed
one of its id, copied its priority from the prediction, and points to a
request whose current priority is that less the latest boost. -/
structure Aged (e : Engine Id H) (ops : List (EngineOp Id K)) : Prop where
  scheduled : e.scheduled = (submittedIds ops).length
  allocated : e.Allocated
  distinct : (e.items.map e.idOf).Nodup
  known : ∀ item ∈ e.items, e.idOf item ∈ submittedIds ops
  listed : ∀ item ∈ e.items, e.pending.get? (e.idOf item) = some item.req
  copied : ∀ item ∈ e.items, item.priority = (e.objects item.req).predictedTokens
  current : ∀ item ∈ e.items, (e.objects item.req).priority =
    (e.objects item.req).predictedTokens - e.boostOf ops item.req

namespace Aged

variable {e : Engine Id H} {ops : List (EngineOp Id K)} {op : EngineOp Id K}

theorem init {objects : ℕ → GoRequest Id K} : (newEngine H objects).Aged [] where
  scheduled := rfl
  allocated := fun item hm => by simp at hm
  distinct := by simp
  known := fun item hm => by simp at hm
  listed := fun item hm => by simp at hm
  copied := fun item hm => by simp at hm
  current := fun item hm => by simp at hm

/-- A step that neither submits nor ticks leaves the history as it is. -/
theorem extend (h : e.Aged ops) (hsub : submittedId op = none) (htick : tickReading op = none) :
    e.Aged (ops ++ [op]) := by
  have hids : submittedIds (ops ++ [op]) = submittedIds ops := by simp [submittedIds_snoc, hsub]
  refine ⟨by rw [hids]; exact h.scheduled, h.allocated, h.distinct, by rw [hids]; exact h.known,
    h.listed, h.copied, ?_⟩
  intro item hm
  rw [boostOf, lastTick_snoc htick]
  exact h.current item hm

/-- A popped item takes its id out of the pending map, and no other. -/
theorem pop (h : e.Aged ops) {item : GoItem ℕ K} {heap : H.Carrier}
    (hp : H.pop e.heap = some (item, heap)) {e' : Engine Id H} (hheap : e'.heap = heap)
    (hpend : e'.pending = e.pending.erase (e.idOf item)) (hobj : e'.objects = e.objects)
    (hsched : e'.scheduled = e.scheduled) (hfactor : e'.agingFactor = e.agingFactor) :
    e'.Aged ops := by
  have hsub : ∀ y ∈ e'.items, y ∈ e.items := by
    intro y hy
    rw [items, hheap] at hy
    exact H.mem_of_mem_pop hp hy
  have hid : e'.idOf = e.idOf := by
    funext y
    rw [idOf, idOf, hobj]
  have hsplit : e.items = item ::ₘ e'.items := by
    rw [items, items, hheap]
    exact H.pop_some hp
  obtain ⟨hdistinct, hne⟩ := nodup_map_cons (hsplit ▸ h.distinct)
  refine ⟨hsched.trans h.scheduled, fun y hy => hsched ▸ h.allocated y (hsub y hy),
    by rw [hid]; exact hdistinct, fun y hy => by rw [hid]; exact h.known y (hsub y hy), ?_,
    fun y hy => by rw [hobj]; exact h.copied y (hsub y hy), ?_⟩
  · intro y hy
    rw [hid, hpend, Dict.get?_erase_of_ne (hne y hy)]
    exact h.listed y (hsub y hy)
  · intro y hy
    have hboost : e'.boostOf ops y.req = e.boostOf ops y.req := by
      simp only [boostOf, boostSince, agingBoost, hobj, hfactor]
    rw [hobj, hboost]
    exact h.current y (hsub y hy)

/-- An acquire pops one item after the other. -/
theorem acquire (h : e.Aged ops) : e.acquire.1.Aged ops :=
  acquireLoop_inv (I := fun e : Engine Id H => e.Aged ops)
    (fun _ _ _ hp he => he.pop hp rfl rfl rfl rfl rfl)
    (fun _ _ _ hp he => he.pop hp rfl rfl rfl rfl rfl) h

/-- A submission of a new id. -/
theorem submit (h : e.Aged ops) {request : GoRequest Id K} {now : K}
    (hnew : request.id ∉ submittedIds ops) :
    (e.submitNew request now).Aged (ops ++ [.submit request now]) := by
  have hids : submittedIds (ops ++ [.submit request now]) = submittedIds ops ++ [request.id] := by
    simp [submittedIds_snoc, submittedId]
  have hold : ∀ y ∈ e.items, (e.submitNew request now).objects y.req = e.objects y.req :=
    fun _ hy => objects_submitNew_of_mem request now h.allocated hy
  have hidold : ∀ y ∈ e.items, (e.submitNew request now).idOf y = e.idOf y :=
    fun _ hy => idOf_submitNew_of_mem request now h.allocated hy
  have hmem : ∀ y ∈ (e.submitNew request now).items, y.req = e.scheduled ∧
      y.priority = (request.submitted now).priority ∨ y ∈ e.items := by
    intro y hy
    rw [items_submitNew, Multiset.mem_cons] at hy
    rcases hy with rfl | hy
    · exact Or.inl ⟨rfl, rfl⟩
    · exact Or.inr hy
  refine ⟨?_, allocated_submitNew request now h.allocated, ?_, ?_, ?_, ?_, ?_⟩
  · show e.scheduled + 1 = _
    rw [hids, List.length_append, h.scheduled]
    rfl
  · rw [items_submitNew, Multiset.map_cons, Multiset.nodup_cons, idOf_submitNew_self _ _ rfl,
      Multiset.map_congr rfl hidold]
    refine ⟨fun hm => ?_, h.distinct⟩
    obtain ⟨y, hy, heq⟩ := Multiset.mem_map.mp hm
    exact hnew (heq ▸ h.known y hy)
  · intro y hy
    rw [hids, List.mem_append]
    rcases hmem y hy with ⟨hreq, -⟩ | hy
    · rw [idOf_submitNew_self _ _ hreq]
      exact Or.inr List.mem_cons_self
    · rw [hidold y hy]
      exact Or.inl (h.known y hy)
  · intro y hy
    rw [pending_submitNew, GoRequest.submitted_id]
    rcases hmem y hy with ⟨hreq, -⟩ | hy
    · rw [idOf_submitNew_self _ _ hreq, Dict.get?_set_self, hreq]
    · have hne : e.idOf y ≠ request.id := fun heq => hnew (heq ▸ h.known y hy)
      rw [hidold y hy, Dict.get?_set_of_ne hne]
      exact h.listed y hy
  · intro y hy
    rcases hmem y hy with ⟨hreq, hprio⟩ | hy
    · rw [hreq, objects_submitNew_self, hprio]
      rfl
    · rw [hold y hy]
      exact h.copied y hy
  · intro y hy
    rw [boostOf, lastTick_snoc rfl]
    rcases hmem y hy with ⟨hreq, -⟩ | hy
    · -- no tick has handled the new object yet
      rw [hreq, objects_submitNew_self, lastTick_of_le h.scheduled.ge]
      exact (sub_zero _).symm
    · rw [hold y hy]
      exact h.current y hy

/-- A tick rewrites the priority of every request in the heap. -/
theorem tick (h : e.Aged ops) (now : K) : (e.agingTick now).Aged (ops ++ [.tick now]) := by
  have hids : submittedIds (ops ++ [.tick now]) = submittedIds ops := by
    simp [submittedIds_snoc, submittedId]
  have hid : (e.agingTick now).idOf = e.idOf := by
    funext y
    simp only [idOf, agingTick]
    split <;> rfl
  have hpred : ∀ ref, ((e.agingTick now).objects ref).predictedTokens =
      (e.objects ref).predictedTokens := by
    intro ref
    simp only [agingTick]
    split <;> rfl
  have henq : ∀ ref, ((e.agingTick now).objects ref).enqueuedAt = (e.objects ref).enqueuedAt := by
    intro ref
    simp only [agingTick]
    split <;> rfl
  refine ⟨by rw [hids]; exact h.scheduled, h.allocated, by rw [hid]; exact h.distinct, ?_, ?_, ?_,
    ?_⟩
  · rw [hids, hid]
    exact h.known
  · rw [hid]
    exact h.listed
  · intro y hy
    rw [hpred]
    exact h.copied y hy
  · intro y hy
    have hlisted : y.req ∈ e.pending.entries.map Prod.snd :=
      List.mem_map_of_mem (Dict.mem_entries_iff.mpr (h.listed y hy))
    have hlast : lastTick (ops ++ [.tick now]) y.req = some now :=
      lastTick_snoc_tick (h.scheduled ▸ h.allocated y hy)
    rw [hpred, boostOf, hlast, henq]
    simp only [agingTick, if_pos hlisted]
    rfl

/-- **A step keeps the books.** -/
theorem step (h : e.Aged ops) (hnew : ∀ i, submittedId op = some i → i ∉ submittedIds ops) :
    (e.step op).1.Aged (ops ++ [op]) := by
  cases op with
  | submit request now => exact h.submit (hnew _ rfl)
  | cancel id =>
    have hcancel : (e.cancel id).1.Aged ops := by
      rw [Engine.cancel]
      split
      · exact ⟨h.scheduled, h.allocated, h.distinct, h.known, h.listed, h.copied, h.current⟩
      · exact h
    exact hcancel.extend rfl rfl
  | acquire => exact h.acquire.extend rfl rfl
  | complete id success =>
    have hcomplete : (e.complete id success).Aged ops := by
      rw [Engine.complete]
      split
      · exact ⟨h.scheduled, h.allocated, h.distinct, h.known, h.listed, h.copied, h.current⟩
      · exact h
    exact hcomplete.extend rfl rfl
  | tick now => exact h.tick now

end Aged

variable {ops : List (EngineOp Id K)} {objects : ℕ → GoRequest Id K}

/-- **A run keeps the books.** -/
theorem aged_run (hids : (submittedIds ops).Nodup) :
    ((machine Id H).run (newEngine H objects) ops).Aged ops := by
  refine Machine.log_inv (M := machine Id H) (H := fun ops => (submittedIds ops).Nodup)
    (I := fun ops _ e => e.Aged ops) ?_ Aged.init ?_ hids
  · exact fun ops op h => (nodup_filterMap_snoc h).1
  · exact fun ops op h he => he.step (nodup_filterMap_snoc h).2

/-- The aging loop keeps the factor `NewEngine` sets. -/
theorem agingFactor_run :
    ((machine Id H).run (newEngine H objects) ops).agingFactor = 1 / 1000 := by
  refine Machine.run_inv_of_step (I := fun e : Engine Id H => e.agingFactor = 1 / 1000) ?_ rfl
  intro e op he
  cases op with
  | submit | tick => exact he
  | cancel id =>
    show (e.cancel id).1.agingFactor = _
    unfold cancel
    split <;> exact he
  | acquire =>
    exact acquireLoop_inv (I := fun e : Engine Id H => e.agingFactor = 1 / 1000)
      (fun _ _ _ _ h => h) (fun _ _ _ _ h => h) he
  | complete id success =>
    show (e.complete id success).agingFactor = _
    unfold complete
    split <;> exact he

/-! ## The heap before an acquire -/

/-- The predicted length of a queued request. -/
def predicted (e : Engine Id H) (item : GoItem ℕ K) : K :=
  (e.objects item.req).predictedTokens

/-- The wait in seconds that the latest tick since its submission counts for
a queued request: at most 500, and none where there was no tick. -/
def countedWait (e : Engine Id H) (ops : List (EngineOp Id K)) (item : GoItem ℕ K) : K :=
  match lastTick ops item.req with
  | none => 0
  | some now => min 500 (now - (e.objects item.req).enqueuedAt)

/-- A queued, uncancelled request predicted no longer than any other. -/
def Shortest (e : Engine Id H) (x : GoItem ℕ K) : Prop :=
  e.Live x ∧ ∀ y ∈ e.items, e.Live y → e.predicted x ≤ e.predicted y

/-- No queued, uncancelled request has waited longer than `x` by more seconds
than it is predicted longer in tokens. -/
def Unpassed (e : Engine Id H) (ops : List (EngineOp Id K)) (x : GoItem ℕ K) : Prop :=
  ∀ y ∈ e.items, e.Live y →
    e.countedWait ops y - e.countedWait ops x ≤ e.predicted y - e.predicted x

/-- The request behind `ref` has the least current priority among the
uncancelled ones queued in `e`. -/
def LeastCurrent (e : Engine Id H) (ref : ℕ) : Prop :=
  ∀ item ∈ e.items, e.Live item → (e.objects ref).priority ≤ (e.objects item.req).priority

instance (e : Engine Id H) (x : GoItem ℕ K) : Decidable (e.Shortest x) :=
  inferInstanceAs (Decidable (_ ∧ _))

instance (e : Engine Id H) (ops : List (EngineOp Id K)) (x : GoItem ℕ K) :
    Decidable (e.Unpassed ops x) :=
  inferInstanceAs (Decidable (∀ y ∈ e.items, _ → _))

section Waits

variable [IsStrictOrderedRing K] {e : Engine Id H} {x y : GoItem ℕ K}

omit [DecidableEq Id] in
/-- A second of waiting is a token of boost. -/
theorem boostOf_eq_countedWait (hfactor : e.agingFactor = 1 / 1000) :
    e.boostOf ops x.req = e.countedWait ops x := by
  have hboost : ∀ wait : K, e.agingBoost wait = min 500 wait := by
    intro wait
    have hwait : e.agingFactor * wait * 1000 = wait := by
      rw [hfactor]
      ring
    rw [agingBoost, hwait]
    split
    · exact (min_eq_left (le_of_lt ‹_›)).symm
    · exact (min_eq_right (not_lt.mp ‹_›)).symm
  unfold boostOf countedWait
  cases lastTick ops x.req with
  | none => rfl
  | some now => exact hboost _

/-- Two queued requests compare by priority as their waits and lengths
say. -/
theorem Aged.priority_le_iff (h : e.Aged ops) (hfactor : e.agingFactor = 1 / 1000)
    (hx : x ∈ e.items) (hy : y ∈ e.items) :
    (e.objects x.req).priority ≤ (e.objects y.req).priority ↔
      e.countedWait ops y - e.countedWait ops x ≤ e.predicted y - e.predicted x := by
  rw [h.current x hx, h.current y hy, boostOf_eq_countedWait hfactor,
    boostOf_eq_countedWait hfactor, predicted, predicted]
  constructor <;> intro hle <;> linarith

end Waits

/-- **What aging does to an `Acquire`.** After any run with distinct ids,
the request an `Acquire` returns was predicted no longer than any that
stays queued. It has the least current priority among the uncancelled ones
where, in the heap before the call, nothing has outwaited a shortest
request; and only there, unless several requests are tied for shortest and
the heap picks among them. -/
theorem acquire_least_iff [IsStrictOrderedRing K] (hids : (submittedIds ops).Nodup)
    {e e' : Engine Id H} {ref : ℕ}
    (he : e = (machine Id H).run (newEngine H objects) ops) (hacq : e.acquire = (e', some ref)) :
    (∀ item ∈ e'.items,
      (e'.objects ref).predictedTokens ≤ (e'.objects item.req).predictedTokens) ∧
    ((∀ x ∈ e.items, e.Shortest x → e.Unpassed ops x) → e'.LeastCurrent ref) ∧
    ((∀ x ∈ e.items, ∀ y ∈ e.items, e.Shortest x → e.Shortest y → x = y) →
      (e'.LeastCurrent ref ↔ ∀ x ∈ e.items, e.Shortest x → e.Unpassed ops x)) := by
  have hbooks : e.Aged ops := he ▸ aged_run hids
  have hfactor : e.agingFactor = 1 / 1000 := he ▸ agingFactor_run
  -- the returned request comes with the item that was popped for it
  have hsome : e.acquireItem.2.map GoItem.req = some ref := congrArg Prod.snd hacq
  obtain ⟨x, hx, rfl⟩ := Option.map_eq_some_iff.mp hsome
  obtain rfl : e.acquireItem.1 = e' := congrArg Prod.fst hacq
  obtain ⟨hmem, hleft, hobj⟩ := acquireLoop_some hx
  obtain ⟨hlive, hleast, hkept⟩ := acquireItem_least hbooks.allocated hbooks.distinct hx
  have hshort : e.Shortest x := by
    refine ⟨hlive, fun y hy hy' => ?_⟩
    have := hleast y hy'
    rwa [hbooks.copied x hmem, hbooks.copied y hy] at this
  have hcurrent : e.acquireItem.1.LeastCurrent x.req ↔ e.Unpassed ops x := by
    have hpriority : ∀ y ∈ e.items, _ := fun y hy => hbooks.priority_le_iff hfactor hmem hy
    rw [LeastCurrent, objects_acquireItem]
    constructor
    · intro h y hy hlive'
      rcases eq_or_ne y x with rfl | hne
      · rw [sub_self, sub_self]
      · have hstays := (hkept y).mpr ⟨hlive', hne⟩
        exact (hpriority y hy).mp (h y hstays.1 hstays)
    · intro h y hy hlive'
      obtain ⟨hlive', -⟩ := (hkept y).mp hlive'
      exact (hpriority y hlive'.1).mpr (h y hlive'.1 hlive')
  refine ⟨fun y hy => ?_, fun h => hcurrent.mpr (h x hmem hshort), fun huniq => ?_⟩
  · obtain ⟨hy', hle⟩ := hleft y hy
    rw [hbooks.copied x hmem, hbooks.copied y hy'] at hle
    rwa [objects_acquireItem]
  · rw [hcurrent]
    exact ⟨fun h y hy hy' => huniq x hmem y hy hshort hy' ▸ h, fun h => h x hmem hshort⟩

/-- A request predicted `a` is submitted at 0 and one predicted `b` at 50;
the aging loop ticks at 50. -/
def waitThenTick (a b : ℚ) : List (EngineOp String ℚ) :=
  [.submit ⟨"a", "", 0, a, 0, 0⟩ 0, .submit ⟨"b", "", 0, b, 0, 0⟩ 50, .tick 50]

/-- An engine on which that has happened. -/
def afterTick (a b : ℚ) : Engine String (listHeap GoItem.priority : GoHeap ℕ ℚ) :=
  (machine String _).run (newEngine _ fun _ => ⟨"", "", 0, 0, 0, 0⟩) (waitThenTick a b)

/-- The tick takes `a` from 100 to 50, under the 60 of `b`, and the next
`Acquire` returns `b`. -/
theorem acquire_passes_boosted :
    (submittedIds (waitThenTick 100 60)).Nodup ∧
    (afterTick 100 60).acquire.2 = some 1 ∧
    ((afterTick 100 60).acquire.1.objects 1).priority = 60 ∧
    ∃ item ∈ (afterTick 100 60).acquire.1.items,
      (afterTick 100 60).acquire.1.idOf item ∉ (afterTick 100 60).acquire.1.cancelled ∧
      ((afterTick 100 60).acquire.1.objects item.req).priority = 50 :=
  ⟨by decide +kernel, by decide +kernel, by decide +kernel, ⟨100, 0, 0⟩, by decide +kernel⟩

/-- With `b` predicted 40 the wait of `a` is not enough. -/
theorem acquire_least_unboosted :
    (afterTick 100 40).acquire.2 = some 1 ∧
    (∀ item ∈ (afterTick 100 40).acquire.1.items,
      ((afterTick 100 40).acquire.1.objects 1).predictedTokens ≤
        ((afterTick 100 40).acquire.1.objects item.req).predictedTokens) ∧
    (afterTick 100 40).acquire.1.LeastCurrent 1 := by
  have hids : (submittedIds (waitThenTick 100 40)).Nodup := by decide +kernel
  have hacq : (afterTick 100 40).acquire.2 = some 1 := by decide +kernel
  obtain ⟨hle, hleast, -⟩ :=
    acquire_least_iff hids (rfl : afterTick 100 40 = _) (Prod.ext rfl hacq)
  exact ⟨hacq, hle, hleast (by decide +kernel)⟩

end Engine

end VllmScheduler
