import Mathlib.Algebra.Order.Field.Basic
import VllmScheduler.Common.Dict
import VllmScheduler.Common.Heap
import VllmScheduler.Common.Numerals
/-!
# The Go scheduling engine

`Engine` of `go/internal/api/scheduler.go`. Requests are Go objects behind
pointers: the heap items, the pending map and the caller that submitted a
request share one object, so `objects` is the memory they live in and a
`Ref` is a pointer into it. The mutex makes every method one step. An
`Acquire` that finds the heap empty waits on the condition variable;
`acquire` is the pass it makes over the heap before that, or after it is
woken.
-/

namespace VllmScheduler

/-- The fields of `Request` the engine reads or writes; the two channels it
never touches are left out. -/
structure GoRequest (Id K : Type) where
  id : Id
  prompt : String
  maxTokens : ℤ
  predictedTokens : K
  priority : K
  enqueuedAt : K
deriving DecidableEq

/-- What `Submit` writes into the request it is given. -/
def GoRequest.submitted {Id K : Type} [Field K] [LinearOrder K] (request : GoRequest Id K)
    (now : K) : GoRequest Id K :=
  let request :=
    if request.predictedTokens ≤ 0 then { request with predictedTokens := request.maxTokens }
    else request
  { request with priority := request.predictedTokens, enqueuedAt := now }

section Submitted

variable {Id K : Type} [Field K] [LinearOrder K] {request : GoRequest Id K} {now : K}

@[simp] theorem GoRequest.submitted_id : (request.submitted now).id = request.id := by
  unfold GoRequest.submitted
  split <;> rfl

end Submitted

/-- A heap item: what it is ordered by, when it was pushed, and the request
it points to. Its `index` belongs to the heap's layout. -/
structure GoItem (Ref K : Type) where
  priority : K
  enqueuedAt : K
  req : Ref
deriving DecidableEq

/-- `container/heap` over `priorityHeap`, whose `Less` compares the
priorities and nothing else. -/
abbrev GoHeap (Ref K : Type) [LinearOrder K] : Type 1 :=
  MinHeap (GoItem Ref K) GoItem.priority

/-- The engine's fields, and the request objects its pointers lead to. -/
structure Engine {Ref K : Type} [LinearOrder K] (Id : Type) (H : GoHeap Ref K) where
  heap : H.Carrier
  pending : Dict Id Ref
  cancelled : Finset Id
  objects : Ref → GoRequest Id K
  scheduled : ℕ
  completed : ℕ
  agingFactor : K

namespace Engine

variable {Ref Id K : Type} [DecidableEq Ref] [DecidableEq Id] [Field K] [LinearOrder K]
variable {H : GoHeap Ref K}

/-- `NewEngine`. -/
def newEngine (H : GoHeap Ref K) (objects : Ref → GoRequest Id K) : Engine Id H where
  heap := H.empty
  pending := Dict.empty
  cancelled := ∅
  objects := objects
  scheduled := 0
  completed := 0
  agingFactor := 1 / 1000

/-- `Submit` of the object behind a pointer. -/
def submit (e : Engine Id H) (ref : Ref) (now : K) : Engine Id H :=
  let request := GoRequest.submitted (e.objects ref) now
  { e with
    objects := Function.update e.objects ref request
    pending := e.pending.set request.id ref
    heap := H.push ⟨request.priority, request.enqueuedAt, ref⟩ e.heap
    scheduled := e.scheduled + 1 }

/-- The id of the request an item points to. -/
def idOf (e : Engine Id H) (item : GoItem Ref K) : Id := (e.objects item.req).id

/-- The branch of the loop in `Acquire` for an item whose request has a
tombstone. -/
def purge (e : Engine Id H) (item : GoItem Ref K) (heap : H.Carrier) : Engine Id H :=
  { e with
    heap := heap
    cancelled := e.cancelled.erase (e.idOf item)
    pending := e.pending.erase (e.idOf item) }

/-- The branch that returns the request. -/
def serve (e : Engine Id H) (item : GoItem Ref K) (heap : H.Carrier) : Engine Id H :=
  { e with heap := heap, pending := e.pending.erase (e.idOf item) }

/-- The inner loop of `Acquire`, over as many items as the heap holds. -/
def acquireLoop : ℕ → Engine Id H → Engine Id H × Option (GoItem Ref K)
  | 0, e => (e, none)
  | n + 1, e =>
    match H.pop e.heap with
    | none => (e, none)
    | some (item, heap) =>
      if e.idOf item ∈ e.cancelled then acquireLoop n (e.purge item heap)
      else (e.serve item heap, some item)

/-- The pass of `Acquire` over the heap: the item whose request it returns,
or nothing where the call has to wait. -/
def acquireItem (e : Engine Id H) : Engine Id H × Option (GoItem Ref K) :=
  acquireLoop (H.size e.heap) e

/-- `Acquire`, up to the point where it would wait. -/
def acquire (e : Engine Id H) : Engine Id H × Option Ref :=
  let result := e.acquireItem
  (result.1, result.2.map GoItem.req)

/-- `Complete`. -/
def complete (e : Engine Id H) (_id : Id) (success : Bool) : Engine Id H :=
  if success then { e with completed := e.completed + 1 } else e

/-- `Cancel`. -/
def cancel (e : Engine Id H) (id : Id) : Engine Id H × Bool :=
  if id ∈ e.pending then ({ e with cancelled := insert id e.cancelled }, true) else (e, false)

/-- `Depth`. -/
def depth (e : Engine Id H) : ℕ := H.size e.heap

/-- The map `Stats` returns. -/
def stats (e : Engine Id H) : ℕ × ℕ × ℕ := (e.depth, e.scheduled, e.completed)

/-- The boost `agingLoop` computes after a wait in seconds. -/
def agingBoost (e : Engine Id H) (wait : K) : K :=
  let boost := e.agingFactor * wait * 1000
  if boost > 500 then 500 else boost

/-- One tick of `agingLoop`: it rewrites the `Priority` of the pending
requests; the heap items keep theirs. -/
def agingTick (e : Engine Id H) (now : K) : Engine Id H :=
  { e with
    objects := fun ref =>
      let request := e.objects ref
      if ref ∈ e.pending.entries.map Prod.snd then
        { request with
          priority := request.predictedTokens - e.agingBoost (now - request.enqueuedAt) }
      else request }

/-! ## What the methods do to the heap -/

/-- The heap items. -/
def items (e : Engine Id H) : Multiset (GoItem Ref K) := H.bag e.heap

variable {e : Engine Id H} {ref : Ref} {now : K}

omit [DecidableEq Ref] [DecidableEq Id] in
@[simp] theorem items_newEngine {objects : Ref → GoRequest Id K} :
    (newEngine H objects).items = 0 := H.bag_empty

@[simp] theorem items_submit :
    (e.submit ref now).items =
      ⟨(GoRequest.submitted (e.objects ref) now).priority,
        (GoRequest.submitted (e.objects ref) now).enqueuedAt, ref⟩ ::ₘ e.items :=
  H.bag_push _ _

omit [DecidableEq Ref] [Field K] in
/-- A cancel leaves the requests and the heap alone. -/
theorem cancel_frame (e : Engine Id H) (id : Id) :
    (e.cancel id).1.objects = e.objects ∧ (e.cancel id).1.scheduled = e.scheduled ∧
      (e.cancel id).1.items = e.items := by
  unfold cancel
  split <;> exact ⟨rfl, rfl, rfl⟩

omit [DecidableEq Ref] [Field K] in
/-- Without tombstones an acquire is a pop. -/
theorem acquireItem_of_no_tombstone (hc : e.cancelled = ∅) :
    (e.acquireItem = (e, none) ∧ e.items = 0) ∨
      ∃ item heap, H.pop e.heap = some (item, heap) ∧
        e.acquireItem = (e.serve item heap, some item) := by
  rcases hp : H.pop e.heap with - | ⟨item, heap⟩
  · have hsize : H.size e.heap = 0 := H.size_eq_zero.mpr (H.pop_none hp)
    refine Or.inl ⟨?_, H.pop_none hp⟩
    rw [acquireItem, hsize, acquireLoop]
  · have hsize := H.size_of_pop hp
    refine Or.inr ⟨item, heap, rfl, ?_⟩
    rw [acquireItem, hsize, acquireLoop, hp]
    simp [hc]

/-! ## The acquire loop -/

variable {n : ℕ}

omit [DecidableEq Ref] [Field K] in
/-- The invariant rule of the acquire loop. -/
theorem acquireLoop_inv {I : Engine Id H → Prop}
    (hpurge : ∀ e item heap, H.pop e.heap = some (item, heap) → I e → I (e.purge item heap))
    (hserve : ∀ e item heap, H.pop e.heap = some (item, heap) → I e → I (e.serve item heap))
    (he : I e) : I (acquireLoop n e).1 := by
  induction n generalizing e with
  | zero => exact he
  | succ n ih =>
    rw [acquireLoop]
    rcases hp : H.pop e.heap with - | ⟨item, heap⟩
    · exact he
    · by_cases hc : e.idOf item ∈ e.cancelled
      · simp only [if_pos hc]
        exact ih (hpurge e item heap hp he)
      · simp only [if_neg hc]
        exact hserve e item heap hp he

omit [DecidableEq Ref] [Field K] in
/-- A pass over the heap submits nothing and adds no item. -/
theorem acquireItem_frame (e : Engine Id H) :
    e.acquireItem.1.scheduled = e.scheduled ∧ ∀ item ∈ e.acquireItem.1.items, item ∈ e.items :=
  acquireLoop_inv
    (I := fun e' => e'.scheduled = e.scheduled ∧ ∀ item ∈ e'.items, item ∈ e.items)
    (fun _ _ _ hp h => ⟨h.1, fun x hx => h.2 x (H.mem_of_mem_pop hp hx)⟩)
    (fun _ _ _ hp h => ⟨h.1, fun x hx => h.2 x (H.mem_of_mem_pop hp hx)⟩) ⟨rfl, fun _ h => h⟩

omit [DecidableEq Ref] [Field K] in
/-- **What an acquire returns.** An item of the heap that is least among
what it leaves; the request objects stay as they are. -/
theorem acquireLoop_some {item : GoItem Ref K} (h : (acquireLoop n e).2 = some item) :
    item ∈ e.items ∧ (∀ y ∈ (acquireLoop n e).1.items, y ∈ e.items ∧ item.priority ≤ y.priority) ∧
      (acquireLoop n e).1.objects = e.objects := by
  induction n generalizing e with
  | zero => cases h
  | succ n ih =>
    rw [acquireLoop] at h ⊢
    rcases hp : H.pop e.heap with - | ⟨x, heap⟩
    · rw [hp] at h
      cases h
    · rw [hp] at h
      by_cases hc : e.idOf x ∈ e.cancelled
      · simp only [if_pos hc] at h ⊢
        obtain ⟨hmem, hle, hobj⟩ := ih h
        exact ⟨H.mem_of_mem_pop hp hmem,
          fun y hy => ⟨H.mem_of_mem_pop hp (hle y hy).1, (hle y hy).2⟩, hobj⟩
      · simp only [if_neg hc, Option.some.injEq] at h ⊢
        subst h
        exact ⟨H.mem_of_pop hp, fun y hy => ⟨H.mem_of_mem_pop hp hy, H.pop_le hp y hy⟩, rfl⟩

omit [DecidableEq Ref] [Field K] in
/-- An acquire that has to wait has emptied the heap. -/
theorem items_acquireItem_of_none (h : e.acquireItem.2 = none) : e.acquireItem.1.items = 0 := by
  have hloop : ∀ n (e : Engine Id H), H.size e.heap ≤ n → (acquireLoop n e).2 = none →
      (acquireLoop n e).1.items = 0 := by
    intro n
    induction n with
    | zero =>
      intro e hn _
      exact H.size_eq_zero.mp (Nat.le_zero.mp hn)
    | succ n ih =>
      intro e hn h
      rw [acquireLoop] at h ⊢
      rcases hp : H.pop e.heap with - | ⟨x, heap⟩
      · exact H.pop_none hp
      · rw [hp] at h
        by_cases hc : e.idOf x ∈ e.cancelled
        · simp only [if_pos hc] at h ⊢
          refine ih _ ?_ h
          show H.size heap ≤ n
          rw [H.size_of_pop hp] at hn
          omega
        · simp only [if_neg hc] at h
          cases h
  exact hloop _ e le_rfl h

omit [DecidableEq Ref] [Field K] in
/-- One that returns a request has taken its item. -/
theorem depth_acquireItem_of_some {item : GoItem Ref K} (h : e.acquireItem.2 = some item) :
    e.acquireItem.1.depth + 1 ≤ e.depth := by
  have hloop : ∀ n (e : Engine Id H), (acquireLoop n e).2 = some item →
      (acquireLoop n e).1.depth + 1 ≤ e.depth := by
    intro n
    induction n with
    | zero =>
      intro e h
      cases h
    | succ n ih =>
      intro e h
      rw [acquireLoop] at h ⊢
      rcases hp : H.pop e.heap with - | ⟨x, heap⟩
      · rw [hp] at h
        cases h
      · rw [hp] at h
        have hsize : e.depth = H.size heap + 1 := H.size_of_pop hp
        by_cases hc : e.idOf x ∈ e.cancelled
        · simp only [if_pos hc] at h ⊢
          have hle : _ ≤ H.size heap := ih _ h
          omega
        · simp only [if_neg hc]
          exact hsize.ge
  exact hloop _ e h

/-! ## New requests -/

section New

variable {H : GoHeap ℕ K} {e : Engine Id H}

/-- Put a new request object behind the next pointer and submit it. -/
def submitNew (e : Engine Id H) (request : GoRequest Id K) (now : K) : Engine Id H :=
  submit { e with objects := Function.update e.objects e.scheduled request } e.scheduled now

/-- The heap points at objects that were submitted. -/
def Allocated (e : Engine Id H) : Prop := ∀ item ∈ e.items, item.req < e.scheduled

variable (request : GoRequest Id K) (now : K)

theorem items_submitNew :
    (e.submitNew request now).items =
      ⟨(request.submitted now).priority, (request.submitted now).enqueuedAt, e.scheduled⟩ ::ₘ
        e.items := by
  simp only [submitNew, items_submit, Function.update_self]
  rfl

theorem objects_submitNew :
    (e.submitNew request now).objects =
      Function.update e.objects e.scheduled (request.submitted now) := by
  simp [submitNew, submit]

theorem pending_submitNew :
    (e.submitNew request now).pending =
      e.pending.set (request.submitted now).id e.scheduled := by
  simp [submitNew, submit]

theorem objects_submitNew_self :
    (e.submitNew request now).objects e.scheduled = request.submitted now := by
  rw [objects_submitNew, Function.update_self]

variable {item : GoItem ℕ K}

theorem idOf_submitNew_self (h : item.req = e.scheduled) :
    (e.submitNew request now).idOf item = request.id := by
  rw [idOf, h, objects_submitNew_self, GoRequest.submitted_id]

/-- The objects of what is queued already are not touched. -/
theorem objects_submitNew_of_mem (ha : e.Allocated) (h : item ∈ e.items) :
    (e.submitNew request now).objects item.req = e.objects item.req := by
  rw [objects_submitNew, Function.update_of_ne (ha item h).ne]

theorem idOf_submitNew_of_mem (ha : e.Allocated) (h : item ∈ e.items) :
    (e.submitNew request now).idOf item = e.idOf item := by
  rw [idOf, idOf, objects_submitNew_of_mem request now ha h]

theorem allocated_submitNew (ha : e.Allocated) : (e.submitNew request now).Allocated := by
  intro item hitem
  show item.req < e.scheduled + 1
  rw [items_submitNew, Multiset.mem_cons] at hitem
  rcases hitem with rfl | hitem
  · exact Nat.lt_succ_self _
  · exact (ha item hitem).trans (Nat.lt_succ_self _)

end New

end Engine

end VllmScheduler
