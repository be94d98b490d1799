import Mathlib.Algebra.Field.Rat
import Mathlib.Algebra.Order.Ring.Rat
import VllmScheduler.Common.Backlog
import VllmScheduler.Go.Handlers
/-!
# Whose request a handler's `Acquire` takes

A schedule of the handlers of `go/cmd/gateway/main.go` says which of them call
`Submit` and `Acquire`, in what order and with what predictions; nothing the
engine answers changes that, since no `Acquire` finds the heap empty. The
engine queues a request under its prediction and ages the request object only,
so that over these calls the heap is a queue that serves the least. A handler's
request is out of the heap when it returns where its turn has come, and in a
schedule without equal predictions only there.
-/

namespace VllmScheduler

/-- How far a handler has come with its calls of the engine. -/
inductive CallStage
  | idle
  | mayAcquire
  | finished
deriving DecidableEq

/-- The stage of a place. -/
def HandlerPlace.stage {Ref : Type} : HandlerPlace Ref → CallStage
  | .idle => .idle
  | .submitted false | .waiting => .mayAcquire
  | .submitted true | .acquired _ | .returned _ => .finished

namespace Handlers

variable {Ref Id K : Type} [DecidableEq Ref] [DecidableEq Id] [Field K] [LinearOrder K]
variable {H : GoHeap Ref K}

/-! ## The calls of a schedule -/

omit [DecidableEq Id] in
/-- What a step calls the engine for. A handler submits once, its request
queued under its prediction, and acquires once unless it streams. -/
def scheduleStep (stage : Ref → CallStage) :
    HandlerOp Ref Id K → (Ref → CallStage) × Option (QueueCall Ref K)
  | .submit h chat id now =>
    match stage h with
    | .idle =>
      let request : GoRequest Id K := (Gateway.chatRequest chat id).submitted now
      (Function.update stage h (if chat.stream then .finished else .mayAcquire),
        some (.arrive h request.priority))
    | _ => (stage, none)
  | .acquire h =>
    match stage h with
    | .mayAcquire => (Function.update stage h .finished, some .serve)
    | _ => (stage, none)
  | _ => (stage, none)

omit [DecidableEq Id] in
/-- The machine of `scheduleStep`. -/
def schedule : Machine (Ref → CallStage) (HandlerOp Ref Id K) (Option (QueueCall Ref K)) where
  step := scheduleStep

omit [DecidableEq Id] in
/-- The calls of the engine, read off the steps of a schedule alone. -/
def calls (ops : List (HandlerOp Ref Id K)) : List (QueueCall Ref K) :=
  (schedule.log (fun _ => .idle) ops).filterMap Prod.snd

omit [DecidableEq Id] in
theorem calls_snoc {ops : List (HandlerOp Ref Id K)} {op : HandlerOp Ref Id K} :
    calls (ops ++ [op]) =
      calls ops ++ (scheduleStep (schedule.run (fun _ => .idle) ops) op).2.toList := by
  rw [calls, Machine.log_snoc, filterMap_snoc]
  rfl

/-! ## The heap is a queue that serves the least -/

/-- The items of the heap, as members under their keys. -/
def queued (s : Handlers Id H) : Multiset (Ref × K) :=
  s.engine.items.map fun item => (item.req, item.priority)

/-- The engine has done what the calls so far ask for. -/
structure Keeps (stage : Ref → CallStage) (calls : List (QueueCall Ref K))
    (outs : List (HandlerOut Ref)) (s : Handlers Id H) : Prop where
  stage : ∀ h, stage h = (s.place h).stage
  serves : ServesLeast calls s.queued (taken outs)

namespace Keeps

variable {stage : Ref → CallStage} {calls : List (QueueCall Ref K)} {outs : List (HandlerOut Ref)}
variable {s : Handlers Id H} {h : Ref}

omit [DecidableEq Ref] [DecidableEq Id] in
theorem init {objects : Ref → GoRequest Id K} :
    Keeps (fun _ => .idle) [] [] (Handlers.init H objects) := by
  refine ⟨fun _ => rfl, ?_⟩
  have hqueued : (Handlers.init H objects).queued = 0 := by
    rw [queued, Handlers.init, Engine.items_newEngine, Multiset.map_zero]
  rw [hqueued]
  exact .nil

omit [DecidableEq Ref] [DecidableEq Id] [Field K] in
/-- A step that leaves the heap alone. -/
theorem quiet (hs : Keeps stage calls outs s) {s' : Handlers Id H}
    (hheap : s'.engine.heap = s.engine.heap)
    (hplace : ∀ j, (s'.place j).stage = (s.place j).stage) :
    Keeps stage calls (outs ++ [.quiet]) s' := by
  refine ⟨fun j => (hs.stage j).trans (hplace j).symm, ?_⟩
  have hqueued : s'.queued = s.queued := by rw [queued, queued, Engine.items, hheap, Engine.items]
  rw [taken_quiet, hqueued]
  exact hs.serves

omit [DecidableEq Id] [Field K] in
/-- The stages after a handler has moved. -/
theorem stage_move (hs : Keeps stage calls outs s) (place : HandlerPlace Ref)
    (engine : Engine Id H) (j : Ref) :
    Function.update stage h place.stage j = ((s.move h place engine).place j).stage := by
  by_cases hj : j = h
  · subst hj
    simp [move]
  · simp [move, Function.update_of_ne hj, hs.stage j]

omit [DecidableEq Id] [Field K] in
/-- A handler goes on, without a call of the engine. -/
theorem proceed (hs : Keeps stage calls outs s) {place : HandlerPlace Ref} {engine : Engine Id H}
    (hheap : engine.heap = s.engine.heap) (hplace : place.stage = (s.place h).stage) :
    Keeps stage calls (outs ++ [.quiet]) (s.move h place engine) := by
  refine hs.quiet hheap fun j => ?_
  rw [← hs.stage_move place engine j, hplace, ← hs.stage h, Function.update_eq_self, hs.stage j]

/-- A handler submits. -/
theorem submit (hs : Keeps stage calls outs s) (hbooks : Balanced outs s)
    (hidle : s.place h = .idle) (request : GoRequest Id K) (now : K) (stream : Bool) :
    Keeps (Function.update stage h (HandlerPlace.submitted stream : HandlerPlace Ref).stage)
      (calls ++ [.arrive h (request.submitted now).priority]) (outs ++ [.submitted h])
      (s.move h (.submitted stream)
        ({ s.engine with objects := Function.update s.engine.objects h request }.submit h
          now)) := by
  refine ⟨hs.stage_move _ _, ?_⟩
  have hqueued : (s.move h (.submitted stream)
      ({ s.engine with objects := Function.update s.engine.objects h request }.submit h
        now)).queued = (h, (request.submitted now).priority) ::ₘ s.queued := by
    simp only [queued, move, Engine.items_submit, Multiset.map_cons, Function.update_self]
    rfl
  rw [hqueued, taken_submitted]
  refine hs.serves.arrive fun key harrive => ?_
  -- what has arrived was submitted
  have hstarted : s.place h ≠ .idle := by
    rw [← hbooks.mem_submitters, ← Multiset.mem_coe, ← hbooks.balance, Multiset.mem_add]
    rcases hs.serves.mem_or_mem_out harrive with hq | ht
    · obtain ⟨item, hitem, heq⟩ := Multiset.mem_map.mp hq
      exact Or.inl (Multiset.mem_map.mpr ⟨item, hitem, congrArg Prod.fst heq⟩)
    · exact Or.inr (Multiset.mem_coe.mpr ht)
  exact hstarted hidle

omit [Field K] in
/-- A handler acquires. -/
theorem pass (hs : Keeps stage calls outs s) (hbooks : Balanced outs s)
    (hsub : s.place h ≠ .idle) (hacq : ¬ (s.place h).HasAcquired) :
    Keeps (Function.update stage h .finished) (calls ++ [.serve]) (outs ++ [(s.pass h).2])
      (s.pass h).1 := by
  rcases Engine.acquireItem_of_no_tombstone hbooks.cancelled with
    ⟨-, hzero⟩ | ⟨x, heap, hp, hserve⟩
  · exact absurd hzero (hbooks.items_ne_zero hsub hacq)
  · have hresult : s.engine.acquire = (s.engine.serve x heap, some x.req) := by
      rw [Engine.acquire, hserve]
      rfl
    have hitems : s.engine.items = x ::ₘ (s.engine.serve x heap).items := H.pop_some hp
    rw [Handlers.pass, hresult]
    refine ⟨hs.stage_move (.acquired x.req) _, ?_⟩
    rw [taken_acquired]
    have hqueued : s.queued = (x.req, x.priority) ::ₘ
        (s.move h (.acquired x.req) (s.engine.serve x heap)).queued := by
      rw [queued, hitems, Multiset.map_cons]
      rfl
    refine (hqueued ▸ hs.serves).serve fun y hy => ?_
    obtain ⟨item, hitem, rfl⟩ := Multiset.mem_map.mp hy
    exact H.pop_le hp item hitem

/-- **A step calls the engine as its schedule says.** -/
theorem step (hs : Keeps stage calls outs s) (hbooks : Balanced outs s) (op : HandlerOp Ref Id K) :
    Keeps (scheduleStep stage op).1 (calls ++ (scheduleStep stage op).2.toList)
      (outs ++ [(s.step op).2]) (s.step op).1 := by
  have hsame : Keeps stage (calls ++ (none : Option (QueueCall Ref K)).toList)
      (outs ++ [.quiet]) s := by
    rw [append_toList_of_none rfl]
    exact hs.quiet rfl fun _ => rfl
  cases op with
  | submit h chat id now =>
    have hstage := hs.stage h
    rcases hp : s.place h with - | ⟨- | -⟩ | - | r | exit <;> rw [hp] at hstage <;>
      simp only [Handlers.step, scheduleStep, hp, hstage, HandlerPlace.stage]
    case idle =>
      have hnext := hs.submit hbooks hp (Gateway.chatRequest chat id) now chat.stream
      cases hstream : chat.stream <;> rw [hstream] at hnext <;> exact hnext
    all_goals exact hsame
  | acquire h =>
    have hstage := hs.stage h
    rcases hp : s.place h with - | ⟨- | -⟩ | - | r | exit <;> rw [hp] at hstage <;>
      simp only [Handlers.step, scheduleStep, hp, hstage, HandlerPlace.stage]
    case submitted.false | waiting =>
      exact hs.pass hbooks (by simp [hp]) (by simp [hp, HandlerPlace.HasAcquired])
    all_goals exact hsame
  | timeOut h =>
    rcases hp : s.place h with - | stream | - | r | exit <;>
      simp only [Handlers.step, scheduleStep, hp]
    case waiting => exact absurd hp (hbooks.prompt h).1
    all_goals exact hsame
  | forward h ok =>
    rcases hp : s.place h with - | stream | - | r | exit <;>
      simp only [Handlers.step, scheduleStep, hp]
    case acquired =>
      rw [append_toList_of_none rfl]
      cases ok <;> exact hs.proceed rfl (by rw [hp]; rfl)
    all_goals exact hsame
  | forwardStream h ok =>
    rcases hp : s.place h with - | ⟨- | -⟩ | - | r | exit <;>
      simp only [Handlers.step, scheduleStep, hp]
    case submitted.true =>
      rw [append_toList_of_none rfl]
      cases ok <;> exact hs.proceed rfl (by rw [hp]; rfl)
    all_goals exact hsame
  | unsupported h =>
    rcases hp : s.place h with - | ⟨- | -⟩ | - | r | exit <;>
      simp only [Handlers.step, scheduleStep, hp]
    case submitted.true =>
      rw [append_toList_of_none rfl]
      exact hs.proceed rfl (by rw [hp]; rfl)
    all_goals exact hsame
  | agingTick now =>
    simp only [Handlers.step, scheduleStep]
    rw [append_toList_of_none rfl]
    exact hs.quiet rfl fun _ => rfl

end Keeps

variable {objects : Ref → GoRequest Id K} {ops : List (HandlerOp Ref Id K)} {h : Ref}

/-- **A run calls the engine as its schedule says.** -/
theorem keeps_run :
    Keeps (schedule.run (fun _ => .idle) ops) (calls ops) (outs (init H objects) ops)
      ((machine H).run (init H objects) ops) := by
  refine (Machine.log_inv (M := machine H) (H := fun _ => True)
    (I := fun ops log s => Balanced (log.map Prod.snd) s ∧
      Keeps (schedule.run (fun _ => .idle) ops) (calls ops) (log.map Prod.snd) s)
    (fun _ _ _ => trivial) ⟨Balanced.init, Keeps.init⟩ ?_ trivial).2
  rintro ops op - ⟨hbooks, hs⟩
  rw [List.map_append, List.map_singleton, calls_snoc, Machine.run_snoc]
  exact ⟨hbooks.step op, hs.step hbooks op⟩

/-! ## What a handler leaves behind -/

/-- Neither the heap nor the pending map has the request. -/
def Clean (s : Handlers Id H) (h : Ref) : Prop :=
  h ∉ s.engine.items.map GoItem.req ∧ h ∉ s.engine.pending.entries.map Prod.snd

instance (s : Handlers Id H) (h : Ref) : Decidable (s.Clean h) :=
  inferInstanceAs (Decidable (_ ∧ _))

omit [DecidableEq Ref] [Field K] in
/-- The request of a handler that has submitted is out where it was taken. -/
theorem clean_iff_mem_taken {outs : List (HandlerOut Ref)} {s : Handlers Id H}
    (hbooks : Balanced outs s) (hstarted : s.place h ≠ .idle) : s.Clean h ↔ h ∈ taken outs := by
  have hqueued : h ∈ s.engine.items.map GoItem.req ↔ h ∉ taken outs := by
    rw [hbooks.mem_items_iff, and_iff_right hstarted]
  constructor
  · rintro ⟨hnot, -⟩
    exact not_not.mp fun ht => hnot (hqueued.mpr ht)
  · intro ht
    have hnot : h ∉ s.engine.items.map GoItem.req := fun hq => hqueued.mp hq ht
    refine ⟨hnot, fun hp => ?_⟩
    obtain ⟨⟨i, r⟩, hmem, rfl⟩ := List.mem_map.mp hp
    exact hnot (hbooks.listed i _ (Dict.mem_entries_iff.mp hmem)).2

/-- **When a handler leaves nothing behind.** After any run a handler that has
returned did not do so by the scheduler's timeout. Its request is out of the
heap and the pending map if its turn has come in the schedule: at some
`Acquire` after its `Submit`, its own or another's, no other request with at
most its prediction was left, where each such `Submit` leaves one and each
`Acquire` takes one. If it is out, no other request with a smaller prediction
was left at some `Acquire`. Where no other request has its prediction the two
conditions are one. -/
theorem returned_clean_iff {exit : HandlerExit} {s : Handlers Id H}
    (hs : s = (machine H).run (init H objects) ops) (hexit : s.place h = .returned exit) :
    exit ≠ .schedulerTimeout ∧
    (ComesUp h (· ≤ ·) (calls ops) → s.Clean h) ∧
    (s.Clean h → ComesUp h (· < ·) (calls ops)) ∧
    ((∀ g prediction, .arrive g prediction ∈ calls ops → .arrive h prediction ∈ calls ops → g = h) →
      (s.Clean h ↔ ComesUp h (· ≤ ·) (calls ops))) := by
  have hbooks : Balanced (outs (init H objects) ops) s := hs ▸ balanced_run
  have hserves : ServesLeast (calls ops) s.queued (taken (outs (init H objects) ops)) :=
    hs ▸ keeps_run.serves
  have hclean := clean_iff_mem_taken hbooks (h := h) (by simp [hexit])
  have hout : ComesUp h (· ≤ ·) (calls ops) → s.Clean h := fun hup =>
    hclean.mpr (hserves.mem_out_of_comesUp hup)
  have hup : s.Clean h → ComesUp h (· < ·) (calls ops) := fun hc =>
    hserves.comesUp_of_mem_out (hclean.mp hc)
  exact ⟨fun htimeout => (hbooks.prompt h).2 (htimeout ▸ hexit), hout, hup,
    fun hties => ⟨fun hc => (comesUp_le_iff_lt hties).mpr (hup hc), hout⟩⟩

/-! ## Leaks -/

/-- A run of handlers that go by names. -/
def demo (ops : List (HandlerOp String ℕ ℚ)) :
    Handlers ℕ (listHeap GoItem.priority : GoHeap String ℚ) :=
  (machine _).run (init _ fun _ => ⟨0, "", 0, 0, 0, 0⟩) ops

/-- A stream from `Submit` to its end. -/
def streamed : List (HandlerOp String ℕ ℚ) :=
  [.submit "a" (Gateway.shortChat 10 true) 1 1, .forwardStream "a" true]

/-- A longer and a shorter request, and the handler of the longer one is the
first to acquire. -/
def overtaken : List (HandlerOp String ℕ ℚ) :=
  [.submit "a" (Gateway.shortChat 10 false) 1 1, .submit "b" (Gateway.shortChat 5 false) 2 2,
    .acquire "a", .forward "a" true]

/-- **A handler leaves its request behind.** A stream is never acquired, and
a handler that was given another's request returns while its own is queued. -/
theorem returned_and_queued :
    (demo streamed).place "a" = .returned .streamSuccess ∧
    "a" ∈ (demo streamed).engine.items.map GoItem.req ∧
    "a" ∈ (demo streamed).engine.pending.entries.map Prod.snd ∧
    (demo overtaken).place "a" = .returned .success ∧
    "a" ∈ (demo overtaken).engine.items.map GoItem.req ∧
    "a" ∈ (demo overtaken).engine.pending.entries.map Prod.snd := by
  decide +kernel

/-- The shorter request comes up at the first `Acquire`, which is the other
handler's, and its own handler returns clean once it has acquired in its turn. -/
theorem returned_and_taken :
    (demo (overtaken ++ [.acquire "b", .forward "b" true])).place "b" = .returned .success ∧
    (demo (overtaken ++ [.acquire "b", .forward "b" true])).Clean "b" := by
  have hexit : (demo (overtaken ++ [.acquire "b", .forward "b" true])).place "b" =
      .returned .success := by
    decide +kernel
  have hup : ComesUp "b" (· ≤ ·) (calls (overtaken ++ [.acquire "b", .forward "b" true])) :=
    ⟨[.arrive "a" 10, .arrive "b" 5], 5, [.serve], by decide +kernel, by decide, by decide +kernel⟩
  exact ⟨hexit, (returned_clean_iff rfl hexit).2.1 hup⟩

end Handlers

end VllmScheduler
