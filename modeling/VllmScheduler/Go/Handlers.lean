import VllmScheduler.Common.Machine
import VllmScheduler.Go.Gateway
/-!
# What a Go handler leaves behind

`handleChatCompletions` of `go/cmd/gateway/main.go` with its six exits, any
number of handlers and no `dispatchLoop` worker. A handler goes by the
pointer to the request it submits. None of the exits takes that request out
of the engine: it leaves the heap and the pending map where some handler's
`Acquire` returns it, and only there.

Every handler submits before it acquires, and what is in the heap is what
was submitted and not acquired yet. So the heap is never empty when a handler
looks at it, the scheduler's timeout is never reached, and once all handlers
have returned, the heap holds one request for each stream.
-/

namespace VllmScheduler

/-- The six ways a handler returns after `Submit`. -/
inductive HandlerExit
  | success
  | forwardError
  | schedulerTimeout
  | streamSuccess
  | streamError
  | streamUnsupported
deriving DecidableEq

/-- Where a handler stands. -/
inductive HandlerPlace (Ref : Type)
  /-- Before its `Submit`. -/
  | idle
  | submitted (stream : Bool)
  /-- In the `Wait` of its `Acquire`, which has found the heap empty. -/
  | waiting
  /-- Its `Acquire` has returned a request, which it discards. -/
  | acquired (request : Ref)
  | returned (exit : HandlerExit)
deriving DecidableEq

/-- The handler's `Acquire` has returned a request. -/
def HandlerPlace.HasAcquired {Ref : Type} : HandlerPlace Ref → Prop
  | .acquired _ | .returned .success | .returned .forwardError => True
  | _ => False

/-- The handler has returned from the branch for streams. -/
def HandlerPlace.Streamed {Ref : Type} : HandlerPlace Ref → Prop
  | .returned .streamSuccess | .returned .streamError | .returned .streamUnsupported => True
  | _ => False

instance {Ref : Type} (place : HandlerPlace Ref) : Decidable place.HasAcquired := by
  unfold HandlerPlace.HasAcquired
  split <;> infer_instance

instance {Ref : Type} (place : HandlerPlace Ref) : Decidable place.Streamed := by
  unfold HandlerPlace.Streamed
  split <;> infer_instance

/-- The steps of the handlers and of the aging loop. -/
inductive HandlerOp (Ref Id K : Type)
  | submit (handler : Ref) (chat : GoChatRequest) (id : Id) (now : K)
  /-- The handler's `Acquire` looks at the heap, on entry or after it was
  woken with its context not done. -/
  | acquire (handler : Ref)
  /-- The handler's `Acquire` is woken with its context done. -/
  | timeOut (handler : Ref)
  /-- `forward` returns, with a response or an error. -/
  | forward (handler : Ref) (ok : Bool)
  /-- `forwardStream` returns an error, or its body has been copied. -/
  | forwardStream (handler : Ref) (ok : Bool)
  /-- The response writer is no flusher. -/
  | unsupported (handler : Ref)
  | agingTick (now : K)
deriving DecidableEq

/-- What a step shows. -/
inductive HandlerOut (Ref : Type)
  | quiet
  | submitted (handler : Ref)
  /-- The `Acquire` of a handler has returned a request. -/
  | acquired (handler request : Ref)
deriving DecidableEq

/-- The engine and the handlers. -/
structure Handlers {Ref K : Type} [LinearOrder K] (Id : Type) (H : GoHeap Ref K) where
  engine : Engine Id H
  place : Ref → HandlerPlace Ref

namespace Handlers

variable {Ref Id K : Type} [DecidableEq Ref] [DecidableEq Id] [Field K] [LinearOrder K]
variable {H : GoHeap Ref K}

def init (H : GoHeap Ref K) (objects : Ref → GoRequest Id K) : Handlers Id H :=
  ⟨Engine.newEngine H objects, fun _ => .idle⟩

/-- A handler goes to a place, and the engine to a state. -/
def move (s : Handlers Id H) (h : Ref) (place : HandlerPlace Ref) (engine : Engine Id H) :
    Handlers Id H :=
  ⟨engine, Function.update s.place h place⟩

/-- A pass of a handler's `Acquire` over the heap. -/
def pass (s : Handlers Id H) (h : Ref) : Handlers Id H × HandlerOut Ref :=
  match s.engine.acquire with
  | (engine, some ref) => (s.move h (.acquired ref) engine, .acquired h ref)
  | (engine, none) => (s.move h .waiting engine, .quiet)

/-- The steps, each answered by leaving the state alone where the handler is
not at that point. -/
def step (s : Handlers Id H) : HandlerOp Ref Id K → Handlers Id H × HandlerOut Ref
  | .submit h chat id now =>
    match s.place h with
    | .idle =>
      let objects := Function.update s.engine.objects h (Gateway.chatRequest chat id)
      let engine := { s.engine with objects := objects }.submit h now
      (s.move h (.submitted chat.stream) engine, .submitted h)
    | _ => (s, .quiet)
  | .acquire h =>
    match s.place h with
    | .submitted false | .waiting => s.pass h
    | _ => (s, .quiet)
  | .timeOut h =>
    match s.place h with
    | .waiting => (s.move h (.returned .schedulerTimeout) s.engine, .quiet)
    | _ => (s, .quiet)
  | .forward h ok =>
    match s.place h with
    | .acquired _ =>
      let engine := s.engine.complete (s.engine.objects h).id ok
      (s.move h (.returned (if ok then .success else .forwardError)) engine, .quiet)
    | _ => (s, .quiet)
  | .forwardStream h ok =>
    match s.place h with
    | .submitted true =>
      if ok then
        let engine := s.engine.complete (s.engine.objects h).id true
        (s.move h (.returned .streamSuccess) engine, .quiet)
      -- on this exit `Complete` is not called
      else (s.move h (.returned .streamError) s.engine, .quiet)
    | _ => (s, .quiet)
  | .unsupported h =>
    match s.place h with
    | .submitted true => (s.move h (.returned .streamUnsupported) s.engine, .quiet)
    | _ => (s, .quiet)
  | .agingTick now => ({ s with engine := s.engine.agingTick now }, .quiet)

/-- The machine of `step`. -/
def machine (H : GoHeap Ref K) :
    Machine (Handlers Id H) (HandlerOp Ref Id K) (HandlerOut Ref) where
  step := step

/-! ## The history -/

section History

omit [DecidableEq Ref]

/-- The handlers that have submitted, in order. -/
def submitters (outs : List (HandlerOut Ref)) : List Ref :=
  outs.filterMap fun
    | .submitted h => some h
    | _ => none

/-- The handlers whose `Acquire` has returned, in order. -/
def acquirers (outs : List (HandlerOut Ref)) : List Ref :=
  outs.filterMap fun
    | .acquired h _ => some h
    | _ => none

/-- The requests they were given. -/
def taken (outs : List (HandlerOut Ref)) : List Ref :=
  outs.filterMap fun
    | .acquired _ r => some r
    | _ => none

variable {outs : List (HandlerOut Ref)} {h r : Ref}

@[simp] theorem submitters_submitted :
    submitters (outs ++ [.submitted h]) = submitters outs ++ [h] :=
  filterMap_snoc

@[simp] theorem submitters_acquired : submitters (outs ++ [.acquired h r]) = submitters outs :=
  filterMap_snoc.trans (append_toList_of_none rfl)

@[simp] theorem submitters_quiet : submitters (outs ++ [.quiet]) = submitters outs :=
  filterMap_snoc.trans (append_toList_of_none rfl)

@[simp] theorem acquirers_submitted : acquirers (outs ++ [.submitted h]) = acquirers outs :=
  filterMap_snoc.trans (append_toList_of_none rfl)

@[simp] theorem acquirers_acquired : acquirers (outs ++ [.acquired h r]) = acquirers outs ++ [h] :=
  filterMap_snoc

@[simp] theorem acquirers_quiet : acquirers (outs ++ [.quiet]) = acquirers outs :=
  filterMap_snoc.trans (append_toList_of_none rfl)

@[simp] theorem taken_submitted : taken (outs ++ [.submitted h]) = taken outs :=
  filterMap_snoc.trans (append_toList_of_none rfl)

@[simp] theorem taken_acquired : taken (outs ++ [.acquired h r]) = taken outs ++ [r] :=
  filterMap_snoc

@[simp] theorem taken_quiet : taken (outs ++ [.quiet]) = taken outs :=
  filterMap_snoc.trans (append_toList_of_none rfl)

/-- Every `Acquire` that has returned was given one request. -/
theorem length_taken : (taken outs).length = (acquirers outs).length := by
  induction outs using List.reverseRecOn with
  | nil => rfl
  | append_singleton outs o ih =>
    cases o with
    | quiet => simpa using ih
    | submitted h => simpa using ih
    | acquired h r => simpa using ih

end History

/-! ## What a run keeps -/

/-- **The books of a run.** What was submitted is queued or taken
(`balance`), who has submitted and acquired can be read off the places, the
pending map lists only what is queued, and nobody waits. -/
structure Balanced (outs : List (HandlerOut Ref)) (s : Handlers Id H) : Prop where
  cancelled : s.engine.cancelled = ∅
  listed : ∀ i r, s.engine.pending.get? i = some r →
    (s.engine.objects r).id = i ∧ r ∈ s.engine.items.map GoItem.req
  balance : s.engine.items.map GoItem.req + ↑(taken outs) = ↑(submitters outs)
  submitters_nodup : (submitters outs).Nodup
  mem_submitters : ∀ h, h ∈ submitters outs ↔ s.place h ≠ .idle
  acquirers_nodup : (acquirers outs).Nodup
  mem_acquirers : ∀ h, h ∈ acquirers outs ↔ (s.place h).HasAcquired
  prompt : ∀ h, s.place h ≠ .waiting ∧ s.place h ≠ .returned .schedulerTimeout

namespace Balanced

variable {outs : List (HandlerOut Ref)} {s : Handlers Id H} {h r : Ref}

omit [DecidableEq Ref] in
theorem init {objects : Ref → GoRequest Id K} : Balanced [] (Handlers.init H objects) where
  cancelled := rfl
  listed := fun i r hr => by cases hr
  balance := by
    show (Engine.newEngine H objects).items.map GoItem.req + _ = _
    simp [taken, submitters]
  submitters_nodup := List.nodup_nil
  mem_submitters := fun h => by simp [submitters, Handlers.init]
  acquirers_nodup := List.nodup_nil
  mem_acquirers := fun h => by simp [acquirers, Handlers.init, HandlerPlace.HasAcquired]
  prompt := fun h => by simp [Handlers.init]

omit [DecidableEq Ref] [Field K] in
/-- A request is queued where it was submitted and not taken. -/
theorem mem_items_iff (hs : Balanced outs s) :
    r ∈ s.engine.items.map GoItem.req ↔ s.place r ≠ .idle ∧ r ∉ taken outs := by
  have hnodup : (s.engine.items.map GoItem.req + ↑(taken outs)).Nodup := by
    rw [hs.balance]
    exact Multiset.coe_nodup.mpr hs.submitters_nodup
  have hsplit : r ∈ submitters outs ↔ r ∈ s.engine.items.map GoItem.req ∨ r ∈ taken outs := by
    rw [← Multiset.mem_coe, ← hs.balance, Multiset.mem_add, Multiset.mem_coe]
  rw [← hs.mem_submitters, hsplit]
  constructor
  · intro hr
    refine ⟨Or.inl hr, fun ht => ?_⟩
    exact Multiset.disjoint_left.mp (Multiset.nodup_add.mp hnodup).2.2 hr (Multiset.mem_coe.mpr ht)
  · rintro ⟨hr, hnt⟩
    exact hr.resolve_right hnt

omit [DecidableEq Ref] [Field K] in
/-- The heap holds as many requests as handlers have submitted and not
acquired yet. -/
theorem card_items (hs : Balanced outs s) :
    s.engine.items.card + (acquirers outs).length = (submitters outs).length := by
  rw [← length_taken]
  simpa using congrArg Multiset.card hs.balance

omit [DecidableEq Ref] [Field K] in
/-- **Who looks finds something**: a handler that has submitted and not
acquired sees a request in the heap, its own or another's. -/
theorem items_ne_zero (hs : Balanced outs s) (hsub : s.place h ≠ .idle)
    (hacq : ¬ (s.place h).HasAcquired) : s.engine.items ≠ 0 := by
  have hsubset : h :: acquirers outs ⊆ submitters outs := by
    intro j hj
    rw [hs.mem_submitters]
    rcases List.mem_cons.mp hj with rfl | hj
    · exact hsub
    · intro hidle
      have := (hs.mem_acquirers j).mp hj
      rw [hidle] at this
      exact this
  have hnodup : (h :: acquirers outs).Nodup :=
    List.nodup_cons.mpr ⟨fun hj => hacq ((hs.mem_acquirers h).mp hj), hs.acquirers_nodup⟩
  have hlen := (List.subperm_of_subset hnodup hsubset).length_le
  have hcard := hs.card_items
  rw [List.length_cons] at hlen
  intro hzero
  rw [hzero, Multiset.card_zero] at hcard
  omega

/-! ### The steps -/

omit [Field K] in
/-- No handler waits or has timed out where the one that moves does not. -/
theorem prompt_move (hs : Balanced outs s) {place : HandlerPlace Ref}
    (hprompt : place ≠ .waiting ∧ place ≠ .returned .schedulerTimeout) (engine : Engine Id H)
    (j : Ref) : (s.move h place engine).place j ≠ .waiting ∧
      (s.move h place engine).place j ≠ .returned .schedulerTimeout := by
  have hall := Function.forall_update_iff s.place (a := h) (b := place)
    fun _ place => place ≠ .waiting ∧ place ≠ .returned .schedulerTimeout
  exact hall.mpr ⟨hprompt, fun j _ => hs.prompt j⟩ j

omit [Field K] in
/-- A handler goes on without touching the heap or the pending map. -/
theorem proceed (hs : Balanced outs s) {place : HandlerPlace Ref} {engine : Engine Id H}
    (hheap : engine.heap = s.engine.heap) (hpend : engine.pending = s.engine.pending)
    (hcanc : engine.cancelled = s.engine.cancelled) (hobj : engine.objects = s.engine.objects)
    (hold : s.place h ≠ .idle) (hnew : place ≠ .idle)
    (hacq : place.HasAcquired ↔ (s.place h).HasAcquired)
    (hprompt : place ≠ .waiting ∧ place ≠ .returned .schedulerTimeout) :
    Balanced (outs ++ [.quiet]) (s.move h place engine) := by
  have hitems : engine.items = s.engine.items := by rw [Engine.items, Engine.items, hheap]
  have hplace : ∀ j (P : HandlerPlace Ref → Prop), (P place ↔ P (s.place h)) →
      (P ((s.move h place engine).place j) ↔ P (s.place j)) := by
    intro j P hP
    by_cases hj : j = h
    · subst hj
      simpa [move] using hP
    · simp [move, Function.update_of_ne hj]
  refine ⟨hcanc.trans hs.cancelled, ?_, ?_, ?_, ?_, ?_, ?_, ?_⟩
  · intro i r hr
    rw [move, hpend] at hr
    rw [move, hobj, hitems]
    exact hs.listed i r hr
  · rw [taken_quiet, submitters_quiet, move, hitems]
    exact hs.balance
  · rw [submitters_quiet]
    exact hs.submitters_nodup
  · intro j
    rw [submitters_quiet, hs.mem_submitters]
    exact (hplace j (· ≠ .idle) (iff_of_true hnew hold)).symm
  · rw [acquirers_quiet]
    exact hs.acquirers_nodup
  · intro j
    rw [acquirers_quiet, hs.mem_acquirers]
    exact (hplace j HandlerPlace.HasAcquired hacq).symm
  · exact hs.prompt_move hprompt engine

omit [DecidableEq Ref] [Field K] in
theorem quiet (hs : Balanced outs s) : Balanced (outs ++ [.quiet]) s := by
  refine ⟨hs.cancelled, hs.listed, ?_, ?_, ?_, ?_, ?_, hs.prompt⟩
  · simpa using hs.balance
  · simpa using hs.submitters_nodup
  · simpa using hs.mem_submitters
  · simpa using hs.acquirers_nodup
  · simpa using hs.mem_acquirers

theorem submit (hs : Balanced outs s) (hidle : s.place h = .idle) (request : GoRequest Id K)
    (now : K) (stream : Bool) :
    Balanced (outs ++ [.submitted h]) (s.move h (.submitted stream)
      ({ s.engine with objects := Function.update s.engine.objects h request }.submit h now)) := by
  have hnew : h ∉ submitters outs := fun hm => (hs.mem_submitters h).mp hm hidle
  have hnotq : h ∉ s.engine.items.map GoItem.req := fun hm => (hs.mem_items_iff.mp hm).1 hidle
  refine ⟨hs.cancelled, ?_, ?_, ?_, ?_, ?_, ?_, ?_⟩
  · intro i r hr
    simp only [move, Engine.submit, Function.update_self, GoRequest.submitted_id] at hr
    simp only [move, Engine.items_submit, Multiset.map_cons, Multiset.mem_cons]
    by_cases hi : i = request.id
    · subst hi
      rw [Dict.get?_set_self, Option.some.injEq] at hr
      subst hr
      exact ⟨by simp [Engine.submit], Or.inl rfl⟩
    · rw [Dict.get?_set_of_ne hi] at hr
      obtain ⟨hid, hq⟩ := hs.listed i r hr
      have hne : r ≠ h := fun heq => hnotq (heq ▸ hq)
      exact ⟨by simp [Engine.submit, Function.update_of_ne hne, hid], Or.inr hq⟩
  · rw [taken_submitted, submitters_submitted, move, Engine.items_submit, Multiset.map_cons,
      Multiset.cons_add]
    exact (congrArg (h ::ₘ ·) hs.balance).trans
      (Multiset.coe_eq_coe.mpr (List.perm_append_singleton h _).symm)
  · rw [submitters_submitted, ← List.concat_eq_append]
    exact hs.submitters_nodup.concat hnew
  · intro j
    rw [submitters_submitted, List.mem_append, List.mem_singleton, hs.mem_submitters]
    by_cases hj : j = h
    · subst hj
      simp [move]
    · simp [move, hj]
  · rw [acquirers_submitted]
    exact hs.acquirers_nodup
  · intro j
    rw [acquirers_submitted, hs.mem_acquirers]
    by_cases hj : j = h
    · subst hj
      simp [move, hidle, HandlerPlace.HasAcquired]
    · simp [move, Function.update_of_ne hj]
  · exact hs.prompt_move (by simp) _

omit [Field K] in
theorem pass (hs : Balanced outs s) (hsub : s.place h ≠ .idle)
    (hacq : ¬ (s.place h).HasAcquired) :
    Balanced (outs ++ [(s.pass h).2]) (s.pass h).1 := by
  rcases Engine.acquireItem_of_no_tombstone hs.cancelled with ⟨-, hzero⟩ | ⟨x, heap, hp, hserve⟩
  · exact absurd hzero (hs.items_ne_zero hsub hacq)
  · have hresult : s.engine.acquire = (s.engine.serve x heap, some x.req) := by
      rw [Engine.acquire, hserve]
      rfl
    have hitems : s.engine.items = x ::ₘ (s.engine.serve x heap).items := H.pop_some hp
    rw [Handlers.pass, hresult]
    refine ⟨hs.cancelled, ?_, ?_, ?_, ?_, ?_, ?_, ?_⟩
    · intro i r hr
      -- the entry of another id lists another request
      have hne : i ≠ s.engine.idOf x := by
        rintro rfl
        have hnone :
            (s.engine.pending.erase (s.engine.idOf x)).get? (s.engine.idOf x) = some r := hr
        rw [Dict.get?_erase_self] at hnone
        cases hnone
      obtain ⟨hid, hq⟩ := hs.listed i r (Dict.get?_of_get?_erase hr)
      refine ⟨hid, ?_⟩
      rw [hitems, Multiset.map_cons, Multiset.mem_cons] at hq
      exact hq.resolve_left fun heq => hne (by rw [← hid, heq]; rfl)
    · have hbal := hs.balance
      rw [hitems, Multiset.map_cons, Multiset.cons_add] at hbal
      have hsnoc : (↑(taken outs ++ [x.req]) : Multiset Ref) = x.req ::ₘ ↑(taken outs) :=
        Multiset.coe_eq_coe.mpr (List.perm_append_singleton _ _)
      rw [taken_acquired, submitters_acquired, ← hbal, hsnoc, Multiset.add_cons]
      rfl
    · rw [submitters_acquired]
      exact hs.submitters_nodup
    · intro j
      rw [submitters_acquired, hs.mem_submitters]
      by_cases hj : j = h
      · subst hj
        simp [move, hsub]
      · simp [move, Function.update_of_ne hj]
    · rw [acquirers_acquired, ← List.concat_eq_append]
      exact hs.acquirers_nodup.concat fun hm => hacq ((hs.mem_acquirers h).mp hm)
    · intro j
      rw [acquirers_acquired, List.mem_append, List.mem_singleton, hs.mem_acquirers]
      by_cases hj : j = h
      · subst hj
        simp [move, HandlerPlace.HasAcquired]
      · simp [move, hj]
    · exact hs.prompt_move (by simp) _

theorem agingTick (hs : Balanced outs s) (now : K) :
    Balanced (outs ++ [.quiet]) { s with engine := s.engine.agingTick now } := by
  have hid : ∀ r, ((s.engine.agingTick now).objects r).id = (s.engine.objects r).id := by
    intro r
    simp only [Engine.agingTick]
    split <;> rfl
  have hquiet := hs.quiet
  refine ⟨hs.cancelled, ?_, hquiet.balance, hquiet.submitters_nodup, hquiet.mem_submitters,
    hquiet.acquirers_nodup, hquiet.mem_acquirers, hs.prompt⟩
  intro i r hr
  rw [hid]
  exact hs.listed i r hr

/-- **A step keeps the books.** -/
theorem step (hs : Balanced outs s) (op : HandlerOp Ref Id K) :
    Balanced (outs ++ [(s.step op).2]) (s.step op).1 := by
  cases op with
  | submit h chat id now =>
    rcases hp : s.place h with - | stream | - | r | exit <;> simp only [Handlers.step, hp]
    case idle => exact hs.submit hp _ now _
    all_goals exact hs.quiet
  | acquire h =>
    rcases hp : s.place h with - | ⟨- | -⟩ | - | r | exit <;> simp only [Handlers.step, hp]
    case submitted.false | waiting =>
      exact hs.pass (by simp [hp]) (by simp [hp, HandlerPlace.HasAcquired])
    all_goals exact hs.quiet
  | timeOut h =>
    rcases hp : s.place h with - | stream | - | r | exit <;> simp only [Handlers.step, hp]
    case waiting => exact absurd hp (hs.prompt h).1
    all_goals exact hs.quiet
  | forward h ok =>
    rcases hp : s.place h with - | stream | - | r | exit <;> simp only [Handlers.step, hp]
    case acquired =>
      cases ok <;>
      exact hs.proceed rfl rfl rfl rfl (by simp [hp]) (by simp)
        (by simp [hp, HandlerPlace.HasAcquired]) (by simp)
    all_goals exact hs.quiet
  | forwardStream h ok =>
    rcases hp : s.place h with - | ⟨- | -⟩ | - | r | exit <;> simp only [Handlers.step, hp]
    case submitted.true =>
      cases ok <;>
      exact hs.proceed rfl rfl rfl rfl (by simp [hp]) (by simp)
        (by simp [hp, HandlerPlace.HasAcquired]) (by simp)
    all_goals exact hs.quiet
  | unsupported h =>
    rcases hp : s.place h with - | ⟨- | -⟩ | - | r | exit <;> simp only [Handlers.step, hp]
    case submitted.true =>
      exact hs.proceed rfl rfl rfl rfl (by simp [hp]) (by simp)
        (by simp [hp, HandlerPlace.HasAcquired]) (by simp)
    all_goals exact hs.quiet
  | agingTick now => exact hs.agingTick now

end Balanced

variable {objects : Ref → GoRequest Id K} {ops : List (HandlerOp Ref Id K)} {h : Ref}

/-- What a run shows. -/
def outs (s : Handlers Id H) (ops : List (HandlerOp Ref Id K)) : List (HandlerOut Ref) :=
  ((machine H).log s ops).map Prod.snd

/-- **A run keeps the books.** -/
theorem balanced_run :
    Balanced (outs (init H objects) ops) ((machine H).run (init H objects) ops) := by
  refine Machine.log_inv (M := machine H) (H := fun _ => True)
    (I := fun _ log s => Balanced (log.map Prod.snd) s) (fun _ _ _ => trivial) Balanced.init
    ?_ trivial
  intro ops op _ hs
  rw [List.map_append, List.map_singleton]
  exact hs.step op

/-- Once all handlers have returned, what is left in the heap is one request
for each stream. -/
theorem leftover_eq_streams {s : Handlers Id H}
    (hs : s = (machine H).run (init H objects) ops)
    (hdone : ∀ h, s.place h = .idle ∨ ∃ exit, s.place h = .returned exit) :
    s.engine.items.card =
      ((submitters (outs (init H objects) ops)).filter fun h => (s.place h).Streamed).length := by
  have hbooks : Balanced (outs (init H objects) ops) s := hs ▸ balanced_run
  set l := outs (init H objects) ops
  have hperm : (acquirers l).Perm ((submitters l).filter fun h => (s.place h).HasAcquired) := by
    refine (List.perm_ext_iff_of_nodup hbooks.acquirers_nodup
      (hbooks.submitters_nodup.filter _)).mpr fun h => ?_
    rw [List.mem_filter, hbooks.mem_acquirers, hbooks.mem_submitters, decide_eq_true_eq]
    refine ⟨fun hacq => ⟨fun hidle => ?_, hacq⟩, And.right⟩
    rw [hidle] at hacq
    exact hacq
  have hrest : (submitters l).filter (fun h => !decide (s.place h).HasAcquired) =
      (submitters l).filter fun h => (s.place h).Streamed := by
    refine List.filter_congr fun h hh => ?_
    have hstarted := (hbooks.mem_submitters h).mp hh
    have hprompt := (hbooks.prompt h).2
    rcases (hdone h).resolve_left hstarted with ⟨exit, hexit⟩
    cases exit <;>
      simp_all [HandlerPlace.HasAcquired, HandlerPlace.Streamed]
  have hcount := List.length_eq_length_filter_add (l := submitters l)
    fun h => decide (s.place h).HasAcquired
  rw [hrest, ← hperm.length_eq] at hcount
  have hcard := hbooks.card_items
  omega

/-! ## The coarser gateway

`Gateway` does not tell the exits of a handler apart, lets a time out come at
any time, and does not count completions. -/

/-- The phase of a place. -/
def phaseOf : HandlerPlace Ref → HandlerPhase Ref
  | .idle => .idle
  | .submitted stream => .queued stream
  | .waiting => .queued false
  | .acquired r => .granted r
  | .returned .schedulerTimeout | .returned .streamUnsupported => .failed
  | .returned _ => .forwarded

/-- The step of the gateway a handler's step is. -/
def coarse : HandlerOp Ref Id K → GatewayOp Ref Id K
  | .submit h chat id now => .submit h chat id now
  | .acquire h => .acquire h
  | .timeOut h => .timeOut h
  | .forward h _ | .forwardStream h _ => .forward h
  | .unsupported h => .unsupported h
  | .agingTick now => .agingTick now

/-- The engine without its count of completions. -/
def uncounted (e : Engine Id H) : Engine Id H := { e with completed := 0 }

/-- The gateway the handlers are. -/
def view (s : Handlers Id H) : Gateway Id H := ⟨uncounted s.engine, fun h => phaseOf (s.place h)⟩

section View

variable {s : Handlers Id H} {e : Engine Id H}

omit [DecidableEq Ref] [Field K] in
theorem acquireLoop_uncounted (n : ℕ) (e : Engine Id H) :
    Engine.acquireLoop n (uncounted e) =
      (uncounted (Engine.acquireLoop n e).1, (Engine.acquireLoop n e).2) := by
  induction n generalizing e with
  | zero => rfl
  | succ n ih =>
    have hheap : (uncounted e).heap = e.heap := rfl
    rw [Engine.acquireLoop, Engine.acquireLoop, hheap]
    rcases H.pop e.heap with - | ⟨item, heap⟩
    · rfl
    · by_cases hc : e.idOf item ∈ e.cancelled
      · have hc' : (uncounted e).idOf item ∈ (uncounted e).cancelled := hc
        simp only [if_pos hc, if_pos hc']
        exact ih (e.purge item heap)
      · have hc' : ¬ (uncounted e).idOf item ∈ (uncounted e).cancelled := hc
        simp only [if_neg hc, if_neg hc']
        rfl

omit [DecidableEq Ref] [Field K] in
theorem acquire_uncounted : (uncounted e).acquire = (uncounted e.acquire.1, e.acquire.2) := by
  have hitem : (uncounted e).acquireItem = (uncounted e.acquireItem.1, e.acquireItem.2) :=
    acquireLoop_uncounted _ e
  rw [Engine.acquire, Engine.acquire, hitem]

omit [DecidableEq Id] [Field K] in
theorem view_move {h : Ref} {place : HandlerPlace Ref} {engine : Engine Id H} :
    view (s.move h place engine) =
      Gateway.enter ⟨uncounted engine, (view s).phase⟩ h (phaseOf place) := by
  simp only [view, move, Gateway.enter, Gateway.mk.injEq, true_and]
  funext j
  by_cases hj : j = h
  · subst hj
    simp
  · simp [hj]

/-- A handler's pass over the heap is one of the gateway's. -/
theorem view_pass {h : Ref} (hq : (view s).phase h = .queued false) :
    view (s.pass h).1 = ((view s).step (.acquire h : GatewayOp Ref Id K)).1 := by
  have hacq : (view s).engine.acquire = _ := acquire_uncounted
  rw [Handlers.pass, Gateway.step]
  simp only [hq, hacq]
  rcases hr : s.engine.acquire with ⟨engine, - | r⟩
  · -- the handler goes on waiting
    simp only [view_move]
    have hphase : phaseOf (.waiting : HandlerPlace Ref) = (view s).phase h := hq.symm
    rw [hphase, Gateway.enter, Function.update_eq_self]
  · exact view_move

/-- **A step of the handlers is a step of the gateway**, or none. -/
theorem view_step (op : HandlerOp Ref Id K) :
    view (s.step op).1 = view s ∨ view (s.step op).1 = ((view s).step (coarse op)).1 := by
  have hphase : ∀ h, (view s).phase h = phaseOf (s.place h) := fun _ => rfl
  cases op with
  | submit h chat id now =>
    rcases hp : s.place h with - | stream | - | r | exit <;>
      simp only [Handlers.step, hp, true_or]
    case idle =>
      refine Or.inr ?_
      simp only [view_move, coarse, Gateway.step, hphase, hp]
      rfl
  | acquire h =>
    rcases hp : s.place h with - | ⟨- | -⟩ | - | r | exit <;>
      simp only [Handlers.step, hp, true_or]
    case submitted.false | waiting => exact Or.inr (view_pass (by rw [hphase, hp]; rfl))
  | timeOut h =>
    rcases hp : s.place h with - | stream | - | r | exit <;>
      simp only [Handlers.step, hp, true_or]
    case waiting =>
      refine Or.inr ?_
      simp only [view_move, coarse, Gateway.step, hphase, hp]
      rfl
  | forward h ok =>
    rcases hp : s.place h with - | stream | - | r | exit <;>
      simp only [Handlers.step, hp, true_or]
    case acquired =>
      refine Or.inr ?_
      simp only [view_move, coarse, Gateway.step, hphase, hp]
      cases ok <;> rfl
  | forwardStream h ok =>
    rcases hp : s.place h with - | ⟨- | -⟩ | - | r | exit <;>
      simp only [Handlers.step, hp, true_or]
    case submitted.true =>
      refine Or.inr ?_
      simp only [coarse, Gateway.step, hphase, hp]
      cases ok <;> exact view_move
  | unsupported h =>
    rcases hp : s.place h with - | ⟨- | -⟩ | - | r | exit <;>
      simp only [Handlers.step, hp, true_or]
    case submitted.true =>
      refine Or.inr ?_
      simp only [view_move, coarse, Gateway.step, hphase, hp]
      rfl
  | agingTick now => exact Or.inr rfl

/-- **Every run of the handlers is one of the gateway.** -/
theorem view_run :
    ∃ ops', view ((machine H).run (init H objects) ops) =
      (Gateway.machine H).run (Gateway.init H objects) ops' := by
  refine Machine.run_inv_of_step (M := machine H)
    (I := fun s => ∃ ops', view s = (Gateway.machine H).run (Gateway.init H objects) ops') ?_
    ⟨[], rfl⟩
  rintro s op ⟨ops', hs⟩
  rcases view_step (s := s) op with hstep | hstep
  · exact ⟨ops', hstep.trans hs⟩
  · refine ⟨ops' ++ [coarse op], hstep.trans ?_⟩
    rw [Machine.run_snoc, ← hs]
    rfl

end View

end Handlers

end VllmScheduler
