import VllmScheduler.Gateway.Model
/-!
# Clients and forwards, await by await

`submit_chat` and `_forward_request` of `python/scheduler/gateway.py` for
plain requests, with a step for each stretch between two awaits. A client
and any number of forwards share the future of a request: the client's
`wait_for` may expire at any moment and cancels the future, a forward sets
it to the backend's answer or, in its `except` branch, to the error. An
exception comes from the call to the backend, before or after the response
is there; what follows that call does not raise.

`Model.lean` has the end of a forward and the expiry of a client as one step
each. The last section shows that they are what the steps here come to where
nothing comes in between.
-/

namespace VllmScheduler

/-- `Future.done`. -/
def FutureState.done : FutureState → Bool
  | pending => false
  | _ => true

/-- Where a client stands. -/
inductive ClientPlace
  /-- In its `wait_for`. -/
  | waiting
  /-- The `wait_for` has expired, and `scheduler.cancel` comes next. -/
  | timedOut
  /-- The rest of the `except` branch comes next. -/
  | cancelling
  | returned (result : ChatResult)
  | raised
deriving DecidableEq

/-- A client inside `submit_chat`. -/
structure Chat (Id : Type) where
  requestId : Id
  future : FutureState
  client : ClientPlace
deriving DecidableEq

/-- Where a forward stands. From the end of the backend call on it has the
error it caught, if any. -/
inductive ForwardPlace
  | posting
  /-- `scheduler.complete` comes next. -/
  | completing (error : Option String)
  | completed (error : Option String)
  | finished (error : Option String)
deriving DecidableEq

/-- A `_forward_request` execution for the request of a client. -/
structure Forward (Id : Type) where
  chat : ℕ
  requestId : Id
  place : ForwardPlace
deriving DecidableEq

/-- A call on the future of a client, and whether the future was done. -/
inductive FutureCall
  | setResult (chat : ℕ) (done : Bool)
  | cancel (chat : ℕ) (done : Bool)
deriving DecidableEq

/-- The clients, the forwards and what they share. -/
structure ChatSystem {Id K : Type} [LinearOrder K] (H : RequestHeap Id K) where
  scheduler : SJFScheduler H
  chats : List (Chat Id)
  forwards : List (Forward Id)
  metrics : GatewayMetrics

/-- The stretches between two awaits. -/
inductive ChatStep (Id K : Type)
  /-- A client submits its request and waits. -/
  | submit (request : ScheduledRequest Id K) (prediction : Option (Prediction K)) (now : K)
  /-- A worker creates a forward for the request of a client. -/
  | spawn (chat : ℕ)
  /-- The backend call of a forward ends. -/
  | respond (forward : ℕ) (result : BackendResult)
  /-- A forward calls `scheduler.complete`. -/
  | complete (forward : ℕ)
  /-- The rest of a forward. -/
  | close (forward : ℕ)
  /-- The `wait_for` of a client expires. -/
  | timeOut (chat : ℕ)
  /-- A client calls `scheduler.cancel`. -/
  | cancel (chat : ℕ)
  /-- The rest of its `except` branch. -/
  | reraise (chat : ℕ)
  /-- The `wait_for` of a client returns. -/
  | deliver (chat : ℕ)
  /-- Anybody else uses the scheduler. -/
  | scheduler (op : SJFOp Id K)
deriving DecidableEq

/-- The forward that takes the step. -/
def ChatStep.forward {Id K : Type} : ChatStep Id K → Option ℕ
  | respond f _ | complete f | close f => some f
  | _ => none

namespace ChatSystem

variable {Id K : Type} [DecidableEq Id] [Field K] [LinearOrder K] {H : RequestHeap Id K}

/-- Before the first request. -/
def init (scheduler : SJFScheduler H) : ChatSystem H := ⟨scheduler, [], [], ⟨0, 0, 0, 0⟩⟩

/-- `if not future.done(): future.set_result(result)`. -/
def setResult (sys : ChatSystem H) (c : ℕ) (result : ChatResult) :
    ChatSystem H × Option FutureCall :=
  match sys.chats[c]? with
  | some chat =>
    if chat.future.done then (sys, none)
    else
      ({ sys with chats := sys.chats.set c { chat with future := .settled result } },
        some (.setResult c chat.future.done))
  | none => (sys, none)

/-- Forward `f` goes to its next place. -/
def place (sys : ChatSystem H) (f : ℕ) (fw : Forward Id) (place : ForwardPlace) : ChatSystem H :=
  { sys with forwards := sys.forwards.set f { fw with place := place } }

/-- The client of a chat goes to its next place, and leaves the future as
`future`. -/
def move (sys : ChatSystem H) (c : ℕ) (chat : Chat Id) (future : FutureState)
    (client : ClientPlace) : ChatSystem H :=
  { sys with chats := sys.chats.set c { chat with future := future, client := client } }

variable (M : MathFns K)

/-- One step. -/
def step (sys : ChatSystem H) : ChatStep Id K → ChatSystem H × Option FutureCall
  | .submit request prediction now =>
    ({ sys with
        scheduler := sys.scheduler.submit request prediction now
        chats := sys.chats ++ [⟨request.requestId, .pending, .waiting⟩] }, none)
  | .spawn c =>
    match sys.chats[c]? with
    | some chat =>
      ({ sys with forwards := sys.forwards ++ [⟨c, chat.requestId, .posting⟩] }, none)
    | none => (sys, none)
  | .respond f result =>
    match sys.forwards[f]? with
    | some ⟨c, i, .posting⟩ =>
      match result with
      | .answered status text =>
        let settled := sys.setResult c (BackendResult.answered status text).chatResult
        (settled.1.place f ⟨c, i, .posting⟩ (.completing none), settled.2)
      | .raised error => (sys.place f ⟨c, i, .posting⟩ (.completing (some error)), none)
    | _ => (sys, none)
  | .complete f =>
    match sys.forwards[f]? with
    | some ⟨c, i, .completing error⟩ =>
      (({ sys with scheduler := sys.scheduler.complete i error.isNone } : ChatSystem H).place f
        ⟨c, i, .completing error⟩ (.completed error), none)
    | _ => (sys, none)
  | .close f =>
    match sys.forwards[f]? with
    | some ⟨c, i, .completed none⟩ =>
      (({ sys with metrics := { sys.metrics with success := sys.metrics.success + 1 } } :
        ChatSystem H).place f ⟨c, i, .completed none⟩ (.finished none), none)
    | some ⟨c, i, .completed (some error)⟩ =>
      let settled := ({ sys with metrics := { sys.metrics with error := sys.metrics.error + 1 } } :
        ChatSystem H).setResult c (BackendResult.raised error).chatResult
      (settled.1.place f ⟨c, i, .completed (some error)⟩ (.finished (some error)), settled.2)
    | _ => (sys, none)
  | .timeOut c =>
    match sys.chats[c]? with
    | some ⟨i, future, .waiting⟩ =>
      -- cancelling a future that is done does nothing
      (sys.move c ⟨i, future, .waiting⟩ (if future.done then future else .cancelled) .timedOut,
        some (.cancel c future.done))
    | _ => (sys, none)
  | .cancel c =>
    match sys.chats[c]? with
    | some ⟨i, future, .timedOut⟩ =>
      (({ sys with scheduler := (sys.scheduler.cancel i).1 } : ChatSystem H).move c
        ⟨i, future, .timedOut⟩ future .cancelling, none)
    | _ => (sys, none)
  | .reraise c =>
    match sys.chats[c]? with
    | some ⟨i, future, .cancelling⟩ =>
      let metrics : GatewayMetrics :=
        { sys.metrics with
          timeouts := sys.metrics.timeouts + 1
          dropped := sys.metrics.dropped + 1 }
      let sys : ChatSystem H := { sys with metrics := metrics }
      if future.done then (sys.move c ⟨i, future, .cancelling⟩ future .raised, none)
      else
        (sys.move c ⟨i, future, .cancelling⟩ .cancelled .raised, some (.cancel c future.done))
    | _ => (sys, none)
  | .deliver c =>
    match sys.chats[c]? with
    | some ⟨i, .settled result, .waiting⟩ =>
      (sys.move c ⟨i, .settled result, .waiting⟩ (.settled result) (.returned result), none)
    | _ => (sys, none)
  | .scheduler op => ({ sys with scheduler := (sys.scheduler.step M op).1 }, none)

/-- The machine of `step`. -/
def machine (H : RequestHeap Id K) :
    Machine (ChatSystem H) (ChatStep Id K) (Option FutureCall) where
  step := step M

omit [DecidableEq Id] [Field K] in
/-- The future of a client. -/
def future? (sys : ChatSystem H) (c : ℕ) : Option FutureState := sys.chats[c]?.map Chat.future

/-- What a step sets the future of client `c` to, where it was pending. -/
def settlement (c : ℕ) (sys : ChatSystem H) (a : ChatStep Id K) : Option FutureState :=
  if sys.future? c = some .pending ∧ (sys.step M a).1.future? c ≠ some .pending then
    (sys.step M a).1.future? c
  else none

/-- What a step of forward `f` adds to `total_completed` and to
`total_errors`, where it adds anything. -/
def gain (f : ℕ) (sys : ChatSystem H) (a : ChatStep Id K) : Option (ℤ × ℤ) :=
  let after := (sys.step M a).1.scheduler.base
  let added : ℤ × ℤ :=
    ((after.totalCompleted : ℤ) - sys.scheduler.base.totalCompleted,
      (after.totalErrors : ℤ) - sys.scheduler.base.totalErrors)
  if a.forward = some f ∧ added ≠ (0, 0) then some added else none

end ChatSystem

/-- What a forward that ends this way is to add. -/
def outcome : Option String → ℤ × ℤ
  | none => (1, 0)
  | some _ => (0, 1)

/-- What a forward has added by the place it stands at. -/
def Forward.counted {Id : Type} (fw : Forward Id) : List (ℤ × ℤ) :=
  match fw.place with
  | .posting | .completing _ => []
  | .completed error | .finished error => [outcome error]

namespace ChatSystem

variable {Id K : Type} [DecidableEq Id] [Field K] [LinearOrder K] {H : RequestHeap Id K}
variable {M : MathFns K} {sys : ChatSystem H} {a : ChatStep Id K} {c f : ℕ}

/-! ## A future is settled once -/

/-- **What a step does to the chats**: nothing, or a new one with a pending
future comes in, or one of them changes, whose future stays as it is if it
is done and is not given a result then. -/
inductive Touches (chats : List (Chat Id)) : List (Chat Id) → Option FutureCall → Prop
  | keep : Touches chats chats none
  | arrive (chat : Chat Id) : Touches chats (chats ++ [chat]) none
  | touch {c : ℕ} {chat : Chat Id} (chat' : Chat Id) (call : Option FutureCall)
      (hc : chats[c]? = some chat)
      (hfuture : chat.future.done = true → chat'.future = chat.future)
      (hcall : ∀ c' done, call = some (.setResult c' done) → done = false) :
      Touches chats (chats.set c chat') call

omit [DecidableEq Id] [Field K] in
/-- **What setting a result does**: nothing, or it settles a future that is
not done. -/
theorem setResult_cases (sys : ChatSystem H) (c : ℕ) (result : ChatResult) :
    (sys.setResult c result = (sys, none) ∧
        ∀ chat, sys.chats[c]? = some chat → chat.future.done = true) ∨
      ∃ chat, sys.chats[c]? = some chat ∧ chat.future.done = false ∧
        sys.setResult c result =
          (sys.move c chat (.settled result) chat.client, some (.setResult c false)) := by
  rw [setResult]
  rcases hc : sys.chats[c]? with - | chat
  · exact Or.inl ⟨rfl, nofun⟩
  · cases hdone : chat.future.done with
    | true => exact Or.inl ⟨by simp [hdone], fun _ heq => Option.some.inj heq ▸ hdone⟩
    | false => exact Or.inr ⟨chat, rfl, hdone, by simp [hdone, move]⟩

omit [DecidableEq Id] [Field K] in
theorem touches_setResult (sys : ChatSystem H) (c : ℕ) (result : ChatResult) :
    Touches sys.chats (sys.setResult c result).1.chats (sys.setResult c result).2 := by
  rcases setResult_cases sys c result with ⟨heq, -⟩ | ⟨chat, hc, hdone, heq⟩
  · rw [heq]
    exact .keep
  · rw [heq]
    refine .touch _ _ hc (fun h => ?_) ?_
    · rw [hdone] at h
      cases h
    · intro c' done heq
      cases heq
      rfl

theorem touches_step (M : MathFns K) (sys : ChatSystem H) (a : ChatStep Id K) :
    Touches sys.chats (sys.step M a).1.chats (sys.step M a).2 := by
  cases a with
  | submit request prediction now => exact .arrive _
  | spawn c =>
    rw [step]
    split
    · exact .keep
    · exact .keep
  | respond f result =>
    rw [step]
    split
    · cases result with
      | answered status text => exact touches_setResult sys _ _
      | raised error => exact .keep
    · exact .keep
  | complete f =>
    rw [step]
    split
    · exact .keep
    · exact .keep
  | close f =>
    rw [step]
    split
    · exact .keep
    · rename_i c i error hf
      exact touches_setResult
        ({ sys with metrics := { sys.metrics with error := sys.metrics.error + 1 } } :
          ChatSystem H) c (BackendResult.raised error).chatResult
    · exact .keep
  | timeOut c =>
    rw [step]
    split
    · rename_i i future hc
      exact .touch _ _ hc (fun hdone => if_pos hdone) nofun
    · exact .keep
  | cancel c =>
    rw [step]
    split
    · rename_i i future hc
      exact .touch _ _ hc (fun _ => rfl) nofun
    · exact .keep
  | reraise c =>
    rw [step]
    split
    · rename_i i future hc
      dsimp only
      split
      · exact .touch _ _ hc (fun _ => rfl) nofun
      · rename_i hdone
        exact .touch _ _ hc (fun h => absurd h hdone) nofun
    · exact .keep
  | deliver c =>
    rw [step]
    split
    · rename_i i result hc
      exact .touch _ _ hc (fun _ => rfl) nofun
    · exact .keep
  | scheduler op => exact .keep

/-- **A future that is done stays as it is.** -/
theorem future?_step {future : FutureState} (h : sys.future? c = some future)
    (hdone : future.done = true) : (sys.step M a).1.future? c = some future := by
  obtain ⟨chat, hchat, rfl⟩ := Option.map_eq_some_iff.mp h
  rw [future?]
  generalize hchats : (sys.step M a).1.chats = chats
  generalize hcall : (sys.step M a).2 = call
  have htouch := touches_step M sys a
  rw [hchats, hcall] at htouch
  cases htouch with
  | keep => exact h
  | arrive chat' =>
    rw [List.getElem?_append_left (List.getElem?_eq_some_iff.mp hchat).1]
    exact h
  | @touch c' old chat' _ hc hfuture _ =>
    by_cases heq : c' = c
    · subst heq
      rw [hchat] at hc
      cases hc
      rw [List.getElem?_set_self (List.getElem?_eq_some_iff.mp hchat).1, Option.map_some,
        hfuture hdone]
    · rw [List.getElem?_set_ne heq]
      exact h

/-- **A result is not set on a future that is done.** -/
theorem setResult_step {done : Bool} (h : (sys.step M a).2 = some (.setResult c done)) :
    done = false := by
  generalize hchats : (sys.step M a).1.chats = chats
  have htouch := touches_step M sys a
  rw [hchats, h] at htouch
  cases htouch with
  | touch chat' _ _ _ hcall => exact hcall c done rfl

/-- What a step sets a future to is done. -/
theorem done_of_settlement {future : FutureState} (h : settlement M c sys a = some future) :
    (sys.step M a).1.future? c = some future ∧ future.done = true := by
  rw [settlement] at h
  split at h
  · rename_i hleft
    refine ⟨h, ?_⟩
    cases future with
    | pending => exact absurd h hleft.2
    | settled result => rfl
    | cancelled => rfl
  · cases h

/-- A future that is done is not settled again. -/
theorem settlement_of_done {future : FutureState} (h : sys.future? c = some future)
    (hdone : future.done = true) : settlement M c sys a = none := by
  refine if_neg fun hleft => ?_
  rw [h] at hleft
  rw [Option.some.inj hleft.1] at hdone
  cases hdone

/-- A future leaves the pending state once, and is done from then on. -/
theorem settlements_run (M : MathFns K) (sys : ChatSystem H) (c : ℕ) (as : List (ChatStep Id K)) :
    (machine M H).notes (settlement M c) sys as = [] ∨
      ((machine M H).notes (settlement M c) sys as).length = 1 ∧
        ∃ future, ((machine M H).run sys as).future? c = some future ∧ future.done = true := by
  induction as using List.reverseRecOn with
  | nil => exact Or.inl rfl
  | append_singleton as a ih =>
    rw [Machine.notes_snoc, Machine.run_snoc]
    rcases ih with hnone | ⟨hone, future, hfuture, hdone⟩
    · rcases hset : settlement M c ((machine M H).run sys as) a with - | future
      · exact Or.inl (by rw [hnone]; rfl)
      · exact Or.inr ⟨by rw [hnone]; rfl, future, done_of_settlement hset⟩
    · rw [settlement_of_done hfuture hdone, Option.toList_none, List.append_nil]
      exact Or.inr ⟨hone, future, future?_step hfuture hdone, hdone⟩

/-! ## A forward is counted once -/

/-- What forward `f` has added by the place it stands at. -/
def counted (sys : ChatSystem H) (f : ℕ) : List (ℤ × ℤ) :=
  (sys.forwards[f]?.map Forward.counted).getD []

omit [DecidableEq Id] [Field K] in
/-- Setting a result is about the chats alone. -/
theorem setResult_keeps (sys : ChatSystem H) (c : ℕ) (result : ChatResult) :
    (sys.setResult c result).1.forwards = sys.forwards ∧
      (sys.setResult c result).1.scheduler = sys.scheduler ∧
      (sys.setResult c result).1.metrics = sys.metrics := by
  rcases setResult_cases sys c result with ⟨heq, -⟩ | ⟨chat, -, -, heq⟩
  · rw [heq]
    exact ⟨rfl, rfl, rfl⟩
  · rw [heq]
    exact ⟨rfl, rfl, rfl⟩

omit [DecidableEq Id] [Field K] in
@[simp] theorem forwards_setResult {result : ChatResult} :
    (sys.setResult c result).1.forwards = sys.forwards :=
  (setResult_keeps sys c result).1

omit [DecidableEq Id] [Field K] in
@[simp] theorem scheduler_setResult {result : ChatResult} :
    (sys.setResult c result).1.scheduler = sys.scheduler :=
  (setResult_keeps sys c result).2.1

omit [DecidableEq Id] [Field K] in
@[simp] theorem metrics_setResult {result : ChatResult} :
    (sys.setResult c result).1.metrics = sys.metrics :=
  (setResult_keeps sys c result).2.2

omit [DecidableEq Id] [Field K] in
/-- A forward goes from one place to another. -/
theorem counted_set {sys' : ChatSystem H} {g : ℕ} {fw fw' : Forward Id}
    (hg : sys.forwards[g]? = some fw) (hset : sys'.forwards = sys.forwards.set g fw') :
    sys'.counted f = if g = f then fw'.counted else sys.counted f := by
  rw [counted, hset]
  split
  · rename_i heq
    subst heq
    rw [List.getElem?_set_self (List.getElem?_eq_some_iff.mp hg).1]
    rfl
  · rename_i hne
    rw [List.getElem?_set_ne hne]
    rfl

theorem gain_of_ne (h : a.forward ≠ some f) : gain M f sys a = none :=
  if_neg fun hf => h hf.1

theorem gain_of_base (h : (sys.step M a).1.scheduler.base = sys.scheduler.base) :
    gain M f sys a = none := by
  rw [gain, h]
  exact if_neg fun hf => hf.2 (by rw [sub_self, sub_self])

/-- What a call of `complete` adds. -/
theorem gain_complete {c : ℕ} {i : Id} {error : Option String}
    (hf : sys.forwards[f]? = some ⟨c, i, .completing error⟩) :
    gain M f sys (.complete f) = some (outcome error) := by
  simp only [gain, step, hf, place, SJFScheduler.complete, BaseScheduler.completed]
  cases error <;> simp [ChatStep.forward, outcome]

/-- A step that nobody's forward takes leaves the forwards where they are. -/
theorem counted_step_of_none (h : a.forward = none) :
    (sys.step M a).1.counted f = sys.counted f := by
  cases a with
  | submit request prediction now => rfl
  | spawn c =>
    rw [step]
    split
    · -- a new forward has added nothing
      rename_i chat hc
      rw [counted, counted, List.getElem?_append]
      split
      · rfl
      · rename_i hlt
        rw [List.getElem?_eq_none (Nat.le_of_not_lt hlt), List.getElem?_singleton]
        split <;> rfl
    · rfl
  | respond g result | complete g | close g => cases h
  | timeOut c | cancel c | deliver c =>
    rw [step]
    split <;> rfl
  | reraise c =>
    rw [step]
    split
    · dsimp only
      split <;> rfl
    · rfl
  | scheduler op => rfl

/-- **What a step of forward `g` does**: nothing, or it calls `complete` and
goes on, or it goes on and leaves the counters alone. -/
theorem forward_step (M : MathFns K) (sys : ChatSystem H) {g : ℕ} (h : a.forward = some g) :
    (sys.step M a).1 = sys ∨
      (∃ c i error, a = .complete g ∧ sys.forwards[g]? = some ⟨c, i, .completing error⟩ ∧
        (sys.step M a).1.forwards = sys.forwards.set g ⟨c, i, .completed error⟩) ∨
      ∃ fw fw', sys.forwards[g]? = some fw ∧
        (sys.step M a).1.forwards = sys.forwards.set g fw' ∧ fw'.counted = fw.counted ∧
        (sys.step M a).1.scheduler.base = sys.scheduler.base := by
  cases a with
  | submit _ _ _ | spawn _ | timeOut _ | cancel _ | reraise _ | deliver _ | scheduler _ => cases h
  | respond f result =>
    cases h
    simp only [step]
    split
    · rename_i c i hg
      refine Or.inr (Or.inr ⟨⟨c, i, .posting⟩, ?_⟩)
      cases result with
      | answered status text =>
        exact ⟨⟨c, i, .completing none⟩, hg, by simp [place], rfl, by simp [place]⟩
      | raised error => exact ⟨⟨c, i, .completing (some error)⟩, hg, rfl, rfl, rfl⟩
    · exact Or.inl rfl
  | complete f =>
    cases h
    simp only [step]
    split
    · rename_i c i error hg
      exact Or.inr (Or.inl ⟨c, i, error, trivial, hg, rfl⟩)
    · exact Or.inl rfl
  | close f =>
    cases h
    simp only [step]
    split
    · rename_i c i hg
      exact Or.inr (Or.inr ⟨_, ⟨c, i, .finished none⟩, hg, rfl, rfl, rfl⟩)
    · rename_i c i error hg
      exact Or.inr (Or.inr ⟨_, ⟨c, i, .finished (some error)⟩, hg, by simp [place], rfl,
        by simp [place]⟩)
    · exact Or.inl rfl

/-- **A forward adds what its place says it has added.** -/
theorem counted_step :
    (sys.step M a).1.counted f = sys.counted f ++ (gain M f sys a).toList := by
  rcases hfw : a.forward with - | g
  · rw [counted_step_of_none hfw, gain_of_ne (by rw [hfw]; nofun), Option.toList_none,
      List.append_nil]
  · rcases forward_step M sys hfw with
      hstill | ⟨c, i, error, rfl, hg, hset⟩ | ⟨fw, fw', hg, hset, hcount, hbase⟩
    · rw [gain_of_base (by rw [hstill]), hstill, Option.toList_none, List.append_nil]
    · rw [counted_set hg hset]
      split
      · rename_i heq
        subst heq
        rw [gain_complete hg, counted, hg]
        rfl
      · rename_i hne
        rw [gain_of_ne (by rw [hfw]; simpa using hne), Option.toList_none, List.append_nil]
    · rw [gain_of_base hbase, counted_set hg hset, Option.toList_none, List.append_nil]
      split
      · rename_i heq
        subst heq
        rw [hcount, counted, hg]
        rfl
      · rfl

/-- What a forward has added along a run. -/
theorem gains_run (scheduler : SJFScheduler H) (as : List (ChatStep Id K)) :
    (machine M H).notes (gain M f) (init scheduler) as =
      ((machine M H).run (init scheduler) as).counted f := by
  induction as using List.reverseRecOn with
  | nil => rfl
  | append_singleton as a ih =>
    rw [Machine.notes_snoc, Machine.run_snoc, ih]
    exact counted_step.symm

/-- **A future is settled once, and a forward counted once.** In every run
the future of a client leaves the pending state at most once, no result is
set on a future that is done, and a forward that has finished has moved the
two counters once: `total_completed` by one where it caught no exception,
`total_errors` by one where it did. -/
theorem settled_and_counted_once (scheduler : SJFScheduler H) (as : List (ChatStep Id K)) :
    (∀ c, ((machine M H).notes (settlement M c) (init scheduler) as).length ≤ 1) ∧
      (∀ a c done, (a, some (.setResult c done)) ∈ (machine M H).log (init scheduler) as →
        done = false) ∧
      ∀ f c i error,
        ((machine M H).run (init scheduler) as).forwards[f]? = some ⟨c, i, .finished error⟩ →
          (machine M H).notes (gain M f) (init scheduler) as =
            [if error = none then (1, 0) else (0, 1)] := by
  refine ⟨fun c => ?_, fun a c done hmem => ?_, fun f c i error hf => ?_⟩
  · rcases settlements_run M (init scheduler) c as with hnone | ⟨hone, -⟩
    · rw [hnone]
      exact Nat.zero_le 1
    · exact hone.le
  · obtain ⟨log₁, log₂, hlog⟩ := List.append_of_mem hmem
    obtain ⟨as₁, as₂, -, -, hout, -⟩ := Machine.log_eq_append_cons hlog
    exact setResult_step hout.symm
  · rw [gains_run, counted, hf]
    cases error <;> rfl

/-- Two forwards of one request. The first is answered; the client gives up
before it sees the result; the second forward fails. -/
def twoForwards : List (ChatStep String ℚ) :=
  [.submit ⟨"a", "", 10, 5, 0⟩ none 0, .spawn 0, .spawn 0, .respond 0 (.answered 200 "ok"),
    .timeOut 0, .complete 0, .respond 1 (.raised "connection lost"), .cancel 0, .complete 1,
    .close 1, .reraise 0, .close 0]

theorem twoForwards_counted :
    ((machine MathFns.firstOrder (listHeap PrioritizedItem.key)).run
        (init (SJFScheduler.init _ (AgingConfig.default ℚ) true 300)) twoForwards).forwards =
        [⟨0, "a", .finished none⟩, ⟨0, "a", .finished (some "connection lost")⟩] ∧
      (machine MathFns.firstOrder (listHeap PrioritizedItem.key)).notes
        (gain MathFns.firstOrder 1)
        (init (SJFScheduler.init _ (AgingConfig.default ℚ) true 300)) twoForwards = [(0, 1)] :=
  ⟨by decide +kernel,
    (settled_and_counted_once (SJFScheduler.init _ (AgingConfig.default ℚ) true 300)
      twoForwards).2.2 1 0 "a" (some "connection lost") (by decide +kernel)⟩

/-! ## The same, undisturbed -/

variable {C : Type} {g : SchedulerGateway C H}

/-- The gateway shows what the system has of client `c`. -/
structure Reflects (g : SchedulerGateway C H) (sys : ChatSystem H) (c : ℕ) (i : Id) : Prop where
  scheduler : g.scheduler = sys.scheduler
  metrics : g.metrics = sys.metrics
  plain : g.streams i = false
  future : sys.future? c = some (g.futures i)

omit [DecidableEq Id] [Field K] in
theorem future?_setResult {future : FutureState} {result : ChatResult}
    (h : sys.future? c = some future) :
    (sys.setResult c result).1.future? c =
      some (if future = .pending then .settled result else future) := by
  obtain ⟨chat, hchat, rfl⟩ := Option.map_eq_some_iff.mp h
  rcases setResult_cases sys c result with ⟨heq, hdone⟩ | ⟨chat', hchat', hdone, heq⟩
  · have hne : chat.future ≠ .pending := by
      intro hp
      have hchat := hdone chat hchat
      rw [hp] at hchat
      cases hchat
    rw [heq, if_neg hne]
    exact h
  · obtain rfl : chat = chat' := Option.some.inj (hchat.symm.trans hchat')
    have hp : chat.future = .pending := by
      cases hfut : chat.future with
      | pending => rfl
      | settled _ | cancelled => rw [hfut] at hdone; cases hdone
    rw [heq, if_pos hp, future?, move,
      List.getElem?_set_self (List.getElem?_eq_some_iff.mp hchat).1]
    rfl

omit [DecidableEq Id] [Field K] in
@[simp] theorem future?_place {fw : Forward Id} {p : ForwardPlace} :
    (sys.place f fw p).future? c = sys.future? c := rfl

/-- **A forward that is not disturbed** settles the request in one step of the
gateway. -/
theorem reflects_forward {i : Id} (h : Reflects g sys c i)
    (hf : sys.forwards[f]? = some ⟨c, i, .posting⟩) (result : BackendResult) :
    Reflects (g.settle i result)
      ((machine M H).run sys [.respond f result, .complete f, .close f]) c i := by
  have hlt := (List.getElem?_eq_some_iff.mp hf).1
  have hmem : sys.forwards[f] = ⟨c, i, .posting⟩ := (List.getElem?_eq_some_iff.mp hf).2
  -- the two paths set the result at different steps, with the chats as they were
  have hfuture : ((machine M H).run sys [.respond f result, .complete f, .close f]).future? c =
      some (if g.futures i = .pending then .settled result.chatResult else g.futures i) := by
    cases result with
    | answered status text =>
      rw [← future?_setResult h.future]
      simp [machine, step, hlt, hmem, place, future?]
    | raised error =>
      simp only [machine, step, Machine.run_cons, Machine.run_nil, hf, place, hlt,
        List.getElem?_set_self, List.length_set]
      exact future?_setResult h.future
  refine ⟨?_, ?_, h.plain, ?_⟩
  · cases result <;>
      simp [machine, step, hlt, hmem, place, SchedulerGateway.settle, h.scheduler, BackendResult.ok]
  · cases result <;>
      simp [machine, step, hlt, hmem, place, SchedulerGateway.settle, h.metrics, BackendResult.ok]
  · rw [hfuture]
    by_cases hpending : g.futures i = .pending
    · simp [SchedulerGateway.settle, h.plain, hpending]
    · simp [SchedulerGateway.settle, hpending]

/-- **A client that is not disturbed** gives up in one step of the gateway. -/
theorem reflects_timeOut {i : Id} (h : Reflects g sys c i)
    (hc : sys.chats[c]? = some ⟨i, .pending, .waiting⟩) :
    Reflects (g.step M (.clientTimeout i)).1
      ((machine M H).run sys [.timeOut c, .cancel c, .reraise c]) c i := by
  have hlt := (List.getElem?_eq_some_iff.mp hc).1
  have hmem : sys.chats[c] = ⟨i, .pending, .waiting⟩ := (List.getElem?_eq_some_iff.mp hc).2
  have hpending : g.futures i = .pending := by
    have hfuture := h.future
    rw [future?, hc] at hfuture
    exact (Option.some.inj hfuture).symm
  have hstep : (g.step M (.clientTimeout i)).1 =
      { g with
        scheduler := (g.scheduler.cancel i).1
        futures := Function.update g.futures i .cancelled
        metrics := { g.metrics with
          timeouts := g.metrics.timeouts + 1
          dropped := g.metrics.dropped + 1 } } := by
    rw [SchedulerGateway.step, if_pos ⟨h.plain, hpending⟩]
  rw [hstep]
  refine ⟨?_, ?_, h.plain, ?_⟩
  · simp [machine, step, hlt, hmem, move, h.scheduler, FutureState.done]
  · simp [machine, step, hlt, hmem, move, h.metrics, FutureState.done]
  · simp [machine, step, hlt, hmem, move, future?, FutureState.done]

end ChatSystem

end VllmScheduler
