import Mathlib.Algebra.Field.Rat
import Mathlib.Algebra.Order.Ring.Rat
import VllmScheduler.Common.Machine
import VllmScheduler.Go.Engine
/-!
# The Go gateway: who forwards what

`handleChatCompletions` and `dispatchLoop` of `go/cmd/gateway/main.go`, any
number of each. Every handler submits one request and then, unless the
client asked for a stream, waits in `Acquire`; but it discards what it
acquired and forwards its own body, whoever's turn it was. A streaming
handler forwards without an `Acquire` at all, and the dispatch workers
acquire requests and drop them. So a forward need not be scheduled, and a
scheduled request need not be forwarded. What is left of the intended
correspondence is `InTurn`: no streams, a handler's `Acquire` only when its
own request comes strictly first, and a worker's only when nothing is
queued.
-/

namespace VllmScheduler

/-- The decoded body of a chat request. -/
structure GoChatRequest where
  /-- Role and content of each message, empty where missing. -/
  messages : List (String × String)
  maxTokens : ℤ
  stream : Bool
deriving DecidableEq

/-- `extractPrompt`. -/
def extractPrompt (messages : List (String × String)) : String :=
  messages.foldl (fun buf m => buf ++ m.1 ++ ": " ++ m.2 ++ "\n") ""

/-- `predictLength`; `len` of a Go string counts bytes. -/
def predictLength {K : Type} [Field K] [LinearOrder K] (prompt : String) (maxTokens : ℤ) : K :=
  let base : K := prompt.utf8ByteSize * (15 / 100)
  let base := if base < 10 then 10 else base
  if base > maxTokens then maxTokens else base

/-- Where a handler stands. -/
inductive HandlerPhase (Ref : Type)
  /-- It has not submitted yet. -/
  | idle
  /-- It has submitted its request. -/
  | queued (stream : Bool)
  /-- Its `Acquire` has returned a request. -/
  | granted (acquired : Ref)
  /-- It has sent its body to vLLM. -/
  | forwarded
  /-- It has returned an error without sending. -/
  | failed
deriving DecidableEq

/-- The steps of the handlers and workers. A handler goes by the pointer to
the one request it creates. -/
inductive GatewayOp (Ref Id K : Type)
  /-- A handler builds its request, under an id read off the clock, and
  submits it. -/
  | submit (handler : Ref) (chat : GoChatRequest) (id : Id) (now : K)
  /-- A handler's `Acquire` makes a pass over the heap. -/
  | acquire (handler : Ref)
  /-- The context of a handler's `Acquire` ends. -/
  | timeOut (handler : Ref)
  /-- A handler sends its body. -/
  | forward (handler : Ref)
  /-- A streaming handler finds no flusher. -/
  | unsupported (handler : Ref)
  /-- The `Acquire` of a dispatch worker makes a pass over the heap. -/
  | work
  | agingTick (now : K)
deriving DecidableEq

/-- What a step shows. -/
inductive GatewayOut (Ref : Type)
  | quiet
  /-- An `Acquire` has returned a request. -/
  | acquired (request : Ref)
  /-- A handler has sent its body. -/
  | forwarded (handler : Ref)
deriving DecidableEq

/-- The engine and the handlers. -/
structure Gateway {Ref K : Type} [LinearOrder K] (Id : Type) (H : GoHeap Ref K) where
  engine : Engine Id H
  phase : Ref → HandlerPhase Ref

namespace Gateway

variable {Ref Id K : Type} [DecidableEq Ref] [DecidableEq Id] [Field K] [LinearOrder K]
variable {H : GoHeap Ref K}

/-- The gateway as `main` starts it, before the first request. -/
def init (H : GoHeap Ref K) (objects : Ref → GoRequest Id K) : Gateway Id H :=
  ⟨Engine.newEngine H objects, fun _ => .idle⟩

/-- The request a handler builds. -/
def chatRequest (chat : GoChatRequest) (id : Id) : GoRequest Id K :=
  let prompt := extractPrompt chat.messages
  ⟨id, prompt, chat.maxTokens, predictLength prompt chat.maxTokens, 0, 0⟩

/-- What a pass of `Acquire` shows. -/
def acquireOut : Option Ref → GatewayOut Ref
  | some ref => .acquired ref
  | none => .quiet

/-- A handler enters a phase. -/
def enter (s : Gateway Id H) (handler : Ref) (phase : HandlerPhase Ref) : Gateway Id H :=
  { s with phase := Function.update s.phase handler phase }

/-- The steps, each answered by leaving the state alone where the party is
not at that point. -/
def step (s : Gateway Id H) : GatewayOp Ref Id K → Gateway Id H × GatewayOut Ref
  | .submit h chat id now =>
    match s.phase h with
    | .idle =>
      let objects := Function.update s.engine.objects h (chatRequest chat id)
      let engine := { s.engine with objects := objects }.submit h now
      ({ s with engine := engine }.enter h (.queued chat.stream), .quiet)
    | _ => (s, .quiet)
  | .acquire h =>
    match s.phase h with
    | .queued false =>
      match s.engine.acquire with
      | (engine, some ref) => ({ s with engine := engine }.enter h (.granted ref), .acquired ref)
      | (engine, none) => ({ s with engine := engine }, .quiet)
    | _ => (s, .quiet)
  | .timeOut h =>
    match s.phase h with
    | .queued false => (s.enter h .failed, .quiet)
    | _ => (s, .quiet)
  | .forward h =>
    match s.phase h with
    -- a stream is forwarded as soon as it is submitted
    | .queued true => (s.enter h .forwarded, .forwarded h)
    -- what was acquired is not looked at
    | .granted _ => (s.enter h .forwarded, .forwarded h)
    | _ => (s, .quiet)
  | .unsupported h =>
    match s.phase h with
    | .queued true => (s.enter h .failed, .quiet)
    | _ => (s, .quiet)
  | .work =>
    let result := s.engine.acquire
    ({ s with engine := result.1 }, acquireOut result.2)
  | .agingTick now => ({ s with engine := s.engine.agingTick now }, .quiet)

/-- The machine of `step`. -/
def machine (H : GoHeap Ref K) : Machine (Gateway Id H) (GatewayOp Ref Id K) (GatewayOut Ref) where
  step := step

/-- The handler's request is queued and strictly ahead of the others. -/
def ComesFirst (s : Gateway Id H) (handler : Ref) : Prop :=
  ∃ x ∈ s.engine.items, x.req = handler ∧
    ∀ y ∈ s.engine.items, y.req ≠ handler → x.priority < y.priority

/-- The step takes no other party's turn. -/
def InTurn (s : Gateway Id H) : GatewayOp Ref Id K → Prop
  | .submit _ chat _ _ => chat.stream = false
  | .acquire h => s.phase h = .queued false → s.ComesFirst h
  | .work => s.engine.items = 0
  | _ => True

instance (s : Gateway Id H) (handler : Ref) : Decidable (s.ComesFirst handler) :=
  show Decidable (∃ x ∈ s.engine.items, x.req = handler ∧
    ∀ y ∈ s.engine.items, y.req ≠ handler → x.priority < y.priority) from
  Multiset.decidableExistsMultiset

instance (s : Gateway Id H) : ∀ op, Decidable (s.InTurn op)
  | .submit _ chat _ _ => inferInstanceAs (Decidable (chat.stream = false))
  | .acquire h => inferInstanceAs (Decidable (s.phase h = .queued false → s.ComesFirst h))
  | .work => inferInstanceAs (Decidable (s.engine.items = 0))
  | .timeOut _ | .forward _ | .unsupported _ | .agingTick _ => isTrue trivial

/-! ## Runs in turn -/

/-- What the log has to say about a handler, by the phase it is in: how
often its request was acquired and how often its body was sent, and whether
its item is in the heap. -/
def Accounted (phase : HandlerPhase Ref) (handler : Ref) (outs : List (GatewayOut Ref))
    (queued : Prop) : Prop :=
  match phase with
  | .idle => ¬ queued ∧ outs.count (.acquired handler) = 0 ∧ outs.count (.forwarded handler) = 0
  | .queued stream =>
    stream = false ∧ outs.count (.acquired handler) = 0 ∧ outs.count (.forwarded handler) = 0
  | .granted acquired =>
    acquired = handler ∧ ¬ queued ∧ outs.count (.acquired handler) = 1 ∧
      outs.count (.forwarded handler) = 0
  | .forwarded =>
    ¬ queued ∧ outs.count (.acquired handler) = 1 ∧ outs.count (.forwarded handler) = 1
  | .failed => outs.count (.acquired handler) = 0 ∧ outs.count (.forwarded handler) = 0

/-- **The books of a run in turn.** -/
structure Paired (s : Gateway Id H) (outs : List (GatewayOut Ref)) : Prop where
  cancelled : s.engine.cancelled = ∅
  nodup : (s.engine.items.map GoItem.req).Nodup
  accounted : ∀ h, Accounted (s.phase h) h outs (h ∈ s.engine.items.map GoItem.req)

section Steps

variable {s : Gateway Id H} {outs : List (GatewayOut Ref)} {h : Ref}

omit [DecidableEq Id] [Field K] in
/-- In turn no handler streams. -/
theorem Paired.stream_eq_false (hs : s.Paired outs) {stream : Bool}
    (hp : s.phase h = .queued stream) : stream = false := by
  have hacc := hs.accounted h
  rw [hp] at hacc
  exact hacc.1

omit [DecidableEq Id] [Field K] in
/-- A step that shows nothing and moves one handler. -/
theorem Paired.enter (hs : s.Paired outs) {phase : HandlerPhase Ref}
    (hphase : Accounted phase h outs (h ∈ s.engine.items.map GoItem.req)) :
    (s.enter h phase).Paired outs where
  cancelled := hs.cancelled
  nodup := hs.nodup
  accounted := fun j => by
    by_cases hj : j = h
    · subst hj
      simpa [Gateway.enter] using hphase
    · simpa [Gateway.enter, Function.update_of_ne hj] using hs.accounted j

/-- An output about another handler, or about none, changes no account. -/
theorem Accounted.snoc {phase : HandlerPhase Ref} {queued : Prop} {o : GatewayOut Ref}
    (ha : Accounted phase h outs queued) (h1 : o ≠ .acquired h) (h2 : o ≠ .forwarded h) :
    Accounted phase h (outs ++ [o]) queued := by
  unfold Accounted at ha ⊢
  simpa only [List.count_append, List.count_singleton, beq_iff_eq, if_neg h1, if_neg h2,
    Nat.add_zero] using ha

omit [DecidableEq Id] [Field K] in
theorem Paired.quiet (hs : s.Paired outs) : s.Paired (outs ++ [.quiet]) :=
  ⟨hs.cancelled, hs.nodup, fun j => (hs.accounted j).snoc (by simp) (by simp)⟩

/-- The submission of a request. -/
theorem Paired.submit (hs : s.Paired outs) (hidle : s.phase h = .idle) (request : GoRequest Id K)
    (now : K) :
    Paired
      (({ s with
          engine := { s.engine with
            objects := Function.update s.engine.objects h request }.submit h now } :
          Gateway Id H).enter h (.queued false)) outs := by
  have hacc := hs.accounted h
  rw [hidle] at hacc
  refine ⟨hs.cancelled, ?_, fun j => ?_⟩
  · rw [Gateway.enter, Engine.items_submit, Multiset.map_cons, Multiset.nodup_cons]
    exact ⟨hacc.1, hs.nodup⟩
  · have hj := hs.accounted j
    by_cases hjh : j = h
    · subst hjh
      simp only [Gateway.enter, Function.update_self]
      exact ⟨rfl, hacc.2⟩
    · simp only [Gateway.enter, Function.update_of_ne hjh, Engine.items_submit,
        Multiset.map_cons, Multiset.mem_cons, hjh, false_or]
      exact hj

omit [Field K] in
/-- The pass of the handler whose request comes first returns that
request. -/
theorem acquire_of_comesFirst (hc : s.engine.cancelled = ∅) (hfirst : s.ComesFirst h) :
    ∃ item heap, H.pop s.engine.heap = some (item, heap) ∧ item.req = h ∧
      s.engine.acquire = (s.engine.serve item heap, some h) := by
  obtain ⟨x, hx, hxh, hmin⟩ := hfirst
  rcases Engine.acquireItem_of_no_tombstone hc with ⟨-, hzero⟩ | ⟨item, heap, hpop, heq⟩
  · rw [hzero] at hx
    exact absurd hx (Multiset.notMem_zero x)
  · have hreq : item.req = h := by
      by_contra hne
      have hlt := hmin item (H.mem_of_pop hpop) hne
      exact (H.key_le_of_pop hpop hx).not_gt hlt
    refine ⟨item, heap, hpop, hreq, ?_⟩
    rw [Engine.acquire, heq, Option.map_some, hreq]

omit [Field K] in
/-- A handler acquires its own request. -/
theorem Paired.acquire (hs : s.Paired outs) (hq : s.phase h = .queued false)
    {item : GoItem Ref K} {heap : H.Carrier} (hpop : H.pop s.engine.heap = some (item, heap))
    (hreq : item.req = h) :
    Paired (({ s with engine := s.engine.serve item heap } : Gateway Id H).enter h (.granted h))
      (outs ++ [.acquired h]) := by
  have hitems : s.engine.items = item ::ₘ (s.engine.serve item heap).items := H.pop_some hpop
  have hnd := hs.nodup
  rw [hitems, Multiset.map_cons, Multiset.nodup_cons, hreq] at hnd
  refine ⟨hs.cancelled, hnd.2, fun j => ?_⟩
  have hj := hs.accounted j
  by_cases hjh : j = h
  · subst hjh
    rw [hq] at hj
    simp only [Gateway.enter, Function.update_self]
    refine ⟨rfl, hnd.1, ?_, ?_⟩
    · rw [List.count_append, List.count_singleton_self, hj.2.1]
    · rw [List.count_append, List.count_singleton, if_neg (by simp), hj.2.2]
  · have hmem : j ∈ s.engine.items.map GoItem.req ↔
        j ∈ (s.engine.serve item heap).items.map GoItem.req := by
      rw [hitems, Multiset.map_cons, Multiset.mem_cons, hreq]
      simp [hjh]
    simp only [Gateway.enter, Function.update_of_ne hjh]
    rw [hmem] at hj
    exact hj.snoc (by simpa using Ne.symm hjh) (by simp)

omit [DecidableEq Id] [Field K] in
/-- A handler that has acquired its own request sends its body. -/
theorem Paired.forward (hs : s.Paired outs) {r : Ref} (hg : s.phase h = .granted r) :
    (s.enter h .forwarded).Paired (outs ++ [.forwarded h]) := by
  have hacc := hs.accounted h
  rw [hg] at hacc
  obtain ⟨-, hnq, h1, h0⟩ := hacc
  refine ⟨hs.cancelled, hs.nodup, fun j => ?_⟩
  by_cases hjh : j = h
  · subst hjh
    simp only [Gateway.enter, Function.update_self]
    refine ⟨hnq, ?_, ?_⟩
    · rw [List.count_append, List.count_singleton, if_neg (by simp), h1]
    · rw [List.count_append, List.count_singleton_self, h0]
  · simp only [Gateway.enter, Function.update_of_ne hjh]
    exact (hs.accounted j).snoc (by simp) (by simpa using Ne.symm hjh)

/-- **One step in turn keeps the books.** -/
theorem Paired.step (hs : s.Paired outs) {op : GatewayOp Ref Id K} (hturn : s.InTurn op) :
    (s.step op).1.Paired (outs ++ [(s.step op).2]) := by
  cases op with
  | submit h chat id now =>
    have hstream : chat.stream = false := hturn
    rcases hp : s.phase h with - | stream | r | - | - <;> simp only [Gateway.step, hp]
    · rw [hstream]
      exact (hs.submit hp _ now).quiet
    all_goals exact hs.quiet
  | acquire h =>
    rcases hp : s.phase h with - | stream | r | - | - <;> simp only [Gateway.step, hp]
    case queued =>
      obtain rfl := hs.stream_eq_false hp
      obtain ⟨item, heap, hpop, hreq, heq⟩ := acquire_of_comesFirst hs.cancelled (hturn hp)
      rw [heq]
      exact hs.acquire hp hpop hreq
    all_goals exact hs.quiet
  | timeOut h =>
    rcases hp : s.phase h with - | stream | r | - | - <;> simp only [Gateway.step, hp]
    case queued =>
      have hacc := hs.accounted h
      rw [hp] at hacc
      obtain ⟨rfl, hcounts⟩ := hacc
      have hfailed : Accounted .failed h outs (h ∈ s.engine.items.map GoItem.req) := hcounts
      exact (hs.enter hfailed).quiet
    all_goals exact hs.quiet
  | forward h =>
    rcases hp : s.phase h with - | stream | r | - | - <;> simp only [Gateway.step, hp]
    case queued =>
      obtain rfl := hs.stream_eq_false hp
      exact hs.quiet
    case granted => exact hs.forward hp
    all_goals exact hs.quiet
  | unsupported h =>
    rcases hp : s.phase h with - | stream | r | - | - <;> simp only [Gateway.step, hp]
    case queued =>
      obtain rfl := hs.stream_eq_false hp
      exact hs.quiet
    all_goals exact hs.quiet
  | work =>
    have hzero : s.engine.items = 0 := hturn
    rcases Engine.acquireItem_of_no_tombstone hs.cancelled with ⟨heq, -⟩ | ⟨item, heap, hpop, -⟩
    · simp only [Gateway.step, Engine.acquire, heq]
      exact hs.quiet
    · have hmem : item ∈ s.engine.items := H.mem_of_pop hpop
      rw [hzero] at hmem
      exact absurd hmem (Multiset.notMem_zero item)
  | agingTick now => exact ⟨hs.cancelled, hs.nodup, hs.quiet.accounted⟩

/-- Only a handler that streams or has acquired a request sends its body. -/
theorem forward_of_step {op : GatewayOp Ref Id K} (hout : (s.step op).2 = .forwarded h) :
    s.phase h = .queued true ∨ ∃ r, s.phase h = .granted r := by
  cases op with
  | forward j =>
    rcases hp : s.phase j with - | ⟨- | -⟩ | r | - | - <;> simp only [Gateway.step, hp] at hout
    case queued.true =>
      obtain rfl : j = h := by simpa using hout
      exact Or.inl hp
    case granted =>
      obtain rfl : j = h := by simpa using hout
      exact Or.inr ⟨r, hp⟩
    all_goals cases hout
  | submit j chat id now =>
    rcases hp : s.phase j with - | stream | r | - | - <;> simp [Gateway.step, hp] at hout
  | acquire j =>
    rcases ha : s.engine.acquire with ⟨e, - | r⟩ <;>
      rcases hp : s.phase j with - | ⟨- | -⟩ | r | - | - <;>
      simp [Gateway.step, hp, ha] at hout
  | timeOut j =>
    rcases hp : s.phase j with - | ⟨- | -⟩ | r | - | - <;> simp [Gateway.step, hp] at hout
  | unsupported j =>
    rcases hp : s.phase j with - | ⟨- | -⟩ | r | - | - <;> simp [Gateway.step, hp] at hout
  | work =>
    rcases ha : s.engine.acquire.2 with - | r <;> simp [Gateway.step, ha, acquireOut] at hout
  | agingTick now => simp [Gateway.step] at hout

end Steps

variable {objects : Ref → GoRequest Id K} {ops : List (GatewayOp Ref Id K)}

omit [DecidableEq Id] in
theorem paired_init : (init H objects).Paired [] :=
  ⟨rfl, by simp [init], fun h => ⟨by simp [init], rfl, rfl⟩⟩

theorem paired_run (hG : (machine H).Along InTurn (init H objects) ops) :
    ((machine H).run (init H objects) ops).Paired
      (((machine H).log (init H objects) ops).map Prod.snd) := by
  refine Machine.log_inv (M := machine H) (s := init H objects)
    (H := (machine H).Along InTurn (init H objects))
    (I := fun _ log s => s.Paired (log.map Prod.snd))
    (fun _ _ h => (Machine.along_snoc.mp h).1) paired_init ?_ hG
  intro ops op hG hs
  rw [List.map_append, List.map_singleton]
  exact hs.step (Machine.along_snoc.mp hG).2

/-- **Forwards and acquires correspond** in every run in turn: a body is
sent only after an `Acquire` has returned its handler's request, and a
request an `Acquire` has returned is sent exactly once, unless its handler
is just about to. -/
theorem forwards_match_acquires (hG : (machine H).Along InTurn (init H objects) ops) :
    (∀ before op h after,
      (machine H).log (init H objects) ops = before ++ (op, .forwarded h) :: after →
        .acquired h ∈ before.map Prod.snd) ∧
      ∀ r, .acquired r ∈ ((machine H).log (init H objects) ops).map Prod.snd →
        (((machine H).log (init H objects) ops).map Prod.snd).count (.forwarded r) =
          if ((machine H).run (init H objects) ops).phase r = .granted r then 0 else 1 := by
  constructor
  · intro before op h after hlog
    obtain ⟨ops₁, ops₂, rfl, rfl, hout, -⟩ := Machine.log_eq_append_cons hlog
    have hs := paired_run (Machine.along_append.mp hG).1
    set s := (machine H).run (init H objects) ops₁
    have hacc := hs.accounted h
    -- a handler sends its body as a stream, which in turn there is none, or after an acquire
    rcases forward_of_step hout.symm with hp | ⟨r, hp⟩
    · rw [hp] at hacc
      exact absurd hacc.1 (by simp)
    · rw [hp] at hacc
      exact List.count_pos_iff.mp (by rw [hacc.2.2.1]; exact Nat.one_pos)
  · intro r hr
    have hacc := (paired_run hG).accounted r
    have hpos := List.count_pos_iff.mpr hr
    rcases hp : ((machine H).run (init H objects) ops).phase r with - | stream | r' | - | - <;>
      rw [hp] at hacc
    · exact absurd hacc.2.1 (by omega)
    · exact absurd hacc.2.1 (by omega)
    · obtain ⟨rfl, -, -, hzero⟩ := hacc
      rw [if_pos rfl, hzero]
    · rw [if_neg (by simp), hacc.2.2]
    · exact absurd hacc.1 (by omega)

/-! ## Runs out of turn -/

/-- A chat request of one short message. -/
def shortChat (maxTokens : ℤ) (stream : Bool) : GoChatRequest :=
  ⟨[("user", "hi")], maxTokens, stream⟩

/-- A gateway whose handlers go by names. -/
def demoGateway : Gateway ℕ (listHeap GoItem.priority : GoHeap String ℚ) :=
  init _ fun _ => ⟨0, "", 0, 0, 0, 0⟩

/-- What a run of it shows. -/
def demoLog (ops : List (GatewayOp String ℕ ℚ)) :
    List (GatewayOp String ℕ ℚ × GatewayOut String) :=
  (machine _).log demoGateway ops

/-- A stream. -/
def streamRun : List (GatewayOp String ℕ ℚ) :=
  [.submit "a" (shortChat 10 true) 1 1, .forward "a"]

/-- A longer and a shorter request, and the handler of the longer one is
the first to acquire. -/
def swappedRun : List (GatewayOp String ℕ ℚ) :=
  [.submit "a" (shortChat 10 false) 1 1, .submit "b" (shortChat 5 false) 2 2, .acquire "a",
    .forward "a"]

/-- A request that a dispatch worker acquires before its handler does. -/
def stolenRun : List (GatewayOp String ℕ ℚ) :=
  [.submit "a" (shortChat 10 false) 1 1, .work, .acquire "a", .timeOut "a"]

/-- **Forwards and acquires do not correspond.** A stream is forwarded
though nothing was acquired, a handler forwards its own body on another's
turn, and a request a worker has acquired is not forwarded at all. -/
theorem forwards_without_acquire :
    (∃ before op after, demoLog streamRun = before ++ (op, .forwarded "a") :: after ∧
      .acquired "a" ∉ before.map Prod.snd) ∧
    (∃ before op after, demoLog swappedRun = before ++ (op, .forwarded "a") :: after ∧
      .acquired "a" ∉ before.map Prod.snd) ∧
    .acquired "a" ∈ (demoLog stolenRun).map Prod.snd ∧
    .forwarded "a" ∉ (demoLog stolenRun).map Prod.snd ∧
    ((machine _).run demoGateway stolenRun).phase "a" = .failed := by
  refine ⟨⟨(demoLog streamRun).take 1, .forward "a", [], ?_, ?_⟩,
    ⟨(demoLog swappedRun).take 3, .forward "a", [], ?_, ?_⟩, ?_, ?_, ?_⟩ <;> decide +kernel

/-- The two handlers of `swappedRun` in turn, with a worker's idle pass. -/
def inTurnRun : List (GatewayOp String ℕ ℚ) :=
  [.work, .submit "a" (shortChat 10 false) 1 1, .submit "b" (shortChat 5 false) 2 2,
    .acquire "b", .agingTick 3, .forward "b", .acquire "a", .forward "a"]

theorem inTurnRun_matches :
    (demoLog inTurnRun).map Prod.snd =
        [.quiet, .quiet, .quiet, .acquired "b", .quiet, .forwarded "b", .acquired "a",
          .forwarded "a"] ∧
      ∀ r, .acquired r ∈ (demoLog inTurnRun).map Prod.snd →
        ((demoLog inTurnRun).map Prod.snd).count (.forwarded r) =
          if ((machine _).run demoGateway inTurnRun).phase r = .granted r then 0 else 1 :=
  ⟨by decide +kernel, (forwards_match_acquires (by decide +kernel)).2⟩

end Gateway

end VllmScheduler
