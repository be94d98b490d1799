import VllmScheduler.Common.Machine
import VllmScheduler.Common.Pool
/-!
# Starting and stopping the gateway

`startup` and `shutdown` of `python/scheduler/gateway.py`, with a step for
each stretch between two awaits. Nothing in `startup` suspends. `shutdown`
waits three times: for the workers it has cancelled, for the aging task of
the scheduler, and for the client to close. Any number of calls may be in
progress, and what they wait for leaves in any order.

As long as no `startup` falls into a `shutdown`, the gateway is up or on its
way down: up, it has all its workers, one aging task and an open client; and
every `shutdown` returns and leaves none of them. A `startup` that does fall
into one leaves a gateway that runs without a client, and an aging task that
nothing will stop (`startup_during_shutdown`).

That the checkpoint does not load is not modelled; `startup` raises then
before it has changed anything.
-/

namespace VllmScheduler

/-- What the gateway is built with: `max_workers`, and whether the scheduler
is an `SJFScheduler`. -/
structure LifeConfig where
  maxWorkers : ℕ
  sjf : Bool

/-- Where a task stands. -/
inductive TaskPlace
  | running
  /-- Cancelled, and not yet left. -/
  | cancelling
  | done
deriving DecidableEq

/-- `Task.cancel`. -/
def TaskPlace.cancel : TaskPlace → TaskPlace
  | running => cancelling
  | place => place

/-- A cancelled task leaves. -/
def TaskPlace.leave : TaskPlace → TaskPlace
  | cancelling => done
  | place => place

/-- The aging task of a scheduler, and whether `_aging_task` still is it. -/
structure AgingTask where
  place : TaskPlace
  attached : Bool
deriving DecidableEq

/-- Where a call of `shutdown` stands. -/
inductive ShutdownPlace
  /-- In the `gather` over the first `workers` workers. -/
  | gathering (workers : ℕ)
  /-- In `stop` of a scheduler. -/
  | stopping (scheduler : ℕ)
  /-- In `aclose`. -/
  | closing
  | returned
deriving DecidableEq

/-- **The gateway and the calls of `shutdown` so far.** `_scheduler` is the
last one built, and `_client` the last one made where there is one. -/
structure GatewayLife where
  running : Bool
  workers : List TaskPlace
  /-- A scheduler that is no `SJFScheduler` has no aging task. -/
  schedulers : List (Option AgingTask)
  /-- Whether they are open. -/
  clients : List Bool
  hasClient : Bool
  ownsClient : Bool
  shutdowns : List ShutdownPlace
deriving DecidableEq

/-- A call, the end of a cancelled task, or a `shutdown` going on. -/
inductive LifeStep
  | startup
  | shutdown
  | workerLeaves (worker : ℕ)
  | agingLeaves (scheduler : ℕ)
  | resume (call : ℕ)
deriving DecidableEq

namespace GatewayLife

/-- `__init__`, with a client of the caller's or without one. -/
def init (httpClient : Bool) : GatewayLife where
  running := false
  workers := []
  schedulers := []
  clients := if httpClient then [true] else []
  hasClient := httpClient
  ownsClient := !httpClient
  shutdowns := []

/-- `startup`. -/
def startup (cfg : LifeConfig) (g : GatewayLife) : GatewayLife :=
  if g.running then g
  else
    let aging := if cfg.sjf then some ⟨.running, true⟩ else none
    let g :=
      if g.hasClient then g
      else { g with clients := g.clients ++ [true], hasClient := true, ownsClient := true }
    { g with
      running := true
      schedulers := g.schedulers ++ [aging]
      workers := g.workers ++ List.replicate cfg.maxWorkers .running }

/-- `shutdown` up to its first await. -/
def shutdown (g : GatewayLife) : GatewayLife :=
  { g with
    running := false
    workers := g.workers.map TaskPlace.cancel
    shutdowns := g.shutdowns ++ [.gathering g.workers.length] }

/-- The last part of `shutdown`, up to `aclose`, which closes the client at
once. -/
def close (g : GatewayLife) (call : ℕ) : GatewayLife :=
  if g.hasClient && g.ownsClient then
    { g with
      clients := g.clients.set (g.clients.length - 1) false
      shutdowns := g.shutdowns.set call .closing }
  else { g with shutdowns := g.shutdowns.set call .returned }

/-- The part before it, up to the await in `stop`. -/
def stop (g : GatewayLife) (call : ℕ) : GatewayLife :=
  match g.schedulers.getLast? with
  | some (some ⟨place, true⟩) =>
    { g with
      schedulers := g.schedulers.set (g.schedulers.length - 1) (some ⟨place.cancel, true⟩)
      shutdowns := g.shutdowns.set call (.stopping (g.schedulers.length - 1)) }
  | _ => g.close call

/-- A `shutdown` goes on, where what it waits for is there. -/
def resume (g : GatewayLife) (call : ℕ) : GatewayLife :=
  match g.shutdowns[call]? with
  | some (.gathering n) =>
    if ∀ w ∈ g.workers.take n, w = .done then g.stop call else g
  | some (.stopping s) =>
    match g.schedulers[s]? with
    | some (some ⟨.done, _⟩) =>
      { g with schedulers := g.schedulers.set s (some ⟨.done, false⟩) }.close call
    | _ => g
  | some .closing => { g with hasClient := false, shutdowns := g.shutdowns.set call .returned }
  | _ => g

/-- One step. A worker also leaves where it finds `_running` unset. -/
def step (cfg : LifeConfig) (g : GatewayLife) : LifeStep → GatewayLife
  | .startup => g.startup cfg
  | .shutdown => g.shutdown
  | .workerLeaves w =>
    match g.workers[w]? with
    | some place =>
      { g with workers := g.workers.set w (if g.running then place.leave else place.cancel.leave) }
    | none => g
  | .agingLeaves s =>
    match g.schedulers[s]? with
    | some (some task) =>
      { g with schedulers := g.schedulers.set s (some { task with place := task.place.leave }) }
    | _ => g
  | .resume call => g.resume call

/-- The machine of the gateway; it has nothing to answer. -/
def machine (cfg : LifeConfig) : Machine GatewayLife LifeStep Unit where
  step g s := (step cfg g s, ())

/-- No `shutdown` is in progress. -/
def Quiet (g : GatewayLife) : Prop := ∀ p ∈ g.shutdowns, p = .returned

instance (g : GatewayLife) : Decidable g.Quiet :=
  inferInstanceAs (Decidable (∀ p ∈ g.shutdowns, p = .returned))

/-- **No `startup` falls into a `shutdown`.** -/
def Sequential (g : GatewayLife) (s : LifeStep) : Prop := s = .startup → g.Quiet

instance (g : GatewayLife) (s : LifeStep) : Decidable (g.Sequential s) :=
  inferInstanceAs (Decidable (s = .startup → g.Quiet))

/-! ## Up, and on the way down -/

/-- All workers have left. -/
def WorkersDone (g : GatewayLife) : Prop := ∀ w ∈ g.workers, w = .done

/-- Every aging task has left. -/
def AgingDone (g : GatewayLife) : Prop := ∀ a ∈ g.schedulers, ∀ t ∈ a, t.place = .done

/-- **The gateway is up**: no `shutdown` is in progress, `max_workers` workers
run and the others have left, the scheduler's aging task runs and those of
earlier ones have left, and the client is open, unlike earlier ones. -/
structure Up (cfg : LifeConfig) (g : GatewayLife) : Prop where
  quiet : g.Quiet
  workers : g.workers.count .running = cfg.maxWorkers
  others : ∀ w ∈ g.workers, w = .running ∨ w = .done
  aging : g.schedulers.getLast? = some (if cfg.sjf then some ⟨.running, true⟩ else none)
  earlier : ∀ a ∈ g.schedulers.dropLast, ∀ t ∈ a, t.place = .done
  client : g.hasClient = true ∧ g.clients.getLast? = some true
  closed : ∀ c ∈ g.clients.dropLast, c = false

/-- **The gateway is down**: nothing of it is left, but a client of the
caller's. -/
structure Down (g : GatewayLife) : Prop where
  workers : g.WorkersDone
  aging : g.AgingDone
  client : g.ownsClient = true → g.hasClient = false ∧ ∀ c ∈ g.clients, c = false

/-- What holds where a call of `shutdown` has come so far. -/
def Reached (g : GatewayLife) : ShutdownPlace → Prop
  | .gathering n => n = g.workers.length
  | .stopping s => g.WorkersDone ∧ s + 1 = g.schedulers.length ∧
    ∃ t, g.schedulers[s]? = some (some t) ∧ t.place ≠ .running
  | .closing => g.WorkersDone ∧ g.AgingDone ∧ g.ownsClient = true ∧ ∀ c ∈ g.clients, c = false
  | .returned => True

/-- **On the way down**, by how far the calls of `shutdown` have come. -/
structure Closing (g : GatewayLife) : Prop where
  cancelled : ∀ w ∈ g.workers, w ≠ .running
  earlier : ∀ a ∈ g.schedulers.dropLast, ∀ t ∈ a, t.place = .done
  detached : ∀ a ∈ g.schedulers, ∀ t ∈ a, t.attached = false → t.place = .done
  closed : ∀ c ∈ g.clients.dropLast, c = false
  released : g.ownsClient = true → g.hasClient = false → ∀ c ∈ g.clients, c = false
  calls : ∀ p ∈ g.shutdowns, g.Reached p
  quiet : g.Quiet → g.Down

/-- A gateway is one or the other, and a client of the caller's stays. -/
structure Sound (cfg : LifeConfig) (g : GatewayLife) : Prop where
  borrowed : g.ownsClient = false → g.hasClient = true ∧ g.clients = [true]
  up : g.running = true → g.Up cfg
  closing : g.running = false → g.Closing

section Steps

variable {cfg : LifeConfig} {g : GatewayLife}

theorem sound_init (cfg : LifeConfig) (httpClient : Bool) : (init httpClient).Sound cfg where
  borrowed := by
    intro h
    cases httpClient with
    | false => cases h
    | true => exact ⟨rfl, rfl⟩
  up := by
    intro h
    cases h
  closing := fun _ =>
    { cancelled := fun w hw => absurd hw List.not_mem_nil
      earlier := fun a ha => absurd ha List.not_mem_nil
      detached := fun a ha => absurd ha List.not_mem_nil
      closed := by cases httpClient <;> simp [init]
      released := by cases httpClient <;> simp [init]
      calls := fun p hp => absurd hp List.not_mem_nil
      quiet := fun _ => ⟨fun w hw => absurd hw List.not_mem_nil,
        fun a ha => absurd ha List.not_mem_nil, by cases httpClient <;> simp [init]⟩ }

/-- What comes up is up, where its client is open. -/
theorem Down.up (h : g.Down) (hquiet : g.Quiet) {clients : List Bool} {has : Bool} (owns : Bool)
    (hhas : has = true) (hlast : clients.getLast? = some true)
    (hclosed : ∀ c ∈ clients.dropLast, c = false) :
    Up cfg
      { running := true
        workers := g.workers ++ List.replicate cfg.maxWorkers .running
        schedulers := g.schedulers ++ [if cfg.sjf then some ⟨.running, true⟩ else none]
        clients := clients
        hasClient := has
        ownsClient := owns
        shutdowns := g.shutdowns } where
  quiet := hquiet
  workers := by
    have hnone : g.workers.count .running = 0 := List.count_eq_zero.mpr fun hmem => by
      have hdone := h.workers _ hmem
      cases hdone
    rw [List.count_append, hnone, List.count_replicate_self, Nat.zero_add]
  others := by
    intro w hw
    rcases List.mem_append.mp hw with hw | hw
    · exact Or.inr (h.workers w hw)
    · exact Or.inl (List.eq_of_mem_replicate hw)
  aging := List.getLast?_concat
  earlier := by
    intro a ha
    rw [List.dropLast_concat] at ha
    exact h.aging a ha
  client := ⟨hhas, hlast⟩
  closed := hclosed

/-- A gateway that is down comes up. -/
theorem Sound.startup (h : g.Sound cfg) (hquiet : g.Quiet) : (g.startup cfg).Sound cfg := by
  by_cases hrun : g.running
  · rw [GatewayLife.startup, if_pos hrun]
    exact h
  have hdown := (h.closing (Bool.eq_false_iff.mpr hrun)).quiet hquiet
  rw [GatewayLife.startup, if_neg hrun]
  by_cases hclient : g.hasClient
  · -- a client that is still there is the caller's
    have howns : g.ownsClient = false := by
      rw [Bool.eq_false_iff]
      intro howns
      rw [(hdown.client howns).1] at hclient
      cases hclient
    have hclients := (h.borrowed howns).2
    simp only [if_pos hclient]
    refine ⟨h.borrowed, fun _ => ?_, fun hf => Bool.noConfusion hf⟩
    exact hdown.up hquiet g.ownsClient hclient (by rw [hclients]; rfl) (by rw [hclients]; simp)
  · have howns : g.ownsClient = true := by
      rw [← Bool.not_eq_false]
      intro howns
      exact hclient (h.borrowed howns).1
    simp only [if_neg hclient]
    refine ⟨fun hf => Bool.noConfusion hf, fun _ => ?_, fun hf => Bool.noConfusion hf⟩
    refine hdown.up hquiet true rfl List.getLast?_concat fun c hc => ?_
    rw [List.dropLast_concat] at hc
    exact (hdown.client howns).2 c hc

/-! A step on the way down changes the workers, the schedulers or the calls. -/

theorem Closing.of_workers (h : g.Closing) {workers : List TaskPlace}
    (hlen : workers.length = g.workers.length) (hcancelled : ∀ w ∈ workers, w ≠ .running)
    (hdone : g.WorkersDone → ∀ w ∈ workers, w = .done) :
    Closing { g with workers := workers } where
  cancelled := hcancelled
  earlier := h.earlier
  detached := h.detached
  closed := h.closed
  released := h.released
  calls := by
    intro p hp
    have hreached := h.calls p hp
    cases p with
    | gathering n => exact hreached.trans hlen.symm
    | stopping s => exact ⟨hdone hreached.1, hreached.2⟩
    | closing => exact ⟨hdone hreached.1, hreached.2⟩
    | returned => trivial
  quiet := fun hq => ⟨hdone (h.quiet hq).workers, (h.quiet hq).aging, (h.quiet hq).client⟩

theorem Closing.of_calls (h : g.Closing) {calls : List ShutdownPlace}
    (hcalls : ∀ p ∈ calls, p ∈ g.shutdowns ∨ g.Reached p)
    (hquiet : (∀ p ∈ calls, p = .returned) → g.Down) :
    Closing { g with shutdowns := calls } where
  cancelled := h.cancelled
  earlier := h.earlier
  detached := h.detached
  closed := h.closed
  released := h.released
  calls := by
    intro p hp
    have hreached : g.Reached p := (hcalls p hp).elim (h.calls p) id
    cases p <;> exact hreached
  quiet := fun hq => ⟨(hquiet hq).workers, (hquiet hq).aging, (hquiet hq).client⟩

theorem mem_dropLast_or_eq {α : Type} {l : List α} {a x : α} (h : l.getLast? = some x)
    (ha : a ∈ l) : a ∈ l.dropLast ∨ a = x := by
  rw [← List.dropLast_append_getLast? x h] at ha
  exact (List.mem_append.mp ha).imp_right List.mem_singleton.mp

theorem mem_dropLast_of_getElem? {α : Type} {l : List α} {i : ℕ} {a : α} (h : l[i]? = some a)
    (hi : i + 1 < l.length) : a ∈ l.dropLast := by
  refine List.mem_of_getElem? (i := i) ?_
  rw [List.dropLast_eq_take, List.getElem?_take, if_pos (by omega)]
  exact h

theorem mem_dropLast_set {α : Type} {l : List α} {i : ℕ} {a x : α}
    (h : a ∈ (l.set i x).dropLast) : a ∈ l.dropLast ∨ a = x ∧ i + 1 < l.length := by
  rw [List.dropLast_eq_take, List.length_set, List.take_set] at h
  rw [List.dropLast_eq_take]
  by_cases hi : i + 1 < l.length
  · exact (List.mem_or_eq_of_mem_set h).imp_right fun heq => ⟨heq, hi⟩
  · have hle : (l.take (l.length - 1)).length ≤ i := by
      rw [List.length_take]
      omega
    rw [List.set_eq_of_length_le hle] at h
    exact Or.inl h

/-- The aging task of a scheduler may go on leaving. -/
theorem Closing.of_task (h : g.Closing) {s : ℕ} {t t' : AgingTask}
    (ht : g.schedulers[s]? = some (some t)) (hplace : t.place = .done → t'.place = .done)
    (hrunning : t.place ≠ .running → t'.place ≠ .running)
    (hattached : t'.attached = false → t'.place = .done) :
    Closing { g with schedulers := g.schedulers.set s (some t') } := by
  have hmem : some t ∈ g.schedulers := List.mem_of_getElem? ht
  have haging : g.AgingDone → ∀ a ∈ g.schedulers.set s (some t'), ∀ u ∈ a, u.place = .done := by
    intro hdone a ha u hu
    rcases List.mem_or_eq_of_mem_set ha with ha | rfl
    · exact hdone a ha u hu
    · obtain rfl := Option.mem_some.mp hu
      exact hplace (hdone _ hmem t rfl)
  exact
    { cancelled := h.cancelled
      earlier := by
        intro a ha u hu
        rcases mem_dropLast_set ha with ha | ⟨rfl, hlt⟩
        · exact h.earlier a ha u hu
        · obtain rfl := Option.mem_some.mp hu
          exact hplace (h.earlier _ (mem_dropLast_of_getElem? ht hlt) t rfl)
      detached := by
        intro a ha u hu hdetached
        rcases List.mem_or_eq_of_mem_set ha with ha | rfl
        · exact h.detached a ha u hu hdetached
        · obtain rfl := Option.mem_some.mp hu
          exact hattached hdetached
      closed := h.closed
      released := h.released
      calls := by
        intro p hp
        have hreached := h.calls p hp
        cases p with
        | gathering n => exact hreached
        | stopping s' =>
          obtain ⟨hworkers, hlast, u, hu, hu_place⟩ := hreached
          refine ⟨hworkers, by simpa using hlast, ?_⟩
          by_cases hs : s = s'
          · subst hs
            rw [ht, Option.some_inj, Option.some_inj] at hu
            subst hu
            have hlt : s < g.schedulers.length := by omega
            exact ⟨t', List.getElem?_set_self hlt, hrunning hu_place⟩
          · exact ⟨u, by rw [List.getElem?_set_ne hs]; exact hu, hu_place⟩
        | closing => exact ⟨hreached.1, haging hreached.2.1, hreached.2.2⟩
        | returned => trivial
      quiet := fun hq => ⟨(h.quiet hq).workers, haging (h.quiet hq).aging, (h.quiet hq).client⟩ }

/-! ## One step -/

/-- Cancelling changes no task that has left. -/
theorem map_cancel_done {workers : List TaskPlace} (h : ∀ w ∈ workers, w = .done) :
    ∀ w ∈ workers.map TaskPlace.cancel, w = .done := by
  intro w hw
  obtain ⟨w', hw', rfl⟩ := List.mem_map.mp hw
  rw [h w' hw']
  rfl

/-- The aging task of a gateway that is up is attached, and the others have left. -/
theorem Up.detached (h : g.Up cfg) :
    ∀ a ∈ g.schedulers, ∀ t ∈ a, t.attached = false → t.place = .done := by
  intro a ha t ht hdetached
  rcases mem_dropLast_or_eq h.aging ha with ha | rfl
  · exact h.earlier a ha t ht
  · cases hsjf : cfg.sjf with
    | false => simp [hsjf] at ht
    | true =>
      obtain rfl : ⟨.running, true⟩ = t := by simpa [hsjf] using ht
      cases hdetached

theorem Sound.shutdown (h : g.Sound cfg) : g.shutdown.Sound cfg := by
  refine ⟨h.borrowed, fun hf => Bool.noConfusion hf, fun _ => ?_⟩
  have hcancelled : ∀ w ∈ g.workers.map TaskPlace.cancel, w ≠ .running := by
    intro w hw
    obtain ⟨w', -, rfl⟩ := List.mem_map.mp hw
    cases w' <;> simp [TaskPlace.cancel]
  have hnew : ¬ g.shutdown.Quiet := by
    intro hq
    have hreturned := hq (.gathering g.workers.length) (List.mem_append_right _ (by simp))
    cases hreturned
  have hgathering : g.shutdown.Reached (.gathering g.workers.length) :=
    (List.length_map _).symm
  by_cases hrun : g.running
  · -- all earlier calls have returned
    have hup := h.up hrun
    exact
      { cancelled := hcancelled
        earlier := hup.earlier
        detached := hup.detached
        closed := hup.closed
        released := fun _ hf => Bool.noConfusion (hup.client.1.symm.trans hf)
        calls := by
          intro p hp
          rcases List.mem_append.mp hp with hp | hp
          · rw [hup.quiet p hp]
            trivial
          · rw [List.mem_singleton.mp hp]
            exact hgathering
        quiet := fun hq => absurd hq hnew }
  · have hrun' : g.running = false := Bool.eq_false_iff.mpr hrun
    have hcl := h.closing hrun'
    rw [GatewayLife.shutdown, ← hrun']
    refine (hcl.of_workers (List.length_map _) hcancelled map_cancel_done).of_calls
      (fun p hp => (List.mem_append.mp hp).imp_right fun hp => ?_) fun hq => absurd hq hnew
    rw [List.mem_singleton.mp hp]
    exact hgathering

theorem set_of_getElem? {α : Type} {l : List α} {i : ℕ} {a : α} (h : l[i]? = some a) :
    l.set i a = l := by
  obtain ⟨hi, rfl⟩ := List.getElem?_eq_some_iff.mp h
  exact List.set_getElem_self hi

/-- A worker leaves. -/
theorem Sound.workerLeaves (h : g.Sound cfg) (w : ℕ) :
    (g.step cfg (.workerLeaves w)).Sound cfg := by
  rw [GatewayLife.step]
  rcases hw : g.workers[w]? with - | place
  · exact h
  dsimp only
  have hmem := List.mem_of_getElem? hw
  by_cases hrun : g.running
  · -- no worker of a running gateway has been cancelled
    have hstay : place.leave = place := by
      rcases (h.up hrun).others place hmem with rfl | rfl <;> rfl
    rw [if_pos hrun, hstay, set_of_getElem? hw]
    exact h
  · have hcl := h.closing (Bool.eq_false_iff.mpr hrun)
    have hdone : place.cancel.leave = .done := by
      have hplace := hcl.cancelled place hmem
      cases place with
      | running => exact absurd rfl hplace
      | cancelling => rfl
      | done => rfl
    rw [if_neg hrun, hdone]
    refine ⟨h.borrowed, fun hf => absurd hf hrun, fun _ => ?_⟩
    refine hcl.of_workers List.length_set (fun v hv => ?_) fun hall v hv => ?_
    · rcases List.mem_or_eq_of_mem_set hv with hv | rfl
      · exact hcl.cancelled v hv
      · exact TaskPlace.noConfusion
    · rcases List.mem_or_eq_of_mem_set hv with hv | rfl
      · exact hall v hv
      · rfl

/-- An aging task leaves. -/
theorem Sound.agingLeaves (h : g.Sound cfg) (s : ℕ) :
    (g.step cfg (.agingLeaves s)).Sound cfg := by
  rw [GatewayLife.step]
  rcases hs : g.schedulers[s]? with - | - | t
  · exact h
  · exact h
  have hmem := List.mem_of_getElem? hs
  by_cases hrun : g.running
  · -- no aging task of a running gateway has been cancelled
    have hstay : t.place.leave = t.place := by
      rcases mem_dropLast_or_eq (h.up hrun).aging hmem with ht | ht
      · rw [(h.up hrun).earlier _ ht t rfl]
        rfl
      · cases hsjf : cfg.sjf with
        | false => simp [hsjf] at ht
        | true =>
          obtain rfl : t = ⟨.running, true⟩ := by simpa [hsjf] using ht
          rfl
    simp only [hstay]
    rw [set_of_getElem? hs]
    exact h
  · have hcl := h.closing (Bool.eq_false_iff.mpr hrun)
    refine ⟨h.borrowed, fun hf => absurd hf hrun, fun _ => hcl.of_task hs ?_ ?_ ?_⟩
    · intro hdone
      rw [hdone]
      rfl
    · intro hplace
      cases ht : t.place with
      | running => exact absurd ht hplace
      | cancelling => exact TaskPlace.noConfusion
      | done => exact TaskPlace.noConfusion
    · intro hdetached
      rw [hcl.detached _ hmem t rfl hdetached]
      rfl

theorem mem_set_last {α : Type} {l : List α} {a x : α} (h : a ∈ l.set (l.length - 1) x) :
    a ∈ l.dropLast ∨ a = x := by
  rcases List.eq_nil_or_concat l with rfl | ⟨l, b, rfl⟩
  · cases h
  · simpa using h

theorem not_quiet_of_set {call : ℕ} (hcall : call < g.shutdowns.length) {p : ShutdownPlace}
    (hp : p ≠ .returned) : ¬ ∀ q ∈ g.shutdowns.set call p, q = .returned :=
  fun hq => hp (hq p (List.mem_set hcall p))

/-- `shutdown` after the aging task is stopped. -/
theorem Sound.close (h : g.Sound cfg) (hrun : ¬ g.running) {call : ℕ}
    (hcall : call < g.shutdowns.length) (hworkers : g.WorkersDone) (haging : g.AgingDone) :
    (g.close call).Sound cfg := by
  have hcl := h.closing (Bool.eq_false_iff.mpr hrun)
  rw [GatewayLife.close]
  by_cases hclient : g.hasClient && g.ownsClient
  · rw [if_pos hclient]
    obtain ⟨hhas, howns⟩ := Bool.and_eq_true_iff.mp hclient
    have hclosed : ∀ c ∈ g.clients.set (g.clients.length - 1) false, c = false := by
      intro c hc
      exact (mem_set_last hc).elim (hcl.closed c) id
    refine ⟨fun hf => Bool.noConfusion (howns.symm.trans hf), fun hf => absurd hf hrun, fun _ => ?_⟩
    exact
      { cancelled := hcl.cancelled
        earlier := hcl.earlier
        detached := hcl.detached
        closed := fun c hc => hclosed c ((List.dropLast_sublist _).mem hc)
        released := fun _ _ => hclosed
        calls := by
          intro p hp
          rcases List.mem_or_eq_of_mem_set hp with hp | rfl
          · have hreached := hcl.calls p hp
            cases p with
            | gathering n => exact hreached
            | stopping s => exact hreached
            | closing => exact ⟨hworkers, haging, howns, hclosed⟩
            | returned => trivial
          · exact ⟨hworkers, haging, howns, hclosed⟩
        quiet := fun hq => absurd hq (not_quiet_of_set hcall ShutdownPlace.noConfusion) }
  · rw [if_neg hclient]
    refine ⟨h.borrowed, fun hf => absurd hf hrun, fun _ => hcl.of_calls (fun p hp => ?_) ?_⟩
    · rcases List.mem_or_eq_of_mem_set hp with hp | rfl
      · exact Or.inl hp
      · exact Or.inr trivial
    · intro _
      refine ⟨hworkers, haging, fun howns => ?_⟩
      have hhas : g.hasClient = false := by
        rw [Bool.eq_false_iff]
        exact fun hhas => hclient (Bool.and_eq_true_iff.mpr ⟨hhas, howns⟩)
      exact ⟨hhas, hcl.released howns hhas⟩

/-- `shutdown` after the workers have left. -/
theorem Sound.stop (h : g.Sound cfg) (hrun : ¬ g.running) {call : ℕ}
    (hcall : call < g.shutdowns.length) (hworkers : g.WorkersDone) : (g.stop call).Sound cfg := by
  have hcl := h.closing (Bool.eq_false_iff.mpr hrun)
  have hearlier : ∀ x, g.schedulers.getLast? = some x → (∀ t ∈ x, t.place = .done) →
      g.AgingDone := by
    intro x hlast hx a ha t ht
    rcases mem_dropLast_or_eq hlast ha with ha | rfl
    · exact hcl.earlier a ha t ht
    · exact hx t ht
  rw [GatewayLife.stop]
  rcases hlast : g.schedulers.getLast? with - | - | ⟨place, attached⟩
  · refine h.close hrun hcall hworkers fun a ha => ?_
    rw [List.getLast?_eq_none_iff.mp hlast] at ha
    cases ha
  · exact h.close hrun hcall hworkers (hearlier _ hlast fun t ht => by cases ht)
  have ht : g.schedulers[g.schedulers.length - 1]? = some (some ⟨place, attached⟩) := by
    rw [← List.getLast?_eq_getElem?, hlast]
  cases attached with
  | false =>
    refine h.close hrun hcall hworkers (hearlier _ hlast fun t ht' => ?_)
    obtain rfl := Option.mem_some.mp ht'
    exact hcl.detached _ (List.mem_of_getElem? ht) _ rfl rfl
  | true =>
    have hcancel : place.cancel ≠ .running := by cases place <;> exact TaskPlace.noConfusion
    obtain ⟨hlt, -⟩ := List.getElem?_eq_some_iff.mp ht
    refine ⟨h.borrowed, fun hf => absurd hf hrun, fun _ => (hcl.of_task ht ?_ ?_ ?_).of_calls
      (fun p hp => (List.mem_or_eq_of_mem_set hp).imp_right fun hp => ?_)
      fun hq => absurd hq (not_quiet_of_set hcall ShutdownPlace.noConfusion)⟩
    · rintro rfl
      rfl
    · exact fun _ => hcancel
    · exact fun hf => Bool.noConfusion hf
    · rw [hp]
      refine ⟨hworkers, ?_, _, List.getElem?_set_self hlt, hcancel⟩
      show g.schedulers.length - 1 + 1 = (g.schedulers.set _ _).length
      rw [List.length_set]
      omega

/-- A call of `shutdown` goes on. -/
theorem Sound.resume (h : g.Sound cfg) (call : ℕ) : (g.resume call).Sound cfg := by
  rw [GatewayLife.resume]
  rcases hp : g.shutdowns[call]? with - | p
  · exact h
  obtain ⟨hcall, -⟩ := List.getElem?_eq_some_iff.mp hp
  have hmem := List.mem_of_getElem? hp
  by_cases hrun : g.running
  · rw [(h.up hrun).quiet p hmem]
    exact h
  have hcl := h.closing (Bool.eq_false_iff.mpr hrun)
  have hreached := hcl.calls p hmem
  cases p with
  | gathering n =>
    dsimp only
    split
    · rename_i hdone
      rw [show n = g.workers.length from hreached, List.take_length] at hdone
      exact h.stop hrun hcall hdone
    · exact h
  | stopping s =>
    obtain ⟨hworkers, hlast, t, ht, hplace⟩ := hreached
    obtain ⟨place, attached⟩ := t
    dsimp only
    rw [ht]
    cases place with
    | running => exact absurd rfl hplace
    | cancelling => exact h
    | done =>
      have hcl' : Closing { g with schedulers := g.schedulers.set s (some ⟨.done, false⟩) } :=
        hcl.of_task ht (fun _ => rfl) (fun _ => TaskPlace.noConfusion) fun _ => rfl
      have hsound : Sound cfg { g with schedulers := g.schedulers.set s (some ⟨.done, false⟩) } :=
        ⟨h.borrowed, fun hf => absurd hf hrun, fun _ => hcl'⟩
      refine hsound.close hrun hcall hworkers fun a ha t ht => ?_
      -- the scheduler is the last one
      rw [show s = g.schedulers.length - 1 by omega] at ha
      rcases mem_set_last ha with ha | rfl
      · exact hcl.earlier a ha t ht
      · obtain rfl := Option.mem_some.mp ht
        rfl
  | closing =>
    obtain ⟨hworkers, haging, howns, hclosed⟩ := hreached
    refine ⟨fun hf => Bool.noConfusion (howns.symm.trans hf), fun hf => absurd hf hrun, fun _ => ?_⟩
    exact
      { cancelled := hcl.cancelled
        earlier := hcl.earlier
        detached := hcl.detached
        closed := hcl.closed
        released := fun _ _ => hclosed
        calls := by
          intro p hp
          rcases List.mem_or_eq_of_mem_set hp with hp | rfl
          · have hreached := hcl.calls p hp
            cases p <;> exact hreached
          · trivial
        quiet := fun _ => ⟨hworkers, haging, fun _ => ⟨rfl, hclosed⟩⟩ }
  | returned => exact h

theorem Sound.step (h : g.Sound cfg) {s : LifeStep} (hs : g.Sequential s) :
    (g.step cfg s).Sound cfg := by
  cases s with
  | startup => exact h.startup (hs rfl)
  | shutdown => exact h.shutdown
  | workerLeaves w => exact h.workerLeaves w
  | agingLeaves s => exact h.agingLeaves s
  | resume call => exact h.resume call

theorem sound_run (cfg : LifeConfig) (httpClient : Bool) {steps : List LifeStep}
    (hseq : (machine cfg).Along Sequential (init httpClient) steps) :
    ((machine cfg).run (init httpClient) steps).Sound cfg :=
  Machine.run_inv (fun _ _ h hs => h.step hs) (sound_init cfg httpClient) hseq

end Steps

/-! ## Every call returns -/

end GatewayLife

/-- How far a task is from having left. -/
def TaskPlace.weight : TaskPlace → ℕ
  | running => 2
  | cancelling => 1
  | done => 0

/-- How far a call is from having returned. -/
def ShutdownPlace.weight : ShutdownPlace → ℕ
  | gathering _ => 3
  | stopping _ => 2
  | closing => 1
  | returned => 0

namespace GatewayLife

/-- The weight of a scheduler is that of its aging task. -/
def agingWeight (a : Option AgingTask) : ℕ := a.elim 0 fun t => t.place.weight

/-- What the steps other than the calls use up. -/
def load (g : GatewayLife) : ℕ :=
  total TaskPlace.weight g.workers + total agingWeight g.schedulers +
    total ShutdownPlace.weight g.shutdowns

section Load

variable {cfg : LifeConfig} {g : GatewayLife} {call : ℕ} {p : ShutdownPlace}

theorem load_close (hp : g.shutdowns[call]? = some p) (hw : 1 < p.weight) :
    (g.close call).load < g.load := by
  rw [close]
  split
  · have hset := total_set (f := ShutdownPlace.weight) (b := .closing) hp
    simp only [load, ShutdownPlace.weight] at hset hw ⊢
    omega
  · have hset := total_set (f := ShutdownPlace.weight) (b := .returned) hp
    simp only [load, ShutdownPlace.weight] at hset hw ⊢
    omega

theorem load_stop (hp : g.shutdowns[call]? = some p) (hw : 2 < p.weight) :
    (g.stop call).load < g.load := by
  rw [stop]
  split
  · rename_i place hlast
    rw [List.getLast?_eq_getElem?] at hlast
    have hset := total_set (f := ShutdownPlace.weight)
      (b := .stopping (g.schedulers.length - 1)) hp
    have htask := total_set (f := agingWeight) (b := some ⟨place.cancel, true⟩) hlast
    have hcancel : place.cancel.weight ≤ place.weight := by cases place <;> decide
    simp only [load, ShutdownPlace.weight, agingWeight, Option.elim_some] at hset htask hw ⊢
    omega
  · exact load_close hp (by omega)

theorem load_gathered {n : ℕ} (hp : g.shutdowns[call]? = some (.gathering n))
    (hdone : ∀ w ∈ g.workers.take n, w = .done) : (g.resume call).load < g.load := by
  have hstop : g.resume call = g.stop call := by
    rw [resume, hp]
    exact if_pos hdone
  rw [hstop]
  exact load_stop hp (Nat.lt_succ_self 2)

theorem load_stopped {s : ℕ} {attached : Bool} (hp : g.shutdowns[call]? = some (.stopping s))
    (hs : g.schedulers[s]? = some (some ⟨.done, attached⟩)) : (g.resume call).load < g.load := by
  have hclose : g.resume call =
      { g with schedulers := g.schedulers.set s (some ⟨.done, false⟩) }.close call := by
    simp only [resume, hp, hs]
  have htask := total_set (f := agingWeight) (b := some ⟨.done, false⟩) hs
  have hlt := load_close (g := { g with schedulers := g.schedulers.set s (some ⟨.done, false⟩) })
    hp (Nat.lt_succ_self 1)
  rw [hclose]
  refine hlt.trans_le ?_
  simp only [load, agingWeight, Option.elim_some, TaskPlace.weight] at htask ⊢
  omega

theorem load_closed (hp : g.shutdowns[call]? = some .closing) :
    (g.resume call).load < g.load := by
  have hset := total_set (f := ShutdownPlace.weight) (b := .returned) hp
  simp only [resume, hp, load, ShutdownPlace.weight] at hset ⊢
  omega

theorem load_resume (g : GatewayLife) (call : ℕ) :
    g.resume call = g ∨ (g.resume call).load < g.load := by
  rcases hp : g.shutdowns[call]? with - | p
  · exact Or.inl (by simp only [resume, hp])
  cases p with
  | gathering n =>
    by_cases hdone : ∀ w ∈ g.workers.take n, w = .done
    · exact Or.inr (load_gathered hp hdone)
    · exact Or.inl (by simp only [resume, hp, if_neg hdone])
  | stopping s =>
    rcases hs : g.schedulers[s]? with - | - | ⟨- | - | -, attached⟩
    · exact Or.inl (by simp only [resume, hp, hs])
    · exact Or.inl (by simp only [resume, hp, hs])
    · exact Or.inl (by simp only [resume, hp, hs])
    · exact Or.inl (by simp only [resume, hp, hs])
    · exact Or.inr (load_stopped hp hs)
  | closing => exact Or.inr (load_closed hp)
  | returned => exact Or.inl (by simp only [resume, hp])

/-- **A step that is no call changes nothing or uses something up.** -/
theorem step_eq_or_load_lt (cfg : LifeConfig) (g : GatewayLife) {s : LifeStep}
    (hstart : s ≠ .startup) (hshut : s ≠ .shutdown) :
    g.step cfg s = g ∨ (g.step cfg s).load < g.load := by
  cases s with
  | startup => exact absurd rfl hstart
  | shutdown => exact absurd rfl hshut
  | workerLeaves w =>
    rw [step]
    rcases hw : g.workers[w]? with - | place
    · exact Or.inl rfl
    dsimp only
    have hplace : ∀ running : Bool, (if running then place.leave else place.cancel.leave) = place ∨
        (if running then place.leave else place.cancel.leave).weight < place.weight := by
      cases place <;> decide
    rcases hplace g.running with hstay | hlt
    · rw [hstay, set_of_getElem? hw]
      exact Or.inl rfl
    · have hset := total_set (f := TaskPlace.weight)
        (b := if g.running then place.leave else place.cancel.leave) hw
      refine Or.inr ?_
      simp only [load]
      omega
  | agingLeaves s =>
    rw [step]
    rcases hs : g.schedulers[s]? with - | - | t
    · exact Or.inl rfl
    · exact Or.inl rfl
    dsimp only
    have hplace : t.place.leave = t.place ∨ t.place.leave.weight < t.place.weight := by
      cases t.place <;> decide
    rcases hplace with hstay | hlt
    · rw [hstay, set_of_getElem? hs]
      exact Or.inl rfl
    · have hset := total_set (f := agingWeight) (b := some { t with place := t.place.leave }) hs
      refine Or.inr ?_
      simp only [load, agingWeight, Option.elim_some] at hset ⊢
      omega
  | resume call => exact load_resume g call

/-- **While a call is in progress, something can be used up.** -/
theorem Sound.exists_load_lt (h : g.Sound cfg) (hnot : ¬ g.Quiet) :
    ∃ s, s ≠ .startup ∧ s ≠ .shutdown ∧ (g.step cfg s).load < g.load := by
  have hrun : ¬ g.running := fun hrun => hnot (h.up hrun).quiet
  have hcl := h.closing (Bool.eq_false_iff.mpr hrun)
  obtain ⟨p, hp, hne⟩ : ∃ p ∈ g.shutdowns, p ≠ .returned := by
    simpa [Quiet] using hnot
  obtain ⟨call, hcall⟩ := List.mem_iff_getElem?.mp hp
  have hreached := hcl.calls p hp
  cases p with
  | gathering n =>
    by_cases hdone : ∀ w ∈ g.workers.take n, w = .done
    · exact ⟨.resume call, LifeStep.noConfusion, LifeStep.noConfusion, load_gathered hcall hdone⟩
    · -- a worker it waits for has not left yet
      obtain ⟨w, hw, hplace⟩ : ∃ w ∈ g.workers.take n, w ≠ .done := by simpa using hdone
      have hmem := List.mem_of_mem_take hw
      obtain ⟨i, hi⟩ := List.mem_iff_getElem?.mp hmem
      have hcancelled := hcl.cancelled w hmem
      refine ⟨.workerLeaves i, LifeStep.noConfusion, LifeStep.noConfusion, ?_⟩
      have hset := total_set (f := TaskPlace.weight) (b := .done) hi
      cases w with
      | running => exact absurd rfl hcancelled
      | done => exact absurd rfl hplace
      | cancelling =>
        simp only [GatewayLife.step, hi, if_neg hrun, load, TaskPlace.cancel, TaskPlace.leave,
          TaskPlace.weight] at hset ⊢
        omega
  | stopping s =>
    obtain ⟨-, -, ⟨place, attached⟩, ht, hplace⟩ := hreached
    cases place with
    | running => exact absurd rfl hplace
    | cancelling =>
      refine ⟨.agingLeaves s, LifeStep.noConfusion, LifeStep.noConfusion, ?_⟩
      have hset := total_set (f := agingWeight) (b := some ⟨.done, attached⟩) ht
      simp only [GatewayLife.step, ht, load, agingWeight, Option.elim_some, TaskPlace.leave,
        TaskPlace.weight] at hset ⊢
      omega
    | done =>
      exact ⟨.resume call, LifeStep.noConfusion, LifeStep.noConfusion, load_stopped hcall ht⟩
  | closing => exact ⟨.resume call, LifeStep.noConfusion, LifeStep.noConfusion, load_closed hcall⟩
  | returned => exact absurd rfl hne

end Load

/-- **The life of a gateway.** However calls of `startup` and `shutdown` follow
each other, as long as no `startup` falls into a `shutdown`: a gateway that
runs is up, and one that does not is down as soon as no `shutdown` is in
progress. While one is, some step other than a call brings it closer to its
end, and no such step leads away from it. -/
theorem lifecycle (cfg : LifeConfig) (httpClient : Bool) {steps : List LifeStep}
    (hseq : (machine cfg).Along Sequential (init httpClient) steps) :
    let g := (machine cfg).run (init httpClient) steps
    (g.running = true → g.Up cfg) ∧
      (g.running = false → g.Quiet → g.Down) ∧
      (¬ g.Quiet → ∃ s, s ≠ .startup ∧ s ≠ .shutdown ∧ (g.step cfg s).load < g.load) ∧
      ∀ s, s ≠ .startup → s ≠ .shutdown → g.step cfg s = g ∨ (g.step cfg s).load < g.load := by
  have hsound := sound_run cfg httpClient hseq
  exact ⟨hsound.up, fun hrun => (hsound.closing hrun).quiet, hsound.exists_load_lt,
    fun s hs hs' => step_eq_or_load_lt cfg _ hs hs'⟩

/-- A gateway that is started, stopped and started again. -/
def restart : List LifeStep :=
  [.startup, .shutdown, .workerLeaves 0, .workerLeaves 1, .resume 0, .agingLeaves 0, .resume 0,
    .resume 0, .startup]

theorem restart_up : ((machine ⟨2, true⟩).run (init false) restart).Up ⟨2, true⟩ :=
  (lifecycle ⟨2, true⟩ false (by decide)).1 (by decide)

/-- **A `startup` in a `shutdown`.** The gateway ends up running without a
client and without an aging task of its own, while that of the scheduler it
started with runs on. -/
theorem startup_during_shutdown :
    let g := (machine ⟨1, true⟩).run (init false)
      [.startup, .shutdown, .startup, .workerLeaves 0, .resume 0, .agingLeaves 1, .resume 0,
        .resume 0]
    g.running = true ∧ g.Quiet ∧ g.hasClient = false ∧
      g.schedulers = [some ⟨.running, true⟩, some ⟨.done, false⟩] := by
  decide

end GatewayLife

end VllmScheduler
