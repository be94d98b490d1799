import Mathlib.Algebra.Field.Rat
import Mathlib.Algebra.Order.Ring.Rat
import VllmScheduler.Common.Machine
import VllmScheduler.Common.Monitor
import VllmScheduler.Go.Engine
/-!
# Wake-ups in the Go engine

Concurrent `Submit` and `Acquire` calls of `go/internal/api/scheduler.go`.
What runs under the mutex is one step. An `Acquire` that finds the heap
empty makes two: it starts its watcher, and then registers on the condition
variable, which gives up the mutex. The watcher needs no mutex, so it may
run in between. `cond.Signal` wakes any one of the parked calls,
`cond.Broadcast` all of them, and a `select` with both cases ready takes
either.

Two things go wrong. A watcher whose context is done already may broadcast
before its call has registered; nobody tells that call of its context again.
And a call that is signalled after its context is done returns without
looking at the heap; its watcher, which would have passed the wake-up on,
may find `done` closed and take that case. `Punctual` and `Attentive` are
the runs without the first and without both. A watcher whose call went on to
look at the heap may take either case.
-/

namespace VllmScheduler

/-- Where an `Acquire` stands. `returned none` is `ctx.Err()`. -/
inductive CallPhase where
  /-- Waits for the mutex for the first time. -/
  | entering
  /-- Holds the mutex, has started its watcher and not yet registered. -/
  | starting
  /-- In `cond.Wait`. -/
  | parked
  /-- Taken off the condition variable, waits for the mutex again. -/
  | woken
  | returned (req : Option ℕ)
deriving DecidableEq

/-- An `Acquire` and whether its context is done. -/
structure AcquireCall where
  phase : CallPhase
  expired : Bool
deriving DecidableEq

/-- A watcher goroutine: whose it is, whether the call has closed its `done`
channel, and whether it has taken the case of the context, with the
`Broadcast` still to do. -/
structure Watcher where
  call : ℕ
  closed : Bool
  chosen : Bool
deriving DecidableEq

/-- The engine, the calls in the order they were made, and the watchers that
have not ended. -/
structure GoSystem {K : Type} [LinearOrder K] (Id : Type) (H : GoHeap ℕ K) where
  engine : Engine Id H
  calls : List AcquireCall
  watchers : List Watcher

/-- What can happen next. -/
inductive GoEvent (Id K : Type) where
  /-- `Submit`, whose `Signal` goes to the call `wakes` where any is parked. -/
  | submit (request : GoRequest Id K) (now : K) (wakes : ℕ)
  | cancel (id : Id)
  /-- A new `Acquire`; its context may be done on entry. -/
  | call (expired : Bool)
  | expire (i : ℕ)
  | enter (i : ℕ)
  | wait (i : ℕ)
  | resume (i : ℕ)
  /-- The `select` of a watcher takes the case of the context. -/
  | receive (w : Watcher)
  | broadcast (w : Watcher)
  /-- The `select` of a watcher takes the case of `done`. -/
  | finish (w : Watcher)
deriving DecidableEq

/-- What a wake-up does to a call. -/
def AcquireCall.wake (c : AcquireCall) : AcquireCall :=
  if c.phase = .parked then { c with phase := .woken } else c

namespace GoSystem

variable {Id K : Type} [DecidableEq Id] [Field K] [LinearOrder K] {H : GoHeap ℕ K}

def init (H : GoHeap ℕ K) (objects : ℕ → GoRequest Id K) : GoSystem Id H :=
  ⟨Engine.newEngine H objects, [], []⟩

/-- Where call `i` stands. -/
def phase? (s : GoSystem Id H) (i : ℕ) : Option CallPhase := (s.calls[i]?).map AcquireCall.phase

/-- The context of call `i` is done. -/
def expired (s : GoSystem Id H) (i : ℕ) : Bool := (s.calls[i]?).any AcquireCall.expired

/-- Somebody holds the mutex from one step to the next. -/
def Locked (s : GoSystem Id H) : Prop := ∃ c ∈ s.calls, c.phase = .starting

instance (s : GoSystem Id H) : Decidable s.Locked :=
  inferInstanceAs (Decidable (∃ c ∈ s.calls, c.phase = .starting))

def setPhase (s : GoSystem Id H) (i : ℕ) (p : CallPhase) : GoSystem Id H :=
  { s with calls := s.calls.modify i fun c => { c with phase := p } }

/-- The loop of `Acquire` from its top to the next point where it returns or
has to wait; then it starts a watcher. -/
def pass (s : GoSystem Id H) (i : ℕ) : GoSystem Id H :=
  let result := s.engine.acquireItem
  let s := { s with engine := result.1 }
  match result.2 with
  | some item => s.setPhase i (.returned (some item.req))
  | none => { s.setPhase i .starting with watchers := ⟨i, false, false⟩ :: s.watchers }

/-- `close(done)`: of the watchers of call `i`, the earlier ones have seen
theirs closed before. -/
def closeDone (s : GoSystem Id H) (i : ℕ) : GoSystem Id H :=
  { s with watchers := s.watchers.map fun w => if w.call = i then { w with closed := true } else w }

/-- The event can happen. -/
def Enabled (s : GoSystem Id H) : GoEvent Id K → Prop
  | .submit _ _ wakes =>
    ¬ s.Locked ∧ (s.phase? wakes = some .parked ∨ ∀ c ∈ s.calls, c.phase ≠ .parked)
  | .cancel _ => ¬ s.Locked
  | .call _ => True
  | .expire _ => True
  | .enter i => ¬ s.Locked ∧ s.phase? i = some .entering
  | .wait i => s.phase? i = some .starting
  | .resume i => ¬ s.Locked ∧ s.phase? i = some .woken
  | .receive w => w ∈ s.watchers ∧ w.chosen = false ∧ s.expired w.call = true
  | .broadcast w => w ∈ s.watchers ∧ w.chosen = true
  | .finish w => w ∈ s.watchers ∧ w.chosen = false ∧ w.closed = true

instance (s : GoSystem Id H) (event : GoEvent Id K) : Decidable (s.Enabled event) := by
  cases event <;> unfold Enabled <;> infer_instance

/-- What the event does. -/
def next (s : GoSystem Id H) : GoEvent Id K → GoSystem Id H
  | .submit request now wakes =>
    { s with
      engine := s.engine.submitNew request now
      calls := s.calls.modify wakes AcquireCall.wake }
  | .cancel id => { s with engine := (s.engine.cancel id).1 }
  | .call expired => { s with calls := s.calls ++ [⟨.entering, expired⟩] }
  | .expire i => { s with calls := s.calls.modify i fun c => { c with expired := true } }
  | .enter i => s.pass i
  | .wait i => s.setPhase i .parked
  | .resume i =>
    if s.expired i then (s.closeDone i).setPhase i (.returned none) else (s.closeDone i).pass i
  | .receive w => { s with watchers := { w with chosen := true } :: s.watchers.erase w }
  | .broadcast w =>
    { s with calls := s.calls.map AcquireCall.wake, watchers := s.watchers.erase w }
  | .finish w => { s with watchers := s.watchers.erase w }

/-- The system as a machine; an event that is not enabled does nothing. -/
def machine (Id : Type) [DecidableEq Id] (H : GoHeap ℕ K) :
    Machine (GoSystem Id H) (GoEvent Id K) Unit where
  step s event := (if s.Enabled event then s.next event else s, ())

/-! ## What can go wrong -/

/-- Call `i` is parked, its context is done and the watcher of this wait has
ended. -/
def Stranded (s : GoSystem Id H) (i : ℕ) : Prop :=
  s.phase? i = some .parked ∧ s.expired i = true ∧ ∀ w ∈ s.watchers, w.call = i → w.closed = true

/-- A lost wake-up: a request to serve, a parked call that would take it,
and nobody about to do anything. -/
structure Lost (s : GoSystem Id H) : Prop where
  queued : ∃ item ∈ s.engine.items, s.engine.idOf item ∉ s.engine.cancelled
  waiting : ∃ c ∈ s.calls, c.phase = .parked ∧ c.expired = false
  still : ∀ c ∈ s.calls, c.phase = .parked ∨ ∃ req, c.phase = .returned req
  quiet : ∀ w ∈ s.watchers, w.chosen = false ∧ s.expired w.call = false

/-- No watcher broadcasts before its call has registered. -/
def Punctual (s : GoSystem Id H) : GoEvent Id K → Prop
  | .broadcast w => w.closed = true ∨ s.phase? w.call ≠ some .starting
  | _ => True

/-- And none takes the case of `done` once its call has returned `ctx.Err()`. -/
def Attentive (s : GoSystem Id H) : GoEvent Id K → Prop
  | .finish w => s.phase? w.call ≠ some (.returned none)
  | event => s.Punctual event

instance (s : GoSystem Id H) (event : GoEvent Id K) : Decidable (s.Punctual event) := by
  cases event <;> unfold Punctual <;> infer_instance

instance (s : GoSystem Id H) (event : GoEvent Id K) : Decidable (s.Attentive event) := by
  cases event <;> unfold Attentive <;> infer_instance

/-! ## Every waiting call has its watcher -/

/-- The call still needs the watcher of its wait. -/
def Needs (c : AcquireCall) : Prop :=
  c.phase = .starting ∨ c.phase = .parked ∨ c.phase = .woken ∧ c.expired = false

/-- Call `j`, where it needs a watcher, has one that is not told to stop. -/
def Watched (s : GoSystem Id H) (j : ℕ) : Prop :=
  ∀ c, s.calls[j]? = some c → Needs c → ∃ w ∈ s.watchers, w.call = j ∧ w.closed = false

/-- Watchers do their part. -/
structure Sound (s : GoSystem Id H) : Prop where
  watched : ∀ j, s.Watched j
  chosen : ∀ w ∈ s.watchers, w.chosen = true → s.expired w.call = true

variable {s : GoSystem Id H} {i j : ℕ} {c : AcquireCall} {w : Watcher} {e : Engine Id H}
  {f : AcquireCall → AcquireCall} {ws : List Watcher}

theorem wake_expired : c.wake.expired = c.expired := by
  rw [AcquireCall.wake]
  split <;> rfl

theorem wake_phase_ne_parked : c.wake.phase ≠ .parked := by
  rw [AcquireCall.wake]
  split
  · exact CallPhase.noConfusion
  · assumption

/-- A woken call needs its watcher only where it did before. -/
theorem needs_of_needs_wake (h : Needs c.wake) : Needs c := by
  rw [AcquireCall.wake] at h
  split at h
  · exact Or.inr (Or.inl ‹_›)
  · exact h

section Frame

omit [DecidableEq Id] [Field K]

theorem expired_iff : s.expired i = true ↔ ∃ c, s.calls[i]? = some c ∧ c.expired = true := by
  rw [expired, Option.any_eq_true]

theorem exists_of_phase? {p : CallPhase} (h : s.phase? i = some p) :
    ∃ c, s.calls[i]? = some c ∧ c.phase = p := Option.map_eq_some_iff.mp h

/-- A change of one call that does not undo its expiry undoes none. -/
theorem expired_modify (hf : ∀ c, c.expired = true → (f c).expired = true)
    (h : s.expired j = true) : expired (⟨e, s.calls.modify i f, ws⟩ : GoSystem Id H) j = true := by
  obtain ⟨c, hc, hexp⟩ := expired_iff.mp h
  rw [expired_iff]
  simp only [List.getElem?_modify, hc, Option.map_eq_map, Option.map_some]
  refine ⟨_, rfl, ?_⟩
  split
  · exact hf c hexp
  · exact hexp

/-- A change of another call is none of this one's business. -/
theorem Watched.modify_ne (h : s.Watched j) (hij : i ≠ j) (hws : s.watchers ⊆ ws) :
    Watched (⟨e, s.calls.modify i f, ws⟩ : GoSystem Id H) j := by
  intro c hc hn
  simp only [List.getElem?_modify, Option.map_eq_map, Option.map_eq_some_iff, if_neg hij,
    exists_eq_right] at hc
  obtain ⟨w, hw, hcall⟩ := h c hc hn
  exact ⟨w, hws hw, hcall⟩

/-- A change that does not make the call need a watcher. -/
theorem Watched.modify_self (h : s.Watched i)
    (hneeds : ∀ c, s.calls[i]? = some c → Needs (f c) → Needs c) :
    Watched (⟨e, s.calls.modify i f, s.watchers⟩ : GoSystem Id H) i := by
  intro c hc hn
  simp only [List.getElem?_modify, Option.map_eq_map, Option.map_eq_some_iff, if_pos] at hc
  obtain ⟨c, hc, rfl⟩ := hc
  exact h c hc (hneeds c hc hn)

/-- Closing the `done` of another call is none of this one's business. -/
theorem Watched.closeDone_ne (h : s.Watched j) (hij : i ≠ j) : (s.closeDone i).Watched j := by
  intro c hc hn
  obtain ⟨w, hw, hcall, hopen⟩ := h c hc hn
  refine ⟨w, List.mem_map.mpr ⟨w, hw, if_neg ?_⟩, hcall, hopen⟩
  rw [hcall]
  exact hij.symm

/-- A call that has returned needs no watcher. -/
theorem watched_returned {req : Option ℕ} : (s.setPhase i (.returned req)).Watched i := by
  intro c hget hn
  simp only [setPhase, List.getElem?_modify, Option.map_eq_map, Option.map_eq_some_iff,
    if_pos] at hget
  obtain ⟨c, -, rfl⟩ := hget
  simp [Needs] at hn

theorem chosen_closeDone (h : ∀ w ∈ s.watchers, w.chosen = true → s.expired w.call = true) :
    ∀ w ∈ (s.closeDone i).watchers, w.chosen = true → (s.closeDone i).expired w.call = true := by
  intro w hw hch
  obtain ⟨v, hv, rfl⟩ := List.mem_map.mp hw
  have hexp := h v hv
  split at hch <;> rename_i hvi
  · rw [if_pos hvi]
    exact hexp hch
  · rw [if_neg hvi]
    exact hexp hch

end Frame

omit [Field K] in
/-- A pass leaves its own call with a watcher where it needs one. -/
theorem sound_pass (hw : ∀ j, i ≠ j → s.Watched j)
    (hc : ∀ w ∈ s.watchers, w.chosen = true → s.expired w.call = true) : (s.pass i).Sound := by
  rw [pass]
  split
  · refine ⟨fun j => ?_, fun w hm hch => expired_modify (fun _ h => h) (hc w hm hch)⟩
    by_cases hij : i = j
    · exact hij ▸ watched_returned
    · exact (hw j hij).modify_ne hij (List.Subset.refl _)
  · refine ⟨fun j => ?_, fun w hm hch => ?_⟩
    · by_cases hij : i = j
      · exact fun _ _ _ => ⟨⟨i, false, false⟩, List.mem_cons_self, hij, rfl⟩
      · exact (hw j hij).modify_ne hij (List.subset_cons_self _ _)
    · rcases List.mem_cons.mp hm with rfl | hm
      · cases hch
      · exact expired_modify (fun _ h => h) (hc w hm hch)

namespace Sound

omit [DecidableEq Id] in
theorem init {objects : ℕ → GoRequest Id K} : (init H objects).Sound :=
  ⟨fun j c hc => by simp [GoSystem.init] at hc, fun w hw => by simp [GoSystem.init] at hw⟩

omit [DecidableEq Id] [Field K] in
/-- A change of one call that does not make it need a watcher. -/
theorem modify (h : s.Sound) (hneeds : ∀ c, s.calls[i]? = some c → Needs (f c) → Needs c)
    (hf : ∀ c, c.expired = true → (f c).expired = true) :
    Sound (⟨e, s.calls.modify i f, s.watchers⟩ : GoSystem Id H) := by
  refine ⟨fun j => ?_, fun w hw hch => expired_modify hf (h.chosen w hw hch)⟩
  by_cases hij : i = j
  · subst hij
    exact (h.watched i).modify_self hneeds
  · exact (h.watched j).modify_ne hij (List.Subset.refl _)

/-- A new call needs no watcher yet. -/
theorem call (h : s.Sound) (done : Bool) : (s.next (.call done)).Sound := by
  refine ⟨fun j c hc hn => ?_, fun w hw hch => ?_⟩
  · simp only [next, List.getElem?_append, List.getElem?_singleton] at hc
    split at hc
    · exact h.watched j c hc hn
    · split at hc
      · cases hc
        simp [Needs] at hn
      · cases hc
  · obtain ⟨c, hc, hexp⟩ := expired_iff.mp (h.chosen w hw hch)
    exact expired_iff.mpr ⟨c, List.getElem?_append_left (List.getElem?_eq_some_iff.mp hc).1 ▸ hc,
      hexp⟩

/-- A watcher that takes the case of its context keeps watching. -/
theorem receive (h : s.Sound) (hexp : s.expired w.call = true) : (s.next (.receive w)).Sound := by
  refine ⟨fun j c hc hn => ?_, fun v hv hch => ?_⟩
  · obtain ⟨v, hv, hcall, hopen⟩ := h.watched j c hc hn
    by_cases hvw : v = w
    · exact ⟨_, List.mem_cons_self, hvw ▸ hcall, hvw ▸ hopen⟩
    · exact ⟨v, List.mem_cons_of_mem _ ((List.mem_erase_of_ne hvw).mpr hv), hcall, hopen⟩
  · rcases List.mem_cons.mp hv with rfl | hv
    · exact hexp
    · exact h.chosen v (List.mem_of_mem_erase hv) hch

/-- **A broadcast that is not too early.** The calls it wakes have watchers
of their own, unless their context is done. -/
theorem broadcast (h : s.Sound) (hw : w ∈ s.watchers) (hch : w.chosen = true)
    (hpunctual : w.closed = true ∨ s.phase? w.call ≠ some .starting) :
    (s.next (.broadcast w)).Sound := by
  have hexp : ∀ j, (s.next (.broadcast w)).expired j = s.expired j := by
    intro j
    simp only [expired, next, List.getElem?_map, Option.any_map]
    congr 1
    funext c
    exact wake_expired
  refine ⟨fun j c hc hn => ?_, fun v hv hvch => ?_⟩
  · simp only [next, List.getElem?_map, Option.map_eq_some_iff] at hc
    obtain ⟨c, hc, rfl⟩ := hc
    obtain ⟨v, hv, hcall, hopen⟩ := h.watched j c hc (needs_of_needs_wake hn)
    refine ⟨v, (List.mem_erase_of_ne ?_).mpr hv, hcall, hopen⟩
    rintro rfl
    obtain ⟨c', hc', hexpired⟩ := expired_iff.mp (h.chosen v hw hch)
    rw [hcall, hc] at hc'
    cases hc'
    rcases hn with hstart | hpark | ⟨-, hfresh⟩
    · -- its own watcher broadcasts before it has registered
      have hphase : c.phase = .starting := by
        rw [AcquireCall.wake] at hstart
        split at hstart
        · cases hstart
        · exact hstart
      rcases hpunctual with hclosed | hne
      · rw [hopen] at hclosed
        cases hclosed
      · refine hne ?_
        rw [phase?, hcall, hc, Option.map_some, hphase]
    · exact wake_phase_ne_parked hpark
    · rw [wake_expired, hexpired] at hfresh
      cases hfresh
  · rw [hexp]
    exact h.chosen v (List.mem_of_mem_erase hv) hvch

/-- A watcher that is told to stop is not needed any more. -/
theorem finish (h : s.Sound) (hclosed : w.closed = true) : (s.next (.finish w)).Sound := by
  refine ⟨fun j c hc hn => ?_, fun v hv hch => h.chosen v (List.mem_of_mem_erase hv) hch⟩
  obtain ⟨v, hv, hcall, hopen⟩ := h.watched j c hc hn
  refine ⟨v, (List.mem_erase_of_ne ?_).mpr hv, hcall, hopen⟩
  rintro rfl
  rw [hopen] at hclosed
  cases hclosed

/-- **A step keeps the watchers sound**, unless one broadcasts too early. -/
theorem next {event : GoEvent Id K} (h : s.Sound) (hen : s.Enabled event)
    (hp : s.Punctual event) : (s.next event).Sound := by
  cases event with
  | submit request now wakes =>
    exact h.modify (fun _ _ => needs_of_needs_wake) fun _ hexp => wake_expired.trans hexp
  | cancel id => exact ⟨h.watched, h.chosen⟩
  | call done => exact h.call done
  | expire i =>
    refine h.modify (fun c _ hn => ?_) fun _ _ => rfl
    rcases hn with hn | hn | ⟨-, hn⟩
    · exact Or.inl hn
    · exact Or.inr (Or.inl hn)
    · cases hn
  | enter i => exact sound_pass (fun j _ => h.watched j) h.chosen
  | wait i =>
    refine h.modify (fun c hc _ => ?_) fun _ hexp => hexp
    obtain ⟨c', hc', hphase⟩ := exists_of_phase? hen
    rw [hc] at hc'
    cases hc'
    exact Or.inl hphase
  | resume i =>
    rw [GoSystem.next]
    split
    · refine ⟨fun j => ?_, fun w hw hch =>
        expired_modify (fun _ hexp => hexp) (chosen_closeDone h.chosen w hw hch)⟩
      by_cases hij : i = j
      · exact hij ▸ watched_returned
      · exact ((h.watched j).closeDone_ne hij).modify_ne hij (List.Subset.refl _)
    · exact sound_pass (fun j hij => (h.watched j).closeDone_ne hij) (chosen_closeDone h.chosen)
  | receive w => exact h.receive hen.2.2
  | broadcast w => exact h.broadcast hen.1 hen.2 hp
  | finish w => exact h.finish hen.2.2

end Sound

variable {ops : List (GoEvent Id K)} {objects : ℕ → GoRequest Id K}

/-- **The watchers stay sound** on every punctual run. -/
theorem sound_run (hrun : (machine Id H).Along Punctual (init H objects) ops) :
    ((machine Id H).run (init H objects) ops).Sound := by
  refine Machine.run_inv (M := machine Id H) (G := Punctual) (fun s event hs hp => ?_) Sound.init
    hrun
  show (if s.Enabled event then s.next event else s).Sound
  split
  · exact hs.next ‹_› hp
  · exact hs

/-- **An `Acquire` notices its context**: on every run in which no watcher
broadcasts before its call has registered, a parked call whose context is
done has its watcher still to wake it. -/
theorem not_stranded (hrun : (machine Id H).Along Punctual (init H objects) ops) (i : ℕ) :
    ¬ ((machine Id H).run (init H objects) ops).Stranded i := by
  rintro ⟨hparked, -, hgone⟩
  obtain ⟨c, hc, hphase⟩ := exists_of_phase? hparked
  obtain ⟨w, hw, hcall, hopen⟩ := (sound_run hrun).watched i c hc (Or.inr (Or.inl hphase))
  rw [hgone w hw hcall] at hopen
  cases hopen

/-- The context is done on entry, and the watcher broadcasts before the call
has registered: it parks with nobody left to tell it. -/
theorem early_broadcast_strands :
    Stranded ((machine String (listHeap GoItem.priority : GoHeap ℕ ℚ)).run
      (init _ fun _ => ⟨"", "", 0, 0, 0, 0⟩)
      [.call true, .enter 0, .receive ⟨0, false, false⟩, .broadcast ⟨0, false, true⟩, .wait 0]) 0 ∧
    ((machine String (listHeap GoItem.priority : GoHeap ℕ ℚ)).run
      (init _ fun _ => ⟨"", "", 0, 0, 0, 0⟩)
      [.call true, .enter 0, .receive ⟨0, false, false⟩, .broadcast ⟨0, false, true⟩,
        .wait 0]).watchers = [] :=
  ⟨⟨by decide +kernel, by decide +kernel, by decide +kernel⟩, by decide +kernel⟩

/-- If the watcher takes its time, it finds the call parked. -/
theorem late_broadcast_noticed :
    ¬ Stranded ((machine String (listHeap GoItem.priority : GoHeap ℕ ℚ)).run
      (init _ fun _ => ⟨"", "", 0, 0, 0, 0⟩)
      [.call true, .enter 0, .receive ⟨0, false, false⟩, .wait 0, .broadcast ⟨0, false, true⟩,
        .resume 0]) 0 :=
  not_stranded (by decide +kernel) 0

/-! ## The heap is covered -/

/-- What a call is to the requests in the heap. A woken one whose context is
done will not look at them. -/
def role (c : AcquireCall) : Phase :=
  match c.phase, c.expired with
  | .entering, _ => .ready
  | .woken, false => .ready
  | .parked, _ => .parked
  | _, _ => .away

/-- A watcher has a `Broadcast` still to do: it has taken the case of the
context, or its context is done and its `done` is open, or was closed by a call
that has returned `ctx.Err()`. -/
def Due (s : GoSystem Id H) : Prop :=
  ∃ w ∈ s.watchers, w.chosen = true ∨
    s.expired w.call = true ∧ (w.closed = false ∨ s.phase? w.call = some (.returned none))

/-- **No wake-up is lost**: a broadcast is due, or the calls on their way to
the heap cover it. -/
structure Covering (s : GoSystem Id H) : Prop where
  sound : s.Sound
  empty : s.Locked → s.engine.depth = 0
  covered : s.Due ∨ Covered s.engine.depth (s.calls.map role)

section Roles

theorem role_wake_of_parked (hp : c.phase = .parked) (he : c.expired = false) :
    role c.wake = .ready := by
  simp [AcquireCall.wake, role, hp, he]

theorem role_eq_parked_iff : role c = .parked ↔ c.phase = .parked := by
  rcases c with ⟨- | - | - | - | -, - | -⟩ <;> simp [role]

omit [DecidableEq Id] [Field K] in
/-- An open watcher of a call whose context is done. -/
theorem due_of_watched (h : s.Watched i) (hc : s.calls[i]? = some c) (hn : Needs c)
    {calls : List AcquireCall} (hexp : expired (⟨e, calls, s.watchers⟩ : GoSystem Id H) i = true) :
    Due (⟨e, calls, s.watchers⟩ : GoSystem Id H) := by
  obtain ⟨w, hw, hcall, hopen⟩ := h c hc hn
  refine ⟨w, hw, Or.inr ⟨?_, Or.inl hopen⟩⟩
  rw [hcall]
  exact hexp

omit [DecidableEq Id] [Field K] in
/-- A change of one call that leaves it returned where it was. -/
theorem phase?_modify {p : CallPhase}
    (hf : ∀ c, s.calls[i]? = some c → c.phase = p → (f c).phase = p) (h : s.phase? j = some p) :
    phase? (⟨e, s.calls.modify i f, ws⟩ : GoSystem Id H) j = some p := by
  obtain ⟨c, hc, hphase⟩ := exists_of_phase? h
  simp only [phase?, List.getElem?_modify, hc, Option.map_eq_map, Option.map_some]
  split
  · rename_i hij
    rw [hf c (hij ▸ hc) hphase]
  · rw [hphase]

omit [DecidableEq Id] [Field K] in
theorem Due.modify (h : s.Due) (hf : ∀ c, c.expired = true → (f c).expired = true)
    (hret : ∀ c, s.calls[i]? = some c → c.phase = .returned none → (f c).phase = .returned none)
    (hws : s.watchers ⊆ ws) : Due (⟨e, s.calls.modify i f, ws⟩ : GoSystem Id H) := by
  obtain ⟨w, hw, hdue⟩ := h
  exact ⟨w, hws hw, hdue.imp_right fun hdue =>
    ⟨expired_modify hf hdue.1, hdue.2.imp_right (phase?_modify hret)⟩⟩

omit [DecidableEq Id] [Field K] in
/-- A call whose context is not done closes its `done`. -/
theorem Due.closeDone (h : s.Due) (hfresh : s.expired i = false) : (s.closeDone i).Due := by
  obtain ⟨w, hw, hdue⟩ := h
  refine ⟨_, List.mem_map_of_mem hw, ?_⟩
  split
  · rename_i hwi
    refine Or.inl (hdue.resolve_right fun hdue => ?_)
    rw [hwi, hfresh] at hdue
    cases hdue.1
  · exact hdue

omit [DecidableEq Id] [Field K] in
/-- A call whose context is done closes its `done` and returns. -/
theorem Due.abort (h : s.Due) (hexp : s.expired i = true) :
    ((s.closeDone i).setPhase i (.returned none)).Due := by
  obtain ⟨w, hw, hdue⟩ := h
  refine ⟨_, List.mem_map_of_mem hw, ?_⟩
  split
  · rename_i hwi
    refine Or.inr ⟨?_, Or.inr ?_⟩
    · exact expired_modify (s := s) (fun _ h => h) (hwi ▸ hexp)
    · obtain ⟨c, hc, -⟩ := expired_iff.mp hexp
      have hget : (s.closeDone i).calls[i]? = some c := hc
      simp only [phase?, setPhase, hwi, List.getElem?_modify, hget]
      simp
  · exact hdue.imp_right fun hdue =>
      ⟨expired_modify (s := s) (fun _ h => h) hdue.1, hdue.2.imp_right
        (phase?_modify (s := s) fun _ _ _ => rfl)⟩

omit [DecidableEq Id] [Field K] in
/-- Only a call that starts to wait takes the mutex with it. -/
theorem locked_of_modify
    (hf : ∀ c, s.calls[i]? = some c → (f c).phase = .starting → c.phase = .starting)
    (h : Locked (⟨e, s.calls.modify i f, ws⟩ : GoSystem Id H)) : s.Locked := by
  obtain ⟨c', hc', hphase⟩ := h
  obtain ⟨j, hj⟩ := List.mem_iff_getElem?.mp hc'
  simp only [List.getElem?_modify, Option.map_eq_map, Option.map_eq_some_iff] at hj
  obtain ⟨c, hc, rfl⟩ := hj
  refine ⟨c, List.mem_of_getElem? hc, ?_⟩
  by_cases hij : i = j
  · subst hij
    rw [if_pos rfl] at hphase
    exact hf c hc hphase
  · rwa [if_neg hij] at hphase

theorem wake_phase_of_returned {req : Option ℕ} (h : c.phase = .returned req) :
    c.wake.phase = .returned req := by
  rw [AcquireCall.wake, if_neg (by rw [h]; exact CallPhase.noConfusion), h]

theorem wake_phase_of_starting (h : c.wake.phase = .starting) : c.phase = .starting := by
  rw [AcquireCall.wake] at h
  split at h
  · cases h
  · exact h

end Roles

omit [Field K] in
/-- A pass of a call that was on its way to the heap. -/
theorem covering_pass (hs : (s.pass i).Sound) (hlock : ¬ s.Locked) (hc : s.calls[i]? = some c)
    (hrole : role c = .ready) (hcov : s.Due ∨ Covered s.engine.depth (s.calls.map role)) :
    (s.pass i).Covering := by
  refine ⟨hs, ?_, ?_⟩
  all_goals
    rw [pass]
    rcases hr : s.engine.acquireItem.2 with - | item
  · exact fun _ => H.size_eq_zero.mpr (Engine.items_acquireItem_of_none hr)
  · exact fun hl => absurd (locked_of_modify (fun _ _ h => CallPhase.noConfusion h) hl) hlock
  · refine Or.inr ?_
    have hempty : s.engine.acquireItem.1.depth = 0 :=
      H.size_eq_zero.mpr (Engine.items_acquireItem_of_none hr)
    show Covered s.engine.acquireItem.1.depth _
    rw [hempty]
    exact Covered.zero
  · -- a call that has returned is not on its way to the heap
    have hret : ∀ c', s.calls[i]? = some c' → c'.phase ≠ .returned none := by
      rintro c' hc' hp
      obtain rfl := Option.some_inj.mp (hc.symm.trans hc')
      rw [role, hp] at hrole
      cases hrole
    refine hcov.imp (fun hdue => hdue.modify (fun _ h => h)
      (fun c' hc' hp => absurd hp (hret c' hc')) (List.Subset.refl _)) fun hcov => ?_
    show Covered s.engine.acquireItem.1.depth ((s.calls.modify i _).map role)
    rw [map_modify_eq_set hc]
    refine Covered.serve (hcov.mono (Engine.depth_acquireItem_of_some hr)) ?_
    rw [List.getElem?_map, hc, Option.map_some, hrole]

namespace Covering

omit [DecidableEq Id] in
theorem init : (init H objects).Covering := by
  refine ⟨Sound.init, fun hl => ?_, Or.inr (Covered.of_not_mem List.not_mem_nil)⟩
  obtain ⟨c, hc, -⟩ := hl
  cases hc

/-- A request comes in and one parked call is woken for it. If the context
of that call is done, its watcher is about to wake the others. -/
theorem submit (h : s.Covering) {request : GoRequest Id K} {now : K} {wakes : ℕ}
    (hen : s.Enabled (.submit request now wakes)) :
    (s.next (.submit request now wakes)).Covering := by
  obtain ⟨hlock, hwakes⟩ := hen
  refine ⟨h.sound.next ⟨hlock, hwakes⟩ trivial, fun hl => ?_, ?_⟩
  · exact absurd (locked_of_modify (fun _ _ => wake_phase_of_starting) hl) hlock
  have hdepth : (s.engine.submitNew request now).depth = s.engine.depth + 1 := H.size_push
  rcases h.covered with hdue | hcov
  · exact Or.inl (hdue.modify (fun _ hexp => wake_expired.trans hexp)
      (fun _ _ hp => wake_phase_of_returned hp) (List.Subset.refl _))
  rcases hwakes with hparked | hnone
  · obtain ⟨c, hc, hphase⟩ := exists_of_phase? hparked
    rcases hexp : c.expired with - | -
    · refine Or.inr ?_
      show Covered (s.engine.submitNew request now).depth ((s.calls.modify wakes _).map role)
      rw [hdepth, map_modify_eq_set hc, role_wake_of_parked hphase hexp]
      refine hcov.signal ?_
      rw [List.getElem?_map, hc, Option.map_some, role_eq_parked_iff.mpr hphase]
    · refine Or.inl (due_of_watched (h.sound.watched wakes) hc (Or.inr (Or.inl hphase)) ?_)
      exact expired_modify (fun _ hexp => wake_expired.trans hexp) (expired_iff.mpr ⟨c, hc, hexp⟩)
  · refine Or.inr (Covered.of_not_mem fun hmem => ?_)
    obtain ⟨c', hc', hrole⟩ := List.mem_map.mp hmem
    obtain ⟨j, hj⟩ := List.mem_iff_getElem?.mp hc'
    simp only [next, List.getElem?_modify, Option.map_eq_map, Option.map_eq_some_iff] at hj
    obtain ⟨c, hc, rfl⟩ := hj
    rw [role_eq_parked_iff] at hrole
    split at hrole
    · exact wake_phase_ne_parked hrole
    · exact hnone c (List.mem_of_getElem? hc) hrole

/-- A context is done. If its call was on its way to the heap, its watcher
is about to broadcast. -/
theorem expire (h : s.Covering) (i : ℕ) : (s.next (.expire i)).Covering := by
  refine ⟨h.sound.next trivial trivial, fun hl => h.empty ?_, ?_⟩
  · exact locked_of_modify (f := fun c => { c with expired := true }) (fun _ _ hp => hp) hl
  rcases h.covered with hdue | hcov
  · exact Or.inl (hdue.modify (fun _ _ => rfl) (fun _ _ hp => hp) (List.Subset.refl _))
  rcases hc : s.calls[i]? with - | c
  · refine Or.inr ?_
    simp only [next, List.modify_eq_set_getElem?, hc]
    exact hcov
  · by_cases hwoken : c.phase = .woken ∧ c.expired = false
    · refine Or.inl (due_of_watched (h.sound.watched i) hc (Or.inr (Or.inr hwoken)) ?_)
      rw [expired_iff]
      simp only [List.getElem?_modify, hc]
      exact ⟨_, rfl, by simp⟩
    · refine Or.inr ?_
      have hrole : role { c with expired := true } = role c := by
        rcases c with ⟨- | - | - | - | -, - | -⟩ <;> simp_all [role]
      obtain ⟨hlt, hget⟩ := List.getElem?_eq_some_iff.mp hc
      have hset : s.calls.set i c = s.calls := hget ▸ List.set_getElem_self hlt
      show Covered s.engine.depth ((s.calls.modify i _).map role)
      rw [map_modify_eq_set hc, hrole, ← List.map_set, hset]
      exact hcov

/-- The call that holds the mutex registers; it has left the heap empty. -/
theorem wait (h : s.Covering) (hen : s.phase? i = some .starting) :
    (s.next (.wait i)).Covering := by
  obtain ⟨c, hc, hphase⟩ := exists_of_phase? hen
  have hempty : s.engine.depth = 0 := h.empty ⟨c, List.mem_of_getElem? hc, hphase⟩
  refine ⟨h.sound.next hen trivial, fun _ => hempty, Or.inr ?_⟩
  show Covered s.engine.depth _
  rw [hempty]
  exact Covered.zero

/-- A woken call goes on. Where its context is done it leaves, and it was
not counted. -/
theorem resume (h : s.Covering) (hen : s.Enabled (.resume i)) :
    (s.next (.resume i)).Covering := by
  obtain ⟨c, hc, hphase⟩ := exists_of_phase? hen.2
  have hsound := h.sound.next hen trivial
  rw [next] at hsound ⊢
  split
  · rename_i hexp
    rw [if_pos hexp] at hsound
    have hdone : c.expired = true := by
      obtain ⟨c', hc', hdone⟩ := expired_iff.mp hexp
      rw [hc] at hc'
      cases hc'
      exact hdone
    refine ⟨hsound, fun hl => ?_, ?_⟩
    · exact absurd (locked_of_modify (fun _ _ hp => CallPhase.noConfusion hp) hl) hen.1
    · refine h.covered.imp (fun hdue => hdue.abort hexp) fun hcov => ?_
      show Covered s.engine.depth ((s.calls.modify i _).map role)
      rw [map_modify_eq_set hc]
      refine hcov.leave ?_
      rw [List.getElem?_map, hc, Option.map_some, role, hphase, hdone]
      decide
  · rename_i hexp
    rw [if_neg hexp] at hsound
    have hfresh : c.expired = false := by
      by_contra hdone
      exact hexp (expired_iff.mpr ⟨c, hc, by simpa using hdone⟩)
    refine covering_pass hsound hen.1 hc ?_
      (h.covered.imp_left fun hdue => hdue.closeDone (Bool.not_eq_true _ ▸ hexp))
    rw [role, hphase, hfresh]

/-- After a broadcast nobody is parked. -/
theorem broadcast (h : s.Covering) (hen : s.Enabled (.broadcast w))
    (hp : s.Punctual (.broadcast w)) : (s.next (.broadcast w)).Covering := by
  refine ⟨h.sound.next hen hp, fun hl => h.empty ?_, Or.inr (Covered.of_not_mem fun hmem => ?_)⟩
  · obtain ⟨c', hc', hphase⟩ := hl
    obtain ⟨c, hc, rfl⟩ := List.mem_map.mp hc'
    exact ⟨c, hc, wake_phase_of_starting hphase⟩
  · obtain ⟨c', hc', hrole⟩ := List.mem_map.mp hmem
    obtain ⟨c, -, rfl⟩ := List.mem_map.mp hc'
    exact wake_phase_ne_parked (role_eq_parked_iff.mp hrole)

/-- A watcher that ends has nothing to pass on, unless its call has returned
`ctx.Err()`. -/
theorem finish (h : s.Covering) (hen : s.Enabled (.finish w))
    (hserved : s.phase? w.call ≠ some (.returned none)) : (s.next (.finish w)).Covering := by
  refine ⟨h.sound.next hen trivial, h.empty, h.covered.imp_left ?_⟩
  rintro ⟨v, hv, hdue⟩
  refine ⟨v, (List.mem_erase_of_ne ?_).mpr hv, hdue⟩
  rintro rfl
  rcases hdue with hch | ⟨-, hopen | hreturned⟩
  · rw [hen.2.1] at hch
    cases hch
  · rw [hen.2.2] at hopen
    cases hopen
  · exact hserved hreturned

/-- **A step keeps the heap covered.** -/
theorem next {event : GoEvent Id K} (h : s.Covering) (hen : s.Enabled event)
    (ha : s.Attentive event) : (s.next event).Covering := by
  cases event with
  | submit request now wakes => exact h.submit hen
  | cancel id =>
    refine ⟨h.sound.next hen ha, fun hl => absurd hl hen, h.covered.imp_right fun hcov => ?_⟩
    have hdepth : (s.engine.cancel id).1.depth = s.engine.depth := by
      rw [Engine.cancel]
      split <;> rfl
    show Covered (s.engine.cancel id).1.depth _
    rw [hdepth]
    exact hcov
  | call done =>
    refine ⟨h.sound.next hen ha, fun hl => h.empty ?_, ?_⟩
    · obtain ⟨c, hc, hphase⟩ := hl
      rcases List.mem_append.mp hc with hc | hc
      · exact ⟨c, hc, hphase⟩
      · rw [List.mem_singleton.mp hc] at hphase
        cases hphase
    · refine h.covered.imp (fun hdue => ?_) fun hcov => ?_
      · obtain ⟨w, hw, hdue⟩ := hdue
        refine ⟨w, hw, hdue.imp_right fun hdue => ?_⟩
        obtain ⟨c, hc, hdone⟩ := expired_iff.mp hdue.1
        have hold : (s.calls ++ [(⟨.entering, done⟩ : AcquireCall)])[w.call]? =
            s.calls[w.call]? := List.getElem?_append_left (List.getElem?_eq_some_iff.mp hc).1
        refine ⟨expired_iff.mpr ⟨c, hold.trans hc, hdone⟩, hdue.2.imp_right fun hp => ?_⟩
        rw [phase?, GoSystem.next, hold]
        exact hp
      · show Covered s.engine.depth ((s.calls ++ [_]).map role)
        rw [List.map_append]
        exact hcov.arrive
  | expire i => exact h.expire i
  | enter i =>
    obtain ⟨c, hc, hphase⟩ := exists_of_phase? hen.2
    refine covering_pass (h.sound.next hen ha) hen.1 hc ?_ h.covered
    rw [role, hphase]
  | wait i => exact h.wait hen
  | resume i => exact h.resume hen
  | receive w =>
    refine ⟨h.sound.next hen ha, h.empty, Or.inl ⟨_, List.mem_cons_self, Or.inl rfl⟩⟩
  | broadcast w => exact h.broadcast hen ha
  | finish w => exact h.finish hen ha

end Covering

end GoSystem

end VllmScheduler
