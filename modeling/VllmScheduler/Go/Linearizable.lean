import Mathlib.Algebra.Field.Rat
import Mathlib.Algebra.Order.Ring.Rat
import VllmScheduler.Common.LazyRefinement
import VllmScheduler.Go.Wakeups
import VllmScheduler.Queue.Agreement
/-!
# The Go engine is a priority queue to its goroutines

The calls and watchers of `Go/Wakeups.lean` together with the aging loop.
Wake-ups may be lost among them, but nothing is handed out wrongly: in the
order in which the goroutines hold the mutex, what they do to the engine is
a history of the abstract priority queue. The aging loop is no operation at
all, since it writes to request objects and the heap is ordered by copies of
the priorities they were submitted with. Requests of equal length are tied,
so the lengths are taken to be distinct.

A call that is told to give up returns without looking at the heap, which is
no operation either; a pass that finds nothing shows that nothing was live.
-/

namespace VllmScheduler

/-- A step of a goroutine: of a caller or a watcher, or of the aging loop. -/
inductive GoStep (Id K : Type) where
  | event (event : GoEvent Id K)
  | agingTick (now : K)
deriving DecidableEq

/-- What a step shows. -/
inductive GoShown (Id : Type) where
  | nothing
  | submitted
  | cancelled (found : Bool)
  /-- A pass over the heap, and the request it takes. -/
  | passed (id : Option Id)
deriving DecidableEq

namespace GoSystem

variable {Id K : Type} [DecidableEq Id] [Field K] [LinearOrder K] {H : GoHeap ℕ K}

/-- What the pass of an `Acquire` over the heap shows. -/
def shownPass (s : GoSystem Id H) : GoShown Id := .passed (s.engine.acquireItem.2.map s.engine.idOf)

/-- What an event shows. -/
def shown (s : GoSystem Id H) : GoEvent Id K → GoShown Id
  | .submit _ _ _ => .submitted
  | .cancel id => .cancelled (s.engine.cancel id).2
  | .enter _ => s.shownPass
  | .resume i => if s.expired i then .nothing else s.shownPass
  | _ => .nothing

/-- One step; nothing, where it cannot happen. -/
def goStep (s : GoSystem Id H) : GoStep Id K → GoSystem Id H × GoShown Id
  | .event event => if s.Enabled event then (s.next event, s.shown event) else (s, .nothing)
  | .agingTick now =>
    if s.Locked then (s, .nothing) else ({ s with engine := s.engine.agingTick now }, .nothing)

/-- The machine of `goStep`. -/
def goMachine (Id : Type) [DecidableEq Id] (H : GoHeap ℕ K) :
    Machine (GoSystem Id H) (GoStep Id K) (GoShown Id) where
  step := goStep

/-- The id a step submits. -/
def submittedId : GoStep Id K → Option Id
  | .event (.submit request _ _) => some request.id
  | _ => none

/-- The length a step submits. -/
def submittedLength : GoStep Id K → Option K
  | .event (.submit request _ _) =>
    some (effectiveLength request.predictedTokens request.maxTokens)
  | _ => none

/-- The operation a step is, and its answer. -/
def view : GoStep Id K × GoShown Id → Option (LazyOp K Id × LazyAnswer Id)
  | (.event (.submit request _ _), .submitted) =>
    some (.enqueue (effectiveLength request.predictedTokens request.maxTokens) request.id,
      .enqueued)
  | (.event (.cancel id), .cancelled found) => some (.cancel id, .cancelled found)
  | (.event (.enter _), .passed id) => some (.dequeue, .dequeued id)
  | (.event (.resume _), .passed id) => some (.dequeue, .dequeued id)
  | _ => none

omit [DecidableEq Id] in
/-- A step that shows nothing is no operation. -/
theorem view_nothing (a : GoStep Id K) : view (a, (.nothing : GoShown Id)) = none := by
  rcases a with event | now
  · cases event <;> rfl
  · rfl

/-! ## What a step does to the engine -/

/-- The pointer a call has returned. -/
def returnedRef (c : AcquireCall) : Option ℕ :=
  match c.phase with
  | .returned req => req
  | _ => none

/-- The pointers the calls have returned. -/
def returnedRefs (s : GoSystem Id H) : List ℕ := s.calls.filterMap returnedRef

/-- **The cases of a step**: what it does to the engine, and which pointers
the calls have returned after it. -/
inductive Moves (s : GoSystem Id H) : GoStep Id K → GoSystem Id H → GoShown Id → Prop
  | submit {s' : GoSystem Id H} (request : GoRequest Id K) (now : K) (wakes : ℕ) :
      s'.engine = s.engine.submitNew request now → s'.returnedRefs.Perm s.returnedRefs →
      Moves s (.event (.submit request now wakes)) s' .submitted
  | cancel {s' : GoSystem Id H} (id : Id) :
      s'.engine = (s.engine.cancel id).1 → s'.returnedRefs.Perm s.returnedRefs →
      Moves s (.event (.cancel id)) s' (.cancelled (s.engine.cancel id).2)
  /-- An `Acquire` goes over the heap. -/
  | pass {s' : GoSystem Id H} {event : GoEvent Id K} (i : ℕ) :
      event = .enter i ∨ event = .resume i → s'.engine = s.engine.acquireItem.1 →
      s'.returnedRefs.Perm ((s.engine.acquireItem.2.map GoItem.req).toList ++ s.returnedRefs) →
      Moves s (.event event) s' s.shownPass
  | tick {s' : GoSystem Id H} (now : K) :
      s'.engine = s.engine.agingTick now → s'.returnedRefs.Perm s.returnedRefs →
      Moves s (.agingTick now) s' .nothing
  /-- The engine is left alone. -/
  | still {s' : GoSystem Id H} (a : GoStep Id K) :
      s'.engine = s.engine → s'.returnedRefs.Perm s.returnedRefs → Moves s a s' .nothing

variable {s : GoSystem Id H} {i : ℕ}

theorem returnedRef_wake (c : AcquireCall) : returnedRef c.wake = returnedRef c := by
  rw [AcquireCall.wake]
  split
  · rename_i hp
    rw [returnedRef, returnedRef, hp]
  · rfl

omit [DecidableEq Id] [Field K] in
/-- A call that has not returned is moved on. -/
theorem returnedRefs_setPhase {p q : CallPhase} (hq : s.phase? i = some q)
    (hopen : ∀ req, q ≠ .returned req) :
    (s.setPhase i p).returnedRefs.Perm
      ((returnedRef ⟨p, false⟩).toList ++ s.returnedRefs) := by
  obtain ⟨c, hc, hphase⟩ := exists_of_phase? hq
  have hnone : returnedRef c = none := by
    rw [returnedRef, hphase]
    cases q with
    | returned req => exact absurd rfl (hopen req)
    | _ => rfl
  exact filterMap_modify_perm hc hnone

omit [Field K] in
/-- A pass of a call that has not returned. -/
theorem pass_spec {q : CallPhase} (hq : s.phase? i = some q) (hopen : ∀ req, q ≠ .returned req) :
    (s.pass i).engine = s.engine.acquireItem.1 ∧
      (s.pass i).returnedRefs.Perm
        ((s.engine.acquireItem.2.map GoItem.req).toList ++ s.returnedRefs) := by
  rw [pass]
  split
  · rename_i item hitem
    rw [hitem]
    exact ⟨rfl, returnedRefs_setPhase (p := .returned (some item.req)) hq hopen⟩
  · rename_i hnone
    rw [hnone]
    exact ⟨rfl, returnedRefs_setPhase (p := .starting) hq hopen⟩

/-- **Every event is one of the cases.** -/
theorem moves_event {event : GoEvent Id K} (hen : s.Enabled event) :
    s.Moves (.event event) (s.next event) (s.shown event) := by
  cases event with
  | submit request now wakes =>
    refine .submit request now wakes rfl ?_
    rw [returnedRefs, next, filterMap_modify returnedRef_wake]
    rfl
  | cancel id => exact .cancel id rfl (List.Perm.refl _)
  | call expired =>
    refine .still _ rfl ?_
    rw [returnedRefs, next, List.filterMap_append]
    exact List.perm_append_comm
  | expire j =>
    have hsame : (s.calls.modify j fun c => { c with expired := true }).filterMap returnedRef =
        s.calls.filterMap returnedRef := filterMap_modify fun _ => rfl
    refine .still _ rfl ?_
    rw [returnedRefs, next, hsame]
    rfl
  | enter j =>
    obtain ⟨he, hr⟩ := pass_spec hen.2 (fun _ => CallPhase.noConfusion)
    exact .pass j (Or.inl rfl) he hr
  | wait j =>
    refine .still _ rfl ?_
    exact returnedRefs_setPhase (p := .parked) hen (fun _ => CallPhase.noConfusion)
  | resume j =>
    have hphase : (s.closeDone j).phase? j = some .woken := hen.2
    by_cases hexp : s.expired j = true
    · simp only [next, shown, hexp, if_true]
      refine .still _ rfl ?_
      exact returnedRefs_setPhase (p := .returned none) hphase (fun _ => CallPhase.noConfusion)
    · simp only [next, shown, if_neg hexp]
      obtain ⟨he, hr⟩ := pass_spec hphase (fun _ => CallPhase.noConfusion)
      exact .pass j (Or.inr rfl) he hr
  | receive w => exact .still _ rfl (List.Perm.refl _)
  | broadcast w =>
    refine .still _ rfl ?_
    rw [returnedRefs, next, List.filterMap_map]
    have hsame : returnedRef ∘ AcquireCall.wake = returnedRef := funext returnedRef_wake
    rw [hsame]
    rfl
  | finish w => exact .still _ rfl (List.Perm.refl _)

/-- **Every step is one of the cases.** -/
theorem moves_step (a : GoStep Id K) : s.Moves a (s.goStep a).1 (s.goStep a).2 := by
  cases a with
  | event event =>
    rw [goStep]
    split
    · exact moves_event ‹_›
    · exact .still _ rfl (List.Perm.refl _)
  | agingTick now =>
    rw [goStep]
    split
    · exact .still _ rfl (List.Perm.refl _)
    · exact .tick now rfl (List.Perm.refl _)

end GoSystem

/-! ## What the steps are to the queue -/

namespace Engine

variable {Id K : Type} [DecidableEq Id] [Field K] [LinearOrder K] {H : GoHeap ℕ K}
variable {e : Engine Id H} {q : LazyQueue K Id}

/-- `Submit` overwrites the fields a caller leaves empty. -/
theorem submitNew_eq (request : GoRequest Id K) (now : K) :
    e.submitNew request now =
      e.submitNew ⟨request.id, request.prompt, request.maxTokens, request.predictedTokens, 0, 0⟩
        now := by
  have hsub : request.submitted now = GoRequest.submitted
      ⟨request.id, request.prompt, request.maxTokens, request.predictedTokens, 0, 0⟩ now := by
    unfold GoRequest.submitted
    dsimp only
    split <;> rfl
  simp only [submitNew, submit, Function.update_self, Function.update_idem, hsub]

theorem Stands.submitNew (h : e.Stands q) (request : GoRequest Id K) (now : K) :
    (e.submitNew request now).Stands
      (q.enqueue (effectiveLength request.predictedTokens request.maxTokens) request.id) := by
  obtain ⟨rfl, ha⟩ := h
  rw [submitNew_eq]
  exact stands_submitNew ha _ _ _ _ now

omit [Field K] in
theorem Stands.cancel (h : e.Stands q) (id : Id) :
    ∃ q', LazyQueue.Step q (.cancel id) (.cancelled (e.cancel id).2) q' ∧
      (e.cancel id).1.Stands q' := by
  obtain ⟨rfl, ha⟩ := h
  by_cases hl : id ∈ e.pending
  · simp only [Engine.cancel, if_pos hl]
    exact ⟨_, .cancel hl, rfl, ha⟩
  · simp only [Engine.cancel, if_neg hl]
    exact ⟨_, .miss hl, rfl, ha⟩

omit [DecidableEq Id] in
/-- The aging loop writes to objects, and to none of their ids. -/
theorem agingTick_id (now : K) (ref : ℕ) :
    ((e.agingTick now).objects ref).id = (e.objects ref).id := by
  unfold agingTick
  dsimp only
  split <;> rfl

omit [DecidableEq Id] in
theorem Stands.agingTick (h : e.Stands q) (now : K) : (e.agingTick now).Stands q := by
  obtain ⟨rfl, ha⟩ := h
  refine ⟨?_, ha⟩
  have hentry : (e.agingTick now).entry = e.entry := by
    funext item
    rw [entry, entry, idOf, idOf, agingTick_id]
  rw [lazy, hentry]
  rfl

omit [Field K] in
theorem Stands.acquireItem (h : e.Stands q) :
    ∃ q', LazyQueue.Dequeues q (e.acquireItem.2.map e.idOf) q' ∧ e.acquireItem.1.Stands q' := by
  obtain ⟨rfl, ha⟩ := h
  exact dequeues ha

end Engine

namespace GoSystem

variable {Id K : Type} [DecidableEq Id] [Field K] [LinearOrder K] {H : GoHeap ℕ K}
variable {s s' : GoSystem Id H} {a : GoStep Id K} {out : GoShown Id}

/-- **What the goroutines do is done to the queue, one operation after the
other.** -/
theorem linearizes :
    LazyQueue.Linearizes (goMachine Id H) view (fun _ _ => True) fun s q => s.engine.Stands q := by
  intro s q a _ h
  have hcase := s.moves_step a
  have hstep : (goMachine Id H).step s a = s.goStep a := rfl
  rw [hstep]
  generalize s.goStep a = r at hcase ⊢
  obtain ⟨s', out⟩ := r
  dsimp only at hcase ⊢
  cases hcase with
  | submit request now wakes he _ => exact ⟨_, .enqueue, he ▸ h.submitNew request now⟩
  | cancel id he _ =>
    obtain ⟨q', hs, hstands⟩ := h.cancel id
    exact ⟨q', hs, he ▸ hstands⟩
  | pass i hevent he _ =>
    obtain ⟨q', hd, hstands⟩ := h.acquireItem
    rcases hevent with rfl | rfl
    · exact ⟨q', .dequeue hd, he ▸ hstands⟩
    · exact ⟨q', .dequeue hd, he ▸ hstands⟩
  | tick now he _ => exact he ▸ h.agingTick now
  | still a he _ =>
    rw [view_nothing]
    exact he ▸ h

/-- What a step brings into the queue is what it submits, if it can
happen. -/
theorem Moves.brings (h : s.Moves a s' out) :
    (LazyQueue.idsIn (view (a, out)).toList).Sublist (submittedId a).toList ∧
      (LazyQueue.prioritiesIn (view (a, out)).toList).Sublist (submittedLength a).toList := by
  cases h with
  | pass i hevent _ _ =>
    rcases hevent with rfl | rfl <;> exact ⟨List.Sublist.refl _, List.Sublist.refl _⟩
  | still a _ _ =>
    rcases a with event | now
    · cases event <;> exact ⟨List.nil_sublist _, List.nil_sublist _⟩
    · exact ⟨List.nil_sublist _, List.nil_sublist _⟩
  | _ => exact ⟨List.Sublist.refl _, List.Sublist.refl _⟩

variable {as : List (GoStep Id K)}

/-- What a run brings into the queue is among what it submits. -/
theorem brings_log :
    (LazyQueue.idsIn (LazyQueue.operations view ((goMachine Id H).log s as))).Sublist
        (as.filterMap submittedId) ∧
      (LazyQueue.prioritiesIn (LazyQueue.operations view ((goMachine Id H).log s as))).Sublist
        (as.filterMap submittedLength) := by
  induction as generalizing s with
  | nil => exact ⟨List.Sublist.refl _, List.Sublist.refl _⟩
  | cons a as ih =>
    obtain ⟨hids, hprios⟩ := (s.moves_step a).brings
    obtain ⟨hids', hprios'⟩ := ih (s := (s.goStep a).1)
    have hops : LazyQueue.operations view ((goMachine Id H).log s (a :: as)) =
        (view (a, (s.goStep a).2)).toList ++
          LazyQueue.operations view ((goMachine Id H).log (s.goStep a).1 as) :=
      filterMap_cons_toList
    constructor
    · rw [hops, LazyQueue.idsIn, List.filterMap_append, filterMap_cons_toList]
      exact hids.append hids'
    · rw [hops, LazyQueue.prioritiesIn, List.filterMap_append, filterMap_cons_toList]
      exact hprios.append hprios'

/-! ## What the calls return -/

/-- The ids of the requests the calls have returned. -/
def returnedIds (s : GoSystem Id H) : List Id :=
  s.returnedRefs.map fun ref => (s.engine.objects ref).id

/-- The pointers returned and the pointers in the heap lead to requests that
were submitted. -/
structure Known (s : GoSystem Id H) : Prop where
  heap : s.engine.Allocated
  returned : ∀ ref ∈ s.returnedRefs, ref < s.engine.scheduled

omit [DecidableEq Id] [Field K] in
/-- The ids of the same pointers, to objects with the same ids. -/
theorem returnedIds_perm {refs : List ℕ} (hrefs : s'.returnedRefs.Perm refs)
    (hobj : ∀ ref ∈ refs, (s'.engine.objects ref).id = (s.engine.objects ref).id) :
    s'.returnedIds.Perm (refs.map fun ref => (s.engine.objects ref).id) := by
  have hmap := hrefs.map fun ref => (s'.engine.objects ref).id
  rwa [List.map_congr_left hobj] at hmap

omit [DecidableEq Id] [Field K] in
/-- A step that allocates nothing. -/
theorem Known.of_frame (hk : s.Known) (hsched : s'.engine.scheduled = s.engine.scheduled)
    (hitems : ∀ item ∈ s'.engine.items, item ∈ s.engine.items)
    (hrefs : ∀ ref ∈ s'.returnedRefs, ref < s.engine.scheduled) : s'.Known where
  heap item hitem := by
    rw [hsched]
    exact hk.heap item (hitems item hitem)
  returned ref href := by
    rw [hsched]
    exact hrefs ref href

/-- **What the calls have returned** is what a step takes and what they had
returned before. -/
theorem Moves.returns (h : s.Moves a s' out) (hk : s.Known) :
    s'.Known ∧ s'.returnedIds.Perm
      (LazyQueue.takenIds (view (a, out)).toList ++ s.returnedIds) := by
  have hold : s'.returnedRefs.Perm s.returnedRefs →
      ∀ ref ∈ s'.returnedRefs, ref < s.engine.scheduled :=
    fun hr ref href => hk.returned ref (hr.subset href)
  cases h with
  | submit request now wakes he hr =>
    refine ⟨⟨he ▸ Engine.allocated_submitNew request now hk.heap, ?_⟩, ?_⟩
    · intro ref href
      rw [he]
      exact (hold hr ref href).trans (Nat.lt_succ_self _)
    · refine returnedIds_perm hr fun ref href => ?_
      rw [he, Engine.objects_submitNew,
        Function.update_of_ne (hk.returned ref href).ne]
  | cancel id he hr =>
    obtain ⟨hobj, hsched, hitems⟩ := s.engine.cancel_frame id
    refine ⟨hk.of_frame (by rw [he, hsched]) (fun item hitem => ?_) (hold hr),
      returnedIds_perm hr fun ref _ => by rw [he, hobj]⟩
    rwa [he, hitems] at hitem
  | pass i hevent he hr =>
    obtain ⟨hsched, hitems⟩ := s.engine.acquireItem_frame
    refine ⟨hk.of_frame (by rw [he, hsched]) (he ▸ hitems) fun ref href => ?_, ?_⟩
    · rcases List.mem_append.mp (hr.subset href) with hnew | hold
      · obtain ⟨item, hitem, rfl⟩ := Option.map_eq_some_iff.mp (Option.mem_toList.mp hnew)
        exact hk.heap item (Engine.acquireLoop_some hitem).1
      · exact hk.returned ref hold
    · have hperm := returnedIds_perm (s := s) hr fun ref _ => by
        rw [he, Engine.objects_acquireItem]
      rw [List.map_append] at hperm
      refine hperm.trans (List.Perm.append_right _ ?_)
      rcases hevent with rfl | rfl <;>
      · rw [shownPass]
        cases s.engine.acquireItem.2 <;> exact List.Perm.refl _
  | tick now he hr =>
    refine ⟨hk.of_frame (by rw [he]; rfl) (fun item hitem => ?_) (hold hr),
      returnedIds_perm hr fun ref _ => by rw [he, Engine.agingTick_id]⟩
    rwa [he] at hitem
  | still a he hr =>
    rw [view_nothing]
    exact ⟨hk.of_frame (by rw [he]) (fun item hitem => he ▸ hitem) (hold hr),
      returnedIds_perm hr fun ref _ => by rw [he]⟩

variable {objects : ℕ → GoRequest Id K}

/-- **What the calls have returned is what the history takes.** -/
theorem returned_perm_taken :
    ((goMachine Id H).run (init H objects) as).returnedIds.Perm
      (LazyQueue.takenIds
        (LazyQueue.operations view ((goMachine Id H).log (init H objects) as))) := by
  have hinit : (init H objects : GoSystem Id H).Known := by
    refine ⟨fun item hitem => ?_, fun ref href => absurd href List.not_mem_nil⟩
    have hzero : (init H objects : GoSystem Id H).engine.items = 0 := Engine.items_newEngine
    rw [hzero] at hitem
    exact absurd hitem (Multiset.notMem_zero item)
  refine (Machine.log_inv (M := goMachine Id H) (s := init H objects) (H := fun _ => True)
    (I := fun _ log s => s.Known ∧ s.returnedIds.Perm
      (LazyQueue.takenIds (LazyQueue.operations view log))) (fun _ _ _ => trivial)
    ⟨hinit, List.Perm.refl _⟩ ?_ trivial).2
  rintro as a - ⟨hk, hperm⟩
  set s := (goMachine Id H).run (init H objects) as
  obtain ⟨hk', hperm'⟩ := (s.moves_step a).returns hk
  refine ⟨hk', hperm'.trans ?_⟩
  rw [LazyQueue.operations, filterMap_snoc, LazyQueue.takenIds_append]
  exact List.perm_append_comm.trans (hperm.append_right _)

/-- **The Go engine is a priority queue to its goroutines.** Let any number
of goroutines submit requests of distinct ids and lengths, cancel and
acquire, with contexts that end at any time, watchers that broadcast and the
aging loop. In the order in which they hold the mutex their operations are a
history of the abstract priority queue: an `Acquire` takes the shortest
request that is neither taken nor cancelled, and finds nothing only if there
is none. What the calls have returned is what the history takes, no request
twice. -/
theorem goroutines_linearizable (hids : (as.filterMap submittedId).Nodup)
    (hlengths : (as.filterMap submittedLength).Nodup) :
    Serves Prod.snd id 0
        (LazyQueue.history
          (LazyQueue.operations view ((goMachine Id H).log (init H objects) as))) ∧
      ((goMachine Id H).run (init H objects) as).returnedIds.Perm
        (LazyQueue.takenIds
          (LazyQueue.operations view ((goMachine Id H).log (init H objects) as))) ∧
      ((goMachine Id H).run (init H objects) as).returnedIds.Nodup := by
  set ops := LazyQueue.operations view ((goMachine Id H).log (init H objects) as)
  obtain ⟨hin, hprio⟩ : (LazyQueue.idsIn ops).Sublist (as.filterMap submittedId) ∧
      (LazyQueue.prioritiesIn ops).Sublist (as.filterMap submittedLength) := brings_log
  have hstands : (init H objects : GoSystem Id H).engine.Stands LazyQueue.init := by
    refine ⟨?_, fun item hitem => ?_⟩
    · rw [Engine.lazy, init, Engine.items_newEngine, Engine.newEngine, Dict.ids_empty]
      rfl
    · rw [init, Engine.items_newEngine] at hitem
      exact absurd hitem (Multiset.notMem_zero item)
  have hserves : Serves Prod.snd id (LazyQueue.init : LazyQueue K Id).live
      (LazyQueue.history ops) := by
    refine LazyQueue.serves_of_linearizes linearizes
      (Machine.along_of_forall fun _ _ _ => trivial) hstands LazyQueue.sound_init ?_ ?_
    · simpa [LazyQueue.entryIds, LazyQueue.init] using hids.sublist hin
    · simpa [LazyQueue.init] using hlengths.sublist hprio
  rw [LazyQueue.live_init] at hserves
  refine ⟨hserves, returned_perm_taken, ?_⟩
  exact returned_perm_taken.nodup_iff.mpr
    (LazyQueue.nodup_takenIds hserves (hids.sublist hin))

/-- A request of the demonstrations. -/
def demoRequest (i : String) (tokens : ℚ) : GoRequest String ℚ := ⟨i, "", 128, tokens, 0, 0⟩

/-- A call parks and is woken by a submission. Before it has the mutex a
shorter request comes in and the loop ages both; the second one is taken and
the first one is cancelled. -/
def contestedRun : List (GoStep String ℚ) :=
  [.event (.call false), .event (.enter 0), .event (.wait 0),
    .event (.submit (demoRequest "a" 10) 1 0), .event (.submit (demoRequest "b" 5) 2 0),
    .agingTick 100, .event (.resume 0), .event (.cancel "a"), .event (.call false),
    .event (.enter 1)]

/-- The one call returns the shorter request, and the other one parks. -/
theorem contestedRun_linearizable :
    ((goMachine String (listHeap GoItem.priority)).run
        (init _ fun _ => demoRequest "" 0) contestedRun).returnedIds = ["b"] ∧
      Serves Prod.snd id 0 (LazyQueue.history (LazyQueue.operations view
        ((goMachine String (listHeap GoItem.priority)).log
          (init _ fun _ => demoRequest "" 0) contestedRun))) :=
  ⟨by decide +kernel, (goroutines_linearizable (by decide +kernel) (by decide +kernel)).1⟩

end GoSystem

end VllmScheduler
