import VllmScheduler.Common.LazyQueue
import VllmScheduler.Common.PriorityBag
/-!
# Lazy deletion refines the abstract priority queue

A queue with lazy deletion holds entries whose removal has been answered
already. Its live entries are those without a tombstone. Where ids are
distinct every operation does to the live entries what the abstract queue of
`Common/PriorityBag.lean` does to its items: an entry dropped on the way is
not live, so a dequeue shows as one take of the least live entry.

A machine may share the queue among many callers, most of whose steps are
not operations on it. `Linearizes` is what has to be shown of one step of
such a machine; `serves_of_linearizes` is what then holds of all its runs.
-/

namespace VllmScheduler

universe u v w

namespace LazyQueue

variable {L : Type u} {ι : Type v} [LinearOrder L] [DecidableEq ι]

/-- The ids of the entries. -/
def entryIds (q : LazyQueue L ι) : Multiset ι := q.entries.map Prod.snd

/-- The entries without a tombstone, as id and priority. -/
def live (q : LazyQueue L ι) : Multiset (ι × L) :=
  (q.entries.filter fun e => e.2 ∉ q.cancelled).map Prod.swap

/-- A queue in which no id and no priority occurs twice, a cancel finds what
is there, and every tombstone has its entry. -/
structure Sound (q : LazyQueue L ι) : Prop where
  distinct : q.entryIds.Nodup
  priorities : (q.entries.map Prod.fst).Nodup
  listed : ∀ i, i ∈ q.listed ↔ i ∈ q.entryIds
  tombstones : ∀ i ∈ q.cancelled, i ∈ q.entryIds

variable {q q' : LazyQueue L ι} {x : L × ι} {rest : Multiset (L × ι)} {i : ι} {p : L}

omit [LinearOrder L] in
theorem mem_live {b : ι × L} :
    b ∈ q.live ↔ (b.2, b.1) ∈ q.entries ∧ b.1 ∉ q.cancelled := by
  unfold live
  constructor
  · intro hb
    obtain ⟨e, he, rfl⟩ := Multiset.mem_map.mp hb
    exact Multiset.mem_filter.mp he
  · rintro ⟨hmem, hc⟩
    exact Multiset.mem_map.mpr ⟨(b.2, b.1), Multiset.mem_filter.mpr ⟨hmem, hc⟩, rfl⟩

omit [LinearOrder L] [DecidableEq ι] in
theorem sound_init : (init : LazyQueue L ι).Sound where
  distinct := by simp [init, entryIds]
  priorities := by simp [init]
  listed := fun i => by simp [init, entryIds]
  tombstones := fun i hi => absurd hi (Finset.notMem_empty i)

omit [LinearOrder L] in
@[simp] theorem live_init : (init : LazyQueue L ι).live = 0 := by simp [init, live]

/-! ## What a pop does to the live entries -/

omit [LinearOrder L] in
/-- Filtering twice, by what has a tombstone and by one id. -/
theorem filter_ne_live :
    q.live.filter (fun b => b.1 ≠ i) =
      ((q.entries.filter fun e => e.2 ∉ q.cancelled ∧ e.2 ≠ i).map Prod.swap) := by
  rw [live, Multiset.filter_map, Multiset.filter_filter]
  refine congrArg (Multiset.map Prod.swap) (Multiset.filter_congr fun e _ => ?_)
  exact and_comm

omit [DecidableEq ι] in
/-- What is left beside a popped entry has other ids. -/
theorem ne_of_pops (h : q.entryIds.Nodup) (hpop : Pops q.entries x rest) {e : L × ι}
    (he : e ∈ rest) : e.2 ≠ x.2 := by
  rw [entryIds, hpop.1, Multiset.map_cons, Multiset.nodup_cons] at h
  exact fun heq => h.1 (heq ▸ Multiset.mem_map_of_mem Prod.snd he)

/-- An entry with a tombstone is not live, so dropping it shows nowhere. -/
theorem live_purge (h : q.entryIds.Nodup) (hpop : Pops q.entries x rest)
    (hc : x.2 ∈ q.cancelled) : (q.purge x.2 rest).live = q.live := by
  rw [live, live, hpop.1,
    Multiset.filter_cons_of_neg (p := fun e : L × ι => e.2 ∉ q.cancelled) _ (not_not.mpr hc)]
  refine congrArg (Multiset.map Prod.swap) (Multiset.filter_congr fun e he => ?_)
  rw [LazyQueue.purge, Finset.mem_erase, not_and]
  exact ⟨fun hn => hn (ne_of_pops h hpop he), fun hn _ => hn⟩

/-- An entry that is handed out leaves the live ones. -/
theorem live_serve (h : q.entryIds.Nodup) (hpop : Pops q.entries x rest) :
    (q.serve x.2 rest).live = q.live.filter fun b => b.1 ≠ x.2 := by
  rw [filter_ne_live, live, hpop.1, Multiset.filter_cons_of_neg _ (by simp)]
  refine congrArg (Multiset.map Prod.swap) (Multiset.filter_congr fun e he => ?_)
  exact ⟨fun hn => ⟨hn, ne_of_pops h hpop he⟩, And.left⟩

theorem mem_live_of_pops (hpop : Pops q.entries x rest) (hc : x.2 ∉ q.cancelled) :
    (x.2, x.1) ∈ q.live := by
  rw [mem_live, hpop.1]
  exact ⟨Multiset.mem_cons_self _ _, hc⟩

/-- A popped entry is least among the live ones. -/
theorem le_of_pops (hpop : Pops q.entries x rest) {b : ι × L} (hb : b ∈ q.live) : x.1 ≤ b.2 := by
  obtain ⟨hb, -⟩ := mem_live.mp hb
  rw [hpop.1, Multiset.mem_cons] at hb
  rcases hb with heq | hb
  · rw [← heq]
  · exact hpop.2 _ hb

/-- **A dequeue hands out a least live entry**, and only that one goes.
Priorities may be tied. -/
theorem Dequeues.least_live (hd : Dequeues q (some i) q') (h : q.entryIds.Nodup) :
    ∃ p, (i, p) ∈ q.live ∧ (∀ b ∈ q.live, p ≤ b.2) ∧
      q'.live = q.live.filter fun b => b.1 ≠ i := by
  generalize hout : some i = out at hd
  induction hd with
  | empty => cases hout
  | @purge v v' x rest out hpop hc _ ih =>
    have hrest : (v.purge x.2 rest).entryIds.Nodup := by
      rw [entryIds, hpop.1, Multiset.map_cons, Multiset.nodup_cons] at h
      exact h.2
    have := ih hrest hout
    rwa [live_purge h hpop hc] at this
  | @serve v x rest hpop hc =>
    cases hout
    exact ⟨x.1, mem_live_of_pops hpop hc, fun b hb => le_of_pops hpop hb, live_serve h hpop⟩

/-- The same of the things the entries are read from: one of those without a
tombstone whose priority is least, and all the others stay. -/
theorem Dequeues.least_of_map {α : Type*} {entry : α → L × ι} {items items' : Multiset α}
    {listed listed' : Set ι} {c c' : Finset ι}
    (hd : Dequeues ⟨items.map entry, listed, c⟩ (some i) ⟨items'.map entry, listed', c'⟩)
    (hids : (items.map fun a => (entry a).2).Nodup) (hsub : ∀ y ∈ items', y ∈ items) :
    ∃ x ∈ items, (entry x).2 = i ∧ i ∉ c ∧
      (∀ y ∈ items, (entry y).2 ∉ c → (entry x).1 ≤ (entry y).1) ∧
      ∀ y, y ∈ items' ∧ (entry y).2 ∉ c' ↔ (y ∈ items ∧ (entry y).2 ∉ c) ∧ y ≠ x := by
  have hinj : ∀ a ∈ items, ∀ b ∈ items, (entry a).2 = (entry b).2 → a = b :=
    Multiset.inj_on_of_nodup_map hids
  obtain ⟨p, hmem, hleast, hlive⟩ :=
    hd.least_live (by rw [entryIds, Multiset.map_map]; exact hids)
  obtain ⟨hin, hc⟩ := mem_live.mp hmem
  obtain ⟨x, hx, hentry⟩ := Multiset.mem_map.mp hin
  have hkey : (entry x).1 = p := congrArg Prod.fst hentry
  have hid : (entry x).2 = i := congrArg Prod.snd hentry
  refine ⟨x, hx, hid, hc, fun y hy hyc => ?_, fun y => ?_⟩
  · rw [hkey]
    exact hleast ((entry y).2, (entry y).1)
      (mem_live.mpr ⟨Multiset.mem_map_of_mem entry hy, hyc⟩)
  · -- being live before and after differ by the id handed out
    have hafter : ∀ b : ι × L, ((b.2, b.1) ∈ items'.map entry ∧ b.1 ∉ c') ↔
        ((b.2, b.1) ∈ items.map entry ∧ b.1 ∉ c) ∧ b.1 ≠ i := by
      intro b
      have hb : b ∈ (⟨items'.map entry, listed', c'⟩ : LazyQueue L ι).live ↔
          b ∈ (⟨items.map entry, listed, c⟩ : LazyQueue L ι).live ∧ b.1 ≠ i := by
        rw [hlive, Multiset.mem_filter]
      rwa [mem_live, mem_live] at hb
    constructor
    · rintro ⟨hy, hyc⟩
      obtain ⟨⟨-, hyc⟩, hne⟩ := (hafter ((entry y).2, (entry y).1)).mp
        ⟨Multiset.mem_map_of_mem entry hy, hyc⟩
      refine ⟨⟨hsub y hy, hyc⟩, ?_⟩
      rintro rfl
      exact hne hid
    · rintro ⟨⟨hy, hyc⟩, hne⟩
      have hyi : (entry y).2 ≠ i := fun heq => hne (hinj y hy x hx (heq.trans hid.symm))
      obtain ⟨hin', hyc'⟩ := (hafter ((entry y).2, (entry y).1)).mpr
        ⟨⟨Multiset.mem_map_of_mem entry hy, hyc⟩, hyi⟩
      obtain ⟨z, hz, hzy⟩ := Multiset.mem_map.mp hin'
      have : z = y := hinj z (hsub z hz) y hy (congrArg Prod.snd hzy)
      exact ⟨this ▸ hz, hyc'⟩

/-! ## The operations -/

namespace Sound

omit [LinearOrder L] [DecidableEq ι] in
theorem enqueue (h : q.Sound) (hi : i ∉ q.entryIds) (hp : p ∉ q.entries.map Prod.fst) :
    (q.enqueue p i).Sound where
  distinct := by
    rw [entryIds, LazyQueue.enqueue, Multiset.map_cons, Multiset.nodup_cons]
    exact ⟨hi, h.distinct⟩
  priorities := by
    rw [LazyQueue.enqueue, Multiset.map_cons, Multiset.nodup_cons]
    exact ⟨hp, h.priorities⟩
  listed := fun j => by
    rw [entryIds, LazyQueue.enqueue, Multiset.map_cons, Multiset.mem_cons, Set.mem_insert_iff,
      h.listed]
    rfl
  tombstones := fun j hj => by
    rw [entryIds, LazyQueue.enqueue, Multiset.map_cons, Multiset.mem_cons]
    exact Or.inr (h.tombstones j hj)

omit [LinearOrder L] in
theorem live_enqueue (h : ∀ i ∈ q.cancelled, i ∈ q.entryIds) (hi : i ∉ q.entryIds) :
    (q.enqueue p i).live = (i, p) ::ₘ q.live := by
  have hc : i ∉ q.cancelled := fun hc => hi (h i hc)
  show (((p, i) ::ₘ q.entries).filter fun e => e.2 ∉ q.cancelled).map Prod.swap = _
  rw [Multiset.filter_cons_of_pos (p := fun e : L × ι => e.2 ∉ q.cancelled) _ hc,
    Multiset.map_cons]
  rfl

omit [LinearOrder L] in
theorem mark (h : q.Sound) (hi : i ∈ q.listed) : (q.mark i).Sound where
  distinct := h.distinct
  priorities := h.priorities
  listed := h.listed
  tombstones := fun j hj => by
    rcases Finset.mem_insert.mp hj with rfl | hj
    · exact (h.listed j).mp hi
    · exact h.tombstones j hj

omit [LinearOrder L] in
theorem live_mark : (q.mark i).live = q.live.filter fun b => b.1 ≠ i := by
  rw [filter_ne_live, live, LazyQueue.mark]
  refine congrArg (Multiset.map Prod.swap) (Multiset.filter_congr fun e _ => ?_)
  rw [Finset.mem_insert, not_or, and_comm]

omit [DecidableEq ι] in
/-- What is left beside a popped entry has other ids and priorities. -/
theorem of_pops (h : q.Sound) (hpop : Pops q.entries x rest) :
    (rest.map Prod.snd).Nodup ∧ (rest.map Prod.fst).Nodup ∧ x.2 ∉ rest.map Prod.snd ∧
      x.1 ∉ rest.map Prod.fst ∧ ∀ i, i ∈ q.entryIds ↔ i = x.2 ∨ i ∈ rest.map Prod.snd := by
  have hids := h.distinct
  have hprio := h.priorities
  rw [entryIds, hpop.1, Multiset.map_cons, Multiset.nodup_cons] at hids
  rw [hpop.1, Multiset.map_cons, Multiset.nodup_cons] at hprio
  refine ⟨hids.2, hprio.2, hids.1, hprio.1, fun i => ?_⟩
  rw [entryIds, hpop.1, Multiset.map_cons, Multiset.mem_cons]

/-- An entry is dropped: nobody sees it. -/
theorem purge (h : q.Sound) (hpop : Pops q.entries x rest) (hc : x.2 ∈ q.cancelled) :
    (q.purge x.2 rest).Sound ∧ (q.purge x.2 rest).live = q.live := by
  obtain ⟨hids, hprio, hx, -, hmem⟩ := h.of_pops hpop
  refine ⟨⟨hids, hprio, fun i => ?_, fun i hi => ?_⟩, live_purge h.distinct hpop hc⟩
  · rw [LazyQueue.purge, Set.mem_sdiff, Set.mem_singleton_iff, h.listed, hmem]
    constructor
    · rintro ⟨hi | hi, hne⟩
      · exact absurd hi hne
      · exact hi
    · intro hi
      refine ⟨Or.inr hi, ?_⟩
      rintro rfl
      exact hx hi
  · obtain ⟨hne, hi⟩ := Finset.mem_erase.mp hi
    exact ((hmem i).mp (h.tombstones i hi)).resolve_left hne

/-- An entry is handed out: it was live, and least. -/
theorem serve (h : q.Sound) (hpop : Pops q.entries x rest) (hc : x.2 ∉ q.cancelled) :
    (q.serve x.2 rest).Sound ∧
      (q.serve x.2 rest).live = q.live.filter (fun b => b.1 ≠ x.2) ∧
      (x.2, x.1) ∈ q.live ∧ ∀ b ∈ q.live, b ≠ (x.2, x.1) → x.1 < b.2 := by
  obtain ⟨hids, hprio, hx, hx', hmem⟩ := h.of_pops hpop
  refine ⟨⟨hids, hprio, fun i => ?_, fun i hi => ?_⟩, live_serve h.distinct hpop,
    mem_live_of_pops hpop hc, fun b hb hne => ?_⟩
  · rw [LazyQueue.serve, Set.mem_sdiff, Set.mem_singleton_iff, h.listed, hmem]
    constructor
    · rintro ⟨hi | hi, hne⟩
      · exact absurd hi hne
      · exact hi
    · intro hi
      refine ⟨Or.inr hi, ?_⟩
      rintro rfl
      exact hx hi
  · refine ((hmem i).mp (h.tombstones i hi)).resolve_left ?_
    rintro rfl
    exact hc hi
  · obtain ⟨hb, -⟩ := mem_live.mp hb
    rw [hpop.1, Multiset.mem_cons] at hb
    have hb' : (b.2, b.1) ∈ rest := by
      refine hb.resolve_left fun heq => hne ?_
      rw [← heq]
    refine lt_of_le_of_ne (hpop.2 _ hb') fun heq => hx' ?_
    rw [heq]
    exact Multiset.mem_map_of_mem Prod.fst hb'

end Sound

/-- What an observer sees of an operation and its answer. -/
def event : LazyOp L ι → LazyAnswer ι → Option (BagEvent ι L ι)
  | .enqueue priority id, .enqueued => some (.inserted (id, priority))
  | .cancel id, .cancelled found => some (.removed id found)
  | .dequeue, .dequeued (some id) => some (.taken id)
  | .dequeue, .dequeued none => some .empty
  | _, _ => none

/-- **A dequeue is one take.** -/
theorem Dequeues.take {out : Option ι} (hd : Dequeues q out q') (h : q.Sound) :
    q'.Sound ∧ ∃ e : BagEvent ι L ι, event (L := L) .dequeue (.dequeued out) = some e ∧
      e.Allowed Prod.snd id q.live ∧ q'.live = e.after id q.live := by
  induction hd with
  | @empty v hzero =>
    have hlive : v.live = 0 := by rw [live, hzero, Multiset.filter_zero, Multiset.map_zero]
    exact ⟨h, .empty, rfl, hlive, rfl⟩
  | purge hpop hc _ ih =>
    obtain ⟨hsound, hlive⟩ := h.purge hpop hc
    have := ih hsound
    rwa [hlive] at this
  | serve hpop hc =>
    obtain ⟨hsound, hlive, hmem, hleast⟩ := h.serve hpop hc
    exact ⟨hsound, .taken _, rfl, ⟨_, hmem, hleast⟩, hlive⟩

/-- A dequeue that finds nothing leaves nothing. -/
theorem Dequeues.entries_of_none (h : Dequeues q none q') : q'.entries = 0 := by
  generalize hout : (none : Option ι) = out at h
  induction h with
  | empty hzero => exact hzero
  | purge _ _ _ ih => exact ih hout
  | serve => cases hout

/-- One that hands an entry out has taken it. -/
theorem Dequeues.card_of_some (h : Dequeues q (some i) q') :
    Multiset.card q'.entries + 1 ≤ Multiset.card q.entries := by
  generalize hout : some i = out at h
  induction h with
  | empty => cases hout
  | purge hpop _ _ ih => exact (ih hout).trans (Multiset.card_le_card hpop.le)
  | serve hpop => exact (congrArg Multiset.card hpop.1).trans (Multiset.card_cons _ _) |>.ge

/-- The id an operation brings in. -/
def insertedId : LazyOp L ι → Option ι
  | .enqueue _ id => some id
  | _ => none

/-- **An operation is one event**, allowed where it happens. -/
theorem Step.served {op : LazyOp L ι} {a : LazyAnswer ι} (hs : Step q op a q') (h : q.Sound)
    (hid : ∀ i, insertedId op = some i → i ∉ q.entryIds)
    (hprio : ∀ p, op.priority = some p → p ∉ q.entries.map Prod.fst) :
    q'.Sound ∧ ∃ e : BagEvent ι L ι, event op a = some e ∧
      e.Allowed Prod.snd id q.live ∧ q'.live = e.after id q.live := by
  cases hs with
  | @enqueue priority i =>
    have hnew := hid i rfl
    exact ⟨h.enqueue hnew (hprio priority rfl), .inserted (i, priority), rfl, trivial,
      Sound.live_enqueue h.tombstones hnew⟩
  | @cancel i hl => exact ⟨h.mark hl, .removed i true, rfl, fun _ => rfl, Sound.live_mark⟩
  | @miss i hl =>
    refine ⟨h, .removed i false, rfl, ?_, rfl⟩
    rintro ⟨b, hb, rfl⟩
    refine absurd ((h.listed b.1).mpr ?_) hl
    exact Multiset.mem_map.mpr ⟨_, (mem_live.mp hb).1, rfl⟩
  | dequeue hd => exact hd.take h

/-- A step brings in no id but the operation's own. -/
theorem Step.entryIds_le {op : LazyOp L ι} {a : LazyAnswer ι} (h : Step q op a q') :
    q'.entryIds ≤ ((insertedId op).toList : Multiset ι) + q.entryIds := by
  cases h with
  | enqueue => exact le_of_eq (Multiset.map_cons _ _ _)
  | cancel => exact Multiset.le_add_left _ _
  | miss => exact Multiset.le_add_left _ _
  | dequeue hd => exact (Multiset.map_le_map hd.le).trans (Multiset.le_add_left _ _)

/-! ## Machines that share the queue -/

section Linearizes

variable {σ : Type*} {α : Type*} {β : Type*}

/-- A machine linearizes to the queue where every step that meets the guard
`G`, from a state that stands for a queue, is one operation on the queue or
none of them, as `view` tells from what the step shows. -/
def Linearizes (M : Machine σ α β) (view : α × β → Option (LazyOp L ι × LazyAnswer ι))
    (G : σ → α → Prop) (R : σ → LazyQueue L ι → Prop) : Prop :=
  ∀ s q a, G s a → R s q →
    match view (a, (M.step s a).2) with
    | none => R (M.step s a).1 q
    | some (op, answer) => ∃ q', Step q op answer q' ∧ R (M.step s a).1 q'

/-- The operations of a log, in the order they took effect. -/
def operations (view : α × β → Option (LazyOp L ι × LazyAnswer ι)) (log : List (α × β)) :
    List (LazyOp L ι × LazyAnswer ι) :=
  log.filterMap view

/-- What an observer sees of them. -/
def history (ops : List (LazyOp L ι × LazyAnswer ι)) : List (BagEvent ι L ι) :=
  ops.filterMap fun e => event e.1 e.2

/-- The ids they bring in. -/
def idsIn (ops : List (LazyOp L ι × LazyAnswer ι)) : List ι :=
  ops.filterMap fun e => insertedId e.1

/-- The priorities they bring in. -/
def prioritiesIn (ops : List (LazyOp L ι × LazyAnswer ι)) : List L :=
  ops.filterMap fun e => e.1.priority

/-- The ids they take out. -/
def takenIds (ops : List (LazyOp L ι × LazyAnswer ι)) : List ι := takenValues (history ops)

variable {ops more : List (LazyOp L ι × LazyAnswer ι)}

omit [LinearOrder L] [DecidableEq ι] in
theorem takenIds_append : takenIds (ops ++ more) = takenIds ops ++ takenIds more := by
  rw [takenIds, history, List.filterMap_append, takenValues, List.filterMap_append]
  rfl

omit [LinearOrder L] [DecidableEq ι] in
/-- What an observer sees come in is brought in by an operation. -/
theorem insertedIds_history_sublist : (insertedIds id (history ops)).Sublist (idsIn ops) := by
  induction ops with
  | nil => exact List.Sublist.refl _
  | cons e ops ih =>
    rw [insertedIds, history, filterMap_cons_toList, List.filterMap_append, idsIn,
      filterMap_cons_toList]
    refine List.Sublist.append ?_ ih
    obtain ⟨op, answer⟩ := e
    cases op <;> rcases answer with - | found | - | i <;>
      first | exact List.Sublist.refl _ | exact List.nil_sublist _

/-- **No id is taken twice** where none comes in twice. -/
theorem nodup_takenIds (h : Serves Prod.snd id 0 (history ops)) (hids : (idsIn ops).Nodup) :
    (takenIds ops).Nodup := by
  have hnd := nodup_takenValues h (hids.sublist insertedIds_history_sublist)
    (fun a ha => absurd ha (Multiset.notMem_zero a))
  rwa [List.map_id] at hnd

omit [LinearOrder L] [DecidableEq ι] in
theorem idsIn_cons {e : LazyOp L ι × LazyAnswer ι} :
    idsIn (e :: ops) = (insertedId e.1).toList ++ idsIn ops :=
  filterMap_cons_toList

omit [LinearOrder L] [DecidableEq ι] in
theorem prioritiesIn_cons {e : LazyOp L ι × LazyAnswer ι} :
    prioritiesIn (e :: ops) = e.1.priority.toList ++ prioritiesIn ops :=
  filterMap_cons_toList

/-- What comes in first is not there yet. -/
theorem not_mem_of_nodup {γ : Type*} {held : Multiset γ} {o : Option γ} {l : List γ}
    (h : (held + (o.toList ++ l : List γ)).Nodup) : ∀ x, o = some x → x ∉ held := by
  rintro x rfl hmem
  refine Multiset.disjoint_left.mp (Multiset.nodup_add.mp h).2.2 hmem ?_
  simp

/-- What is there after it and still to come was there or to come before. -/
theorem nodup_of_le_add {γ : Type*} {held held' : Multiset γ} {o : Option γ} {l : List γ}
    (h : (held + (o.toList ++ l : List γ)).Nodup)
    (hle : held' ≤ (o.toList : Multiset γ) + held) : (held' + (l : Multiset γ)).Nodup := by
  refine Multiset.nodup_of_le ?_ h
  rw [← Multiset.coe_add, ← Multiset.add_assoc, Multiset.add_comm held]
  exact Multiset.add_le_add_right hle

/-- **The history of a machine that linearizes to the queue is served.** The
ids and the priorities that come in are distinct from each other and from
those of the entries at the start. -/
theorem serves_of_linearizes {M : Machine σ α β}
    {view : α × β → Option (LazyOp L ι × LazyAnswer ι)} {G : σ → α → Prop}
    {R : σ → LazyQueue L ι → Prop} (hM : Linearizes M view G R) {s : σ} {as : List α}
    (hG : M.Along G s as) (hR : R s q) (h : q.Sound)
    (hids : (q.entryIds + (idsIn (operations view (M.log s as)) : Multiset ι)).Nodup)
    (hprios : (q.entries.map Prod.fst +
      (prioritiesIn (operations view (M.log s as)) : Multiset L)).Nodup) :
    Serves Prod.snd id q.live (history (operations view (M.log s as))) := by
  induction as generalizing s q with
  | nil => trivial
  | cons a as ih =>
    have hstep := hM s q a hG.1 hR
    rw [Machine.log_cons] at hids hprios ⊢
    rcases hv : view (a, (M.step s a).2) with - | ⟨op, answer⟩
    · -- not an operation on the queue
      rw [hv] at hstep
      have hops : operations view ((a, (M.step s a).2) :: M.log (M.step s a).1 as) =
          operations view (M.log (M.step s a).1 as) := List.filterMap_cons_none hv
      rw [hops] at hids hprios ⊢
      exact ih hG.2 hstep h hids hprios
    · rw [hv] at hstep
      obtain ⟨q', hs, hR'⟩ := hstep
      have hops : operations view ((a, (M.step s a).2) :: M.log (M.step s a).1 as) =
          (op, answer) :: operations view (M.log (M.step s a).1 as) :=
        List.filterMap_cons_some hv
      rw [hops] at hids hprios ⊢
      rw [idsIn_cons] at hids
      rw [prioritiesIn_cons] at hprios
      obtain ⟨hsound, e, he, hallowed, hlive⟩ :=
        hs.served h (not_mem_of_nodup hids) (not_mem_of_nodup hprios)
      have hhist : history ((op, answer) :: operations view (M.log (M.step s a).1 as)) =
          e :: history (operations view (M.log (M.step s a).1 as)) :=
        List.filterMap_cons_some he
      rw [hhist]
      refine ⟨hallowed, ?_⟩
      rw [← hlive]
      exact ih hG.2 hR' hsound (nodup_of_le_add hids hs.entryIds_le)
        (nodup_of_le_add hprios hs.map_fst_le)

end Linearizes

end LazyQueue

end VllmScheduler
