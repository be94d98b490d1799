import VllmScheduler.Queue.PriorityQueue
/-!
# The entries of the priority queue

How each method of the queue changes the bag of heap entries, and what
that means for the three structures the queue keeps in step. `Linked` is
the relation between `_pending` and the heap that every run keeps, whatever
the ids. `copies` counts the entries of one id: a dequeue that returns the
id takes one of them, and `update_priority` is the only method that adds
one to an id already listed.
-/

namespace VllmScheduler

/-- One where the option names the value, else nothing. -/
def hit {α : Type} [DecidableEq α] (a : α) (o : Option α) : ℕ := if o = some a then 1 else 0

theorem count_filterMap_snoc {α β : Type} [DecidableEq α] {f : β → Option α} {l : List β}
    {b : β} (a : α) :
    ((l ++ [b]).filterMap f).count a = (l.filterMap f).count a + hit a (f b) := by
  rw [List.filterMap_append, List.count_append]
  rcases h : f b with - | c
  · simp [h, hit]
  · simp [h, hit, List.count_singleton, beq_iff_eq]

namespace PriorityQueue

variable {Id K P : Type} [DecidableEq Id] [LinearOrder K] {H : Heapq Id K P}

/-- The heap entries of a queue. -/
def entries (q : PriorityQueue H) : Multiset (PrioritizedItem Id K P) := H.bag q.heap

section Effects

variable {q : PriorityQueue H} {item : PrioritizedItem Id K P} {heap : H.Carrier}
variable {i : Id} {now p : K} {x : P}

omit [DecidableEq Id] in
@[simp] theorem entries_init : (init H).entries = 0 := H.bag_empty

@[simp] theorem entries_enqueue :
    (q.enqueue now i p x).entries = ⟨p, now, i, x⟩ ::ₘ q.entries :=
  H.bag_push _ _

omit [DecidableEq Id] in
theorem depth_eq : q.depth = Multiset.card q.entries := rfl

theorem entries_eq_of_purge (hpop : H.pop q.heap = some (item, heap)) :
    q.entries = item ::ₘ (q.purge item heap).entries :=
  H.pop_some hpop

theorem entries_eq_of_serve [Field K] (now : K) (hpop : H.pop q.heap = some (item, heap)) :
    q.entries = item ::ₘ (q.serve now item heap).entries :=
  H.pop_some hpop

@[simp] theorem heap_cancel : (q.cancel i).1.heap = q.heap := by
  unfold cancel
  split <;> rfl

@[simp] theorem entries_cancel : (q.cancel i).1.entries = q.entries := by
  rw [entries, heap_cancel]
  rfl

@[simp] theorem pending_cancel : (q.cancel i).1.pending = q.pending := by
  unfold cancel
  split <;> rfl

theorem cancel_eq_true_iff : (q.cancel i).2 = true ↔ i ∈ q.pending := by
  unfold cancel
  split <;> simp_all

theorem cancelled_cancel (h : i ∈ q.pending) :
    (q.cancel i).1.cancelled = insert i q.cancelled := by
  rw [cancel, if_pos h]

theorem cancel_of_not_mem (h : i ∉ q.pending) : q.cancel i = (q, false) := by
  rw [cancel, if_neg h]

/-- The tombstones after a cancel: one more, where the id is listed. -/
theorem mem_cancelled_cancel {j : Id} :
    j ∈ (q.cancel i).1.cancelled ↔ j ∈ q.cancelled ∨ j = i ∧ i ∈ q.pending := by
  by_cases h : i ∈ q.pending
  · rw [cancelled_cancel h, Finset.mem_insert, or_comm, and_iff_left h]
  · rw [cancel_of_not_mem h]
    exact ⟨Or.inl, fun hj => hj.resolve_right fun hi => h hi.2⟩

/-- Where the tombstones are of listed ids, a cancel keeps that. -/
theorem tombstoned_cancel (h : ∀ {j}, j ∈ q.cancelled → j ∈ q.pending) {j : Id}
    (hj : j ∈ (q.cancel i).1.cancelled) : j ∈ (q.cancel i).1.pending := by
  rw [pending_cancel]
  rcases mem_cancelled_cancel.mp hj with hj | ⟨rfl, hi⟩
  · exact h hj
  · exact hi

theorem cancelled_subset_cancel : q.cancelled ⊆ (q.cancel i).1.cancelled :=
  fun _ hj => mem_cancelled_cancel.mpr (Or.inl hj)

theorem updatePriority_of_none (h : q.pending.get? i = none) :
    q.updatePriority i p = (q, false) := by
  rw [updatePriority, h]

/-- The entry a successful `update_priority` adds. -/
theorem entries_updatePriority (h : q.pending.get? i = some item) :
    (q.updatePriority i p).1.entries =
      ⟨p, item.enqueueTime, i, item.payload⟩ ::ₘ q.entries := by
  rw [updatePriority, h]
  exact H.bag_push _ _

theorem pending_updatePriority (h : q.pending.get? i = some item) :
    (q.updatePriority i p).1.pending =
      q.pending.set i ⟨p, item.enqueueTime, i, item.payload⟩ := by
  rw [updatePriority, h]

theorem cancelled_updatePriority (h : q.pending.get? i = some item) :
    (q.updatePriority i p).1.cancelled = q.cancelled.erase i := by
  rw [updatePriority, h]
  exact Finset.erase_insert_eq_erase q.cancelled i

end Effects

/-! ## What `_pending` lists -/

/-- An item listed under an id carries that id and is one of the heap's
entries. -/
structure Listed (q : PriorityQueue H) : Prop where
  requestId_eq : ∀ {i item}, q.pending.get? i = some item → item.requestId = i
  mem_entries : ∀ {i item}, q.pending.get? i = some item → item ∈ q.entries

section Listed

variable {q q' : PriorityQueue H} {item : PrioritizedItem Id K P} {i : Id}

theorem listed_init : (init H).Listed where
  requestId_eq := fun h => by simp [init] at h
  mem_entries := fun h => by simp [init] at h

/-- Setting the id of an entry just pushed keeps the link. -/
theorem Listed.push (hq : q.Listed) (hi : item.requestId = i)
    (hent : q'.entries = item ::ₘ q.entries) (hpend : q'.pending = q.pending.set i item) :
    q'.Listed where
  requestId_eq := fun {j y} h => by
    rw [hpend] at h
    by_cases hj : j = i
    · subst hj
      rw [Dict.get?_set_self] at h
      rw [← Option.some.inj h, hi]
    · rw [Dict.get?_set_of_ne hj] at h
      exact hq.requestId_eq h
  mem_entries := fun {j y} h => by
    rw [hpend] at h
    rw [hent, Multiset.mem_cons]
    by_cases hj : j = i
    · subst hj
      rw [Dict.get?_set_self] at h
      exact Or.inl (Option.some.inj h).symm
    · rw [Dict.get?_set_of_ne hj] at h
      exact Or.inr (hq.mem_entries h)

/-- Deleting the id of an entry just popped keeps the link: what is left
in `_pending` has other ids, so it was not the entry popped. -/
theorem Listed.pop (hq : q.Listed) (hent : q.entries = item ::ₘ q'.entries)
    (hpend : q'.pending = q.pending.erase item.requestId) : q'.Listed where
  requestId_eq := fun {j y} h => hq.requestId_eq (Dict.get?_of_get?_erase (hpend ▸ h))
  mem_entries := fun {j y} h => by
    rw [hpend] at h
    have hget := Dict.get?_of_get?_erase h
    have hmem := hq.mem_entries hget
    rw [hent, Multiset.mem_cons] at hmem
    rcases hmem with rfl | hmem
    · rw [hq.requestId_eq hget, Dict.get?_erase_self] at h
      cases h
    · exact hmem

theorem Listed.cancel (hq : q.Listed) : (q.cancel i).1.Listed where
  requestId_eq := fun h => hq.requestId_eq (by rwa [pending_cancel] at h)
  mem_entries := fun h => by
    rw [entries_cancel]
    exact hq.mem_entries (by rwa [pending_cancel] at h)

end Listed

/-- **What ties `_pending` to the heap.** An item listed under an id
carries that id and is one of the heap's entries; and every entry's
payload, read by `tag`, names the entry's id. -/
structure Linked (q : PriorityQueue H) (tag : P → Id) : Prop where
  requestId_eq : ∀ {i item}, q.pending.get? i = some item → item.requestId = i
  mem_entries : ∀ {i item}, q.pending.get? i = some item → item ∈ q.entries
  tag_eq : ∀ {item}, item ∈ q.entries → tag item.payload = item.requestId

section Linked

variable {q q' : PriorityQueue H} {tag : P → Id} {item : PrioritizedItem Id K P}
variable {i : Id} {now p : K} {x : P}

theorem Linked.listed (hq : q.Linked tag) : q.Listed := ⟨hq.requestId_eq, hq.mem_entries⟩

theorem Listed.linked (hq : q.Listed)
    (ht : ∀ {item}, item ∈ q.entries → tag item.payload = item.requestId) : q.Linked tag :=
  ⟨hq.requestId_eq, hq.mem_entries, ht⟩

theorem linked_init : (init H).Linked tag := listed_init.linked fun h => by simp at h

theorem Linked.push (hq : q.Linked tag) (hi : item.requestId = i) (ht : tag item.payload = i)
    (hent : q'.entries = item ::ₘ q.entries) (hpend : q'.pending = q.pending.set i item) :
    q'.Linked tag := by
  refine (hq.listed.push hi hent hpend).linked fun {y} h => ?_
  rw [hent, Multiset.mem_cons] at h
  rcases h with rfl | h
  · rw [ht, hi]
  · exact hq.tag_eq h

theorem Linked.pop (hq : q.Linked tag) (hent : q.entries = item ::ₘ q'.entries)
    (hpend : q'.pending = q.pending.erase item.requestId) : q'.Linked tag :=
  (hq.listed.pop hent hpend).linked fun h =>
    hq.tag_eq (by rw [hent]; exact Multiset.mem_cons_of_mem h)

theorem Linked.enqueue (hq : q.Linked tag) (ht : tag x = i) :
    (q.enqueue now i p x).Linked tag :=
  hq.push rfl ht entries_enqueue rfl

theorem Linked.dequeue [Field K] (hq : q.Linked tag) : (q.dequeue now).1.Linked tag :=
  dequeue_inv (I := fun r => r.Linked tag)
    (fun _ _ _ hpop _ h => h.pop (entries_eq_of_purge hpop) rfl)
    (fun _ _ _ hpop _ h => h.pop (entries_eq_of_serve now hpop) rfl) hq

theorem Linked.cancel (hq : q.Linked tag) : (q.cancel i).1.Linked tag :=
  hq.listed.cancel.linked fun h => hq.tag_eq (by rwa [entries_cancel] at h)

theorem Linked.updatePriority (hq : q.Linked tag) : (q.updatePriority i p).1.Linked tag := by
  rcases hget : q.pending.get? i with - | old
  · rw [updatePriority_of_none hget]
    exact hq
  · have htag : tag old.payload = i := by
      rw [hq.tag_eq (hq.mem_entries hget), hq.requestId_eq hget]
    exact hq.push rfl htag (entries_updatePriority hget) (pending_updatePriority hget)

end Linked

/-! ## What a dequeue leaves -/

/-- `r` is `q` with some entries, listings and tombstones taken out. -/
structure Trimmed (q r : PriorityQueue H) : Prop where
  entries_subset : ∀ {item}, item ∈ r.entries → item ∈ q.entries
  get?_of_get? : ∀ {i item}, r.pending.get? i = some item → q.pending.get? i = some item
  cancelled_subset : r.cancelled ⊆ q.cancelled

section Trimmed

variable {q r t : PriorityQueue H} {tag : P → Id} {item x : PrioritizedItem Id K P}
variable {i : Id} {now : K}

theorem Trimmed.refl : Trimmed q q := ⟨id, id, Finset.Subset.refl _⟩

theorem Trimmed.trans (h : Trimmed q r) (h' : Trimmed r t) : Trimmed q t :=
  ⟨fun hm => h.entries_subset (h'.entries_subset hm), fun hg => h.get?_of_get? (h'.get?_of_get? hg),
    h'.cancelled_subset.trans h.cancelled_subset⟩

theorem trimmed_purge {heap : H.Carrier} (hpop : H.pop q.heap = some (item, heap)) :
    Trimmed q (q.purge item heap) where
  entries_subset := fun hm => by
    rw [entries_eq_of_purge hpop]
    exact Multiset.mem_cons_of_mem hm
  get?_of_get? := Dict.get?_of_get?_erase
  cancelled_subset := Finset.erase_subset _ _

theorem trimmed_serve [Field K] {heap : H.Carrier} (now : K)
    (hpop : H.pop q.heap = some (item, heap)) : Trimmed q (q.serve now item heap) where
  entries_subset := fun hm => by
    rw [entries_eq_of_serve now hpop]
    exact Multiset.mem_cons_of_mem hm
  get?_of_get? := Dict.get?_of_get?_erase
  cancelled_subset := Finset.Subset.refl _

/-- The purges of a dequeue trim the queue and do not touch an id without a
tombstone. -/
theorem Purges.trimmed (h : Purges q r) :
    Trimmed q r ∧ ∀ i ∉ q.cancelled, r.pending.get? i = q.pending.get? i := by
  refine h.inv (I := fun t => Trimmed q t ∧
    ∀ i ∉ q.cancelled, t.pending.get? i = q.pending.get? i) ?_ ⟨Trimmed.refl, fun _ _ => rfl⟩
  rintro t item heap hpop hc ⟨htrim, hget⟩
  refine ⟨htrim.trans (trimmed_purge hpop), fun i hi => ?_⟩
  have hne : i ≠ item.requestId := by
    rintro rfl
    exact hi (htrim.cancelled_subset hc)
  rw [purge, Dict.get?_erase_of_ne hne, hget i hi]

theorem trimmed_dequeue [Field K] (q : PriorityQueue H) (now : K) :
    Trimmed q (q.dequeue now).1 := by
  rcases q.dequeue_cases now with ⟨r, hr, -, heq⟩ | ⟨r, item, heap, hr, hpop, -, heq⟩
  · rw [heq]
    exact hr.trimmed.1
  · rw [heq]
    exact hr.trimmed.1.trans (trimmed_serve now hpop)

/-- A dequeue that does not return an id without a tombstone leaves it
listed. -/
theorem get?_dequeue [Field K] (hi : i ∉ q.cancelled)
    (hne : (q.dequeue now).2.map PrioritizedItem.requestId ≠ some i) :
    (q.dequeue now).1.pending.get? i = q.pending.get? i := by
  rcases q.dequeue_cases now with ⟨r, hr, -, heq⟩ | ⟨r, item, heap, hr, hpop, -, heq⟩
  · rw [heq]
    exact hr.trimmed.2 i hi
  · rw [heq] at hne ⊢
    have hij : i ≠ item.requestId := by
      rintro rfl
      exact hne rfl
    rw [serve, Dict.get?_erase_of_ne hij]
    exact hr.trimmed.2 i hi

/-- A dequeue does not list what it returns any more, nor anything new. -/
theorem mem_pending_of_dequeue [Field K] (h : i ∈ (q.dequeue now).1.pending) :
    i ∈ q.pending ∧ (q.dequeue now).2.map PrioritizedItem.requestId ≠ some i := by
  obtain ⟨item, hget⟩ := Dict.mem_iff_exists.mp h
  refine ⟨Dict.mem_iff_exists.mpr ⟨item, (q.trimmed_dequeue now).get?_of_get? hget⟩, ?_⟩
  rcases q.dequeue_cases now with ⟨r, -, -, heq⟩ | ⟨r, item', heap, -, -, -, heq⟩
  · rw [heq]
    nofun
  · rw [heq] at hget ⊢
    intro hid
    rw [← Option.some.inj hid, serve, Dict.get?_erase_self] at hget
    cases hget

/-- **What a dequeue returns** is an entry, and no listed entry without a
tombstone comes before it. -/
theorem key_le_of_dequeue [Field K] (hq : q.Linked tag) (h : (q.dequeue now).2 = some item) :
    item ∈ q.entries ∧ ∀ {i x}, q.pending.get? i = some x → i ∉ q.cancelled →
      item.key ≤ x.key := by
  rcases q.dequeue_cases now with ⟨r, -, -, heq⟩ | ⟨r, item', heap, hr, hpop, -, heq⟩
  · rw [heq] at h
    cases h
  · rw [heq] at h
    obtain rfl := Option.some.inj h
    obtain ⟨htrim, hget⟩ := hr.trimmed
    have hlink : r.Linked tag := hr.inv (I := fun r => r.Linked tag)
      (fun _ _ _ hp _ hl => hl.pop (entries_eq_of_purge hp) rfl) hq
    refine ⟨htrim.entries_subset (H.mem_of_pop hpop), fun {i x} hx hi => ?_⟩
    -- the listed entry has survived the purges, so it was there to be popped
    have hx' : r.pending.get? i = some x := (hget i hi).trans hx
    exact H.key_le_of_pop hpop (hlink.mem_entries hx')

end Trimmed

/-! ## A queue nothing is cancelled in -/

section Untombstoned

variable {q : PriorityQueue H}

/-- Without tombstones nothing is purged. -/
theorem Purges.eq_of_empty {r : PriorityQueue H} (h : Purges q r) (hc : q.cancelled = ∅) :
    r = q := by
  cases h with
  | refl => rfl
  | step _ hmem _ =>
    rw [hc] at hmem
    exact absurd hmem (Finset.notMem_empty _)

/-- **Without tombstones a dequeue pops**: it finds the heap empty, or takes
a least entry. -/
theorem dequeue_of_empty [Field K] (hc : q.cancelled = ∅) (now : K) :
    (q.entries = 0 ∧ q.dequeue now = (q, none)) ∨
      ∃ q' item, q.dequeue now = (q', some item) ∧ q.entries = item ::ₘ q'.entries ∧
        q'.cancelled = ∅ ∧ q'.pending = q.pending.erase item.requestId ∧
        ∀ y ∈ q.entries, item.key ≤ y.key := by
  rcases q.dequeue_cases now with ⟨r, hr, hbag, heq⟩ | ⟨r, item, heap, hr, hpop, -, heq⟩
  · obtain rfl := hr.eq_of_empty hc
    exact Or.inl ⟨hbag, heq⟩
  · obtain rfl := hr.eq_of_empty hc
    exact Or.inr ⟨_, item, heq, entries_eq_of_serve now hpop, hc, rfl,
      fun y hy => H.key_le_of_pop hpop hy⟩

end Untombstoned

/-! ## The entries of one id -/

/-- How many entries the heap holds for an id. -/
def copies (q : PriorityQueue H) (i : Id) : ℕ :=
  q.entries.countP fun item => item.requestId = i

section Copies

variable {q : PriorityQueue H} {tag : P → Id} {item : PrioritizedItem Id K P}
variable {i j : Id} {now p : K} {x : P}

@[simp] theorem copies_init : (init H).copies i = 0 := by simp [copies]

theorem copies_enqueue (q : PriorityQueue H) (now : K) (i j : Id) (p : K) (x : P) :
    (q.enqueue now j p x).copies i = q.copies i + hit i (some j) := by
  simp [copies, hit, Multiset.countP_cons]

@[simp] theorem copies_cancel : (q.cancel j).1.copies i = q.copies i := by simp [copies]

theorem copies_updatePriority_of_ne (h : i ≠ j) :
    (q.updatePriority j p).1.copies i = q.copies i := by
  rcases hget : q.pending.get? j with - | old
  · rw [updatePriority_of_none hget]
  · rw [copies, entries_updatePriority hget, Multiset.countP_cons, if_neg (Ne.symm h)]
    rfl

theorem copies_of_purge {heap : H.Carrier} (hpop : H.pop q.heap = some (item, heap)) :
    q.copies i = (q.purge item heap).copies i + hit i (some item.requestId) := by
  rw [copies, entries_eq_of_purge hpop, Multiset.countP_cons]
  simp [copies, hit]

theorem copies_of_serve [Field K] {heap : H.Carrier} (now : K)
    (hpop : H.pop q.heap = some (item, heap)) :
    q.copies i = (q.serve now item heap).copies i + hit i (some item.requestId) := by
  rw [copies, entries_eq_of_serve now hpop, Multiset.countP_cons]
  simp [copies, hit]

theorem one_le_copies (h : item ∈ q.entries) (hi : item.requestId = i) : 1 ≤ q.copies i :=
  Multiset.countP_pos.mpr ⟨item, h, hi⟩

/-- **A dequeue takes a copy of what it returns**, and adds none. -/
theorem copies_dequeue [Field K] (q : PriorityQueue H) (now : K) (i : Id) :
    (q.dequeue now).1.copies i + hit i ((q.dequeue now).2.map PrioritizedItem.requestId) ≤
      q.copies i := by
  have hpurged : ∀ {q' : PriorityQueue H}, Purges q q' → q'.copies i ≤ q.copies i := by
    intro q' hq'
    refine hq'.inv (I := fun r => r.copies i ≤ q.copies i) ?_ le_rfl
    intro r item heap hpop _ hr
    have := copies_of_purge (i := i) hpop
    omega
  rcases q.dequeue_cases now with ⟨q', hq', -, heq⟩ | ⟨q', item, heap, hq', hpop, -, heq⟩
  · rw [heq]
    exact hpurged hq'
  · rw [heq]
    have hle := hpurged hq'
    have := copies_of_serve (i := i) now hpop
    simp only [Option.map_some]
    omega

/-- **An id with a tombstone and one entry is never returned.** What a
dequeue leaves is the tombstone and its entry, or neither. -/
theorem dequeue_of_tombstone [Field K] (now : K)
    (h : (i ∈ q.cancelled ∧ q.copies i ≤ 1) ∨ q.copies i = 0) :
    (((q.dequeue now).1.copies i ≤ 1 ∧ i ∈ (q.dequeue now).1.cancelled) ∨
      (q.dequeue now).1.copies i = 0) ∧
      (q.dequeue now).2.map PrioritizedItem.requestId ≠ some i := by
  have hpurged : ∀ {q' : PriorityQueue H}, Purges q q' →
      (i ∈ q'.cancelled ∧ q'.copies i ≤ 1) ∨ q'.copies i = 0 := by
    intro q' hq'
    refine hq'.inv (I := fun r => (i ∈ r.cancelled ∧ r.copies i ≤ 1) ∨ r.copies i = 0) ?_ h
    intro r item heap hpop _ hr
    have hc := copies_of_purge (i := i) hpop
    by_cases hi : item.requestId = i
    · -- the purge that takes the tombstone down takes the one entry with it
      rw [hi, hit, if_pos rfl] at hc
      refine Or.inr ?_
      rcases hr with ⟨-, hr⟩ | hr <;> omega
    · rw [hit, if_neg (by simpa using hi)] at hc
      rcases hr with ⟨hcan, hr⟩ | hr
      · exact Or.inl ⟨Finset.mem_erase.mpr ⟨Ne.symm hi, hcan⟩, by omega⟩
      · exact Or.inr (by omega)
  rcases q.dequeue_cases now with ⟨q', hq', -, heq⟩ | ⟨q', item, heap, hq', hpop, hnc, heq⟩
  · rw [heq]
    refine ⟨?_, by simp⟩
    rcases hpurged hq' with hr | hr
    · exact Or.inl hr.symm
    · exact Or.inr hr
  · rw [heq]
    have hc := copies_of_serve (i := i) now hpop
    have hne : item.requestId ≠ i := by
      rintro rfl
      rw [hit, if_pos rfl] at hc
      rcases hpurged hq' with ⟨hcan, -⟩ | hr
      · exact hnc hcan
      · omega
    rw [hit, if_neg (by simpa using hne)] at hc
    refine ⟨?_, by simpa using hne⟩
    dsimp only
    rcases hpurged hq' with ⟨hcan, hr⟩ | hr
    · exact Or.inl ⟨by omega, hcan⟩
    · exact Or.inr (by omega)

end Copies

end PriorityQueue

end VllmScheduler
