import Mathlib.Data.Finset.Basic
import Mathlib.Data.Multiset.UnionInter
import Mathlib.Data.Multiset.MapFold
import Mathlib.Data.Set.Insert
import VllmScheduler.Common.Heap
import VllmScheduler.Common.Machine
/-!
# Priority queues with lazy deletion

A queue that answers a cancel by putting up a tombstone for the id and lets
a later dequeue drop an entry of that id when it comes to it. What such a
queue is, apart from any layout: a bag of entries, the ids it lists, and
its tombstones. Ids may repeat; a tombstone is spent on the first entry of
its id that a dequeue meets.

A step is a relation, since a dequeue may take any least entry. Where the
priorities are pairwise distinct it is a function (`Step.det`), so that two
machines that implement the queue cannot be told apart by their answers
(`log_eq_of_implements`).
-/

namespace VllmScheduler

universe u v w

/-- The state of a queue with lazy deletion. -/
structure LazyQueue (L : Type u) (ι : Type v) where
  /-- The entries, as priority and id. -/
  entries : Multiset (L × ι)
  /-- The ids a cancel finds. -/
  listed : Set ι
  /-- The tombstones. -/
  cancelled : Finset ι

/-- The operations. -/
inductive LazyOp (L : Type u) (ι : Type v) where
  | enqueue (priority : L) (id : ι)
  | cancel (id : ι)
  | dequeue

/-- The answers. -/
inductive LazyAnswer (ι : Type v) where
  | enqueued
  | cancelled (found : Bool)
  | dequeued (id : Option ι)
  deriving DecidableEq, Repr

/-- The priority an operation brings in. -/
def LazyOp.priority {L : Type u} {ι : Type v} : LazyOp L ι → Option L
  | .enqueue priority _ => some priority
  | .cancel _ => none
  | .dequeue => none

namespace LazyQueue

variable {L : Type u} {ι : Type v} [LinearOrder L] [DecidableEq ι]

/-- The queue without entries. -/
def init : LazyQueue L ι := ⟨0, ∅, ∅⟩

/-- A new entry. -/
def enqueue (v : LazyQueue L ι) (priority : L) (id : ι) : LazyQueue L ι :=
  ⟨(priority, id) ::ₘ v.entries, insert id v.listed, v.cancelled⟩

/-- A tombstone. -/
def mark (v : LazyQueue L ι) (id : ι) : LazyQueue L ι :=
  { v with cancelled := insert id v.cancelled }

/-- An entry is dropped, and the tombstone of its id is spent. -/
def purge (v : LazyQueue L ι) (id : ι) (rest : Multiset (L × ι)) : LazyQueue L ι :=
  ⟨rest, v.listed \ {id}, v.cancelled.erase id⟩

/-- An entry is handed out. -/
def serve (v : LazyQueue L ι) (id : ι) (rest : Multiset (L × ι)) : LazyQueue L ι :=
  ⟨rest, v.listed \ {id}, v.cancelled⟩

/-- `x` is a least entry and `rest` are the others. -/
def Pops (entries : Multiset (L × ι)) (x : L × ι) (rest : Multiset (L × ι)) : Prop :=
  entries = x ::ₘ rest ∧ ∀ y ∈ rest, x.1 ≤ y.1

/-- A dequeue drops entries until it meets one without a tombstone. -/
inductive Dequeues : LazyQueue L ι → Option ι → LazyQueue L ι → Prop
  | empty {v : LazyQueue L ι} : v.entries = 0 → Dequeues v none v
  | purge {v v' : LazyQueue L ι} {x : L × ι} {rest : Multiset (L × ι)} {out : Option ι} :
      Pops v.entries x rest → x.2 ∈ v.cancelled → Dequeues (v.purge x.2 rest) out v' →
      Dequeues v out v'
  | serve {v : LazyQueue L ι} {x : L × ι} {rest : Multiset (L × ι)} :
      Pops v.entries x rest → x.2 ∉ v.cancelled → Dequeues v (some x.2) (v.serve x.2 rest)

/-- One operation. -/
inductive Step : LazyQueue L ι → LazyOp L ι → LazyAnswer ι → LazyQueue L ι → Prop
  | enqueue {v : LazyQueue L ι} {priority : L} {id : ι} :
      Step v (.enqueue priority id) .enqueued (v.enqueue priority id)
  | cancel {v : LazyQueue L ι} {id : ι} :
      id ∈ v.listed → Step v (.cancel id) (.cancelled true) (v.mark id)
  | miss {v : LazyQueue L ι} {id : ι} :
      id ∉ v.listed → Step v (.cancel id) (.cancelled false) v
  | dequeue {v v' : LazyQueue L ι} {out : Option ι} :
      Dequeues v out v' → Step v .dequeue (.dequeued out) v'

variable {v v₁ v₂ v' : LazyQueue L ι} {op : LazyOp L ι} {x y : L × ι}
variable {entries rest rest' : Multiset (L × ι)}

/-! ## Determinism -/

omit [DecidableEq ι] in
/-- Among distinct priorities there is one least entry. -/
theorem Pops.det (hnd : (entries.map Prod.fst).Nodup) (h₁ : Pops entries x rest)
    (h₂ : Pops entries y rest') : x = y ∧ rest = rest' := by
  obtain ⟨rfl, hx⟩ := h₁
  obtain ⟨heq, hy⟩ := h₂
  have hxy : x = y := by
    by_contra hne
    have hmemx : x ∈ rest' := by
      have : x ∈ y ::ₘ rest' := heq ▸ Multiset.mem_cons_self x rest
      exact (Multiset.mem_cons.mp this).resolve_left hne
    have hmemy : y ∈ rest := by
      have : y ∈ x ::ₘ rest := heq ▸ Multiset.mem_cons_self y rest'
      exact (Multiset.mem_cons.mp this).resolve_left (Ne.symm hne)
    -- each of the two is at most the other, so they share their priority
    have hprio : x.1 = y.1 := le_antisymm (hx y hmemy) (hy x hmemx)
    rw [Multiset.map_cons, Multiset.nodup_cons] at hnd
    exact hnd.1 (hprio ▸ Multiset.mem_map_of_mem Prod.fst hmemy)
  subst hxy
  exact ⟨rfl, (Multiset.cons_inj_right x).mp heq⟩

omit [DecidableEq ι] in
theorem Pops.le (h : Pops entries x rest) : rest ≤ entries := by
  rw [h.1]
  exact Multiset.le_cons_self rest x

omit [DecidableEq ι] in
theorem Pops.ne_zero (h : Pops entries x rest) : entries ≠ 0 := by
  rw [h.1]
  exact Multiset.cons_ne_zero

omit [LinearOrder L] [DecidableEq ι] in
theorem nodup_of_le (hle : rest ≤ entries) (hnd : (entries.map Prod.fst).Nodup) :
    (rest.map Prod.fst).Nodup :=
  Multiset.nodup_of_le (Multiset.map_le_map hle) hnd

theorem Dequeues.det {out₁ out₂ : Option ι} (hnd : (v.entries.map Prod.fst).Nodup)
    (h₁ : Dequeues v out₁ v₁) (h₂ : Dequeues v out₂ v₂) : out₁ = out₂ ∧ v₁ = v₂ := by
  induction h₁ with
  | empty hzero =>
    cases h₂ with
    | empty => exact ⟨rfl, rfl⟩
    | purge hpop => exact absurd hzero hpop.ne_zero
    | serve hpop => exact absurd hzero hpop.ne_zero
  | purge hpop hc _ ih =>
    cases h₂ with
    | empty hzero => exact absurd hzero hpop.ne_zero
    | purge hpop' hc' hrest =>
      obtain ⟨rfl, rfl⟩ := hpop.det hnd hpop'
      exact ih (nodup_of_le hpop.le hnd) hrest
    | serve hpop' hc' =>
      obtain ⟨rfl, rfl⟩ := hpop.det hnd hpop'
      exact absurd hc hc'
  | serve hpop hc =>
    cases h₂ with
    | empty hzero => exact absurd hzero hpop.ne_zero
    | purge hpop' hc' _ =>
      obtain ⟨rfl, rfl⟩ := hpop.det hnd hpop'
      exact absurd hc' hc
    | serve hpop' hc' =>
      obtain ⟨rfl, rfl⟩ := hpop.det hnd hpop'
      exact ⟨rfl, rfl⟩

/-- **Distinct priorities make the queue deterministic.** -/
theorem Step.det {a₁ a₂ : LazyAnswer ι} (hnd : (v.entries.map Prod.fst).Nodup)
    (h₁ : Step v op a₁ v₁) (h₂ : Step v op a₂ v₂) : a₁ = a₂ ∧ v₁ = v₂ := by
  cases h₁ with
  | enqueue =>
    cases h₂
    exact ⟨rfl, rfl⟩
  | cancel hl =>
    cases h₂ with
    | cancel => exact ⟨rfl, rfl⟩
    | miss hn => exact absurd hl hn
  | miss hn =>
    cases h₂ with
    | cancel hl => exact absurd hl hn
    | miss => exact ⟨rfl, rfl⟩
  | dequeue hd₁ =>
    cases h₂ with
    | dequeue hd₂ =>
      obtain ⟨rfl, rfl⟩ := hd₁.det hnd hd₂
      exact ⟨rfl, rfl⟩

/-! ## Entries come from enqueues -/

theorem Dequeues.le {out : Option ι} (h : Dequeues v out v') : v'.entries ≤ v.entries := by
  induction h with
  | empty => exact le_rfl
  | purge hpop _ _ ih => exact ih.trans hpop.le
  | serve hpop _ => exact hpop.le

/-- A step brings in no priority but the operation's own. -/
theorem Step.map_fst_le {a : LazyAnswer ι} (h : Step v op a v') :
    v'.entries.map Prod.fst ≤ (op.priority.toList : Multiset L) + v.entries.map Prod.fst := by
  cases h with
  | enqueue => exact le_of_eq (Multiset.map_cons _ _ _)
  | cancel => exact Multiset.le_add_left _ _
  | miss => exact Multiset.le_add_left _ _
  | dequeue hd => exact (Multiset.map_le_map hd.le).trans (Multiset.le_add_left _ _)

/-! ## Machines that implement the queue -/

section Implements

variable {σ : Type*} {τ : Type*} {α : Type w}

/-- A machine implements the queue, for a reading `op` of its inputs, where
every step from a state related to a queue is a step of the queue, with the
same answer and the depth after it, to a related state. -/
def Implements (M : Machine σ α (LazyAnswer ι × ℕ)) (op : α → LazyOp L ι)
    (R : σ → LazyQueue L ι → Prop) : Prop :=
  ∀ s v a, R s v → ∃ v', Step v (op a) (M.step s a).2.1 v' ∧
    (M.step s a).2.2 = Multiset.card v'.entries ∧ R (M.step s a).1 v'

/-- **Implementations of one queue agree.** On inputs whose priorities are
pairwise distinct two machines that implement the queue have one log. -/
theorem log_eq_of_implements {M : Machine σ α (LazyAnswer ι × ℕ)}
    {N : Machine τ α (LazyAnswer ι × ℕ)} {op : α → LazyOp L ι}
    {R : σ → LazyQueue L ι → Prop} {S : τ → LazyQueue L ι → Prop}
    (hM : Implements M op R) (hN : Implements N op S) {s : σ} {t : τ} {as : List α}
    (hR : R s v) (hS : S t v)
    (hnd : (v.entries.map Prod.fst + (as.filterMap fun a => (op a).priority : List L)).Nodup) :
    M.log s as = N.log t as := by
  induction as generalizing s t v with
  | nil => rfl
  | cons a as ih =>
    obtain ⟨v₁, hstep₁, hdepth₁, hR'⟩ := hM s v a hR
    obtain ⟨v₂, hstep₂, hdepth₂, hS'⟩ := hN t v a hS
    have hnow : (v.entries.map Prod.fst).Nodup :=
      Multiset.nodup_of_le (Multiset.le_add_right _ _) hnd
    obtain ⟨hanswer, rfl⟩ := hstep₁.det hnow hstep₂
    -- what is held after the step and still to come was held or to come before
    have hsplit : ((a :: as).filterMap fun a => (op a).priority) =
        (op a).priority.toList ++ as.filterMap fun a => (op a).priority := by
      cases h : (op a).priority <;> simp [h]
    have hle : v₁.entries.map Prod.fst + (as.filterMap fun a => (op a).priority : List L) ≤
        v.entries.map Prod.fst + ((a :: as).filterMap fun a => (op a).priority : List L) := by
      rw [hsplit, ← Multiset.coe_add, ← Multiset.add_assoc,
        Multiset.add_comm (v.entries.map Prod.fst)]
      exact Multiset.add_le_add_right hstep₁.map_fst_le
    rw [Machine.log_cons, Machine.log_cons, ih hR' hS' (Multiset.nodup_of_le hle hnd),
      Prod.ext hanswer (hdepth₁.trans hdepth₂.symm)]

end Implements

/-! ## Queues over a heap -/

section Heaps

variable {σ : Type*} {α : Type*} {β : Type*} {L' : Type*} [LinearOrder L'] {key : α → L'}

omit [DecidableEq ι] in
/-- A pop of a heap is a pop of its entries, where the heap's order is at
least as fine as that of the priorities. -/
theorem pops_of_pop (H : MinHeap α key) {entry : α → L × ι}
    (hkey : ∀ a b, key a ≤ key b → (entry a).1 ≤ (entry b).1) {h h' : H.Carrier} {x : α}
    (hp : H.pop h = some (x, h')) :
    Pops ((H.bag h).map entry) (entry x) ((H.bag h').map entry) := by
  refine ⟨by rw [H.pop_some hp, Multiset.map_cons], ?_⟩
  intro y hy
  obtain ⟨b, hb, rfl⟩ := Multiset.mem_map.mp hy
  exact hkey x b (H.pop_le hp b hb)

/-- **The loop rule of a dequeue.** A loop that pops a heap, drops what has
a tombstone and hands out what has none is a dequeue, given as much fuel as
there are entries. `R` relates the states to the queues they stand for, and
`entry` reads an element of the heap in a state. -/
theorem dequeues_of_loop (H : MinHeap α key) (R : σ → LazyQueue L ι → Prop)
    (loop : ℕ → σ → σ × Option β) (heap : σ → H.Carrier) (entry : σ → α → L × ι)
    (purge serve : σ → α → H.Carrier → σ) (result : α → β) (idOf : σ → β → ι)
    (hkey : ∀ s a b, key a ≤ key b → (entry s a).1 ≤ (entry s b).1)
    (hentries : ∀ s v, R s v → v.entries = (H.bag (heap s)).map (entry s))
    (hpurge : ∀ s v x h, R s v → H.pop (heap s) = some (x, h) →
      R (purge s x h) (v.purge (entry s x).2 ((H.bag h).map (entry s))))
    (hserve : ∀ s v x h, R s v → H.pop (heap s) = some (x, h) →
      R (serve s x h) (v.serve (entry s x).2 ((H.bag h).map (entry s))) ∧
        idOf (serve s x h) (result x) = (entry s x).2)
    (hzero : ∀ s, loop 0 s = (s, none))
    (hsucc : ∀ n s v, R s v → loop (n + 1) s =
      match H.pop (heap s) with
      | none => (s, none)
      | some (x, h) =>
        if (entry s x).2 ∈ v.cancelled then loop n (purge s x h)
        else (serve s x h, some (result x)))
    {n : ℕ} {s : σ} (hR : R s v) (hn : Multiset.card v.entries ≤ n) :
    ∃ v', Dequeues v ((loop n s).2.map (idOf (loop n s).1)) v' ∧ R (loop n s).1 v' := by
  induction n generalizing s v with
  | zero =>
    rw [hzero]
    exact ⟨v, .empty (Multiset.card_eq_zero.mp (by omega)), hR⟩
  | succ n ih =>
    have hloop := hsucc n s v hR
    rcases hp : H.pop (heap s) with - | ⟨x, h⟩
    · have hnil : v.entries = 0 := by rw [hentries s v hR, H.pop_none hp, Multiset.map_zero]
      simp only [hp] at hloop
      rw [hloop]
      exact ⟨v, .empty hnil, hR⟩
    · have hpop : Pops v.entries (entry s x) ((H.bag h).map (entry s)) := by
        rw [hentries s v hR]
        exact pops_of_pop H (hkey s) hp
      simp only [hp] at hloop
      by_cases hc : (entry s x).2 ∈ v.cancelled
      · have hcard : Multiset.card ((H.bag h).map (entry s)) ≤ n := by
          have := congrArg Multiset.card hpop.1
          rw [Multiset.card_cons] at this
          omega
        rw [if_pos hc] at hloop
        obtain ⟨v', hd, hv'⟩ := ih (hpurge s v x h hR hp) hcard
        rw [hloop]
        exact ⟨v', .purge hpop hc hd, hv'⟩
      · obtain ⟨hR', hid⟩ := hserve s v x h hR hp
        rw [if_neg hc] at hloop
        rw [hloop]
        refine ⟨_, ?_, hR'⟩
        show Dequeues v (some (idOf (serve s x h) (result x))) _
        rw [hid]
        exact .serve hpop hc

end Heaps

end LazyQueue

end VllmScheduler
