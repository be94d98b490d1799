import VllmScheduler.Common.LazyQueue
/-!
# Only the order of the priorities matters

A queue with lazy deletion is given other priorities, one for each id. As
long as they are in the order of the old ones it takes the same steps with
the same answers; and where the new ones are distinct, so does any queue that
stands where the renumbered one does (`Dequeues.agree`).
-/

namespace VllmScheduler

universe u v w

namespace LazyQueue

variable {L : Type u} {L' : Type w} {ι : Type v}

/-- The entries with the priority `rank i` for the id `i`. -/
def rerankEntries (rank : ι → L') (entries : Multiset (L × ι)) : Multiset (L' × ι) :=
  entries.map fun e => (rank e.2, e.2)

/-- The queue with these entries. -/
def rerank (rank : ι → L') (q : LazyQueue L ι) : LazyQueue L' ι :=
  ⟨rerankEntries rank q.entries, q.listed, q.cancelled⟩

/-- The ranks of the entries are in the order of their priorities. -/
def Ranks [LE L] [LE L'] (rank : ι → L') (entries : Multiset (L × ι)) : Prop :=
  ∀ x ∈ entries, ∀ y ∈ entries, x.1 ≤ y.1 → rank x.2 ≤ rank y.2

variable {rank : ι → L'} {q q₁ : LazyQueue L ι} {q₂ : LazyQueue L' ι}
variable {entries rest : Multiset (L × ι)} {x : L × ι} {out out' : Option ι}

@[simp] theorem card_rerank :
    Multiset.card (q.rerank rank).entries = Multiset.card q.entries :=
  Multiset.card_map _ _

theorem rerank_enqueue {p : L} {i : ι} :
    (q.enqueue p i).rerank rank = (q.rerank rank).enqueue (rank i) i := by
  simp only [rerank, rerankEntries, enqueue, Multiset.map_cons]

theorem rerank_mark [DecidableEq ι] {i : ι} : (q.mark i).rerank rank = (q.rerank rank).mark i :=
  rfl

variable [LinearOrder L] [LinearOrder L']

theorem Ranks.mono (h : Ranks rank entries) (hle : rest ≤ entries) : Ranks rank rest :=
  fun x hx y hy => h x (Multiset.mem_of_le hle hx) y (Multiset.mem_of_le hle hy)

theorem Pops.rerank (h : Pops entries x rest) (hrank : Ranks rank entries) :
    Pops (rerankEntries rank entries) (rank x.2, x.2) (rerankEntries rank rest) := by
  refine ⟨by rw [h.1, rerankEntries, Multiset.map_cons, rerankEntries], fun y hy => ?_⟩
  obtain ⟨e, he, rfl⟩ := Multiset.mem_map.mp hy
  refine hrank x ?_ e (Multiset.mem_of_le h.le he) (h.2 e he)
  rw [h.1]
  exact Multiset.mem_cons_self x rest

variable [DecidableEq ι]

theorem Dequeues.rerank (h : Dequeues q out q₁) (hrank : Ranks rank q.entries) :
    Dequeues (q.rerank rank) out (q₁.rerank rank) := by
  induction h with
  | empty hzero => exact .empty (by rw [LazyQueue.rerank, hzero]; rfl)
  | purge hpop hc _ ih => exact .purge (hpop.rerank hrank) hc (ih (hrank.mono hpop.le))
  | @serve v x rest hpop hc =>
    exact .serve (v := v.rerank rank) (x := (rank x.2, x.2)) (hpop.rerank hrank) hc

/-- **A queue that stands where the renumbered one does dequeues alike.** -/
theorem Dequeues.agree (h : Dequeues q out q₁) (hrank : Ranks rank q.entries)
    (hnd : ((q.rerank rank).entries.map Prod.fst).Nodup)
    (h' : Dequeues (q.rerank rank) out' q₂) : out = out' ∧ q₁.rerank rank = q₂ :=
  (h.rerank hrank).det hnd h'

end LazyQueue

end VllmScheduler
