import Mathlib.Data.Multiset.Filter
import Mathlib.Data.Multiset.UnionInter
import Mathlib.Order.Basic
/-!
# The abstract priority queue

What a priority queue with removal is for, said without a heap. Its state
is the bag of live items, each a value with the stamp it came in under. An
observer sees events: an item comes in, the least live item is taken, a
take finds nothing, a removal by name answers whether it found the name.
`Serves` is what a history of events has to satisfy; that no value is taken
twice, that none is taken after its removal and that takes return all there
is follow from it alone. An implementation is right when its histories are
served.
-/

namespace VllmScheduler

/-- What an observer of a priority queue sees. -/
inductive BagEvent (ρ τ ι : Type*)
  | inserted (a : ρ × τ)
  | taken (r : ρ)
  | empty
  | removed (i : ι) (found : Bool)

section

variable {ρ τ ι κ : Type*} [DecidableEq ι] [LinearOrder κ] (key : ρ × τ → κ) (ident : ρ → ι)

namespace BagEvent

/-- The live items after an event. -/
def after (live : Multiset (ρ × τ)) : BagEvent ρ τ ι → Multiset (ρ × τ)
  | inserted a => a ::ₘ live
  | taken r => live.filter fun b => ident b.1 ≠ ident r
  | empty => live
  | removed i found => if found then live.filter fun b => ident b.1 ≠ i else live

/-- **The events a priority queue may show.** A take returns the least live
item, or nothing where none is live; a removal finds a live item's name. -/
def Allowed (live : Multiset (ρ × τ)) : BagEvent ρ τ ι → Prop
  | inserted _ => True
  | taken r => ∃ t, (r, t) ∈ live ∧ ∀ b ∈ live, b ≠ (r, t) → key (r, t) < key b
  | empty => live = 0
  | removed i found => (∃ b ∈ live, ident b.1 = i) → found = true

/-- The name an event brings in. -/
def insertedId : BagEvent ρ τ ι → Option ι
  | inserted a => some (ident a.1)
  | _ => none

/-- The value an event takes. -/
def takenValue : BagEvent ρ τ ι → Option ρ
  | taken r => some r
  | _ => none

/-- The event is a take, of something or of nothing. -/
def IsTake : BagEvent ρ τ ι → Prop
  | taken _ => True
  | empty => True
  | _ => False

end BagEvent

/-- The live items after a history. -/
def liveAfter (live : Multiset (ρ × τ)) (es : List (BagEvent ρ τ ι)) : Multiset (ρ × τ) :=
  es.foldl (BagEvent.after ident) live

/-- A history every event of which is allowed where it happens. -/
def Serves : Multiset (ρ × τ) → List (BagEvent ρ τ ι) → Prop
  | _, [] => True
  | live, e :: es => e.Allowed key ident live ∧ Serves (e.after ident live) es

/-- The names that come in, in order. -/
def insertedIds (es : List (BagEvent ρ τ ι)) : List ι :=
  es.filterMap (BagEvent.insertedId ident)

/-- The values taken, in order. -/
def takenValues (es : List (BagEvent ρ τ ι)) : List ρ := es.filterMap BagEvent.takenValue

variable {key ident} {live : Multiset (ρ × τ)} {e : BagEvent ρ τ ι} {es es' : List (BagEvent ρ τ ι)}
variable {i : ι}

omit [LinearOrder κ] in
theorem liveAfter_append :
    liveAfter ident live (es ++ es') = liveAfter ident (liveAfter ident live es) es' :=
  List.foldl_append

theorem serves_append :
    Serves key ident live (es ++ es') ↔
      Serves key ident live es ∧ Serves key ident (liveAfter ident live es) es' := by
  induction es generalizing live with
  | nil => simp [Serves, liveAfter]
  | cons e es ih =>
    simp only [List.cons_append, Serves, ih, and_assoc]
    rfl

omit [LinearOrder κ] in
theorem mem_of_mem_after {a : ρ × τ} (h : a ∈ e.after ident live) :
    a ∈ live ∨ e = .inserted a := by
  cases e with
  | inserted b =>
    rcases Multiset.mem_cons.mp h with rfl | h
    · exact Or.inr rfl
    · exact Or.inl h
  | taken r => exact Or.inl (Multiset.mem_of_mem_filter h)
  | empty => exact Or.inl h
  | removed j found =>
    cases found with
    | false => exact Or.inl h
    | true => exact Or.inl (Multiset.mem_of_mem_filter h)

/-- What is taken was live at the start or has come in since. -/
theorem exists_of_mem_takenValues (h : Serves key ident live es) {r : ρ}
    (hr : r ∈ takenValues es) :
    (∃ a ∈ live, ident a.1 = ident r) ∨ ident r ∈ insertedIds ident es := by
  induction es generalizing live with
  | nil => cases hr
  | cons e es ih =>
    have hcons : ident r ∈ insertedIds ident es → ident r ∈ insertedIds ident (e :: es) := by
      intro hm
      unfold insertedIds at hm ⊢
      rw [List.filterMap_cons]
      split
      · exact hm
      · exact List.mem_cons_of_mem _ hm
    by_cases hhead : e = .taken r
    · subst hhead
      obtain ⟨t, ht, -⟩ := h.1
      exact Or.inl ⟨(r, t), ht, rfl⟩
    · have htail : r ∈ takenValues es := by
        unfold takenValues at hr ⊢
        rw [List.filterMap_cons] at hr
        cases e with
        | taken r' =>
          rcases List.mem_cons.mp hr with rfl | hr
          · exact absurd rfl hhead
          · exact hr
        | _ => exact hr
      rcases ih h.2 htail with ⟨a, ha, hid⟩ | hm
      · rcases mem_of_mem_after ha with ha | he
        · exact Or.inl ⟨a, ha, hid⟩
        · refine Or.inr ?_
          rw [he, ← hid]
          exact List.mem_cons_self
      · exact Or.inr (hcons hm)

/-- **Nothing is taken after its removal.** -/
theorem not_mem_taken_of_removed (h : Serves key ident live (.removed i true :: es))
    (hi : i ∉ insertedIds ident es) {r : ρ} (hr : r ∈ takenValues es) : ident r ≠ i := by
  rintro rfl
  rcases exists_of_mem_takenValues h.2 hr with ⟨a, ha, hid⟩ | hm
  · have := Multiset.mem_filter.mp (show a ∈ live.filter fun b => ident b.1 ≠ ident r from ha)
    exact this.2 hid
  · exact hi hm

/-- **Nothing is taken twice**, where every name comes in once. -/
theorem nodup_takenValues (h : Serves key ident live es) (hnd : (insertedIds ident es).Nodup)
    (hnew : ∀ a ∈ live, ident a.1 ∉ insertedIds ident es) :
    ((takenValues es).map ident).Nodup := by
  induction es generalizing live with
  | nil => exact List.nodup_nil
  | cons e es ih =>
    have hsub : (insertedIds ident es).Sublist (insertedIds ident (e :: es)) :=
      (List.sublist_cons_self e es).filterMap _
    have hrest : ((takenValues es).map ident).Nodup := by
      refine ih h.2 (hnd.sublist hsub) fun a ha hm => ?_
      rcases mem_of_mem_after ha with ha | he
      · exact hnew a ha (hsub.subset hm)
      · rw [he] at hnd
        exact (List.nodup_cons.mp hnd).1 hm
    cases e with
    | taken r =>
      rw [takenValues, List.filterMap_cons]
      refine List.nodup_cons.mpr ⟨fun hm => ?_, hrest⟩
      obtain ⟨r', hr', hid⟩ := List.mem_map.mp hm
      obtain ⟨t, ht, -⟩ := h.1
      rcases exists_of_mem_takenValues h.2 hr' with ⟨a, ha, hida⟩ | hm'
      · exact (Multiset.mem_filter.mp ha).2 (hida.trans hid)
      · rw [hid] at hm'
        exact hnew (r, t) ht (hsub.subset hm')
    | _ => exact hrest

omit [LinearOrder κ] in
/-- Where names are distinct, a take removes one item. -/
theorem eq_cons_filter (hnd : (live.map fun a => ident a.1).Nodup) {a : ρ × τ} (ha : a ∈ live) :
    live = a ::ₘ live.filter fun b => ident b.1 ≠ ident a.1 := by
  obtain ⟨rest, rfl⟩ := Multiset.exists_cons_of_mem ha
  rw [Multiset.map_cons, Multiset.nodup_cons] at hnd
  rw [Multiset.filter_cons_of_neg _ (by simp)]
  congr 1
  refine (Multiset.filter_eq_self.mpr fun b hb => ?_).symm
  intro hid
  exact hnd.1 (hid ▸ Multiset.mem_map_of_mem (fun a => ident a.1) hb)

/-- **Nothing is lost.** As many takes as there are live items return them
all. -/
theorem takenValues_eq_of_takes (h : Serves key ident live es)
    (hnd : (live.map fun a => ident a.1).Nodup) (htake : ∀ e ∈ es, e.IsTake)
    (hlen : es.length = Multiset.card live) :
    (takenValues es : Multiset ρ) = live.map Prod.fst := by
  induction es generalizing live with
  | nil =>
    have hzero : live = 0 := Multiset.card_eq_zero.mp hlen.symm
    simp [hzero, takenValues]
  | cons e es ih =>
    rw [List.length_cons] at hlen
    cases e with
    | inserted a => exact absurd (htake _ List.mem_cons_self) id
    | removed j found => exact absurd (htake _ List.mem_cons_self) id
    | empty =>
      have hzero : live = 0 := h.1
      rw [hzero, Multiset.card_zero] at hlen
      omega
    | taken r =>
      obtain ⟨t, ht, -⟩ := h.1
      have hlive := eq_cons_filter hnd ht
      set rest := live.filter fun b => ident b.1 ≠ ident (r, t).1
      rw [hlive, Multiset.map_cons, Multiset.nodup_cons] at hnd
      have hcard : es.length = Multiset.card rest := by
        rw [hlive, Multiset.card_cons] at hlen
        omega
      have hrest : (takenValues es : Multiset ρ) = rest.map Prod.fst := ih h.2 hnd.2
        (fun e he => htake e (List.mem_cons_of_mem _ he)) hcard
      rw [hlive, Multiset.map_cons, ← hrest]
      rfl

end

end VllmScheduler
