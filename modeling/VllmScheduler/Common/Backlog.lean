import Mathlib.Data.List.Induction
import Mathlib.Data.Multiset.Filter
import Mathlib.Order.Basic
/-!
# When a member's turn comes

A queue is called again and again: something arrives under a key, or a member
with the least key is served. Which of several members with one key is served
is left open. Still the calls alone say a good deal about who is served. Fix a
member, and count those ahead of it: an arrival ahead of it adds one, and a
call to serve takes one away, where there is one. The count is right as long as
the member waits, because the least is never one that stands behind it
(`card_ahead`). So a member is served where the count comes to zero at a call
to serve, and the two conditions below differ in what counts as ahead only: the
smaller keys (necessary), or the smaller and equal ones (sufficient).
-/

namespace VllmScheduler

universe u v

variable {ι : Type u} {κ : Type v}

/-- A call on a queue. -/
inductive QueueCall (ι : Type u) (κ : Type v)
  | arrive (i : ι) (key : κ)
  | serve
deriving DecidableEq

/-- **What a queue that serves the least may do.** After the calls it holds
`bag` and has served `out`, in that order. Nothing arrives twice, and it is
called to serve only where it holds something. -/
inductive ServesLeast [LinearOrder κ] :
    List (QueueCall ι κ) → Multiset (ι × κ) → List ι → Prop
  | nil : ServesLeast [] 0 []
  | arrive {calls : List (QueueCall ι κ)} {bag : Multiset (ι × κ)} {out : List ι} {i : ι} {key : κ}
      (h : ServesLeast calls bag out) (hnew : ∀ key', .arrive i key' ∉ calls) :
      ServesLeast (calls ++ [.arrive i key]) ((i, key) ::ₘ bag) out
  | serve {calls : List (QueueCall ι κ)} {x : ι × κ} {rest : Multiset (ι × κ)} {out : List ι}
      (h : ServesLeast calls (x ::ₘ rest) out) (hleast : ∀ y ∈ rest, x.2 ≤ y.2) :
      ServesLeast (calls ++ [.serve]) rest (out ++ [x.1])

section Count

variable [DecidableEq ι]

/-- How many others stand ahead of `i`, by the calls alone. -/
def backlog (i : ι) (ahead : κ → Prop) [DecidablePred ahead] (calls : List (QueueCall ι κ)) : ℕ :=
  calls.foldl
    (fun n call =>
      match call with
      | .arrive j key => if j ≠ i ∧ ahead key then n + 1 else n
      | .serve => n - 1) 0

/-- The turn of `i` comes: at some call to serve after its arrival nobody
stands ahead of it. -/
def ComesUp (i : ι) (before : κ → κ → Prop) [DecidableRel before] (calls : List (QueueCall ι κ)) :
    Prop :=
  ∃ pre key post, calls = pre ++ .serve :: post ∧ .arrive i key ∈ pre ∧
    backlog i (fun key' => before key' key) pre = 0

variable {i : ι} {ahead : κ → Prop} [DecidablePred ahead] {calls : List (QueueCall ι κ)}

theorem backlog_arrive {j : ι} {key : κ} :
    backlog i ahead (calls ++ [.arrive j key]) =
      if j ≠ i ∧ ahead key then backlog i ahead calls + 1 else backlog i ahead calls :=
  List.foldl_append

theorem backlog_serve : backlog i ahead (calls ++ [.serve]) = backlog i ahead calls - 1 :=
  List.foldl_append

/-- The count depends on how the keys that arrive compare. -/
theorem backlog_congr {ahead' : κ → Prop} [DecidablePred ahead']
    (h : ∀ j key, .arrive j key ∈ calls → j ≠ i → (ahead key ↔ ahead' key)) :
    backlog i ahead calls = backlog i ahead' calls := by
  induction calls using List.reverseRecOn with
  | nil => rfl
  | append_singleton calls call ih =>
    have hrec := ih fun j key hj => h j key (List.mem_append_left _ hj)
    cases call with
    | serve => rw [backlog_serve, backlog_serve, hrec]
    | arrive j key =>
      have hsame : (j ≠ i ∧ ahead key) ↔ (j ≠ i ∧ ahead' key) :=
        and_congr_right fun hj => h j key (List.mem_append_right _ (List.mem_singleton_self _)) hj
      rw [backlog_arrive, backlog_arrive, hrec]
      simp only [hsame]

variable {before : κ → κ → Prop} [DecidableRel before]

/-- A turn that has come has come. -/
theorem ComesUp.append (h : ComesUp i before calls) (more : List (QueueCall ι κ)) :
    ComesUp i before (calls ++ more) := by
  obtain ⟨pre, key, post, rfl, harrive, hzero⟩ := h
  exact ⟨pre, key, post ++ more, by simp, harrive, hzero⟩

/-- It comes at the last call, or came before it. -/
theorem ComesUp.of_snoc {call : QueueCall ι κ} (h : ComesUp i before (calls ++ [call])) :
    ComesUp i before calls ∨
      call = .serve ∧ ∃ key, .arrive i key ∈ calls ∧
        backlog i (fun key' => before key' key) calls = 0 := by
  obtain ⟨pre, key, post, hsplit, harrive, hzero⟩ := h
  rcases List.eq_nil_or_concat post with rfl | ⟨post', last, rfl⟩
  · obtain ⟨rfl, hcall⟩ := List.append_inj' hsplit rfl
    cases hcall
    exact Or.inr ⟨rfl, key, harrive, hzero⟩
  · rw [List.concat_eq_append, ← List.cons_append, ← List.append_assoc] at hsplit
    obtain ⟨rfl, -⟩ := List.append_inj' hsplit rfl
    exact Or.inl ⟨pre, key, post', rfl, harrive, hzero⟩

/-- Where no other has the key of `i`, it makes no difference whether equals
stand ahead. -/
theorem comesUp_le_iff_lt [LinearOrder κ]
    (h : ∀ j key, .arrive j key ∈ calls → .arrive i key ∈ calls → j = i) :
    ComesUp i (· ≤ ·) calls ↔ ComesUp i (· < ·) calls := by
  have hcount : ∀ pre key post, calls = pre ++ .serve :: post → .arrive i key ∈ pre →
      backlog i (· ≤ key) pre = backlog i (· < key) pre := by
    rintro pre key post rfl harrive
    refine backlog_congr fun j key' hj hne => ?_
    have hkey : key' ≠ key := by
      rintro rfl
      exact hne (h j key' (List.mem_append_left _ hj) (List.mem_append_left _ harrive))
    exact ⟨fun hle => lt_of_le_of_ne hle hkey, le_of_lt⟩
  constructor
  · rintro ⟨pre, key, post, hsplit, harrive, hzero⟩
    exact ⟨pre, key, post, hsplit, harrive, (hcount pre key post hsplit harrive).symm.trans hzero⟩
  · rintro ⟨pre, key, post, hsplit, harrive, hzero⟩
    exact ⟨pre, key, post, hsplit, harrive, (hcount pre key post hsplit harrive).trans hzero⟩

end Count

namespace ServesLeast

variable [LinearOrder κ] {calls : List (QueueCall ι κ)} {bag : Multiset (ι × κ)} {out : List ι}
variable {i : ι}

/-- What is held has arrived. -/
theorem arrive_of_mem (h : ServesLeast calls bag out) {x : ι × κ} (hx : x ∈ bag) :
    .arrive x.1 x.2 ∈ calls := by
  induction h with
  | nil => cases hx
  | arrive h hnew ih =>
    rcases Multiset.mem_cons.mp hx with rfl | hx
    · exact List.mem_append_right _ (List.mem_singleton_self _)
    · exact List.mem_append_left _ (ih hx)
  | serve h hleast ih => exact List.mem_append_left _ (ih (Multiset.mem_cons_of_mem hx))

/-- What has arrived is held or served. -/
theorem mem_or_mem_out (h : ServesLeast calls bag out) {key : κ} (hi : .arrive i key ∈ calls) :
    (i, key) ∈ bag ∨ i ∈ out := by
  induction h with
  | nil => cases hi
  | arrive h hnew ih =>
    rcases List.mem_append.mp hi with hi | hi
    · exact (ih hi).imp Multiset.mem_cons_of_mem id
    · cases List.mem_singleton.mp hi
      exact Or.inl (Multiset.mem_cons_self _ _)
  | serve h hleast ih =>
    have hi' : QueueCall.arrive i key ∈ _ :=
      (List.mem_append.mp hi).resolve_right fun hlast => by cases List.mem_singleton.mp hlast
    rcases ih hi' with hx | hout
    · rcases Multiset.mem_cons.mp hx with rfl | hx
      · exact Or.inr (List.mem_append_right _ (List.mem_singleton_self _))
      · exact Or.inl hx
    · exact Or.inr (List.mem_append_left _ hout)

variable [DecidableEq ι]

/-- **The count is right while `i` waits.** Where the member served is not
ahead of `i`, and is not `i`, nobody is. -/
theorem card_ahead (ahead : κ → Prop) [DecidablePred ahead]
    (hdown : ∀ {key key' : κ}, key ≤ key' → ahead key' → ahead key)
    (h : ServesLeast calls bag out) (hi : i ∉ out) :
    (bag.filter fun x => x.1 ≠ i ∧ ahead x.2).card = backlog i ahead calls := by
  let P : ι × κ → Prop := fun x => x.1 ≠ i ∧ ahead x.2
  induction h with
  | nil => rfl
  | @arrive calls bag out j key h hnew ih =>
    have hcount := ih hi
    rw [backlog_arrive]
    by_cases hj : j ≠ i ∧ ahead key
    · rw [if_pos hj, Multiset.filter_cons_of_pos (p := P) bag hj, Multiset.card_cons, hcount]
    · rw [if_neg hj, Multiset.filter_cons_of_neg (p := P) bag hj, hcount]
  | @serve calls x rest out h hleast ih =>
    rw [List.mem_append, List.mem_singleton, not_or] at hi
    have hcount := ih hi.1
    rw [backlog_serve, ← hcount]
    by_cases hx : x.1 ≠ i ∧ ahead x.2
    · rw [Multiset.filter_cons_of_pos (p := P) rest hx, Multiset.card_cons, Nat.add_sub_cancel]
    · have hnone : rest.filter (fun y => y.1 ≠ i ∧ ahead y.2) = 0 :=
        Multiset.filter_eq_nil.mpr fun y hy hy' => hx ⟨Ne.symm hi.2, hdown (hleast y hy) hy'.2⟩
      rw [Multiset.filter_cons_of_neg (p := P) rest hx, hnone, Multiset.card_zero]

/-- **Whose turn comes is served**, whatever is done about equal keys. -/
theorem mem_out_of_comesUp (h : ServesLeast calls bag out) (hup : ComesUp i (· ≤ ·) calls) :
    i ∈ out := by
  induction h with
  | nil =>
    obtain ⟨pre, key, post, hsplit, -⟩ := hup
    cases List.append_eq_nil_iff.mp hsplit.symm |>.2
  | arrive h hnew ih =>
    rcases hup.of_snoc with hup | ⟨hcall, -⟩
    · exact ih hup
    · cases hcall
  | @serve calls x rest out h hleast ih =>
    rw [List.mem_append, List.mem_singleton]
    rcases hup.of_snoc with hup | ⟨-, key, harrive, hzero⟩
    · exact Or.inl (ih hup)
    · by_contra hnot
      rw [not_or] at hnot
      -- `i` is held, nobody is ahead of it, and the least is not `i`
      have hmem := (h.mem_or_mem_out harrive).resolve_right hnot.1
      have hcount := h.card_ahead (· ≤ key) le_trans hnot.1
      have hrest : (i, key) ∈ rest :=
        (Multiset.mem_cons.mp hmem).resolve_left fun heq => hnot.2 (by rw [← heq])
      have hx : x ∈ (x ::ₘ rest).filter fun y => y.1 ≠ i ∧ y.2 ≤ key :=
        Multiset.mem_filter.mpr
          ⟨Multiset.mem_cons_self _ _, Ne.symm hnot.2, hleast (i, key) hrest⟩
      rw [hzero, Multiset.card_eq_zero] at hcount
      rw [hcount] at hx
      exact Multiset.notMem_zero _ hx

/-- **Who is served had nobody with a smaller key ahead.** -/
theorem comesUp_of_mem_out (h : ServesLeast calls bag out) (hi : i ∈ out) :
    ComesUp i (· < ·) calls := by
  induction h with
  | nil => cases hi
  | arrive h hnew ih => exact (ih hi).append _
  | @serve calls x rest out h hleast ih =>
    by_cases hold : i ∈ out
    · exact (ih hold).append _
    · obtain rfl : i = x.1 :=
        List.mem_singleton.mp ((List.mem_append.mp hi).resolve_left hold)
      refine ⟨calls, x.2, [], rfl, h.arrive_of_mem (Multiset.mem_cons_self _ _), ?_⟩
      have hcount := h.card_ahead (· < x.2) lt_of_le_of_lt hold
      have hnone : (x ::ₘ rest).filter (fun y => y.1 ≠ x.1 ∧ y.2 < x.2) = 0 := by
        refine Multiset.filter_eq_nil.mpr fun y hy hy' => ?_
        rcases Multiset.mem_cons.mp hy with rfl | hy
        · exact hy'.1 rfl
        · exact absurd (hleast y hy) (not_le.mpr hy'.2)
      rw [← hcount, hnone, Multiset.card_zero]

end ServesLeast

end VllmScheduler
