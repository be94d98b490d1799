import Mathlib.Data.List.Basic
import Mathlib.Data.List.Count
import Mathlib.Data.List.Infix
import Mathlib.Tactic.Ring
/-!
# Texts as lists

Suffix tests, replacement and counting of substrings, for lists over any type
with decidable equality. A replacement goes from left to right and never looks
into what it has put in; the pattern is not empty. `Replaced` is its induction
principle.

Where every occurrence of a word is followed by an insertion, an occurrence of
another word may begin before the insertion and end in it. `ClosedBy` words do
not, and `Apart` words do not begin in one text and end in the next.
-/

namespace VllmScheduler

namespace Text

universe u

variable {α : Type u} [DecidableEq α]

/-- The same constant in every module that looks for a text in a list. -/
instance lawfulBEq_listChar : LawfulBEq (List Char) := inferInstance

/-- Does the text end with `suffix`? -/
def endsWith (xs suffix : List α) : Bool := suffix.isSuffixOf xs

/-- Replacement, where `skip` elements of the occurrence just replaced are
still to be passed over. -/
def replaceFrom (old new : List α) : ℕ → List α → List α
  | _, [] => []
  | skip + 1, _ :: xs => replaceFrom old new skip xs
  | 0, x :: xs =>
    if old.isPrefixOf (x :: xs) then new ++ replaceFrom old new (old.length - 1) xs
    else x :: replaceFrom old new 0 xs

/-- Every occurrence of `old`, from the left, becomes `new`. -/
def replace (xs old new : List α) : List α := replaceFrom old new 0 xs

variable {xs s t new : List α} {c : α}

theorem endsWith_iff : endsWith xs s = true ↔ s <:+ xs := List.isSuffixOf_iff_suffix

omit [DecidableEq α] in
/-- A text ends as its suffix does. -/
theorem getLast?_of_suffix (h : s <:+ xs) (hs : s.getLast? = some c) : xs.getLast? = some c := by
  obtain ⟨pre, rfl⟩ := h
  rw [List.getLast?_append, hs]
  rfl

omit [DecidableEq α] in
/-- A text ends with what follows a separator in it. -/
theorem suffix_append_cons (a b s : List α) (c : α) : s <:+ a ++ (b ++ c :: s) :=
  ⟨a ++ (b ++ [c]), by simp⟩

omit [DecidableEq α] in
/-- A text is cut at the first separator in one way only. -/
theorem append_cons_inj {a b : List α} (ha : c ∉ a) (hb : c ∉ b)
    (h : a ++ c :: s = b ++ c :: t) : a = b ∧ s = t := by
  induction a generalizing b with
  | nil =>
    cases b with
    | nil => exact ⟨rfl, (List.cons.inj h).2⟩
    | cons y b => exact absurd ((List.cons.inj h).1 ▸ List.mem_cons_self) hb
  | cons x a ih =>
    cases b with
    | nil => exact absurd ((List.cons.inj h).1 ▸ List.mem_cons_self) ha
    | cons y b =>
      obtain ⟨rfl, htail⟩ := List.cons.inj h
      obtain ⟨rfl, hst⟩ := ih (fun hc => ha (List.mem_cons_of_mem _ hc))
        (fun hc => hb (List.mem_cons_of_mem _ hc)) htail
      exact ⟨rfl, hst⟩

omit [DecidableEq α] in
/-- A part without the separator lies on one side of it. -/
theorem append_cons_cut {a m b : List α} (hm : c ∉ m) (h : a ++ (m ++ b) = s ++ c :: t) :
    (∃ r, s = a ++ (m ++ r) ∧ b = r ++ c :: t) ∨ ∃ r, a = s ++ c :: r ∧ t = r ++ (m ++ b) := by
  rcases List.append_eq_append_iff.mp h with ⟨r, rfl, hr⟩ | ⟨r, rfl, hr⟩
  · rcases List.append_eq_append_iff.mp hr with ⟨q, rfl, hq⟩ | ⟨q, rfl, hq⟩
    · exact Or.inl ⟨q, rfl, hq⟩
    · cases q with
      | nil => exact Or.inl ⟨[], by simp, by simpa using hq.symm⟩
      | cons y q =>
        obtain ⟨rfl, -⟩ := List.cons.inj hq
        exact absurd (List.mem_append_right r List.mem_cons_self) hm
  · cases r with
    | nil =>
      cases m with
      | nil => exact Or.inl ⟨[], by simp, by simpa using hr.symm⟩
      | cons y m =>
        obtain ⟨rfl, -⟩ := List.cons.inj hr
        exact absurd List.mem_cons_self hm
    | cons y r =>
      obtain ⟨rfl, rfl⟩ := List.cons.inj hr
      exact Or.inr ⟨r, rfl, rfl⟩

/-- What is left after a replacement ends as the text and the new part do,
or is empty because the last occurrence was the end of the text. -/
theorem getLast?_replaceFrom (old : List α) (hnew : new.getLast? = some c) (skip : ℕ)
    (hxs : xs.getLast? = some c) :
    (replaceFrom old new skip xs).getLast? = some c ∨
      skip ≠ 0 ∧ replaceFrom old new skip xs = [] := by
  induction xs generalizing skip with
  | nil => cases hxs
  | cons x xs ih =>
    -- the rest of the text is empty or ends the same way
    have hrest : xs = [] ∨ xs.getLast? = some c := by
      cases xs with
      | nil => exact Or.inl rfl
      | cons y ys => exact Or.inr (by rwa [List.getLast?_cons_cons] at hxs)
    cases skip with
    | succ skip =>
      rw [replaceFrom]
      rcases hrest with rfl | hlast
      · exact Or.inr ⟨Nat.succ_ne_zero _, by cases skip <;> rfl⟩
      · rcases ih skip hlast with h | ⟨-, h⟩
        · exact Or.inl h
        · exact Or.inr ⟨Nat.succ_ne_zero _, h⟩
    | zero =>
      refine Or.inl ?_
      rw [replaceFrom]
      split
      · rw [List.getLast?_append]
        rcases hrest with rfl | hlast
        · rw [show replaceFrom old new (old.length - 1) [] = [] by cases old.length - 1 <;> rfl]
          exact hnew
        · rcases ih (old.length - 1) hlast with h | ⟨-, h⟩
          · rw [h]
            rfl
          · rw [h]
            exact hnew
      · rcases hrest with rfl | hlast
        · exact hxs
        · rcases ih 0 hlast with h | ⟨h, -⟩
          · rw [List.getLast?_cons, h]
            rfl
          · exact absurd rfl h

/-- A text keeps its last element when the new part ends with it too. -/
theorem getLast?_replace (old : List α) (hnew : new.getLast? = some c)
    (hxs : xs.getLast? = some c) :
    (replace xs old new).getLast? = some c := by
  rcases getLast?_replaceFrom old hnew 0 hxs with h | ⟨h, -⟩
  · exact h
  · exact absurd rfl h

/-! ## Replacements -/

section Replacements

variable {old new ys : List α} {x : α}

/-- The text with every occurrence of `old`, from the left, made `new`. -/
inductive Replaced (old new : List α) : List α → List α → Prop
  | nil : Replaced old new [] []
  | keep {x : α} {xs ys : List α} :
      ¬ old <+: x :: xs → Replaced old new xs ys → Replaced old new (x :: xs) (x :: ys)
  | change {xs ys : List α} : Replaced old new xs ys → Replaced old new (old ++ xs) (new ++ ys)

theorem replaceFrom_skip {skip : ℕ} :
    replaceFrom old new skip xs = replace (xs.drop skip) old new := by
  induction skip generalizing xs with
  | zero => rfl
  | succ skip ih =>
    cases xs with
    | nil => rfl
    | cons x xs => exact ih

theorem replace_cons_of_not (h : ¬ old <+: x :: xs) :
    replace (x :: xs) old new = x :: replace xs old new := by
  have hnot : old.isPrefixOf (x :: xs) = false :=
    Bool.eq_false_iff.mpr fun hp => h (List.isPrefixOf_iff_prefix.mp hp)
  rw [replace, replaceFrom, hnot]
  rfl

theorem replace_append (h : old ≠ []) :
    replace (old ++ xs) old new = new ++ replace xs old new := by
  cases old with
  | nil => exact absurd rfl h
  | cons c old =>
    have hp : (c :: old).isPrefixOf (c :: (old ++ xs)) = true :=
      List.isPrefixOf_iff_prefix.mpr (List.prefix_append (c :: old) xs)
    rw [List.cons_append, replace, replaceFrom, if_pos hp, replaceFrom_skip]
    simp

theorem replaced_replace (h : old ≠ []) (xs : List α) :
    Replaced old new xs (replace xs old new) := by
  induction hn : xs.length using Nat.strongRecOn generalizing xs with
  | _ n ih =>
    cases xs with
    | nil => exact .nil
    | cons x xs =>
      rw [List.length_cons] at hn
      by_cases hp : old <+: x :: xs
      · obtain ⟨t, ht⟩ := hp
        have hpos := List.length_pos_iff.mpr h
        have hlen := congrArg List.length ht
        rw [List.length_append, List.length_cons] at hlen
        rw [← ht, replace_append h]
        exact .change (ih t.length (by omega) t rfl)
      · rw [replace_cons_of_not hp]
        exact .keep hp (ih xs.length (by omega) xs rfl)

end Replacements

/-! ## Occurrences -/

section Occurrences

variable {word : List α}

/-- How many places of a text a word stands at. -/
def occurrences (word : List α) : List α → ℕ
  | [] => 0
  | x :: xs => (if word <+: x :: xs then 1 else 0) + occurrences word xs

theorem occurrences_eq_zero_iff (hword : word ≠ []) :
    occurrences word xs = 0 ↔ ¬ word <:+: xs := by
  induction xs with
  | nil => simpa [occurrences] using hword
  | cons x xs ih =>
    rw [occurrences, List.infix_cons_iff, Nat.add_eq_zero_iff, ih, not_or]
    simp

/-- No beginning of the word ends the text, unless it is all of the word. -/
def Apart (xs word : List α) : Prop := ∀ s, s <:+ xs → s ≠ [] → s <+: word → word <+: s

instance (xs word : List α) : Decidable (Apart xs word) :=
  decidable_of_iff (∀ s ∈ xs.tails, s ≠ [] → s <+: word → word <+: s) (by simp [Apart])

/-- Occurrences before and behind such a cut add up. -/
theorem occurrences_append (h : Apart xs word) :
    occurrences word (xs ++ t) = occurrences word xs + occurrences word t := by
  induction xs with
  | nil => simp [occurrences]
  | cons x xs ih =>
    have hcut : word <+: x :: xs ++ t ↔ word <+: x :: xs := by
      refine ⟨fun hword => ?_, fun hword => hword.trans (List.prefix_append _ _)⟩
      rcases List.prefix_or_prefix_of_prefix hword (List.prefix_append (x :: xs) t) with hle | hle
      · exact hle
      · exact h _ List.suffix_rfl (List.cons_ne_nil _ _) hle
    have hrest : Apart xs word := fun s hs => h s (hs.trans (List.suffix_cons x xs))
    rw [List.cons_append] at hcut ⊢
    rw [occurrences, occurrences, ih hrest, if_congr hcut rfl rfl, Nat.add_assoc]

end Occurrences

/-! ## Counting -/

section Counting

/-- Counting, where `skip` elements of the occurrence just counted are still
to be passed over. -/
def countFrom (needle : List α) : ℕ → List α → ℕ
  | _, [] => 0
  | skip + 1, _ :: xs => countFrom needle skip xs
  | 0, x :: xs =>
    if needle.isPrefixOf (x :: xs) then 1 + countFrom needle (needle.length - 1) xs
    else countFrom needle 0 xs

/-- How many occurrences are found from the left, none inside of another; the
needle is not empty. -/
def countText (needle xs : List α) : ℕ := countFrom needle 0 xs

theorem countText_singleton (c : α) (xs : List α) : countText [c] xs = xs.count c := by
  induction xs with
  | nil => rfl
  | cons x xs ih =>
    rw [countText] at ih
    rw [countText, countFrom, List.count_cons, ← ih]
    by_cases h : c = x
    · subst h
      simp [Nat.add_comm]
    · simp [h, Ne.symm h]

theorem countText_eq_zero_iff {needle : List α} (hneedle : needle ≠ []) :
    countText needle xs = 0 ↔ ¬ needle <:+: xs := by
  induction xs with
  | nil => simpa [countText, countFrom] using hneedle
  | cons x xs ih =>
    rw [countText] at ih
    rw [countText, countFrom, List.infix_cons_iff, not_or, ← ih, ← List.isPrefixOf_iff_prefix]
    split
    · rename_i h
      simp [h]
    · rename_i h
      simp [h]

omit [DecidableEq α] in
/-- A word that does not hold `c` does not reach over a `c`. -/
theorem prefix_append_cons_iff {needle a b : List α} (hc : c ∉ needle) :
    needle <+: a ++ c :: b ↔ needle <+: a := by
  refine ⟨fun h => ?_, fun h => h.trans (List.prefix_append _ _)⟩
  rcases List.prefix_or_prefix_of_prefix h (List.prefix_append a (c :: b)) with hle | ⟨r, rfl⟩
  · exact hle
  · cases r with
    | nil => simp
    | cons d r =>
      have hd := (List.cons_prefix_cons.mp ((List.prefix_append_right_inj a).mp h)).1
      exact absurd (hd ▸ List.mem_append_right _ List.mem_cons_self) hc

theorem countFrom_append_cons {needle a b : List α} {skip : ℕ} (hneedle : needle ≠ [])
    (hc : c ∉ needle) (hskip : skip ≤ a.length) :
    countFrom needle skip (a ++ c :: b) = countFrom needle skip a + countText needle b := by
  induction a generalizing skip with
  | nil =>
    rw [Nat.le_zero.mp hskip, List.nil_append, countFrom, countFrom, Nat.zero_add, countText]
    refine if_neg fun h => hneedle ?_
    have hpre := (prefix_append_cons_iff (a := []) hc).mp (List.isPrefixOf_iff_prefix.mp h)
    exact List.prefix_nil.mp hpre
  | cons x a ih =>
    cases skip with
    | succ skip => exact ih (Nat.le_of_succ_le_succ hskip)
    | zero =>
      have hpre : needle.isPrefixOf (x :: (a ++ c :: b)) = true ↔
          needle.isPrefixOf (x :: a) = true := by
        rw [List.isPrefixOf_iff_prefix, List.isPrefixOf_iff_prefix]
        exact prefix_append_cons_iff (a := x :: a) hc
      rw [List.cons_append, countFrom, countFrom]
      by_cases h : needle.isPrefixOf (x :: a) = true
      · have hlen : needle.length ≤ a.length + 1 := (List.isPrefixOf_iff_prefix.mp h).length_le
        rw [if_pos (hpre.mpr h), if_pos h, ih (by omega), Nat.add_assoc]
      · rw [if_neg (mt hpre.mp h), if_neg h, ih (Nat.zero_le _)]

omit [DecidableEq α] in
theorem map_intercalate {β : Type*} (f : α → β) (sep : List α) (parts : List (List α)) :
    (List.intercalate sep parts).map f =
      List.intercalate (sep.map f) (parts.map (List.map f)) := by
  induction parts with
  | nil => rfl
  | cons part parts ih =>
    cases parts with
    | nil => simp [List.intercalate]
    | cons next parts =>
      rw [List.intercalate_cons_cons, List.map_append, List.map_append, ih]
      exact List.intercalate_cons_cons.symm

/-- **Counting over a separator.** The occurrences of a word before and behind
a character that is not in it add up. -/
theorem countText_append_cons {needle : List α} (hneedle : needle ≠ []) (hc : c ∉ needle)
    (a b : List α) : countText needle (a ++ c :: b) = countText needle a + countText needle b :=
  countFrom_append_cons hneedle hc (Nat.zero_le _)

end Counting

/-! ## Insertions -/

section Insertions

variable {anchor line word ys : List α} {d : α}

/-- At most one character follows a `c` in the word. -/
def ClosedBy (c : α) (word : List α) : Prop := ∀ u v, word = u ++ c :: v → v.length ≤ 1

omit [DecidableEq α] in
theorem ClosedBy.tail {x : α} (h : ClosedBy c (x :: word)) : ClosedBy c word :=
  fun u v huv => h (x :: u) v (by rw [huv]; rfl)

omit [DecidableEq α] in
theorem closedBy_append {u v : List α} (hu : c ∉ u) (hv : v.length ≤ 2) : ClosedBy c (u ++ v) := by
  intro u' v' huv
  rcases List.append_eq_append_iff.mp huv with ⟨w, rfl, rfl⟩ | ⟨w, rfl, hw⟩
  · rw [List.length_append, List.length_cons] at hv
    omega
  · cases w with
    | nil =>
      rw [← List.nil_append v, ← hw, List.length_cons] at hv
      omega
    | cons y w =>
      obtain ⟨rfl, -⟩ := List.cons.inj hw
      exact absurd (List.mem_append_right u' List.mem_cons_self) hu

omit [DecidableEq α] in
/-- Such a word does not begin in a text with a `c` and more behind it and end
behind the text. -/
theorem ClosedBy.apart {x : α} (h : ClosedBy c (x :: word)) {u v : List α} (hv : 2 ≤ v.length)
    (hx : x ∉ v) : Apart (u ++ c :: v) (x :: word) := by
  have htail : ∀ t, ¬ t ++ c :: v <+: x :: word := by
    rintro t ⟨r, hr⟩
    have hlen := h t (v ++ r) (by rw [← hr]; simp)
    rw [List.length_append] at hlen
    omega
  intro s hs hne hle
  rcases List.suffix_or_suffix_of_suffix hs (List.suffix_append u (c :: v)) with hsv | ⟨t, rfl⟩
  · rcases List.suffix_cons_iff.mp hsv with rfl | hsv
    · exact absurd hle (htail [])
    · -- the word would open with a character of `v`
      cases s with
      | nil => exact absurd rfl hne
      | cons y s =>
        rw [List.cons_prefix_cons] at hle
        exact absurd (hle.1 ▸ hsv.subset List.mem_cons_self) hx
  · exact absurd hle (htail t)

omit [DecidableEq α] in
/-- A word with an opening that no ending of the text goes with. -/
theorem apart_of_opening {opening : List α}
    (h : ∀ s ∈ xs.tails, s ≠ [] → ¬ s <+: opening ∧ ¬ opening <+: s) (v : List α) :
    Apart xs (opening ++ v) := by
  intro s hs hne hle
  obtain ⟨hshort, hlong⟩ := h s ((List.mem_tails _ _).mpr hs) hne
  rcases List.prefix_or_prefix_of_prefix hle (List.prefix_append opening v) with hle' | hle'
  · exact absurd hle' hshort
  · exact absurd hle' hlong

omit [DecidableEq α] in
/-- Such a word does not begin before the end of an anchor and end behind
it. -/
theorem ClosedBy.prefix_of_append (h : ClosedBy c word) {u : List α}
    (hword : word <+: u ++ [c, d] ++ xs) : word <+: u ++ [c, d] := by
  rcases List.prefix_or_prefix_of_prefix hword (List.prefix_append _ xs) with hle | ⟨v, hv⟩
  · exact hle
  · have hlen := h u (d :: v) (by rw [← hv]; simp)
    rw [List.length_cons] at hlen
    have hnil : v = [] := List.length_eq_zero_iff.mp (by omega)
    rw [← hv, hnil, List.append_nil]

omit [DecidableEq α] in
/-- **An insertion behind an anchor leaves what stands before it.** -/
theorem prefix_iff_of_replaced {u : List α} (hanchor : anchor = u ++ [c, d])
    (h : Replaced anchor (anchor ++ line) xs ys) (hword : ClosedBy c word) :
    word <+: ys ↔ word <+: xs := by
  induction h generalizing word with
  | nil => rfl
  | keep _ _ ih =>
    cases word with
    | nil => simp
    | cons y word => rw [List.cons_prefix_cons, List.cons_prefix_cons, ih hword.tail]
  | @change xs ys _ _ =>
    rw [hanchor, List.append_assoc]
    constructor
    · exact fun hle => (hword.prefix_of_append hle).trans (List.prefix_append _ _)
    · exact fun hle => (hword.prefix_of_append hle).trans (List.prefix_append _ _)

/-- Insertions add the occurrences they contain. -/
theorem occurrences_replaced {u : List α} (hanchor : anchor = u ++ [c, d])
    (hself : Apart anchor anchor) (hone : occurrences anchor anchor = 1)
    (h : Replaced anchor (anchor ++ line) xs ys) (hword : ClosedBy c word)
    (hcut : Apart anchor word) (hcut' : Apart line word) :
    occurrences word ys = occurrences word xs + occurrences anchor xs * occurrences word line := by
  induction h with
  | nil => simp [occurrences]
  | @keep x xs ys hnot hrest ih =>
    have hiff := prefix_iff_of_replaced hanchor (.keep hnot hrest) hword
    rw [occurrences, occurrences, occurrences, ih, if_congr hiff rfl rfl, if_neg hnot]
    ring
  | @change xs ys hrest ih =>
    rw [List.append_assoc, occurrences_append hcut, occurrences_append hcut', ih,
      occurrences_append hcut, occurrences_append hself, hone]
    ring

/-- Insertions do not change the count of a character they do not contain. -/
theorem count_replaced (h : Replaced anchor (anchor ++ line) xs ys) (hc : c ∉ line) :
    ys.count c = xs.count c := by
  induction h with
  | nil => rfl
  | keep _ _ ih => rw [List.count_cons, List.count_cons, ih]
  | change _ ih =>
    rw [List.append_assoc, List.count_append, List.count_append, List.count_append, ih,
      List.count_eq_zero_of_not_mem hc, Nat.zero_add]

omit [DecidableEq α] in
/-- Insertions make a text longer. -/
theorem length_replaced (h : Replaced anchor (anchor ++ line) xs ys) :
    xs.length ≤ ys.length ∧ (anchor <:+: xs → anchor ≠ [] → line ≠ [] → xs.length < ys.length) := by
  induction h with
  | nil =>
    refine ⟨le_rfl, fun hin hne => ?_⟩
    exact absurd (List.infix_nil.mp hin) hne
  | @keep x xs ys hnot _ ih =>
    rw [List.length_cons, List.length_cons]
    refine ⟨by omega, fun hin hne hline => ?_⟩
    have := ih.2 ((List.infix_cons_iff.mp hin).resolve_left hnot) hne hline
    omega
  | change _ ih =>
    rw [List.length_append, List.length_append, List.length_append]
    refine ⟨by omega, fun _ _ hline => ?_⟩
    have := List.length_pos_iff.mpr hline
    omega

end Insertions

end Text

end VllmScheduler
