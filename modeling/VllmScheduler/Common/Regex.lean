import Mathlib.Data.List.Basic
import Mathlib.Data.List.Infix
import Mathlib.Data.List.Flatten
import Mathlib.Algebra.Order.BigOperators.Group.List
import Mathlib.Algebra.Order.Group.Nat
/-!
# Regular expressions with backtracking

The regular expressions of scripting languages: at a place of a text an
expression tries its ways of matching in a fixed order, alternatives from left
to right and repetitions as long as possible first, and the first one that
succeeds is the match. `words` lists the texts it can match there in that
order, so that the first of the list is the match.

Searching goes from left to right; finding all matches, substituting and
splitting go on behind the match just found. An expression that matches the
empty text is not meant to be used for these.

Without assertions about the neighbourhood (`Plain`) which texts an expression
can match does not depend on the place, and `Lang` says which they are.
-/

namespace VllmScheduler

universe u

/-- A regular expression. -/
inductive Regex (α : Type u) where
  | empty
  /-- A character of a class. -/
  | cls (p : α → Bool)
  | seq (r s : Regex α)
  | alt (r s : Regex α)
  /-- As often as possible. -/
  | star (r : Regex α)
  /-- A condition on the character before the place and the one after it. -/
  | look (p : Option α → Option α → Bool)

namespace Regex

variable {α : Type u}

/-- Once or more often. -/
def plus (r : Regex α) : Regex α := seq r (star r)

/-- Once or not at all. -/
def optional (r : Regex α) : Regex α := alt r empty

/-- One after the other. -/
def seqs (rs : List (Regex α)) : Regex α := rs.foldr seq empty

/-- One of them, the earlier ones first. -/
def alts (rs : List (Regex α)) : Regex α := rs.foldr alt (cls fun _ => false)

/-- A literal text. -/
def lit [DecidableEq α] (s : List α) : Regex α := seqs (s.map fun c => cls (· = c))

/-- The last character of a text that was read behind `before`. -/
def lastOr (before : Option α) (w : List α) : Option α := w.getLast?.or before

/-- Repetitions of what `f` matches, the longer ones first; `fuel` bounds how
many, and an empty match ends them. -/
def iterate (f : Option α → List α → List (List α)) :
    ℕ → Option α → List α → List (List α)
  | 0, _, _ => [[]]
  | fuel + 1, before, xs =>
    ((f before xs).filter fun w => !w.isEmpty).flatMap (fun w =>
      (iterate f fuel (lastOr before w) (xs.drop w.length)).map (w ++ ·)) ++ [[]]

/-- What an expression matches at a place of a text, the first choice first.
`before` is the character before the place and `xs` the text after it. -/
def words : Regex α → Option α → List α → List (List α)
  | empty, _, _ => [[]]
  | cls p, _, xs =>
    match xs with
    | [] => []
    | x :: _ => if p x then [[x]] else []
  | seq r s, before, xs =>
    (words r before xs).flatMap fun w =>
      (words s (lastOr before w) (xs.drop w.length)).map (w ++ ·)
  | alt r s, before, xs => words r before xs ++ words s before xs
  | star r, before, xs => iterate (words r) xs.length before xs
  | look p, before, xs => if p before xs.head? then [[]] else []

/-- The first match: the text before it, the match and the text after it. -/
def find (r : Regex α) : Option α → List α → Option (List α × List α × List α)
  | before, [] => (words r before []).head?.map fun w => ([], w, [])
  | before, x :: xs =>
    match (words r before (x :: xs)).head? with
    | some w => some ([], w, (x :: xs).drop w.length)
    | none => (find r (some x) xs).map fun m => (x :: m.1, m.2.1, m.2.2)

/-- Is there a match? -/
def search (r : Regex α) (xs : List α) : Bool := (find r none xs).isSome

/-- A part of a text: a character outside of all matches, or a match. -/
inductive Piece (α : Type u) where
  | plain (x : α)
  | hit (w : List α)

/-- The text cut into its matches and the characters between them, where
`skip` characters of the last match are still to be passed over. -/
def pieces (r : Regex α) : ℕ → Option α → List α → List (Piece α)
  | _, _, [] => []
  | skip + 1, _, x :: xs => pieces r skip (some x) xs
  | 0, before, x :: xs =>
    match (words r before (x :: xs)).head? with
    | some (y :: w) => .hit (y :: w) :: pieces r w.length (some x) xs
    | _ => .plain x :: pieces r 0 (some x) xs

/-- The matches, from left to right. -/
def findall (r : Regex α) (xs : List α) : List (List α) :=
  (pieces r 0 none xs).filterMap fun
    | .plain _ => none
    | .hit w => some w

/-- Every match becomes `new`. -/
def sub (r : Regex α) (new xs : List α) : List α :=
  (pieces r 0 none xs).flatMap fun
    | .plain x => [x]
    | .hit _ => new

/-- The texts between the matches. -/
def splitPieces : List (Piece α) → List (List α)
  | [] => [[]]
  | .hit _ :: ps => [] :: splitPieces ps
  | .plain x :: ps =>
    match splitPieces ps with
    | [] => [[x]]
    | s :: ss => (x :: s) :: ss

/-- The texts between the matches. -/
def split (r : Regex α) (xs : List α) : List (List α) := splitPieces (pieces r 0 none xs)

/-! ## What an expression matches -/

/-- The expression asks nothing about the neighbourhood. -/
def Plain : Regex α → Prop
  | empty | cls _ => True
  | seq r s | alt r s => Plain r ∧ Plain s
  | star r => Plain r
  | look _ => False

/-- The texts an expression can match. -/
def Lang : Regex α → List α → Prop
  | empty, w => w = []
  | cls p, w => ∃ x, p x = true ∧ w = [x]
  | seq r s, w => ∃ u v, w = u ++ v ∧ Lang r u ∧ Lang s v
  | alt r s, w => Lang r w ∨ Lang s w
  | star r, w => ∃ ws : List (List α), w = ws.flatten ∧ ∀ u ∈ ws, u ≠ [] ∧ Lang r u
  | look _, _ => False

section Words

variable {r s : Regex α} {before : Option α} {xs w : List α}

/-- Where something matches, there is a match. -/
theorem exists_head?_of_mem {ws : List (List α)} (h : w ∈ ws) : ∃ v, ws.head? = some v :=
  Option.ne_none_iff_exists'.mp (mt List.head?_eq_none_iff.mp (List.ne_nil_of_mem h))

/-- A text is read in two parts where the second one follows the first. -/
theorem prefix_append_iff {u v : List α} : u ++ v <+: xs ↔ u <+: xs ∧ v <+: xs.drop u.length := by
  constructor
  · rintro ⟨t, rfl⟩
    simp [List.append_assoc]
  · rintro ⟨⟨t, rfl⟩, hv⟩
    rw [List.drop_left] at hv
    exact (List.prefix_append_right_inj u).mpr hv

theorem mem_iterate {f : Option α → List α → List (List α)} {L : List α → Prop}
    (hf : ∀ before xs w, w ∈ f before xs ↔ w <+: xs ∧ L w) {fuel : ℕ} (hfuel : xs.length ≤ fuel) :
    w ∈ iterate f fuel before xs ↔
      w <+: xs ∧ ∃ ws : List (List α), w = ws.flatten ∧ ∀ u ∈ ws, u ≠ [] ∧ L u := by
  induction fuel generalizing before xs w with
  | zero =>
    rw [List.length_eq_zero_iff.mp (Nat.le_zero.mp hfuel), iterate, List.mem_singleton,
      List.prefix_nil]
    exact ⟨fun h => ⟨h, [], by simpa using h, by simp⟩, And.left⟩
  | succ fuel ih =>
    rw [iterate, List.mem_append, List.mem_singleton, List.mem_flatMap]
    constructor
    · rintro (⟨u, hu, hw⟩ | rfl)
      · rw [List.mem_filter, hf] at hu
        obtain ⟨⟨hpre, hL⟩, hne⟩ := hu
        obtain ⟨v, hv, rfl⟩ := List.mem_map.mp hw
        have hne' : u ≠ [] := by simpa using hne
        have hlen := List.length_pos_iff.mpr hne'
        rw [ih (by rw [List.length_drop]; omega)] at hv
        obtain ⟨hvpre, vs, rfl, hvs⟩ := hv
        exact ⟨prefix_append_iff.mpr ⟨hpre, hvpre⟩, u :: vs, rfl,
          List.forall_mem_cons.mpr ⟨⟨hne', hL⟩, hvs⟩⟩
      · exact ⟨List.nil_prefix, [], rfl, by simp⟩
    · rintro ⟨hpre, ws, rfl, hws⟩
      cases ws with
      | nil => exact Or.inr rfl
      | cons u ws =>
        obtain ⟨⟨hne, hL⟩, hrest⟩ := List.forall_mem_cons.mp hws
        rw [List.flatten_cons, prefix_append_iff] at hpre
        have hlen := List.length_pos_iff.mpr hne
        refine Or.inl ⟨u, ?_, List.mem_map.mpr ⟨ws.flatten, ?_, rfl⟩⟩
        · rw [List.mem_filter, hf]
          exact ⟨⟨hpre.1, hL⟩, by simpa using hne⟩
        · rw [ih (by rw [List.length_drop]; omega)]
          exact ⟨hpre.2, ws, rfl, hrest⟩

/-- **What an expression matches at a place** are the texts of its language
that stand there. -/
theorem mem_words (hr : Plain r) : w ∈ words r before xs ↔ w <+: xs ∧ Lang r w := by
  induction r generalizing before xs w with
  | empty =>
    rw [words, List.mem_singleton]
    exact ⟨fun h => ⟨h ▸ List.nil_prefix, h⟩, And.right⟩
  | cls p =>
    cases xs with
    | nil =>
      simp only [words, List.not_mem_nil, Lang, List.prefix_nil, false_iff]
      rintro ⟨rfl, x, -, hx⟩
      cases hx
    | cons x xs =>
      simp only [words, Lang]
      constructor
      · intro hw
        split at hw
        · rename_i hp
          rw [List.mem_singleton] at hw
          exact ⟨⟨xs, by rw [hw]; rfl⟩, x, hp, hw⟩
        · cases hw
      · rintro ⟨hpre, y, hy, rfl⟩
        rw [List.cons_prefix_cons] at hpre
        rw [← hpre.1, if_pos hy]
        exact List.mem_singleton_self _
  | seq r s ihr ihs =>
    simp only [words, List.mem_flatMap, List.mem_map, Lang, ihr hr.1, ihs hr.2]
    constructor
    · rintro ⟨u, ⟨hu, hLu⟩, v, ⟨hv, hLv⟩, rfl⟩
      exact ⟨prefix_append_iff.mpr ⟨hu, hv⟩, u, v, rfl, hLu, hLv⟩
    · rintro ⟨hpre, u, v, rfl, hLu, hLv⟩
      obtain ⟨hu, hv⟩ := prefix_append_iff.mp hpre
      exact ⟨u, ⟨hu, hLu⟩, v, ⟨hv, hLv⟩, rfl⟩
  | alt r s ihr ihs =>
    rw [words, List.mem_append, ihr hr.1, ihs hr.2, Lang]
    tauto
  | star r ih =>
    rw [words, Lang]
    exact mem_iterate (fun before xs w => ih hr) le_rfl
  | look p => exact hr.elim

theorem words_eq_nil_iff (hr : Plain r) :
    words r before xs = [] ↔ ∀ w, Lang r w → ¬ w <+: xs := by
  rw [List.eq_nil_iff_forall_not_mem]
  refine forall_congr' fun w => ?_
  rw [mem_words hr]
  tauto

/-! What an expression with assertions matches is read off part by part. -/

theorem mem_words_seq : w ∈ words (seq r s) before xs ↔
    ∃ u v, w = u ++ v ∧ u ∈ words r before xs ∧
      v ∈ words s (lastOr before u) (xs.drop u.length) := by
  simp only [words, List.mem_flatMap, List.mem_map]
  constructor
  · rintro ⟨u, hu, v, hv, rfl⟩
    exact ⟨u, v, rfl, hu, hv⟩
  · rintro ⟨u, v, rfl, hu, hv⟩
    exact ⟨u, hu, v, hv, rfl⟩

theorem mem_words_look {p : Option α → Option α → Bool} :
    w ∈ words (look p) before xs ↔ w = [] ∧ p before xs.head? = true := by
  rw [words]
  split
  · rename_i h
    simp [h]
  · rename_i h
    simp [h]

end Words

/-! ## Languages -/

section Languages

variable {r s : Regex α} {w : List α}

@[simp] theorem lang_seqs_nil : Lang (seqs ([] : List (Regex α))) w ↔ w = [] := Iff.rfl

@[simp] theorem lang_seqs_cons {rs : List (Regex α)} :
    Lang (seqs (r :: rs)) w ↔ ∃ u v, w = u ++ v ∧ Lang r u ∧ Lang (seqs rs) v := Iff.rfl

@[simp] theorem lang_lit [DecidableEq α] {t : List α} : Lang (lit t) w ↔ w = t := by
  induction t generalizing w with
  | nil => exact Iff.rfl
  | cons c t ih =>
    show (∃ u v, w = u ++ v ∧ Lang (cls (· = c)) u ∧ Lang (lit t) v) ↔ _
    simp only [ih, Lang, decide_eq_true_eq]
    constructor
    · rintro ⟨u, v, rfl, ⟨x, rfl, rfl⟩, rfl⟩
      rfl
    · rintro rfl
      exact ⟨[c], t, rfl, ⟨c, rfl, rfl⟩, rfl⟩

@[simp] theorem lang_star_cls {p : α → Bool} : Lang (star (cls p)) w ↔ ∀ x ∈ w, p x = true := by
  constructor
  · rintro ⟨ws, rfl, hws⟩ x hx
    obtain ⟨u, hu, hxu⟩ := List.mem_flatten.mp hx
    obtain ⟨-, y, hy, rfl⟩ := hws u hu
    rw [List.mem_singleton] at hxu
    exact hxu ▸ hy
  · intro hw
    refine ⟨w.map fun x => [x], ?_, ?_⟩
    · induction w with
      | nil => rfl
      | cons x w ih =>
        rw [List.map_cons, List.flatten_cons,
          ← ih fun y hy => hw y (List.mem_cons_of_mem _ hy)]
        rfl
    · intro u hu
      obtain ⟨x, hx, rfl⟩ := List.mem_map.mp hu
      exact ⟨List.cons_ne_nil _ _, x, hw x hx, rfl⟩

@[simp] theorem lang_plus_cls {p : α → Bool} :
    Lang (plus (cls p)) w ↔ w ≠ [] ∧ ∀ x ∈ w, p x = true := by
  constructor
  · rintro ⟨_, v, rfl, ⟨x, hx, rfl⟩, hv⟩
    exact ⟨List.cons_ne_nil _ _, List.forall_mem_cons.mpr ⟨hx, lang_star_cls.mp hv⟩⟩
  · rintro ⟨hne, hw⟩
    cases w with
    | nil => exact absurd rfl hne
    | cons x w =>
      obtain ⟨hx, hw⟩ := List.forall_mem_cons.mp hw
      exact ⟨[x], w, rfl, ⟨x, hx, rfl⟩, lang_star_cls.mpr hw⟩

@[simp] theorem plain_plus : Plain (plus r) ↔ Plain r := and_self_iff

@[simp] theorem plain_seqs {rs : List (Regex α)} : Plain (seqs rs) ↔ ∀ r ∈ rs, Plain r := by
  induction rs with
  | nil => simp [seqs, Plain]
  | cons r rs ih => simp [seqs, Plain, ← ih]

@[simp] theorem plain_lit [DecidableEq α] {t : List α} : Plain (lit t) := by
  simp [lit, Plain]

@[simp] theorem plain_cls {p : α → Bool} : Plain (cls p) := trivial

@[simp] theorem plain_star : Plain (star r) ↔ Plain r := Iff.rfl

end Languages

/-! ## Searching -/

section Searching

variable {r : Regex α} {before : Option α} {xs : List α}

/-- **What a search finds.** The match is one of the language, and none starts
further to the left. -/
theorem find_eq_some (hr : Plain r) {pre w post : List α}
    (h : find r before xs = some (pre, w, post)) :
    xs = pre ++ (w ++ post) ∧ Lang r w ∧
      ∀ u v, u ++ v = pre → v ≠ [] → ∀ m, Lang r m → ¬ m <+: v ++ (w ++ post) := by
  have hhead : ∀ {before : Option α} {xs : List α}, (words r before xs).head? = some w →
      xs = w ++ xs.drop w.length ∧ Lang r w := by
    intro before xs hw
    obtain ⟨hpre, hL⟩ := (mem_words hr).mp (List.mem_of_mem_head? hw)
    exact ⟨(List.prefix_iff_eq_append.mp hpre).symm, hL⟩
  induction xs generalizing before pre with
  | nil =>
    rw [find, Option.map_eq_some_iff] at h
    obtain ⟨w', hw, heq⟩ := h
    cases heq
    obtain ⟨hxs, hL⟩ := hhead hw
    refine ⟨by simpa using hxs, hL, ?_⟩
    intro u v huv hv
    exact absurd (List.append_eq_nil_iff.mp huv).2 hv
  | cons x xs ih =>
    rw [find] at h
    split at h
    · rename_i w' hw
      cases h
      obtain ⟨hxs, hL⟩ := hhead hw
      refine ⟨hxs, hL, ?_⟩
      intro u v huv hv
      exact absurd (List.append_eq_nil_iff.mp huv).2 hv
    · rename_i hnone
      obtain ⟨⟨pre', w', post'⟩, hfind, heq⟩ := Option.map_eq_some_iff.mp h
      cases heq
      obtain ⟨rfl, hL, hfirst⟩ := ih hfind
      refine ⟨rfl, hL, ?_⟩
      intro u v huv hv m hm
      cases u with
      | nil =>
        rw [List.nil_append] at huv
        rw [huv]
        exact (words_eq_nil_iff hr).mp (List.head?_eq_none_iff.mp hnone) m hm
      | cons y u => exact hfirst u v (List.cons.inj huv).2 hv m hm

/-- **When a search finds nothing.** -/
theorem find_eq_none_iff (hr : Plain r) :
    find r before xs = none ↔ ∀ w, Lang r w → ¬ w <:+: xs := by
  induction xs generalizing before with
  | nil =>
    rw [find, Option.map_eq_none_iff, List.head?_eq_none_iff, words_eq_nil_iff hr]
    refine forall₂_congr fun w _ => not_congr ?_
    rw [List.prefix_nil, List.infix_nil]
  | cons x xs ih =>
    rw [find]
    split
    · rename_i w hw
      obtain ⟨hpre, hL⟩ := (mem_words hr).mp (List.mem_of_mem_head? hw)
      exact iff_of_false (by simp) fun hnone => hnone w hL hpre.isInfix
    · rename_i hnone
      rw [List.head?_eq_none_iff, words_eq_nil_iff hr] at hnone
      rw [Option.map_eq_none_iff, ih]
      refine forall₂_congr fun w hw => not_congr ?_
      rw [List.infix_cons_iff]
      exact ⟨Or.inr, fun h => h.resolve_left (hnone w hw)⟩

theorem search_eq_false_iff (hr : Plain r) :
    search r xs = false ↔ ∀ w, Lang r w → ¬ w <:+: xs := by
  rw [search, Option.isSome_eq_false_iff, Option.isNone_iff_eq_none, find_eq_none_iff hr]

theorem search_eq_true_iff (hr : Plain r) :
    search r xs = true ↔ ∃ u w v, xs = u ++ (w ++ v) ∧ Lang r w := by
  rw [← not_iff_not, Bool.not_eq_true, search_eq_false_iff hr]
  constructor
  · rintro h ⟨u, w, v, rfl, hw⟩
    exact h w hw ⟨u, v, by rw [List.append_assoc]⟩
  · rintro h w hw ⟨u, v, rfl⟩
    exact h ⟨u, w, v, by rw [List.append_assoc], hw⟩

/-- No match lies before the one that is found. -/
theorem not_lang_before (hr : Plain r) {pre w post u m v : List α}
    (h : find r before xs = some (pre, w, post)) (hpre : pre = u ++ (m ++ v))
    (hne : m ++ v ≠ []) : ¬ Lang r m := by
  intro hm
  obtain ⟨-, -, hfirst⟩ := find_eq_some hr h
  refine hfirst u (m ++ v) hpre.symm hne m hm ?_
  rw [List.append_assoc]
  exact List.prefix_append m _

/-! ## A class at the end

An expression that ends with the repetition of a class matches as far as the
class goes. -/

section Trailing

variable {p : α → Bool}

theorem head?_iterate_cls {fuel : ℕ} (hfuel : xs.length ≤ fuel) :
    (iterate (words (cls p)) fuel before xs).head? = some (xs.takeWhile p) := by
  induction fuel generalizing before xs with
  | zero =>
    rw [List.length_eq_zero_iff.mp (Nat.le_zero.mp hfuel)]
    rfl
  | succ fuel ih =>
    cases xs with
    | nil => rfl
    | cons x xs =>
      rw [List.length_cons] at hfuel
      rw [iterate, words, List.takeWhile_cons]
      split
      · simp [ih (Nat.le_of_succ_le_succ hfuel)]
      · rfl

theorem head?_words_seq_star :
    (words (seq r (star (cls p))) before xs).head? =
      (words r before xs).head?.map fun w => w ++ (xs.drop w.length).takeWhile p := by
  rw [words]
  cases words r before xs with
  | nil => rfl
  | cons w ws =>
    have hstar : (words (star (cls p)) (lastOr before w) (xs.drop w.length)).head? =
        some ((xs.drop w.length).takeWhile p) := head?_iterate_cls le_rfl
    rw [List.flatMap_cons, List.head?_append, List.head?_map, hstar]
    rfl

theorem drop_takeWhile_length : xs.drop (xs.takeWhile p).length = xs.dropWhile p := by
  refine (List.append_right_inj (xs.takeWhile p)).mp ?_
  rw [List.prefix_iff_eq_append.mp (List.takeWhile_prefix p), List.takeWhile_append_dropWhile]

/-- **Where such an expression is found** its first part is. -/
theorem find_seq_star :
    find (seq r (star (cls p))) before xs = (find r before xs).map fun m =>
      (m.1, m.2.1 ++ m.2.2.takeWhile p, m.2.2.dropWhile p) := by
  induction xs generalizing before with
  | nil =>
    rw [find, find, head?_words_seq_star]
    cases (words r before []).head? <;> simp
  | cons x xs ih =>
    rw [find, find, head?_words_seq_star]
    cases (words r before (x :: xs)).head? with
    | none =>
      simp only [Option.map_none, ih, Option.map_map]
      rfl
    | some w =>
      simp only [Option.map_some, List.length_append, ← List.drop_drop]
      rw [drop_takeWhile_length]

end Trailing

end Searching

/-! ## Substituting -/

section Substituting

variable {r : Regex α} {before : Option α} {xs : List α} {skip : ℕ}

/-- The text of a piece. -/
def Piece.text : Piece α → List α
  | .plain x => [x]
  | .hit w => w

theorem pieces_nil : pieces r skip before [] = [] := by
  cases skip <;> rfl

theorem pieces_skip : pieces r skip before xs = pieces r 0 (lastOr before (xs.take skip))
    (xs.drop skip) := by
  induction skip generalizing before xs with
  | zero => simp [lastOr]
  | succ skip ih =>
    cases xs with
    | nil => simp [pieces_nil]
    | cons x xs =>
      rw [pieces, ih, List.take_succ_cons, List.drop_succ_cons]
      cases htake : xs.take skip with
      | nil => simp [lastOr]
      | cons y ys => simp [lastOr, List.getLast?_cons]

/-- The pieces make up the text, and the matches among them are matches. -/
theorem pieces_spec (hr : Plain r) (before : Option α) (xs : List α) :
    (pieces r 0 before xs).flatMap Piece.text = xs ∧
      ∀ w, .hit w ∈ pieces r 0 before xs → Lang r w := by
  induction hn : xs.length using Nat.strongRecOn generalizing before xs with
  | _ n ih =>
    cases xs with
    | nil => exact ⟨rfl, by simp [pieces]⟩
    | cons x xs =>
      rw [List.length_cons] at hn
      rw [pieces]
      split
      · rename_i y w hw
        obtain ⟨⟨t, ht⟩, hL⟩ := (mem_words hr).mp (List.mem_of_mem_head? hw)
        rw [List.cons_append] at ht
        obtain ⟨rfl, rfl⟩ := List.cons.inj ht
        rw [pieces_skip, List.drop_left, List.take_left]
        rw [List.length_append] at hn
        obtain ⟨htext, hhits⟩ := ih t.length (by omega) _ t rfl
        refine ⟨?_, ?_⟩
        · rw [List.flatMap_cons, htext]
          rfl
        · intro u hu
          rcases List.mem_cons.mp hu with heq | hu
          · cases heq
            exact hL
          · exact hhits u hu
      · obtain ⟨htext, hhits⟩ := ih xs.length (by omega) _ xs rfl
        refine ⟨?_, ?_⟩
        · rw [List.flatMap_cons, htext]
          rfl
        · intro u hu
          exact hhits u ((List.mem_cons.mp hu).resolve_left (by simp))

/-- Where there is a match, there is one among the pieces. -/
theorem exists_hit (hr : Plain r) (hne : ∀ w, Lang r w → w ≠ [])
    {w : List α} (hw : Lang r w) (hin : w <:+: xs) : ∃ v, .hit v ∈ pieces r 0 before xs := by
  induction xs generalizing before with
  | nil => exact absurd (List.infix_nil.mp hin) (hne w hw)
  | cons x xs ih =>
    rw [pieces]
    split
    · rename_i y v hv
      exact ⟨y :: v, List.mem_cons_self⟩
    · rename_i hnot
      -- nothing is matched here
      have hnone : ¬ w <+: x :: xs := by
        intro hpre
        have hmem : w ∈ words r before (x :: xs) := (mem_words hr).mpr ⟨hpre, hw⟩
        obtain ⟨v, hv⟩ := exists_head?_of_mem hmem
        have hL := ((mem_words hr).mp (List.mem_of_mem_head? hv)).2
        cases v with
        | nil => exact hne [] hL rfl
        | cons y v => exact hnot y v hv
      obtain ⟨v, hv⟩ := ih ((List.infix_cons_iff.mp hin).resolve_left hnone)
      exact ⟨v, List.mem_cons_of_mem _ hv⟩

/-- What is found is a part of the text and matches. -/
theorem mem_findall (hr : Plain r) {w : List α} (h : w ∈ findall r xs) :
    Lang r w ∧ w <:+: xs := by
  obtain ⟨htext, hhits⟩ := pieces_spec hr none xs
  obtain ⟨p, hp, hw⟩ := List.mem_filterMap.mp h
  cases p with
  | plain x => cases hw
  | hit v =>
    cases hw
    refine ⟨hhits w hp, ?_⟩
    rw [← htext, List.flatMap]
    exact List.infix_of_mem_flatten (List.mem_map_of_mem hp)

/-- A piece takes up a character of the text at least. -/
theorem length_pieces_le : (pieces r skip before xs).length ≤ xs.length := by
  induction xs generalizing skip before with
  | nil => simp [pieces_nil]
  | cons x xs ih =>
    cases skip with
    | succ skip => exact ih.trans (Nat.le_succ _)
    | zero =>
      rw [pieces]
      split
      · exact Nat.succ_le_succ ih
      · exact Nat.succ_le_succ ih

/-- So there are no more matches than characters. -/
theorem length_findall_le : (findall r xs).length ≤ xs.length :=
  (List.length_filterMap_le _ _).trans length_pieces_le

/-- Without a match nothing is substituted. -/
theorem sub_of_search_false (hr : Plain r) {new : List α} (h : search r xs = false) :
    sub r new xs = xs := by
  obtain ⟨htext, hhits⟩ := pieces_spec hr none xs
  have hplain : ∀ p ∈ pieces r 0 none xs,
      (match p with | .plain x => [x] | .hit _ => new) = p.text := by
    intro p hp
    cases p with
    | plain x => rfl
    | hit w =>
      have hin : w <:+: xs := by
        rw [← htext, List.flatMap]
        exact List.infix_of_mem_flatten (List.mem_map_of_mem hp)
      exact absurd hin ((search_eq_false_iff hr).mp h w (hhits w hp))
  rw [sub, List.flatMap_congr hplain, htext]

/-- Where every match holds a `c`, deleting them takes some of the `c`. -/
theorem count_sub_lt [DecidableEq α] (hr : Plain r) {c : α} (hc : ∀ w, Lang r w → c ∈ w)
    (h : search r xs = true) : (sub r [] xs).count c < xs.count c := by
  obtain ⟨htext, hhits⟩ := pieces_spec hr none xs
  have hne : ∀ w, Lang r w → w ≠ [] := fun w hw => List.ne_nil_of_mem (hc w hw)
  have hmatch : ∃ w, Lang r w ∧ w <:+: xs := by
    by_contra! hnone
    rw [(search_eq_false_iff hr).mpr hnone] at h
    cases h
  obtain ⟨w, hw, hin⟩ := hmatch
  obtain ⟨v, hv⟩ : ∃ v, .hit v ∈ pieces r 0 none xs := exists_hit hr hne hw hin
  conv_rhs => rw [← htext]
  rw [sub, List.count_flatMap, List.count_flatMap]
  refine List.sum_lt_sum _ _ ?_ ⟨.hit v, hv, ?_⟩
  · intro p _
    cases p with
    | plain x => exact le_rfl
    | hit w => simp
  · simpa [Piece.text] using hc v (hhits v hv)

/-! ## Splitting at the runs of a class -/

section Runs

variable {p : α → Bool} {x : α}

theorem pieces_run_of_neg (hx : p x = false) :
    pieces (plus (cls p)) 0 before (x :: xs) =
      .plain x :: pieces (plus (cls p)) 0 (some x) xs := by
  rw [pieces, plus, head?_words_seq_star, words, hx]
  rfl

theorem pieces_run_of_pos (hx : p x = true) (before : Option α) (xs : List α) : ∃ before',
    pieces (plus (cls p)) 0 before (x :: xs) =
      .hit (x :: xs.takeWhile p) :: pieces (plus (cls p)) 0 before' (xs.dropWhile p) := by
  refine ⟨lastOr (some x) (xs.take (xs.takeWhile p).length), ?_⟩
  rw [pieces, plus, head?_words_seq_star, words, hx]
  show .hit (x :: xs.takeWhile p) :: pieces _ (xs.takeWhile p).length _ xs = _
  rw [pieces_skip, drop_takeWhile_length]

theorem countP_splitOnP_dropWhile {q : List α → Bool} (hq : q [] = false) :
    (xs.splitOnP p).countP q = ((xs.dropWhile p).splitOnP p).countP q := by
  induction xs with
  | nil => rfl
  | cons x xs ih =>
    by_cases hx : p x = true
    · rw [List.dropWhile_cons_of_pos hx, ← ih]
      simp [List.splitOnP_cons_eq_if_modifyHead, hx, hq]
    · rw [List.dropWhile_cons_of_neg hx]

theorem splitPieces_run {q : List α → Bool} (hq : q [] = false) (before : Option α)
    (xs : List α) : ∃ h t t', splitPieces (pieces (plus (cls p)) 0 before xs) = h :: t ∧
      xs.splitOnP p = h :: t' ∧ t.countP q = t'.countP q := by
  induction hn : xs.length using Nat.strongRecOn generalizing before xs with
  | _ n ih =>
    cases xs with
    | nil => exact ⟨[], [], [], rfl, rfl, rfl⟩
    | cons x xs =>
      rw [List.length_cons] at hn
      by_cases hx : p x = true
      · obtain ⟨before', hpieces⟩ := pieces_run_of_pos hx before xs
        have hlen := (List.dropWhile_suffix p (l := xs)).length_le
        obtain ⟨h, t, t', hsplit, hsplit', ht⟩ :=
          ih (xs.dropWhile p).length (by omega) before' (xs.dropWhile p) rfl
        refine ⟨[], h :: t, xs.splitOnP p, ?_, ?_, ?_⟩
        · rw [hpieces, splitPieces, hsplit]
        · simp [List.splitOnP_cons_eq_if_modifyHead, hx]
        · rw [countP_splitOnP_dropWhile hq, hsplit', List.countP_cons, List.countP_cons, ht]
      · rw [Bool.not_eq_true] at hx
        obtain ⟨h, t, t', hsplit, hsplit', ht⟩ :=
          ih xs.length (by omega) (some x) xs rfl
        refine ⟨x :: h, t, t', ?_, ?_, ht⟩
        · rw [pieces_run_of_neg hx, splitPieces, hsplit]
        · simp [List.splitOnP_cons_eq_if_modifyHead, hx, hsplit']

/-- **Splitting at runs** gives the same parts as splitting at every character
of them, up to empty ones. -/
theorem countP_split_run {q : List α → Bool} (hq : q [] = false) :
    (split (plus (cls p)) xs).countP q = (xs.splitOnP p).countP q := by
  obtain ⟨h, t, t', hsplit, hsplit', ht⟩ := splitPieces_run (p := p) hq none xs
  rw [split, hsplit, hsplit', List.countP_cons, List.countP_cons, ht]

end Runs

end Substituting

end Regex

end VllmScheduler
