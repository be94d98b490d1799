import Mathlib.Data.List.Basic
import Mathlib.Data.List.Infix
/-!
# Python list literals of strings

What stands between the brackets of a list literal, read character by
character: strings in single or double quotes on one line and without escapes,
commas, blanks, line ends and comments. String literals next to each other are
one element, so an element ends only with a comma or the bracket.
-/

namespace VllmScheduler

namespace PyList

/-- Inside of what the reader is. -/
inductive Mode where
  | plain
  | string (quote : Char) (read : List Char)
  | comment
  deriving DecidableEq

/-- A reader of list literals. -/
structure Reader where
  /-- The elements that ended with a comma. -/
  elements : List (List Char)
  /-- The element that has not ended yet. -/
  waiting : Option (List Char)
  mode : Mode
  deriving DecidableEq

/-- Blanks and line ends. -/
def isBlank (c : Char) : Bool := c == ' ' || c == '\t' || c == '\x0c' || c == '\r' || c == '\n'

def isQuote (c : Char) : Bool := c == '\x22' || c == '\x27'

/-- One character, outside of strings and comments. -/
def stepPlain (r : Reader) (c : Char) : Option Reader :=
  if isBlank c then some r
  else if c == '#' then some { r with mode := .comment }
  else if isQuote c then some { r with mode := .string c [] }
  else if c == ',' then
    match r.waiting with
    | some e => some { r with elements := r.elements ++ [e], waiting := none }
    | none => none
  else none

def step (r : Reader) (c : Char) : Option Reader :=
  match r.mode with
  | .plain => stepPlain r c
  | .string quote read =>
    if c == quote then
      some { r with waiting := some (r.waiting.getD [] ++ read), mode := .plain }
    else if c == '\n' || c == '\x5c' then none
    else some { r with mode := .string quote (read ++ [c]) }
  | .comment => if c == '\n' then some { r with mode := .plain } else some r

def read (body : List Char) : Option Reader := body.foldlM step ⟨[], none, .plain⟩

/-- The list that a literal denotes. -/
def denote (body : List Char) : Option (List (List Char)) :=
  (read body).bind fun r => if r.mode = .plain then some (r.elements ++ r.waiting.toList) else none

/-- No element waits for a comma: the list is empty or ends with one. -/
def Closed (body : List Char) : Prop := ∀ r, read body = some r → r.waiting = none

variable {body : List Char} {names : List (List Char)} {r : Reader}

theorem denote_eq_some : denote body = some names ↔
    ∃ r, read body = some r ∧ r.mode = .plain ∧ r.elements ++ r.waiting.toList = names := by
  rw [denote, Option.bind_eq_some_iff]
  refine exists_congr fun r => and_congr_right fun _ => ?_
  split
  · rename_i hmode
    rw [Option.some_inj]
    exact (and_iff_right hmode).symm
  · rename_i hmode
    exact iff_of_false (by simp) fun h => hmode h.1

/-! ## One more name -/

section Appending

variable {name rest : List Char} {quote : Char}

theorem foldlM_string (hquote : quote ∉ name) (hline : '\n' ∉ name) (hescape : '\x5c' ∉ name)
    {acc : List Char} (hr : r.mode = .string quote acc) :
    (name ++ quote :: rest).foldlM step r = rest.foldlM step
      { r with waiting := some (r.waiting.getD [] ++ (acc ++ name)), mode := .plain } := by
  induction name generalizing r acc with
  | nil =>
    rw [List.nil_append, List.foldlM_cons, step, hr]
    simp
  | cons c name ih =>
    rw [List.mem_cons, not_or] at hquote hline hescape
    have hstep : step r c = some { r with mode := .string quote (acc ++ [c]) } := by
      rw [step, hr]
      simp [Ne.symm hquote.1, Ne.symm hline.1, Ne.symm hescape.1]
    rw [List.cons_append, List.foldlM_cons, hstep]
    show (name ++ quote :: rest).foldlM step { r with mode := .string quote (acc ++ [c]) } = _
    rw [ih hquote.2 hline.2 hescape.2 rfl]
    simp

/-- A quoted name and a comma, read outside of strings and comments: the name is
put behind the element that waits. -/
theorem foldlM_name (hmode : r.mode = .plain) {gap : List Char}
    (hgap : ∀ c ∈ gap, isBlank c = true) (hquote : isQuote quote = true) (hname : quote ∉ name)
    (hline : '\n' ∉ name) (hescape : '\x5c' ∉ name) :
    (gap ++ quote :: (name ++ [quote, ','])).foldlM step r =
      some ⟨r.elements ++ [r.waiting.getD [] ++ name], none, .plain⟩ := by
  have hblanks : ∀ (rest : List Char), (gap ++ rest).foldlM step r = rest.foldlM step r := by
    intro rest
    induction gap with
    | nil => rfl
    | cons c gap ih =>
      obtain ⟨hc, hgap⟩ := List.forall_mem_cons.mp hgap
      have hstep : step r c = some r := by rw [step, hmode]; exact if_pos hc
      rw [List.cons_append, List.foldlM_cons, hstep]
      exact ih hgap
  have hopen : step r quote = some { r with mode := .string quote [] } := by
    rw [step, hmode]
    rcases (by simpa [isQuote] using hquote : quote = '\x22' ∨ quote = '\x27') with rfl | rfl
    · rfl
    · rfl
  rw [hblanks, List.foldlM_cons, hopen]
  show (name ++ quote :: [',']).foldlM step { r with mode := .string quote [] } = _
  rw [foldlM_string hname hline hescape rfl]
  rfl

/-- **A quoted name and a comma behind a literal.** -/
theorem denote_append_name (hr : read body = some r) (hmode : r.mode = .plain)
    {gap : List Char} (hgap : ∀ c ∈ gap, isBlank c = true) (hquote : isQuote quote = true)
    (hname : quote ∉ name) (hline : '\n' ∉ name) (hescape : '\x5c' ∉ name) :
    denote (body ++ (gap ++ quote :: (name ++ [quote, ',']))) =
      some (r.elements ++ [r.waiting.getD [] ++ name]) := by
  rw [denote_eq_some]
  refine ⟨⟨r.elements ++ [r.waiting.getD [] ++ name], none, .plain⟩, ?_, rfl, by simp⟩
  rw [read, List.foldlM_append, show List.foldlM step ⟨[], none, .plain⟩ body = some r from hr]
  exact foldlM_name hmode hgap hquote hname hline hescape

/-- **When the name becomes an element of its own.** Otherwise it goes on with
the last element. -/
theorem denote_append_name_iff (hbody : denote body = some names)
    {gap : List Char} (hgap : ∀ c ∈ gap, isBlank c = true) (hquote : isQuote quote = true)
    (hname : quote ∉ name) (hline : '\n' ∉ name) (hescape : '\x5c' ∉ name) :
    (denote (body ++ (gap ++ quote :: (name ++ [quote, ',']))) = some (names ++ [name]) ↔
        Closed body) ∧
      (¬ Closed body → ∃ front last, names = front ++ [last] ∧
        denote (body ++ (gap ++ quote :: (name ++ [quote, ',']))) =
          some (front ++ [last ++ name])) := by
  obtain ⟨r, hr, hmode, rfl⟩ := denote_eq_some.mp hbody
  have hclosed : Closed body ↔ r.waiting = none :=
    ⟨fun h => h r hr, fun h r' hr' => by rwa [← Option.some.inj (hr.symm.trans hr')]⟩
  rw [denote_append_name hr hmode hgap hquote hname hline hescape, hclosed]
  cases r.waiting with
  | none => simp
  | some e =>
    refine ⟨iff_of_false (fun heq => ?_) (by simp), fun _ => ⟨r.elements, e, rfl, rfl⟩⟩
    have hlen := congrArg List.length (Option.some.inj heq)
    simp at hlen

end Appending

/-! ## Text put into a literal -/

section Inserting

variable {a rest : List Char} {x : Char}

/-- A text that goes on as no literal does. -/
theorem denote_eq_none (h : ∀ r, read a = some r → rest.foldlM step r = none) :
    denote (a ++ rest) = none := by
  have hread : read (a ++ rest) = (read a).bind fun r => rest.foldlM step r := List.foldlM_append
  rw [denote, hread]
  rcases hr : read a with - | r
  · rfl
  · show Option.bind (rest.foldlM step r) _ = none
    rw [h r hr]
    rfl

/-- At the start of a line the reader is outside of strings and comments. -/
theorem mode_of_newline {r' : Reader} (h : step r '\n' = some r') : r'.mode = .plain := by
  rcases hmode : r.mode with - | ⟨quote, acc⟩ | - <;> simp only [step, hmode] at h
  · cases h
    exact hmode
  · split at h
    · cases h
      rfl
    · cases h
  · cases h
    rfl

/-- **A line of a literal does not begin with a bare character.** -/
theorem denote_bare_line (hx : ∀ r : Reader, stepPlain r x = none) :
    denote (a ++ '\n' :: x :: rest) = none := by
  refine denote_eq_none fun r _ => ?_
  rw [List.foldlM_cons]
  rcases hstep : step r '\n' with - | r'
  · rfl
  · show (x :: rest).foldlM step r' = none
    rw [List.foldlM_cons, step, mode_of_newline hstep]
    simp only [hx]
    rfl

/-- **Nor does one go on with a bare character behind a name**, whatever the
name was put into. -/
theorem denote_name_bare {name gap : List Char} {quote : Char}
    (hgap : ∀ c ∈ gap, isBlank c = true) (hquote : isQuote quote = true)
    (hname : quote ∉ name) (hline : '\n' ∉ name) (hescape : '\x5c' ∉ name)
    (hx : ∀ r : Reader, stepPlain r x = none) :
    denote (a ++ '\n' :: ((gap ++ quote :: (name ++ [quote, ','])) ++ x :: rest)) = none := by
  refine denote_eq_none fun r _ => ?_
  rw [List.foldlM_cons]
  rcases hstep : step r '\n' with - | r'
  · rfl
  · show ((gap ++ quote :: (name ++ [quote, ','])) ++ x :: rest).foldlM step r' = none
    rw [List.foldlM_append, foldlM_name (mode_of_newline hstep) hgap hquote hname hline hescape]
    show (x :: rest).foldlM step _ = none
    rw [List.foldlM_cons, step]
    simp only [hx]
    rfl

end Inserting

end PyList

end VllmScheduler
