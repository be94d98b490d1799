import VllmScheduler.Common.PyList
import VllmScheduler.Scripts.PatchRegistry
/-!
# Patching the exports

`scripts/patch_init.py`, which a Docker build runs over the `__init__.py` of
vLLM's models: an import of SmolLM3 is put behind the first import of a model,
and its name is put at the end of the list `__all__`.

The name is put there as text, before the first closing bracket behind the
first `__all__ = [`. Where the last name of the list has no comma behind it the
two string literals are one, so an export is lost and none is added. Where the
bracket is another one, in a comment or in a text before the list, the name is
put there, and where the first import of a model stands in a comment of the
list the new import is put into the list (`patchInit_exports_iff`).
-/

namespace VllmScheduler

namespace PatchInit

open Text Regex PyRegex PatchRegistry

variable (P : PyChars)

def className : List Char := "SmolLM3ForCausalLM".toList

def allName : List Char := "__all__".toList

def quotedName : List Char := "\"SmolLM3ForCausalLM\"".toList

def generationModels : List Char := "_GENERATION_MODELS".toList

def importStart : List Char := "from .smollm3 import".toList

/-- `from \.\w+ import \w+ForCausalLM\n`. -/
def importRe : Regex Char :=
  seqs [lit "from .".toList, plus (cls P.isWord), lit " import ".toList, plus (cls P.isWord),
    lit "ForCausalLM\n".toList]

/-- `__all__\s*=\s*\[`. -/
def allHeadRe : Regex Char :=
  seqs [lit allName, spaces, lit "=".toList, spaces, lit "[".toList]

/-- `__all__\s*=\s*\[[^\]]*`. -/
def allRe : Regex Char := seq allHeadRe (star (cls (· ≠ ']')))

/-- The import, with its line end. -/
def importLine : List Char :=
  "from .smollm3 import SmolLM3ForCausalLM  # native SmolLM3 port".toList ++ "\n".toList

/-- What is put at the end of the list. -/
def exportLine : List Char := "\n    \"SmolLM3ForCausalLM\",".toList

def addImport (content : List Char) : List Char :=
  if importStart <:+: content then content
  else
    match find (importRe P) none content with
    | some (before, found, behind) => before ++ (found ++ (importLine ++ behind))
    | none => importLine ++ content

def addExport (content : List Char) : List Char :=
  if allName <:+: content then
    match find allRe none content with
    | some (before, found, behind) => before ++ (found ++ (exportLine ++ behind))
    | none => content
  else content

/-- The body of the script, on a file that is there. -/
def patchInit (content : List Char) : Patched :=
  if generationModels <:+: content ∧ quotedName <:+: content then
    ⟨content, "SmolLM3ForCausalLM registered via _GENERATION_MODELS ✓".toList⟩
  else if className <:+: content then
    ⟨content, "SmolLM3ForCausalLM already exported ✓".toList⟩
  else
    ⟨addExport (addImport P content), "SmolLM3ForCausalLM added to __init__.py exports ✓".toList⟩

/-! ## The list in the text -/

/-- A list literal in a source: the text before its bracket, what is between
the brackets, and the text behind them. -/
structure Literal where
  front : List Char
  body : List Char
  behind : List Char

/-- A source whose `__all__` is a list literal of quoted names. What makes it the
value of `__all__` is in `front`, with or without an annotation, on one line or
two. -/
structure Source extends Literal where
  names : List (List Char)
  body_names : PyList.denote body = some names

namespace Literal

/-- The text up to the closing bracket. -/
def opened (l : Literal) : List Char := l.front ++ '[' :: l.body

/-- The whole text. -/
def text (l : Literal) : List Char := l.front ++ '[' :: (l.body ++ ']' :: l.behind)

/-- The literal after a text has been put at a place of the source. -/
def insertAt (l : Literal) : Option ℕ → List Char → Literal
  | none, _ => l
  | some n, x =>
    if n ≤ l.front.length then { l with front := l.front.take n ++ (x ++ l.front.drop n) }
    else
      let n := n - (l.front.length + 1)
      if n ≤ l.body.length then { l with body := l.body.take n ++ (x ++ l.body.drop n) }
      else
        let n := n - (l.body.length + 1)
        { l with behind := l.behind.take n ++ (x ++ l.behind.drop n) }

end Literal

/-- Where `addImport` puts its line. -/
def importPlace (content : List Char) : Option ℕ :=
  if importStart <:+: content then none
  else
    match find (importRe P) none content with
    | some (before, found, _) => some (before ++ found).length
    | none => some 0

/-- Where `addExport` puts its line. -/
def exportPlace (content : List Char) : Option ℕ :=
  if allName <:+: content then
    (find allRe none content).map fun m => (m.1 ++ m.2.1).length
  else none

/-- The literal after the script has run. -/
def Literal.patched (l : Literal) : Literal :=
  let l := l.insertAt (importPlace P l.text) importLine
  l.insertAt (exportPlace l.text) exportLine

/-- `__all__\s*=\s*\[[^\]]*\]`. -/
def listRe : Regex Char := seq allRe (lit "]".toList)

/-- The first text that looks like the head of the list stands before the
closing bracket, and that is the first one behind it. -/
def Literal.Aimed (l : Literal) : Prop :=
  search allHeadRe l.opened = true ∧ search listRe l.opened = false

/-- The first import of a model is not in the list, or none is looked for. -/
def Literal.Spared (l : Literal) : Prop :=
  importStart <:+: l.text ∨ search (importRe P) l.front = true ∨ search (importRe P) l.body = false

variable {P} {l : Literal} {w a b x before behind : List Char}

namespace Literal

theorem text_eq : l.text = l.opened ++ ']' :: l.behind := by
  simp only [text, opened, List.append_assoc, List.cons_append]

theorem insertAt_front (h : l.front = a ++ b) :
    l.insertAt (some a.length) x = { l with front := a ++ (x ++ b) } := by
  have hle : a.length ≤ l.front.length := by rw [h]; simp
  rw [insertAt, if_pos hle, h, List.take_left, List.drop_left]

theorem insertAt_body (h : l.body = a ++ b) :
    l.insertAt (some (l.front ++ '[' :: a).length) x = { l with body := a ++ (x ++ b) } := by
  have hlen : (l.front ++ '[' :: a).length = l.front.length + 1 + a.length := by
    simp only [List.length_append, List.length_cons]
    omega
  have hle : a.length ≤ l.body.length := by rw [h]; simp
  rw [insertAt, hlen, if_neg (by omega), Nat.add_sub_cancel_left]
  simp only [if_pos hle]
  rw [h, List.take_left, List.drop_left]

theorem body_insertAt_behind :
    (l.insertAt (some (l.opened ++ ']' :: a).length) x).body = l.body ∧
      (l.insertAt (some (l.opened ++ ']' :: a).length) x).front = l.front := by
  have hlen : (l.opened ++ ']' :: a).length =
      l.front.length + 1 + (l.body.length + 1 + a.length) := by
    simp only [opened, List.length_append, List.length_cons]
    omega
  rw [insertAt, hlen, if_neg (by omega), Nat.add_sub_cancel_left]
  simp only [if_neg (show ¬ l.body.length + 1 + a.length ≤ l.body.length by omega), and_self]

/-- A text put at a place of the literal is put at that place of the source. -/
theorem text_insertAt (n : ℕ) :
    (l.insertAt (some n) x).text = l.text.take n ++ (x ++ l.text.drop n) := by
  rw [insertAt]
  by_cases hfront : n ≤ l.front.length
  · rw [if_pos hfront]
    simp only [text, List.take_append_of_le_length hfront, List.drop_append_of_le_length hfront,
      List.append_assoc]
  obtain ⟨m, rfl⟩ : ∃ m, n = l.front.length + (m + 1) := ⟨n - l.front.length - 1, by omega⟩
  rw [if_neg hfront]
  have hm : l.front.length + (m + 1) - (l.front.length + 1) = m := by omega
  simp only [hm, text, List.take_length_add_append, List.drop_length_add_append,
    List.take_succ_cons, List.drop_succ_cons]
  by_cases hbody : m ≤ l.body.length
  · rw [if_pos hbody]
    simp only [List.take_append_of_le_length hbody, List.drop_append_of_le_length hbody,
      List.append_assoc, List.cons_append]
  · obtain ⟨k, rfl⟩ : ∃ k, m = l.body.length + (k + 1) := ⟨m - l.body.length - 1, by omega⟩
    rw [if_neg hbody]
    have hk : l.body.length + (k + 1) - (l.body.length + 1) = k := by omega
    simp only [hk, List.take_length_add_append, List.drop_length_add_append,
      List.take_succ_cons, List.drop_succ_cons, List.append_assoc, List.cons_append]

end Literal

/-! ## The expressions -/

theorem plain_importRe : Plain (importRe P) := by
  simp [importRe]

theorem plain_allHeadRe : Plain allHeadRe := by
  simp [allHeadRe, spaces]

theorem plain_allRe : Plain allRe := ⟨plain_allHeadRe, trivial⟩

theorem plain_listRe : Plain listRe := ⟨plain_allRe, plain_lit⟩

/-- A head begins with an underscore, and has only these characters in it. -/
theorem allHead_spec (hw : Lang allHeadRe w) :
    (∃ u, w = '_' :: u) ∧ ∀ c ∈ w, c ∈ "_al=[".toList ∨ pyIsSpace c = true := by
  simp only [allHeadRe, spaces, lang_seqs_cons, lang_seqs_nil, lang_lit, lang_star_cls] at hw
  obtain ⟨_, _, rfl, rfl, s, _, rfl, hs, _, _, rfl, rfl, t, _, rfl, ht, _, _, rfl, rfl, rfl⟩ := hw
  refine ⟨⟨_, rfl⟩, fun c hc => ?_⟩
  simp only [List.mem_append] at hc
  have hname : ∀ c ∈ allName, c ∈ "_al=[".toList := forall_mem_of_all (by decide)
  rcases hc with hc | hc | hc | hc | hc | hc
  · exact Or.inl (hname c hc)
  · exact Or.inr (hs c hc)
  · obtain rfl : c = '=' := by simpa using hc
    exact Or.inl (by decide)
  · exact Or.inr (ht c hc)
  · obtain rfl : c = '[' := by simpa using hc
    exact Or.inl (by decide)
  · cases hc

theorem not_mem_allHead {c : Char} (hw : Lang allHeadRe w) (hc : c ∉ "_al=[".toList)
    (hspace : pyIsSpace c = false) : c ∉ w := by
  intro hmem
  rcases (allHead_spec hw).2 c hmem with h | h
  · exact hc h
  · rw [h] at hspace
    cases hspace

/-- An import ends with a letter and a line end, and has no bracket in it. -/
theorem import_spec (hw : Lang (importRe P) w) :
    (∃ v, w = v ++ ['M', '\n']) ∧ '[' ∉ w ∧ ']' ∉ w := by
  simp only [importRe, lang_seqs_cons, lang_seqs_nil, lang_lit, lang_plus_cls] at hw
  obtain ⟨_, _, rfl, rfl, u, _, rfl, ⟨-, hu⟩, _, _, rfl, rfl, v, _, rfl, ⟨-, hv⟩, _, _, rfl, rfl,
    rfl⟩ := hw
  -- no character outside of words is in the two words
  have hno : ∀ {c : Char} {s : List Char}, IsAscii c → (c.isAlphanum || c == '_') = false →
      (∀ y ∈ s, P.isWord y = true) → c ∉ s := by
    intro c s hascii hc hs hmem
    rw [← P.isWord_ascii hascii, hs c hmem] at hc
    cases hc
  refine ⟨⟨"from .".toList ++ (u ++ (" import ".toList ++ (v ++ "ForCausalL".toList))), by simp⟩,
    ?_, ?_⟩
  all_goals
    simp only [List.mem_append, not_or]
    exact ⟨by decide, hno (by decide) (by decide) hu, by decide, hno (by decide) (by decide) hv,
      by decide, by simp⟩

/-! ## Where the name is put -/

/-- A head with a closing bracket somewhere behind it. -/
theorem search_listRe_iff :
    search listRe x = true ↔ ∃ u w v, x = u ++ (w ++ v) ∧ Lang allHeadRe w ∧ ']' ∈ v := by
  rw [search_eq_true_iff plain_listRe]
  constructor
  · rintro ⟨u, _, v, rfl, _, _, rfl, ⟨w, t, rfl, hw, -⟩, hlast⟩
    rw [lang_lit] at hlast
    subst hlast
    refine ⟨u, w, t ++ ("]".toList ++ v), by simp only [List.append_assoc], hw, ?_⟩
    exact List.mem_append_right t (List.mem_append_left v (by decide))
  · rintro ⟨u, w, v, rfl, hw, hmem⟩
    obtain ⟨t, v, rfl, ht⟩ := List.eq_append_cons_of_mem hmem
    refine ⟨u, w ++ t ++ "]".toList, v, by simp, w ++ t, "]".toList, rfl, ⟨w, t, rfl, hw, ?_⟩,
      lang_lit.mpr rfl⟩
    rw [lang_star_cls]
    intro c hc
    rw [decide_eq_true_iff]
    rintro rfl
    exact ht hc

/-- A head makes the script look for the list. -/
theorem allName_occurs (hw : Lang allHeadRe w) : allName <:+: a ++ (w ++ b) := by
  simp only [allHeadRe, lang_seqs_cons, lang_lit] at hw
  obtain ⟨_, v, rfl, rfl, -⟩ := hw
  exact ⟨a, v ++ b, by simp only [List.append_assoc]⟩

theorem exportPlace_of_find {u v : List Char} (h : find allHeadRe none x = some (u, w, v)) :
    exportPlace x = some (u ++ (w ++ v.takeWhile (· ≠ ']'))).length := by
  obtain ⟨rfl, hw, -⟩ := find_eq_some plain_allHeadRe h
  rw [exportPlace, if_pos (allName_occurs hw), allRe, find_seq_star, h]
  rfl

theorem exportPlace_of_none (h : find allHeadRe none x = none) : exportPlace x = none := by
  rw [exportPlace, allRe, find_seq_star, h]
  split <;> rfl

theorem takeWhile_bracket {r : List Char} (hr : ']' ∉ r) :
    (r ++ ']' :: behind).takeWhile (· ≠ ']') = r := by
  have hwhile : ∀ c ∈ r, decide (c ≠ ']') = true := by
    intro c hc
    rw [decide_eq_true_iff]
    rintro rfl
    exact hr hc
  rw [List.takeWhile_append_of_pos hwhile, List.takeWhile_cons_of_neg (by decide), List.append_nil]

/-- A script that finds no head does not find the list. -/
theorem not_aimed_of_none (hfind : find allHeadRe none l.text = none) : ¬ l.Aimed := by
  intro haimed
  obtain ⟨u, w, v, hopened, hw⟩ := (search_eq_true_iff plain_allHeadRe).mp haimed.1
  refine (find_eq_none_iff plain_allHeadRe).mp hfind w hw ⟨u, v ++ ']' :: l.behind, ?_⟩
  rw [Literal.text_eq, hopened]
  simp only [List.append_assoc]

section Found

variable {u v r : List Char} (hfind : find allHeadRe none l.text = some (u, w, v))
include hfind

/-- Where the first head stands before the end of the list, that end is found if
it is the first bracket behind the head. -/
theorem aimed_iff_of_opened (hopened : l.opened = u ++ (w ++ r)) : l.Aimed ↔ ']' ∉ r := by
  obtain ⟨-, hw, -⟩ := find_eq_some plain_allHeadRe hfind
  constructor
  · intro haimed hr
    have hlist := search_listRe_iff.mpr ⟨u, w, r, hopened, hw, hr⟩
    rw [haimed.2] at hlist
    cases hlist
  intro hr
  refine ⟨(search_eq_true_iff plain_allHeadRe).mpr ⟨u, w, r, hopened, hw⟩, ?_⟩
  rw [← Bool.not_eq_true, search_listRe_iff]
  rintro ⟨u', w', v', hopened', hw', hmem⟩
  obtain ⟨v', v'', rfl, -⟩ := List.eq_append_cons_of_mem hmem
  have hlate : ']' ∉ w ++ r := by
    rw [List.mem_append, not_or]
    exact ⟨not_mem_allHead hw (by decide) (by decide), hr⟩
  have hcut : u ++ ((w ++ r) ++ []) = (u' ++ (w' ++ v')) ++ ']' :: v'' := by
    rw [List.append_nil, ← hopened, hopened']
    simp only [List.append_assoc]
  -- so the other head stands further to the left
  rcases append_cons_cut hlate hcut with ⟨z, -, hz⟩ | ⟨z, hz, -⟩
  · cases List.append_eq_nil_iff.mp hz.symm |>.2
  · have hpre : u = u' ++ (w' ++ (v' ++ ']' :: z)) := by
      rw [hz]
      simp only [List.append_assoc]
    exact not_lang_before plain_allHeadRe hfind hpre (by simp) hw'

/-- Where it stands behind the list, the list is not found. -/
theorem not_aimed_of_behind (hu : u = l.opened ++ ']' :: r) : ¬ l.Aimed := by
  intro haimed
  obtain ⟨u', w', v', hopened', hw'⟩ := (search_eq_true_iff plain_allHeadRe).mp haimed.1
  have hpre : u = u' ++ (w' ++ (v' ++ ']' :: r)) := by
    rw [hu, hopened']
    simp only [List.append_assoc]
  exact not_lang_before plain_allHeadRe hfind hpre (by simp) hw'

end Found

/-- A text put before a bracket of a literal is put outside of the list, or before
a bracket in it. -/
theorem insertAt_bracket {z z' : List Char} (hopened : l.opened = z ++ ']' :: z') :
    (l.insertAt (some z.length) x).body = l.body ∨
      ∃ a b, l.body = a ++ ']' :: b ∧
        (l.insertAt (some z.length) x).body = a ++ (x ++ ']' :: b) := by
  rw [Literal.opened] at hopened
  rcases List.append_eq_append_iff.mp hopened with ⟨q, hq, hq'⟩ | ⟨q, hq, -⟩
  · cases q with
    | nil => cases (List.cons.inj hq').1
    | cons c q =>
      obtain ⟨rfl, hbody⟩ := List.cons.inj hq'
      refine Or.inr ⟨q, z', hbody, ?_⟩
      rw [hq, Literal.insertAt_body hbody]
  · rw [Literal.insertAt_front hq]
    exact Or.inl rfl

/-- **Where the name is put.** At the end of the list, where the script finds the
list and its bracket. Otherwise outside of it, or before a bracket in it. -/
theorem insert_export (l : Literal) :
    (l.Aimed ∧ (l.insertAt (exportPlace l.text) exportLine).body = l.body ++ exportLine) ∨
      ¬ l.Aimed ∧ ((l.insertAt (exportPlace l.text) exportLine).body = l.body ∨
        ∃ a b, l.body = a ++ ']' :: b ∧
          (l.insertAt (exportPlace l.text) exportLine).body = a ++ (exportLine ++ ']' :: b)) := by
  rcases hfind : find allHeadRe none l.text with - | ⟨u, w, v⟩
  · refine Or.inr ⟨not_aimed_of_none hfind, Or.inl ?_⟩
    rw [exportPlace_of_none hfind]
    rfl
  obtain ⟨htext, hw, -⟩ := find_eq_some plain_allHeadRe hfind
  have hclose : ']' ∉ w := not_mem_allHead hw (by decide) (by decide)
  rw [Literal.text_eq] at htext
  rcases append_cons_cut hclose htext.symm with ⟨r, hopened, rfl⟩ | ⟨r, hu, -⟩
  · by_cases hr : ']' ∈ r
    · -- the first bracket behind the head stands before the end of the list
      refine Or.inr ⟨fun haimed => (aimed_iff_of_opened hfind hopened).mp haimed hr, ?_⟩
      obtain ⟨r, r', rfl, hfree⟩ := List.eq_append_cons_of_mem hr
      rw [exportPlace_of_find hfind, List.append_assoc, List.cons_append, takeWhile_bracket hfree]
      have hcut : l.opened = (u ++ (w ++ r)) ++ ']' :: r' := by
        rw [hopened]
        simp only [List.append_assoc]
      exact insertAt_bracket hcut
    · -- the closing bracket is the first one
      refine Or.inl ⟨(aimed_iff_of_opened hfind hopened).mpr hr, ?_⟩
      have hend := l.insertAt_body (x := exportLine) (List.append_nil l.body).symm
      rw [exportPlace_of_find hfind, takeWhile_bracket hr, ← hopened, Literal.opened, hend,
        List.append_nil]
  · -- the head stands behind the list
    refine Or.inr ⟨not_aimed_of_behind hfind hu, Or.inl ?_⟩
    rw [exportPlace_of_find hfind, hu, List.append_assoc, List.cons_append]
    exact Literal.body_insertAt_behind.1

/-! ## Where the import is put -/

/-- The start of the text, or the end of an import. -/
def AtLine (a : List Char) : Prop := a = [] ∨ ∃ m, a = m ++ ['M', '\n']

/-- A head in a text with the new import stands before it or behind it. -/
theorem head_of_inserted {u v : List Char} (hw : Lang allHeadRe w)
    (h : u ++ (w ++ v) = a ++ (importLine ++ b)) :
    (∃ r, a = u ++ (w ++ r) ∧ v = r ++ (importLine ++ b)) ∨ ∃ r, b = r ++ (w ++ v) := by
  obtain ⟨⟨w', hw'⟩, -⟩ := allHead_spec hw
  obtain ⟨line, hline, hunder⟩ :
      ∃ line, importLine = 'f' :: (line ++ 't' :: ['\n']) ∧ '_' ∉ line :=
    ⟨"rom .smollm3 import SmolLM3ForCausalLM  # native SmolLM3 por".toList, by decide, by decide⟩
  rw [hline, List.cons_append, List.append_assoc line] at h
  rcases append_cons_cut (not_mem_allHead hw (by decide) (by decide)) h with
    ⟨r, rfl, rfl⟩ | ⟨r, -, hr⟩
  · exact Or.inl ⟨r, rfl, by simp [hline]⟩
  rcases append_cons_cut (not_mem_allHead hw (by decide) (by decide)) hr.symm with
    ⟨q, rfl, -⟩ | ⟨q, -, hq⟩
  · -- the line has no underscore in it
    refine absurd (List.mem_append_right r (List.mem_append_left q ?_)) hunder
    rw [hw']
    exact List.mem_cons_self
  · have hq' : '\n' :: b = q ++ (w ++ v) := hq
    cases q with
    | nil =>
      rw [hw'] at hq'
      cases (List.cons.inj hq').1
    | cons z q => exact Or.inr ⟨q, (List.cons.inj hq').2⟩

/-- A head in a text that is cut at the start or behind an import stands on one
side of the cut. -/
theorem head_of_cut {u v : List Char} (hw : Lang allHeadRe w) (ha : AtLine a)
    (h : u ++ (w ++ v) = a ++ b) :
    (∃ r, a = u ++ (w ++ r) ∧ v = r ++ b) ∨ ∃ r, b = r ++ (w ++ v) := by
  obtain ⟨⟨w', hw'⟩, -⟩ := allHead_spec hw
  rcases List.append_eq_append_iff.mp h with ⟨r, hr, hwv⟩ | ⟨r, -, hr⟩
  · rcases List.append_eq_append_iff.mp hwv with ⟨z, rfl, hz⟩ | ⟨z, hz, -⟩
    · exact Or.inl ⟨z, hr, hz⟩
    · -- a head does not begin in an import and end behind it
      rcases List.eq_nil_or_concat' r with rfl | ⟨r, c, rfl⟩
      · exact Or.inr ⟨[], hwv.symm⟩
      rcases ha with rfl | ⟨m, rfl⟩
      · cases (List.append_eq_nil_iff.mp (List.append_eq_nil_iff.mp hr.symm).2).2
      have hm : (m ++ ['M']) ++ ['\n'] = (u ++ r) ++ [c] := by
        simpa only [List.append_assoc, List.cons_append, List.nil_append] using hr
      obtain ⟨hinit, hc⟩ := List.append_inj' hm rfl
      obtain rfl := List.singleton_inj.mp hc
      rcases List.eq_nil_or_concat' r with rfl | ⟨r, d, rfl⟩
      · rw [hw'] at hz
        cases (List.cons.inj hz).1
      · rw [← List.append_assoc] at hinit
        obtain rfl := List.singleton_inj.mp (List.append_inj' hinit rfl).2
        exact absurd (by rw [hz]; simp) (not_mem_allHead (c := 'M') hw (by decide) (by decide))
  · exact Or.inr ⟨r, hr⟩

/-- The new import changes nothing about the heads in a text. -/
theorem exists_head_insert {Q : List Char → Prop} (ha : AtLine a)
    (hQ : ∀ r, Q (r ++ (importLine ++ b)) ↔ Q (r ++ b)) :
    (∃ u w v, a ++ (importLine ++ b) = u ++ (w ++ v) ∧ Lang allHeadRe w ∧ Q v) ↔
      ∃ u w v, a ++ b = u ++ (w ++ v) ∧ Lang allHeadRe w ∧ Q v := by
  constructor
  · rintro ⟨u, w, v, h, hw, hv⟩
    rcases head_of_inserted hw h.symm with ⟨r, rfl, rfl⟩ | ⟨r, rfl⟩
    · exact ⟨u, w, r ++ b, by simp only [List.append_assoc], hw, (hQ r).mp hv⟩
    · exact ⟨a ++ r, w, v, by simp only [List.append_assoc], hw, hv⟩
  · rintro ⟨u, w, v, h, hw, hv⟩
    rcases head_of_cut hw ha h.symm with ⟨r, rfl, rfl⟩ | ⟨r, rfl⟩
    · exact ⟨u, w, r ++ (importLine ++ b), by simp only [List.append_assoc], hw, (hQ r).mpr hv⟩
    · exact ⟨a ++ (importLine ++ r), w, v, by simp only [List.append_assoc], hw, hv⟩

/-- So the script finds the list as it did before. -/
theorem aimed_insert (ha : AtLine a) (hfront : l.front = a ++ b) :
    ({ l with front := a ++ (importLine ++ b) } : Literal).Aimed ↔ l.Aimed := by
  have hopened : l.opened = a ++ (b ++ '[' :: l.body) := by
    rw [Literal.opened, hfront, List.append_assoc]
  have hopened' : ({ l with front := a ++ (importLine ++ b) } : Literal).opened =
      a ++ (importLine ++ (b ++ '[' :: l.body)) := by
    simp only [Literal.opened, List.append_assoc]
  have hbracket : ∀ r rest : List Char, ']' ∈ r ++ (importLine ++ rest) ↔ ']' ∈ r ++ rest := by
    intro r rest
    simp only [List.mem_append, show ']' ∉ importLine by decide, false_or]
  have hhead := exists_head_insert (b := b ++ '[' :: l.body) (Q := fun _ => True) ha
    fun _ => Iff.rfl
  have hlist := exists_head_insert (Q := (']' ∈ ·)) ha fun r => hbracket r (b ++ '[' :: l.body)
  simp only [and_true, ← search_eq_true_iff plain_allHeadRe] at hhead
  rw [← search_listRe_iff, ← search_listRe_iff] at hlist
  rw [Literal.Aimed, Literal.Aimed, hopened, hopened', ← Bool.not_eq_true, ← Bool.not_eq_true,
    hlist, hhead]

/-- Before the import that is found there is none. -/
theorem not_search_before {pre post r : List Char}
    (hfind : find (importRe P) none l.text = some (pre, w, post)) (hpre : pre = a ++ (x ++ r)) :
    search (importRe P) x = false := by
  rw [← Bool.not_eq_true, search_eq_true_iff plain_importRe]
  rintro ⟨u, m, v, rfl, hm⟩
  have hne : m ≠ [] := by
    obtain ⟨⟨m, rfl⟩, -⟩ := import_spec hm
    simp
  have hpre' : pre = (a ++ u) ++ (m ++ (v ++ r)) := by
    rw [hpre]
    simp only [List.append_assoc]
  exact not_lang_before plain_importRe hfind hpre' (by simp [hne]) hm

/-- **Where the import is put.** Outside of the list, where the list is spared,
and then nothing changes about where the name goes. Otherwise at the start of a
line of it. -/
theorem insert_import (l : Literal) :
    (l.Spared P ∧ (l.insertAt (importPlace P l.text) importLine).body = l.body ∧
        ((l.insertAt (importPlace P l.text) importLine).Aimed ↔ l.Aimed)) ∨
      ¬ l.Spared P ∧ ∃ a b, (l.insertAt (importPlace P l.text) importLine).body =
        a ++ '\n' :: (importLine ++ b) := by
  by_cases hstart : importStart <:+: l.text
  · rw [importPlace, if_pos hstart]
    exact Or.inl ⟨Or.inl hstart, rfl, Iff.rfl⟩
  rw [importPlace, if_neg hstart]
  rcases hfind : find (importRe P) none l.text with - | ⟨x, w, y⟩
  · -- at the start of the text
    have hnone := (find_eq_none_iff plain_importRe).mp hfind
    refine Or.inl ⟨Or.inr (Or.inr ?_), ?_⟩
    · rw [search_eq_false_iff plain_importRe]
      refine fun w hw hin => hnone w hw (hin.trans ⟨l.front ++ ['['], ']' :: l.behind, ?_⟩)
      simp only [Literal.text, List.append_assoc, List.cons_append, List.nil_append]
    · have hinsert : l.insertAt (some 0) importLine =
          { l with front := [] ++ (importLine ++ l.front) } := Literal.insertAt_front (a := []) rfl
      simp only [hinsert, true_and]
      exact aimed_insert (Or.inl rfl) rfl
  obtain ⟨htext, hw, -⟩ := find_eq_some plain_importRe hfind
  obtain ⟨⟨m, hm⟩, hopen, hclose⟩ := import_spec hw
  have hline : AtLine (x ++ w) := Or.inr ⟨x ++ m, by rw [hm, List.append_assoc]⟩
  simp only
  rcases append_cons_cut hopen htext.symm with ⟨r, hr, -⟩ | ⟨r, rfl, hr⟩
  · -- before the list
    have hsplit : l.front = (x ++ w) ++ r := by rw [hr, List.append_assoc]
    rw [Literal.insertAt_front hsplit]
    refine Or.inl ⟨Or.inr (Or.inl ?_), rfl, aimed_insert hline hsplit⟩
    exact (search_eq_true_iff plain_importRe).mpr ⟨x, w, r, hr, hw⟩
  rcases append_cons_cut hclose hr.symm with ⟨q, hq, -⟩ | ⟨q, rfl, -⟩
  · -- in the list
    have hsplit : l.body = (r ++ w) ++ q := by rw [hq, List.append_assoc]
    have hplace : (l.front ++ '[' :: r ++ w).length = (l.front ++ '[' :: (r ++ w)).length := by
      simp only [List.append_assoc, List.cons_append]
    rw [hplace, Literal.insertAt_body hsplit]
    refine Or.inr ⟨?_, r ++ (m ++ ['M']), q, ?_⟩
    · rintro (h | h | h)
      · exact hstart h
      · have hnone := not_search_before (x := l.front) (a := []) hfind rfl
        rw [h] at hnone
        cases hnone
      · rw [(search_eq_true_iff plain_importRe).mpr ⟨r, w, q, hq, hw⟩] at h
        cases h
    · simp only [hm, List.append_assoc, List.cons_append, List.nil_append]
  · -- behind the list
    have hbody : search (importRe P) l.body = false :=
      not_search_before (a := l.front ++ ['[']) (r := ']' :: q) hfind (by simp)
    have hplace : (l.front ++ '[' :: (l.body ++ ']' :: q) ++ w).length =
        (l.opened ++ ']' :: (q ++ w)).length := by
      simp only [Literal.opened, List.append_assoc, List.cons_append]
    rw [hplace]
    obtain ⟨hsame, hfront⟩ := Literal.body_insertAt_behind (l := l) (a := q ++ w) (x := importLine)
    refine Or.inl ⟨Or.inr (Or.inr hbody), hsame, ?_⟩
    rw [Literal.Aimed, Literal.opened, hsame, hfront]
    rfl

/-! ## What becomes of the exports -/

theorem addImport_eq (l : Literal) :
    addImport P l.text = (l.insertAt (importPlace P l.text) importLine).text := by
  rw [addImport, importPlace]
  by_cases hstart : importStart <:+: l.text
  · rw [if_pos hstart, if_pos hstart]
    rfl
  rw [if_neg hstart, if_neg hstart]
  rcases hfind : find (importRe P) none l.text with - | ⟨x, w, y⟩
  · rw [Literal.text_insertAt]
    rfl
  · obtain ⟨htext, -⟩ := find_eq_some plain_importRe hfind
    simp only
    rw [Literal.text_insertAt, htext, ← List.append_assoc x w y, List.take_left, List.drop_left,
      List.append_assoc]

theorem addExport_eq (l : Literal) :
    addExport l.text = (l.insertAt (exportPlace l.text) exportLine).text := by
  rw [addExport, exportPlace]
  by_cases hall : allName <:+: l.text
  · rw [if_pos hall, if_pos hall]
    rcases hfind : find allRe none l.text with - | ⟨x, w, y⟩
    · rfl
    · obtain ⟨htext, -⟩ := find_eq_some plain_allRe hfind
      simp only [Option.map_some]
      rw [Literal.text_insertAt, htext, ← List.append_assoc x w y, List.take_left, List.drop_left,
        List.append_assoc]
  · rw [if_neg hall, if_neg hall]
    rfl

/-- The script runs on a source without the name. -/
theorem content_patchInit (hnew : ¬ className <:+: l.text) :
    (patchInit P l.text).content = (l.patched P).text := by
  have hquoted : ¬ quotedName <:+: l.text := fun hin =>
    hnew (List.IsInfix.trans ⟨['\x22'], ['\x22'], by decide⟩ hin)
  rw [patchInit, if_neg fun h => hquoted h.2, if_neg hnew, addImport_eq, addExport_eq]
  rfl

/-- A name put before a bracket in the list leaves no list of names. -/
theorem denote_export_bracket : PyList.denote (a ++ (exportLine ++ ']' :: b)) = none := by
  have hline : exportLine =
      '\n' :: ("    ".toList ++ '\x22' :: (className ++ ['\x22', ','])) := by decide
  rw [hline]
  exact PyList.denote_name_bare (forall_mem_of_all (by decide)) (by decide) (by decide) (by decide)
    (by decide) fun _ => rfl

/-- Neither does an import at the start of a line of it. -/
theorem denote_import : PyList.denote (a ++ '\n' :: (importLine ++ b)) = none :=
  PyList.denote_bare_line fun _ => rfl

/-- **What becomes of the exports.** The patched literal denotes the old names
and the new one exactly when the script finds it and its bracket, does not put
the import into it, and it was empty or ended with a comma. Where only the comma
is missing, its last name and the new one become one name, which nothing has. -/
theorem patchInit_exports_iff (src : Source) (hnew : ¬ className <:+: src.text) :
    (patchInit P src.text).content = (src.patched P).text ∧
    (PyList.denote (src.patched P).body = some (src.names ++ [className]) ↔
      src.Aimed ∧ src.Spared P ∧ PyList.Closed src.body) ∧
    (src.Aimed → src.Spared P → ¬ PyList.Closed src.body →
      ∃ front last, src.names = front ++ [last] ∧
        PyList.denote (src.patched P).body = some (front ++ [last ++ className])) := by
  refine ⟨content_patchInit hnew, ?_⟩
  set l := src.toLiteral.insertAt (importPlace P src.text) importLine with hl
  have hpatched : src.patched P = l.insertAt (exportPlace l.text) exportLine := rfl
  have hline : exportLine = "\n    ".toList ++ '\x22' :: (className ++ ['\x22', ',']) := by decide
  rw [hpatched]
  rcases insert_import (P := P) src.toLiteral with ⟨hspared, hbody, haimed⟩ | ⟨hspared, a, b, hbody⟩
  · rw [← hl] at hbody haimed
    rcases insert_export l with ⟨hfound, hend⟩ | ⟨hmissed, hend⟩
    · -- the name is put at the end of the list
      have hname : (PyList.denote (src.body ++ exportLine) = some (src.names ++ [className]) ↔
            PyList.Closed src.body) ∧
          (¬ PyList.Closed src.body → ∃ front last, src.names = front ++ [last] ∧
            PyList.denote (src.body ++ exportLine) = some (front ++ [last ++ className])) := by
        rw [hline]
        exact PyList.denote_append_name_iff src.body_names (forall_mem_of_all (by decide))
          (by decide) (by decide) (by decide) (by decide)
      rw [hend, hbody, hname.1]
      exact ⟨by simp [haimed.mp hfound, hspared], fun _ _ => hname.2⟩
    · have hnot : ¬ src.Aimed := fun h => hmissed (haimed.mpr h)
      refine ⟨iff_of_false ?_ fun h => hnot h.1, fun h => absurd h hnot⟩
      rcases hend with hend | ⟨a, b, -, hend⟩
      · rw [hend, hbody, src.body_names]
        simp
      · rw [hend, denote_export_bracket]
        simp
  · rw [← hl] at hbody
    refine ⟨iff_of_false ?_ fun h => hspared h.2.1, fun _ h => absurd h hspared⟩
    rcases insert_export l with ⟨-, hend⟩ | ⟨-, hend | ⟨a, b, -, hend⟩⟩
    · rw [hend, hbody, List.append_assoc, List.cons_append, List.append_assoc, denote_import]
      simp
    · rw [hend, hbody, denote_import]
      simp
    · rw [hend, denote_export_bracket]
      simp

/-- A source with one export and a comma behind it. -/
def withComma : Source where
  front := "from .llama import LlamaForCausalLM\n__all__ = ".toList
  body := "\"LlamaForCausalLM\",".toList
  behind := ['\n']
  names := ["LlamaForCausalLM".toList]
  body_names := by decide +kernel

/-- The same source without the comma. -/
def withoutComma : Source :=
  { withComma with
    body := "\"LlamaForCausalLM\"".toList
    body_names := by decide +kernel }

theorem exports_with_comma :
    ¬ className <:+: withComma.text ∧
      PyList.denote (withComma.patched PyChars.ascii).body =
        some ["LlamaForCausalLM".toList, className] := by
  have hnew : ¬ className <:+: withComma.text := by decide +kernel
  have haimed : withComma.Aimed := ⟨by decide +kernel, by decide +kernel⟩
  have hspared : withComma.Spared PyChars.ascii := Or.inr (Or.inl (by decide +kernel))
  have hclosed : PyList.Closed withComma.body := by
    intro r hr
    have hread : PyList.read withComma.body =
        some ⟨["LlamaForCausalLM".toList], none, .plain⟩ := by decide +kernel
    rw [hread] at hr
    cases hr
    rfl
  exact ⟨hnew, (patchInit_exports_iff withComma hnew).2.1.mpr ⟨haimed, hspared, hclosed⟩⟩

/-- Without the comma the export is lost. -/
theorem exports_without_comma :
    ¬ className <:+: withoutComma.text ∧
      (patchInit PyChars.ascii withoutComma.text).content =
        ("from .llama import LlamaForCausalLM\n".toList ++ importLine) ++
          ("__all__ = [\"LlamaForCausalLM\"".toList ++ exportLine) ++ [']', '\n'] ∧
      PyList.denote ("\"LlamaForCausalLM\"".toList ++ exportLine) =
        some ["LlamaForCausalLMSmolLM3ForCausalLM".toList] ∧
      PyList.denote ("\"LlamaForCausalLM\"".toList ++ exportLine) ≠
        some (withoutComma.names ++ [className]) := by
  decide +kernel

end PatchInit

end VllmScheduler
