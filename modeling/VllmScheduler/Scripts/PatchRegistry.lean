import VllmScheduler.Common.PyRegex
import VllmScheduler.Common.Text
import Mathlib.Data.List.Find
import Mathlib.Logic.Function.Iterate
/-!
# Patching the model registry

`scripts/patch_registry.py`, which a Docker build runs over vLLM's registry: an
entry of SmolLM3 that goes through the transformers backend is removed, and
behind an entry of a known model the native entry is put in, unless the
registry has one already.

Whether it has one is asked with a regular expression that wants a comma
behind the last string of the pair. The entry the script puts in has none, so
every run adds another one (`patched_idempotent_iff`).
-/

namespace VllmScheduler

namespace PatchRegistry

open Text Regex PyRegex

/-- The key of an entry of SmolLM3. -/
def entryKey : List Char := "\"SmolLM3ForCausalLM\":".toList

def nativeEntry : List Char :=
  "\"SmolLM3ForCausalLM\": (\"smollm3\", \"SmolLM3ForCausalLM\"),".toList

def transformersEntryRe : Regex Char :=
  seqs [spaces, lit entryKey, spaces, lit "(".toList, spaces, lit "\"transformers\",".toList,
    spaces, lit "\"TransformersForCausalLM\",".toList, spaces, lit "),".toList]

def nativeEntryRe : Regex Char :=
  seqs [lit entryKey, spaces, lit "(".toList, spaces, lit "\"smollm3\",".toList, spaces,
    lit "\"SmolLM3ForCausalLM\",".toList, spaces, lit ")".toList]

def insertCandidates : List (List Char) :=
  ["\"StableLmForCausalLM\": (\"stablelm\", \"StablelmForCausalLM\"),".toList,
    "\"Starcoder2ForCausalLM\": (\"starcoder2\", \"Starcoder2ForCausalLM\"),".toList]

def nativeLine : List Char := "\n    ".toList ++ nativeEntry ++ "  # native SmolLM3 port".toList

/-- What a call gives back, and what it prints. -/
structure Patched where
  content : List Char
  printed : List Char
  deriving DecidableEq

def patchContent (content label : List Char) : Patched :=
  let content := sub transformersEntryRe [] content
  if search nativeEntryRe content then
    ⟨content, "SmolLM3ForCausalLM already registered natively in ".toList ++ label ++ " ✓".toList⟩
  else
    match insertCandidates.find? fun insertAfter => insertAfter <:+: content with
    | some insertAfter =>
      ⟨replace content insertAfter (insertAfter ++ nativeLine),
        "SmolLM3ForCausalLM registered natively in ".toList ++ label ++ " ✓".toList⟩
    | none =>
      ⟨content, "WARNING: Could not find insertion point in ".toList ++ label ++
        " — manual patch needed".toList⟩

/-- The text a call gives back. -/
def patched (label content : List Char) : List Char := (patchContent content label).content

/-- The two files of vLLM's model directory that can hold the registry. -/
structure ModelsDir where
  registryPy : Option (List Char)
  initPy : Option (List Char)

/-- The body of the script: the directory after it. -/
def script (dir : ModelsDir) : ModelsDir :=
  match dir.registryPy with
  | some content => { dir with registryPy := some (patched "registry.py".toList content) }
  | none =>
    match dir.initPy with
    | some content => { dir with initPy := some (patched "__init__.py".toList content) }
    | none => dir

/-- The text without the entry of the transformers backend. -/
def removed (content : List Char) : List Char := sub transformersEntryRe [] content

/-- There is nothing to put in, or nowhere to. -/
def Settled (content : List Char) : Prop :=
  search nativeEntryRe content = true ∨ ∀ a ∈ insertCandidates, ¬ a <:+: content

instance (content : List Char) : Decidable (Settled content) :=
  inferInstanceAs (Decidable (_ ∨ _))

/-- How often the anchor that is used stands in the text. -/
def anchorCount (content : List Char) : ℕ :=
  match insertCandidates.find? fun a => a <:+: content with
  | some a => occurrences a content
  | none => 0

variable {c d label a w : List Char}

/-! ## The two expressions -/

theorem plain_transformersEntryRe : Plain transformersEntryRe := by
  simp [transformersEntryRe, spaces]

theorem plain_nativeEntryRe : Plain nativeEntryRe := by
  simp [nativeEntryRe, spaces]

/-- A text that opens with the key and closes with its first parenthesis, up
to one character. -/
def IsEntry (w : List Char) : Prop := (∃ v, w = entryKey ++ v) ∧ ClosedBy ')' w

/-- The parts of an entry with spaces between them make one. -/
theorem isEntry_of_gaps {s t u v first second close : List Char}
    (hs : ∀ y ∈ s, pyIsSpace y = true) (ht : ∀ y ∈ t, pyIsSpace y = true)
    (hu : ∀ y ∈ u, pyIsSpace y = true) (hv : ∀ y ∈ v, pyIsSpace y = true)
    (hfirst : ')' ∉ first) (hsecond : ')' ∉ second) (hclose : close.length ≤ 2) :
    IsEntry (entryKey ++
      (s ++ ("(".toList ++ (t ++ (first ++ (u ++ (second ++ (v ++ close)))))))) := by
  have hno : ∀ {s : List Char}, (∀ y ∈ s, pyIsSpace y = true) → ')' ∉ s :=
    fun hs => not_mem_spaces hs (by decide)
  refine ⟨⟨_, rfl⟩, ?_⟩
  simp only [← List.append_assoc]
  refine closedBy_append ?_ hclose
  simp only [List.mem_append, not_or]
  exact ⟨⟨⟨⟨⟨⟨⟨by decide, hno hs⟩, by decide⟩, hno ht⟩, hfirst⟩, hno hu⟩, hsecond⟩, hno hv⟩

theorem isEntry_nativeEntryRe (hw : Lang nativeEntryRe w) : IsEntry w := by
  simp only [nativeEntryRe, spaces, lang_seqs_cons, lang_seqs_nil, lang_lit, lang_star_cls] at hw
  obtain ⟨_, _, rfl, rfl, s, _, rfl, hs, _, _, rfl, rfl, t, _, rfl, ht, _, _, rfl, rfl,
    u, _, rfl, hu, _, _, rfl, rfl, v, _, rfl, hv, _, _, rfl, rfl, rfl⟩ := hw
  rw [List.append_nil]
  exact isEntry_of_gaps hs ht hu hv (by decide) (by decide) (by decide)

/-- An entry of the transformers backend stands behind the spaces that are
removed with it. -/
theorem isEntry_transformersEntryRe (hw : Lang transformersEntryRe w) :
    'T' ∈ w ∧ ∃ r v, w = r ++ v ∧ Lang transformersEntryRe v ∧ IsEntry v := by
  obtain ⟨r, v, rfl, -, hv⟩ := lang_seqs_cons.mp hw
  have hL : Lang transformersEntryRe v :=
    lang_seqs_cons.mpr ⟨[], v, rfl, lang_star_cls.mpr (by simp), hv⟩
  simp only [spaces, lang_seqs_cons, lang_seqs_nil, lang_lit, lang_star_cls] at hv
  obtain ⟨_, _, rfl, rfl, s, _, rfl, hs, _, _, rfl, rfl, t, _, rfl, ht, _, _, rfl, rfl,
    u, _, rfl, hu, _, _, rfl, rfl, v, _, rfl, hv, _, _, rfl, rfl, rfl⟩ := hv
  refine ⟨?_, r, _, rfl, hL, ?_⟩
  · have hT : 'T' ∈ "\"TransformersForCausalLM\",".toList := by decide
    simp only [List.mem_append, hT, true_or, or_true]
  · rw [List.append_nil]
    exact isEntry_of_gaps hs ht hu hv (by decide) (by decide) (by decide)

theorem isEntry_nativeEntry : IsEntry nativeEntry := by
  have hsplit : nativeEntry =
      "\"SmolLM3ForCausalLM\": (\"smollm3\", \"SmolLM3ForCausalLM\"".toList ++ "),".toList := by
    decide +kernel
  refine ⟨⟨" (\"smollm3\", \"SmolLM3ForCausalLM\"),".toList, by decide +kernel⟩, ?_⟩
  rw [hsplit]
  exact closedBy_append (by decide +kernel) (by decide +kernel)

/-! ## An insertion -/

/-- An anchor ends an entry, and stands in itself in one way only. -/
theorem anchor_spec : ∀ a ∈ insertCandidates, a ≠ [] ∧ a = a.dropLast.dropLast ++ [')', ','] ∧
    ')' ∉ a.dropLast.dropLast ∧ Apart a a ∧ occurrences a a = 1 := by
  decide +kernel

/-- No entry and no other anchor begins in an anchor. -/
theorem anchor_apart : ∀ a ∈ insertCandidates,
    (∀ s ∈ a.tails, s ≠ [] → ¬ s <+: entryKey ∧ ¬ entryKey <+: s) ∧
      ∀ b ∈ insertCandidates, Apart a b := by
  decide +kernel

theorem nativeLine_anchor : ∀ b ∈ insertCandidates,
    Apart nativeLine b ∧ occurrences b nativeLine = 0 := by
  decide +kernel

/-- **What an insertion does to entries.** It adds those of the native line. -/
theorem occurrences_insertion (ha : a ∈ insertCandidates) (hw : IsEntry w) :
    occurrences w (replace c a (a ++ nativeLine)) =
      occurrences w c + occurrences a c * occurrences w nativeLine := by
  obtain ⟨⟨v, rfl⟩, hclosed⟩ := hw
  obtain ⟨hne, hlast, -, hself, hone⟩ := anchor_spec a ha
  refine occurrences_replaced hlast hself hone (replaced_replace hne c) hclosed
    (apart_of_opening (anchor_apart a ha).1 v) ?_
  -- behind the parenthesis of the line comes its comment, without a quote
  have hline : nativeLine =
      "\n    \"SmolLM3ForCausalLM\": (\"smollm3\", \"SmolLM3ForCausalLM\"".toList ++
        ')' :: ",  # native SmolLM3 port".toList := by
    decide +kernel
  rw [hline]
  exact hclosed.apart (by decide) (by decide)

/-- It leaves the anchors as they were. -/
theorem occurrences_anchor {b : List Char} (ha : a ∈ insertCandidates)
    (hb : b ∈ insertCandidates) :
    occurrences b (replace c a (a ++ nativeLine)) = occurrences b c := by
  obtain ⟨hne, hlast, -, hself, hone⟩ := anchor_spec a ha
  obtain ⟨-, hlast', hnot, -, -⟩ := anchor_spec b hb
  obtain ⟨hline, hnone⟩ := nativeLine_anchor b hb
  have hclosed : ClosedBy ')' b := by
    rw [hlast']
    exact closedBy_append hnot (by decide)
  rw [occurrences_replaced hlast hself hone (replaced_replace hne c) hclosed
    ((anchor_apart a ha).2 b hb) hline, hnone, Nat.mul_zero, Nat.add_zero]

theorem anchor_infix_iff {b : List Char} (ha : a ∈ insertCandidates)
    (hb : b ∈ insertCandidates) :
    b <:+: replace c a (a ++ nativeLine) ↔ b <:+: c := by
  have hne := (anchor_spec b hb).1
  rw [← not_iff_not, ← occurrences_eq_zero_iff hne, ← occurrences_eq_zero_iff hne,
    occurrences_anchor ha hb]

/-- The native line is not what the native expression looks for, and not what
the other one removes. -/
theorem nativeLine_unmatched :
    search nativeEntryRe nativeLine = false ∧ search transformersEntryRe nativeLine = false := by
  decide +kernel

/-- An entry the line does not hold is in the text if it was there before. -/
theorem entry_infix_iff (ha : a ∈ insertCandidates) (hw : IsEntry w)
    (hline : ¬ w <:+: nativeLine) : w <:+: replace c a (a ++ nativeLine) ↔ w <:+: c := by
  have hne : w ≠ [] := by
    obtain ⟨⟨v, rfl⟩, -⟩ := hw
    exact List.append_ne_nil_of_left_ne_nil (by decide) v
  rw [← not_iff_not, ← occurrences_eq_zero_iff hne, ← occurrences_eq_zero_iff hne,
    occurrences_insertion ha hw, (occurrences_eq_zero_iff hne).mpr hline, Nat.mul_zero,
    Nat.add_zero]

/-- **The script does not recognise its own entry.** -/
theorem search_native_insertion (ha : a ∈ insertCandidates)
    (h : search nativeEntryRe c = false) :
    search nativeEntryRe (replace c a (a ++ nativeLine)) = false := by
  rw [search_eq_false_iff plain_nativeEntryRe] at h ⊢
  have hline := (search_eq_false_iff plain_nativeEntryRe).mp nativeLine_unmatched.1
  intro w hw
  rw [entry_infix_iff ha (isEntry_nativeEntryRe hw) (hline w hw)]
  exact h w hw

theorem search_transformers_insertion (ha : a ∈ insertCandidates)
    (h : search transformersEntryRe c = false) :
    search transformersEntryRe (replace c a (a ++ nativeLine)) = false := by
  rw [search_eq_false_iff plain_transformersEntryRe] at h ⊢
  have hline := (search_eq_false_iff plain_transformersEntryRe).mp nativeLine_unmatched.2
  intro w hw hin
  -- the match without the spaces before it is one too
  obtain ⟨-, r, v, rfl, hv, hentry⟩ := isEntry_transformersEntryRe hw
  have hin' := (List.suffix_append r v).isInfix.trans hin
  exact h v hv ((entry_infix_iff ha hentry (hline v hv)).mp hin')

/-! ## One call -/

theorem patched_of_settled (h : Settled (removed c)) : patched label c = removed c := by
  rw [patched, patchContent]
  rcases h with hnative | hnone
  · rw [if_pos (by exact hnative)]
    rfl
  · split
    · rfl
    · have hfind : (insertCandidates.find? fun a => a <:+: removed c) = none := by
        rw [List.find?_eq_none]
        intro a ha
        simpa using hnone a ha
      rw [show sub transformersEntryRe [] c = removed c from rfl, hfind]

theorem patched_of_not_settled (label : List Char) (h : ¬ Settled (removed c)) :
    ∃ a ∈ insertCandidates, a <:+: removed c ∧
      (insertCandidates.find? fun a => a <:+: removed c) = some a ∧
      patched label c = replace (removed c) a (a ++ nativeLine) := by
  obtain ⟨hnative, hsome⟩ := not_or.mp h
  have hfind : (insertCandidates.find? fun a => a <:+: removed c) ≠ none := by
    intro hnone
    rw [List.find?_eq_none] at hnone
    exact hsome fun a ha => by simpa using hnone a ha
  obtain ⟨a, ha⟩ := Option.ne_none_iff_exists'.mp hfind
  have hin : a <:+: removed c := by simpa using List.find?_some ha
  refine ⟨a, List.mem_of_find?_eq_some ha, hin, ha, ?_⟩
  rw [patched, patchContent, if_neg (by exact hnative),
    show sub transformersEntryRe [] c = removed c from rfl, ha]

/-- Only removing an entry takes a letter `T` from the text. -/
theorem count_patched (label c : List Char) :
    (patched label c).count 'T' = (removed c).count 'T' := by
  by_cases h : Settled (removed c)
  · rw [patched_of_settled h]
  · obtain ⟨a, ha, -, -, heq⟩ := patched_of_not_settled label h
    rw [heq]
    exact count_replaced (replaced_replace (anchor_spec a ha).1 _) (by decide)

theorem count_removed_lt (h : removed c ≠ c) : (removed c).count 'T' < c.count 'T' := by
  refine count_sub_lt plain_transformersEntryRe (fun w hw => (isEntry_transformersEntryRe hw).1) ?_
  by_contra hno
  exact h (sub_of_search_false plain_transformersEntryRe (Bool.eq_false_iff.mpr hno))

/-- **When a call changes nothing.** -/
theorem patched_eq_self_iff : patched label c = c ↔ removed c = c ∧ Settled c := by
  constructor
  · intro heq
    have hremoved : removed c = c := by
      by_contra hne
      have hlt := count_removed_lt hne
      rw [← count_patched label c, heq] at hlt
      exact lt_irrefl _ hlt
    refine ⟨hremoved, ?_⟩
    by_contra hsettled
    obtain ⟨a, ha, hin, -, hpatched⟩ :=
      patched_of_not_settled label (hremoved.symm ▸ hsettled)
    rw [hremoved] at hin hpatched
    -- the insertion made the text longer
    have hne := (anchor_spec a ha).1
    have hlt := (length_replaced (replaced_replace hne c)).2 hin hne
      (show nativeLine ≠ [] by decide)
    rw [← hpatched, heq] at hlt
    exact lt_irrefl _ hlt
  · rintro ⟨hremoved, hsettled⟩
    rw [patched_of_settled (hremoved.symm ▸ hsettled), hremoved]

/-- What a call has put in does not settle the text. -/
theorem not_settled_patched (h : ¬ Settled (removed c)) : ¬ Settled (patched label c) := by
  obtain ⟨a, ha, hin, -, heq⟩ := patched_of_not_settled label h
  rw [heq, Settled, not_or]
  refine ⟨?_, ?_⟩
  · rw [Bool.not_eq_true]
    exact search_native_insertion ha (Bool.eq_false_iff.mpr (not_or.mp h).1)
  · intro hnone
    exact hnone a ha ((anchor_infix_iff ha ha).mpr hin)

/-! ## Many calls -/

/-- What holds after `n` calls on a text `c` that had no entry. -/
structure Growing (c d : List Char) (n : ℕ) : Prop where
  transformers : search transformersEntryRe d = false
  native : search nativeEntryRe d = false
  anchors : ∀ a ∈ insertCandidates, occurrences a d = occurrences a c
  entries : occurrences nativeEntry d = n * anchorCount c

theorem growing_zero (h : ¬ entryKey <:+: c) : Growing c c 0 := by
  have hentry : ∀ w, IsEntry w → ¬ w <:+: c := by
    rintro _ ⟨⟨v, rfl⟩, -⟩ hin
    exact h ((List.prefix_append entryKey v).isInfix.trans hin)
  constructor
  · rw [search_eq_false_iff plain_transformersEntryRe]
    intro w hw hin
    obtain ⟨-, s, v, rfl, -, hv⟩ := isEntry_transformersEntryRe hw
    exact hentry v hv ((List.suffix_append s v).isInfix.trans hin)
  · rw [search_eq_false_iff plain_nativeEntryRe]
    exact fun w hw => hentry w (isEntry_nativeEntryRe hw)
  · exact fun a _ => rfl
  · rw [Nat.zero_mul, occurrences_eq_zero_iff (by decide)]
    exact hentry nativeEntry isEntry_nativeEntry

/-- The anchor that is used depends on the anchors alone. -/
theorem find_anchor_congr (h : ∀ a ∈ insertCandidates, occurrences a d = occurrences a c) :
    (insertCandidates.find? fun a => a <:+: d) = insertCandidates.find? fun a => a <:+: c := by
  have hin : ∀ a ∈ insertCandidates, (a <:+: d ↔ a <:+: c) := by
    intro a ha
    have hne := (anchor_spec a ha).1
    rw [← not_iff_not, ← occurrences_eq_zero_iff hne, ← occurrences_eq_zero_iff hne, h a ha]
  refine List.find?_congr fun a ha => ?_
  simpa using hin a ha

theorem growing_step {n : ℕ} (h : Growing c d n) : Growing c (patched label d) (n + 1) := by
  have hremoved : removed d = d := sub_of_search_false plain_transformersEntryRe h.transformers
  by_cases hsettled : Settled (removed d)
  · -- no call finds an anchor
    rw [patched_of_settled hsettled, hremoved]
    rw [hremoved] at hsettled
    have hfind : (insertCandidates.find? fun a => a <:+: d) = none := by
      rw [List.find?_eq_none]
      intro a ha
      simpa using (hsettled.resolve_left (Bool.eq_false_iff.mp h.native)) a ha
    have hnone : anchorCount c = 0 := by
      rw [anchorCount, ← find_anchor_congr h.anchors, hfind]
    refine ⟨h.transformers, h.native, h.anchors, ?_⟩
    rw [h.entries, hnone, Nat.mul_zero, Nat.mul_zero]
  · obtain ⟨a, ha, -, hfind, heq⟩ := patched_of_not_settled label hsettled
    rw [hremoved] at hfind heq
    have hcount : anchorCount c = occurrences a c := by
      rw [anchorCount, ← find_anchor_congr h.anchors, hfind]
    have hone : occurrences nativeEntry nativeLine = 1 := by decide +kernel
    rw [heq]
    refine ⟨search_transformers_insertion ha h.transformers,
      search_native_insertion ha h.native, ?_, ?_⟩
    · intro b hb
      rw [occurrences_anchor ha hb, h.anchors b hb]
    · rw [occurrences_insertion ha isEntry_nativeEntry, h.entries, h.anchors a ha, hone, hcount]
      ring

/-- **Every run adds one entry per anchor.** -/
theorem growing_run (label : List Char) (h : ¬ entryKey <:+: c) (n : ℕ) :
    Growing c ((patched label)^[n] c) n := by
  induction n with
  | zero => exact growing_zero h
  | succ n ih =>
    rw [Function.iterate_succ_apply']
    exact growing_step ih

/-- Running the script again and again patches one file again and again. -/
theorem script_iterate (dir : ModelsDir) (n : ℕ) :
    script^[n] dir =
      match dir.registryPy with
      | some content => { dir with registryPy := some ((patched "registry.py".toList)^[n] content) }
      | none => { dir with initPy := dir.initPy.map (patched "__init__.py".toList)^[n] } := by
  obtain ⟨registryPy, initPy⟩ := dir
  induction n with
  | zero => cases registryPy <;> cases initPy <;> rfl
  | succ n ih =>
    rw [Function.iterate_succ_apply', ih]
    cases registryPy with
    | some content => simp only [script, Function.iterate_succ_apply']
    | none =>
      cases initPy with
      | some content => simp only [script, Option.map_some, Function.iterate_succ_apply']
      | none => rfl

/-- **When patching is idempotent.** A second call changes nothing exactly when
the first one had nothing to put in or nowhere to, and removing entries left
none to remove. On a text without an entry `n` calls leave `n` native entries
for each place of the anchor, so that with one anchor they leave exactly one
only after the first call. -/
theorem patched_idempotent_iff (label c : List Char) :
    (patched label (patched label c) = patched label c ↔
        removed (removed c) = removed c ∧ Settled (removed c)) ∧
      (¬ entryKey <:+: c → ∀ n,
        occurrences nativeEntry ((patched label)^[n] c) = n * anchorCount c ∧
          (anchorCount c = 1 →
            (occurrences nativeEntry ((patched label)^[n] c) = 1 ↔ n = 1))) := by
  refine ⟨?_, ?_⟩
  · rw [patched_eq_self_iff]
    by_cases h : Settled (removed c)
    · rw [patched_of_settled h]
    · exact iff_of_false (fun hboth => not_settled_patched h hboth.2) fun hboth => h hboth.2
  · intro hkey n
    have hentries := (growing_run label hkey n).entries
    refine ⟨hentries, fun hone => ?_⟩
    rw [hentries, hone, Nat.mul_one]

/-- A registry of one other model. -/
def oneAnchor : List Char :=
  "    \"Starcoder2ForCausalLM\": (\"starcoder2\", \"Starcoder2ForCausalLM\"),\n".toList

theorem one_anchor_grows :
    ¬ entryKey <:+: oneAnchor ∧
      occurrences nativeEntry ((patched "registry.py".toList)^[3] oneAnchor) =
        3 * anchorCount oneAnchor :=
  have hkey : ¬ entryKey <:+: oneAnchor := by decide +kernel
  ⟨hkey, ((patched_idempotent_iff "registry.py".toList oneAnchor).2 hkey 3).1⟩

/-- The second run puts the entry in again. -/
theorem second_run_adds_entry :
    (occurrences insertCandidates[0] oneAnchor = 0 ∧ occurrences insertCandidates[1] oneAnchor = 1 ∧
        ¬ "SmolLM3ForCausalLM".toList <:+: oneAnchor) ∧
      patched "registry.py".toList oneAnchor ≠ oneAnchor ∧
      patched "registry.py".toList (patched "registry.py".toList oneAnchor) ≠
        patched "registry.py".toList oneAnchor ∧
      occurrences nativeEntry
        (patched "registry.py".toList (patched "registry.py".toList oneAnchor)) = 2 := by
  decide +kernel

end PatchRegistry

end VllmScheduler
