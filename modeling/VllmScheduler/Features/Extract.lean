import VllmScheduler.Common.Lists
import VllmScheduler.Features.Agreement
import VllmScheduler.Features.Messages
/-!
# Features of any prompt

`FeatureExtractor.extract` and `extract_from_messages` of
`predictor/feature_extractor.py`, on Python strings. A string may hold lone
surrogates; these are read as the replacement character, which is like them in
no class, no word and no mark. Only the entropy tells one from the other.

Whatever the prompt, the counts and ratios fit together
(`features_consistent`), and the turns of a chat are its messages, unless a
message holds the mark of another one (`conversationTurnCount_eq_length`).

The ratios are exact here. In doubles each is rounded for itself: each still is
in the unit interval, but the shares of three classes that make up a text may
sum up to more than 1 (`doubles_exceed_one`).
-/

namespace VllmScheduler

namespace PyFeatures

open Regex PyRegex Text ChatPrompt Json

variable {K : Type} [Field K] [LinearOrder K]

/-- The features of `FeatureExtractor.extract`. -/
def extract (E : Extractor K) (prompt : PyString) : Option (FeatureVector K) :=
  extractFeatures E (prompt.map CodePoint.toChar)

/-- The features of `extract_from_messages`. -/
def extractFromMessages (E : Extractor K) (printable : CodePoint → Bool)
    (messages : List Message) : Option (FeatureVector K) :=
  extract E (extractorPrompt printable messages)

/-! ## Counts and ratios -/

section Consistency

/-- The features fit together. -/
structure Consistent (v : FeatureVector K) : Prop where
  one_le_tokens : 1 ≤ v.promptTokenCount
  one_le_sentences : 1 ≤ v.sentenceCount
  vocabulary_le_words : v.vocabularySize ≤ v.wordCount
  words_le_chars : v.wordCount ≤ v.promptCharCount
  marks_le_punctuation : v.questionMarkCount + v.exclamationCount + v.periodCount + v.commaCount ≤
    v.punctuationCount
  punctuation_le_chars : v.punctuationCount ≤ v.promptCharCount
  classes_le_one : v.uppercaseRatio + v.lowercaseRatio + v.whitespaceRatio ≤ 1
  uniqueWordRatio : v.uniqueWordRatio ∈ Set.Icc 0 1
  stopwordRatio : v.stopwordRatio ∈ Set.Icc 0 1
  unicodeRatio : v.unicodeRatio ∈ Set.Icc 0 1
  reasoningScore : v.reasoningScore ∈ Set.Icc 0 1
  codingProbability : v.codingProbability ∈ Set.Icc 0 1

variable {E : Extractor K} {text : List Char}

theorem length_vocab_le : (vocab E text).length ≤ (words E text).length := by
  have hle := length_eraseDups_le ((words E text).map E.chars.lower)
  rwa [List.length_map] at hle

theorem length_words_le : (words E text).length ≤ text.length := length_findall_le

/-- No character is in two of the three classes. -/
structure DisjointClasses (P : PyChars) : Prop where
  upper_lower : ∀ c, P.isUpper c = true → P.isLower c = false
  upper_space : ∀ c, P.isUpper c = true → pyIsSpace c = false
  lower_space : ∀ c, P.isLower c = true → pyIsSpace c = false

theorem countP_classes_le {P : PyChars} (h : DisjointClasses P) (text : List Char) :
    text.countP P.isUpper + text.countP P.isLower + text.countP pyIsSpace ≤ text.length := by
  induction text with
  | nil => exact le_rfl
  | cons c text ih =>
    have hone : (if P.isUpper c = true then 1 else 0) + (if P.isLower c = true then 1 else 0) +
        (if pyIsSpace c = true then 1 else 0) ≤ 1 := by
      by_cases hu : P.isUpper c = true
      · simp [hu, h.upper_lower c hu, h.upper_space c hu]
      · by_cases hl : P.isLower c = true
        · simp [hu, hl, h.lower_space c hl]
        · by_cases hs : pyIsSpace c = true <;> simp [hu, hl, hs]
    rw [List.countP_cons, List.countP_cons, List.countP_cons, List.length_cons]
    omega

theorem countedMarks_le : text.count '?' + text.count '!' + text.count '.' + text.count ',' ≤
    text.countP (· ∈ punctuation) := by
  rw [← countP_countedMarks]
  exact List.countP_mono_left fun c _ => mem_punctuation_of_mem_countedMarks c

variable [IsStrictOrderedRing K]

/-- A part of a whole, as a ratio. -/
theorem natCast_div_mem_Icc {a b : ℕ} (h : a ≤ b) : (a : K) / b ∈ Set.Icc (0 : K) 1 :=
  ⟨div_nonneg (Nat.cast_nonneg _) (Nat.cast_nonneg _),
    div_le_one_of_le₀ (Nat.cast_le.mpr h) (Nat.cast_nonneg _)⟩

theorem reasoningScore_mem {qMarks wordCount : ℕ} {p : K}
    (h : some p = reasoningScore E text qMarks wordCount) : p ∈ Set.Icc (0 : K) 1 := by
  simp only [reasoningScore, div?_natCast _ (by omega : max wordCount 1 ≠ 0), Option.bind_eq_bind,
    Option.bind_some, Option.pure_def, Option.some.injEq] at h
  rw [h]
  refine ⟨le_min zero_le_one ?_, min_le_left _ _⟩
  positivity

theorem codingProbability_mem {p : K} (h : some p = codingProbability E text) :
    p ∈ Set.Icc (0 : K) 1 := by
  simp only [codingProbability, div?_of_ne (three_ne_zero : (3 : K) ≠ 0), Option.bind_eq_bind,
    Option.bind_some, Option.pure_def, Option.some.injEq] at h
  rw [h]
  refine ⟨le_min zero_le_one ?_, min_le_left _ _⟩
  positivity

theorem Measured.consistent {v : FeatureVector K} (hm : Measured E text v)
    (hclasses : DisjointClasses E.chars) : Consistent v where
  one_le_tokens := by
    rw [hm.promptTokenCount]
    exact_mod_cast Nat.one_le_iff_ne_zero.mpr (tokenCount_pos E text)
  one_le_sentences := by
    rw [hm.sentenceCount]
    exact_mod_cast Nat.one_le_iff_ne_zero.mpr (sentenceCount_pos text)
  vocabulary_le_words := by
    rw [hm.vocabularySize, hm.wordCount]
    exact_mod_cast length_vocab_le
  words_le_chars := by
    rw [hm.wordCount, hm.promptCharCount]
    exact_mod_cast length_words_le
  marks_le_punctuation := by
    rw [hm.questionMarkCount, hm.exclamationCount, hm.periodCount, hm.commaCount,
      hm.punctuationCount]
    exact_mod_cast countedMarks_le
  punctuation_le_chars := by
    rw [hm.punctuationCount, hm.promptCharCount]
    exact_mod_cast List.countP_le_length
  classes_le_one := by
    have hle := (countP_classes_le hclasses text).trans (le_max_left _ 1)
    rw [hm.uppercaseRatio, hm.lowercaseRatio, hm.whitespaceRatio, ← add_div, ← add_div]
    exact_mod_cast (natCast_div_mem_Icc (K := K) hle).2
  uniqueWordRatio := hm.uniqueWordRatio ▸ natCast_div_mem_Icc length_vocab_le
  stopwordRatio := hm.stopwordRatio ▸ natCast_div_mem_Icc List.countP_le_length
  unicodeRatio := hm.unicodeRatio ▸
    natCast_div_mem_Icc (List.countP_le_length.trans (le_max_left _ 1))
  reasoningScore := reasoningScore_mem hm.reasoningScore
  codingProbability := codingProbability_mem hm.codingProbability

/-- **The extraction is safe and consistent.** Whatever the prompt, no division
is by zero and the features fit together. -/
theorem features_consistent (E : Extractor K) (hclasses : DisjointClasses E.chars)
    (prompt : PyString) : ∃ v, extract E prompt = some v ∧ Consistent v := by
  obtain ⟨v, hv, hm⟩ := extractFeatures_spec E (prompt.map CodePoint.toChar)
  exact ⟨v, hv, hm.consistent hclasses⟩

theorem disjointClasses_ascii : DisjointClasses PyChars.ascii := by
  have hupper : ∀ c : Char, c.isUpper = true → 65 ≤ c.toNat ∧ c.toNat ≤ 90 := by
    intro c h
    have h : decide (65 ≤ c.val ∧ c.val ≤ 90) = true := h
    simp only [decide_eq_true_eq, UInt32.le_iff_toNat_le] at h
    exact h
  have hlower : ∀ c : Char, c.isLower = true → 97 ≤ c.toNat ∧ c.toNat ≤ 122 := by
    intro c h
    have h : (decide (97 ≤ c.val) && decide (c.val ≤ 122)) = true := h
    simp only [Bool.and_eq_true, decide_eq_true_eq, UInt32.le_iff_toNat_le] at h
    exact h
  have hspace : ∀ c : Char, pyIsSpace c = true → c.toNat ≤ 32 ∨ 128 ≤ c.toNat := by
    intro c h
    simp only [pyIsSpace, Bool.or_eq_true, Bool.and_eq_true, decide_eq_true_eq, beq_iff_eq] at h
    omega
  refine ⟨fun c h => ?_, fun c h => ?_, fun c h => ?_⟩
  · by_contra hl
    have := hupper c h
    have := hlower c ((Bool.not_eq_false _).mp hl)
    omega
  · by_contra hs
    have := hupper c h
    have := hspace c ((Bool.not_eq_false _).mp hs)
    omega
  · by_contra hs
    have := hlower c h
    have := hspace c ((Bool.not_eq_false _).mp hs)
    omega

/-- The empty prompt, one of blanks, and one that is half a surrogate pair. -/
theorem degenerate_prompts_consistent :
    (∃ v, extract plainExtractor [] = some v ∧ Consistent v) ∧
      (∃ v, extract plainExtractor (py " \n ") = some v ∧ Consistent v) ∧
      ∃ v, extract plainExtractor [0xD800] = some v ∧ Consistent v :=
  ⟨features_consistent plainExtractor disjointClasses_ascii [],
    features_consistent plainExtractor disjointClasses_ascii (py " \n "),
    features_consistent plainExtractor disjointClasses_ascii [0xD800]⟩

/-- The share of a class of characters in a text, in an arithmetic that a count
is brought into by `ofCount`. -/
def classRatio {R : Type} [Div R] (ofCount : ℕ → R) (isClass : Char → Bool) (text : List Char) :
    R :=
  ofCount (text.countP isClass) / ofCount (max text.length 1)

/-- The three ratios of the extraction are these shares, exact. -/
theorem extract_classRatio (E : Extractor K) (prompt : PyString) :
    ∃ v, extract E prompt = some v ∧
      v.uppercaseRatio = classRatio Nat.cast E.chars.isUpper (prompt.map CodePoint.toChar) ∧
      v.lowercaseRatio = classRatio Nat.cast E.chars.isLower (prompt.map CodePoint.toChar) ∧
      v.whitespaceRatio = classRatio Nat.cast pyIsSpace (prompt.map CodePoint.toChar) := by
  obtain ⟨v, hv, hm⟩ := extractFeatures_spec E (prompt.map CodePoint.toChar)
  exact ⟨v, hv, hm.uppercaseRatio, hm.lowercaseRatio, hm.whitespaceRatio⟩

/-- Nine capitals, a blank and eighteen small letters: in doubles the shares
9/28, 18/28 and 1/28 sum up to more than 1. -/
theorem doubles_exceed_one :
    DisjointClasses PyChars.ascii ∧
      let prompt := (py "ABCDEFGHI jklmnopqrstuvwxyza").map CodePoint.toChar
      let ratio (isClass : Char → Bool) : Float := classRatio Float.ofNat isClass prompt
      1 < ratio PyChars.ascii.isUpper + ratio PyChars.ascii.isLower + ratio pyIsSpace :=
  ⟨disjointClasses_ascii, by decide +kernel⟩

end Consistency

/-! ## Turns -/

section Turns

/-- The roles of a chat. -/
def chatRoles : List String := ["user", "assistant", "system"]

/-- How often a text is marked with a role. -/
def marks (text : List Char) : ℕ :=
  (chatRoles.map fun r => countText (r ++ ":").toList text).sum

theorem turns_eq (text : List Char) :
    turns text = if marks text = 0 ∧ '\n' ∈ text then countText "\n\n".toList text + 1
      else marks text := by
  have hmarks : countText "user:".toList text + countText "assistant:".toList text +
      countText "system:".toList text = marks text := by
    show _ = _ + (_ + (_ + 0))
    rw [Nat.add_zero, ← Nat.add_assoc]
    rfl
  rw [turns, hmarks]

/-- Neither a line break nor a blank is part of a mark. -/
theorem separator_not_mem {c : Char} (hc : c = '\n' ∨ c = ' ') :
    ∀ r ∈ chatRoles, (r ++ ":").toList ≠ [] ∧ c ∉ (r ++ ":").toList := by
  rcases hc with rfl | rfl <;> decide +kernel

theorem marks_append_cons {c : Char} (hc : c = '\n' ∨ c = ' ') (a b : List Char) :
    marks (a ++ c :: b) = marks a + marks b := by
  rw [marks, marks, marks, ← List.sum_map_add]
  refine congrArg List.sum (List.map_congr_left fun r hr => ?_)
  obtain ⟨hne, hnot⟩ := separator_not_mem hc r hr
  exact countText_append_cons hne hnot a b

theorem marks_intercalate (parts : List (List Char)) :
    marks (List.intercalate ['\n'] parts) = (parts.map marks).sum := by
  induction parts with
  | nil => decide +kernel
  | cons part parts ih =>
    cases parts with
    | nil => simp [List.intercalate]
    | cons next parts =>
      rw [List.intercalate_cons_cons, List.append_assoc, List.singleton_append,
        marks_append_cons (Or.inl rfl), ih]
      rfl

/-- The text of a message's line. -/
theorem map_toChar_line (r : String) (c : PyString) :
    (line (py r) c).map CodePoint.toChar =
      (r ++ ":").toList ++ ' ' :: c.map CodePoint.toChar := by
  have hcolon : ": ".toList = ":".toList ++ [' '] := rfl
  rw [line, List.map_append, List.map_append, map_toChar_py, map_toChar_py, String.toList_append,
    hcolon, List.append_assoc, List.append_assoc, List.append_assoc, List.singleton_append]

/-- The content is a text that holds no mark of a role. -/
def Unmarked (m : Message) : Prop :=
  ∃ c, content m = .string c ∧ ∀ r ∈ chatRoles, ¬ py (r ++ ":") <:+: c

/-- **A message's line is marked once**, with its role. -/
theorem marks_line {r : String} {c : PyString} (hr : r ∈ chatRoles)
    (hc : ∀ r ∈ chatRoles, ¬ py (r ++ ":") <:+: c) :
    marks ((line (py r) c).map CodePoint.toChar) = 1 := by
  have hrole : ∀ r ∈ chatRoles, marks (r ++ ":").toList = 1 := by decide +kernel
  have hplain : ∀ r ∈ chatRoles, '\uFFFD' ∉ (r ++ ":").toList := by decide +kernel
  have hcontent : marks (c.map CodePoint.toChar) = 0 := by
    rw [marks, List.sum_eq_zero_iff]
    intro n hn
    obtain ⟨r, hr, rfl⟩ := List.mem_map.mp hn
    refine (countText_eq_zero_iff (separator_not_mem (Or.inl rfl) r hr).1).mpr fun hin => ?_
    exact hc r hr (py_infix_of_infix_map (hplain r hr) hin)
  rw [map_toChar_line, marks_append_cons (Or.inr rfl), hrole r hr, hcontent]

variable [IsStrictOrderedRing K]

/-- **Turns are counted exactly.** Of a chat whose contents hold no mark of a
role, the turns are the messages. -/
theorem conversationTurnCount_eq_length (E : Extractor K) (printable : CodePoint → Bool)
    (messages : List Message) (hne : messages ≠ [])
    (hrole : ∀ m ∈ messages, ∃ r ∈ chatRoles, role m = .string (py r))
    (hcontent : ∀ m ∈ messages, Unmarked m) :
    ∃ v, extractFromMessages E printable messages = some v ∧
      v.conversationTurnCount = (messages.length : K) := by
  have hmarks : marks ((extractorPrompt printable messages).map CodePoint.toChar) =
      messages.length := by
    have hsep : (py "\n").map CodePoint.toChar = ['\n'] := map_toChar_py _
    have hone : ∀ m ∈ messages,
        marks ((line (str printable (role m)) (contentText printable (content m))).map
          CodePoint.toChar) = 1 := by
      intro m hm
      obtain ⟨r, hr, hr'⟩ := hrole m hm
      obtain ⟨c, hc, hmark⟩ := hcontent m hm
      rw [hr', hc]
      exact marks_line hr hmark
    rw [extractorPrompt, map_intercalate, hsep, marks_intercalate, List.map_map, List.map_map]
    refine (congrArg List.sum (List.map_eq_replicate_iff.mpr hone)).trans ?_
    rw [List.sum_replicate_nat, Nat.mul_one]
  have hpos : 0 < messages.length := List.length_pos_iff.mpr hne
  obtain ⟨v, hv, hm⟩ :=
    extractFeatures_spec E ((extractorPrompt printable messages).map CodePoint.toChar)
  refine ⟨v, hv, ?_⟩
  rw [hm.conversationTurnCount, turns_eq, hmarks, if_neg fun h => hpos.ne' h.1, max_eq_left hpos]

/-- A chat with line breaks and parts of marks at the edges of its messages; the
second one has no role of its own. -/
def edgeChat : List Message :=
  [[(py "role", .string (py "system")), (py "content", .string (py ":brief\n\nuser"))],
    [(py "content", .string (py ": assistant"))],
    [(py "role", .string (py "assistant")), (py "content", .string (py "system :\nu"))]]

theorem edgeChat_turns : edgeChat ≠ [] ∧
    ∃ v, extractFromMessages plainExtractor (fun _ => true) edgeChat = some v ∧
      v.conversationTurnCount = (edgeChat.length : ℚ) := by
  have hne : edgeChat ≠ [] := List.cons_ne_nil _ _
  refine ⟨hne, conversationTurnCount_eq_length plainExtractor _ edgeChat hne ?_ ?_⟩
  · refine List.forall_mem_cons.mpr ⟨⟨"system", by decide, rfl⟩, List.forall_mem_cons.mpr
      ⟨⟨"user", by decide, rfl⟩, List.forall_mem_singleton.mpr ⟨"assistant", by decide, rfl⟩⟩⟩
  · refine List.forall_mem_cons.mpr ⟨⟨_, rfl, ?_⟩, List.forall_mem_cons.mpr
      ⟨⟨_, rfl, ?_⟩, List.forall_mem_singleton.mpr ⟨_, rfl, ?_⟩⟩⟩
    all_goals decide +kernel

end Turns

end PyFeatures

end VllmScheduler
