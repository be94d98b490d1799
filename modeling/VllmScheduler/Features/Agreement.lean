import VllmScheduler.Features.Python
import Mathlib.Algebra.Order.Ring.Rat
import Mathlib.Data.List.TakeWhile
/-!
# The two extractors

The model is trained on the features of the Python extractor, and the C++
scheduler feeds it with those of its own. On ASCII prompts the two count
characters and tokens alike (`characters_and_tokens_agree`). For words,
sentences, punctuation, links and turns they do not: the C++ code has no
vocabulary and one turn, so the seven features agree on prompts of a few
punctuation marks at most (`words_sentences_turns_agree_iff`).
-/

namespace VllmScheduler

namespace PyFeatures

open Regex PyRegex Text

variable {K : Type} [Field K] [LinearOrder K] {E : Extractor K} {text : List Char} {c : Char}

/-! ## Words -/

section Words

variable {P : PyChars} {before : Option Char} {xs w : List Char}

theorem mem_words_wordRe : w ∈ Regex.words (wordRe P) before xs ↔
    (before.any P.isWord != xs.head?.any P.isWord) = true ∧ w <+: xs ∧ w ≠ [] ∧
      (∀ c ∈ w, P.isWord c = true) ∧
      ((lastOr before w).any P.isWord != (xs.drop w.length).head?.any P.isWord) = true := by
  have hplain : Plain (plus (word P)) := by simp [word]
  constructor
  · intro h
    obtain ⟨_, _, rfl, hfirst, h⟩ := mem_words_seq.mp h
    obtain ⟨rfl, hstart⟩ := mem_words_look.mp hfirst
    obtain ⟨w, _, rfl, hw, h⟩ := mem_words_seq.mp h
    obtain ⟨hpre, hlang⟩ := (mem_words hplain).mp hw
    obtain ⟨hne, hword⟩ := lang_plus_cls.mp hlang
    obtain ⟨_, _, rfl, hlast, h⟩ := mem_words_seq.mp h
    obtain ⟨rfl, hend⟩ := mem_words_look.mp hlast
    obtain rfl := List.mem_singleton.mp h
    simp only [List.nil_append, List.append_nil]
    exact ⟨hstart, hpre, hne, hword, hend⟩
  · rintro ⟨hstart, hpre, hne, hword, hend⟩
    refine mem_words_seq.mpr ⟨[], w, rfl, mem_words_look.mpr ⟨rfl, hstart⟩, ?_⟩
    refine mem_words_seq.mpr ⟨w, [], (List.append_nil w).symm, ?_, ?_⟩
    · exact (mem_words hplain).mpr ⟨hpre, lang_plus_cls.mpr ⟨hne, hword⟩⟩
    · exact mem_words_seq.mpr
        ⟨[], [], rfl, mem_words_look.mpr ⟨rfl, hend⟩, List.mem_singleton_self _⟩

/-- At a character of a word behind one that is not, a word is found. -/
theorem exists_head_word {x : Char} (hbefore : before.any P.isWord = false)
    (hx : P.isWord x = true) :
    ∃ y v, (Regex.words (wordRe P) before (x :: xs)).head? = some (y :: v) := by
  have htake : (x :: xs).takeWhile P.isWord = x :: xs.takeWhile P.isWord :=
    List.takeWhile_cons_of_pos hx
  have hword : ∀ c ∈ (x :: xs).takeWhile P.isWord, P.isWord c = true :=
    List.all_eq_true.mp List.all_takeWhile
  -- the run ends with a character of a word, and none follows
  have hlast : (lastOr before ((x :: xs).takeWhile P.isWord)).any P.isWord = true := by
    rw [htake] at hword ⊢
    rw [lastOr, List.getLast?_eq_some_getLast (List.cons_ne_nil _ _)]
    exact hword _ (List.getLast_mem _)
  have hnext : ((x :: xs).dropWhile P.isWord).head?.any P.isWord = false := by
    have hnot := List.head?_dropWhile_not P.isWord (x :: xs)
    cases hhead : ((x :: xs).dropWhile P.isWord).head? with
    | none => rfl
    | some y =>
      rw [hhead] at hnot
      exact hnot
  have hrun : (x :: xs).takeWhile P.isWord ∈ Regex.words (wordRe P) before (x :: xs) := by
    refine mem_words_wordRe.mpr ⟨by simp [hbefore, hx], List.takeWhile_prefix _, ?_, hword, ?_⟩
    · rw [htake]
      exact List.cons_ne_nil _ _
    · rw [drop_takeWhile_length, hlast, hnext]
      rfl
  obtain ⟨v, hv⟩ := exists_head?_of_mem hrun
  cases v with
  | nil => exact absurd rfl (mem_words_wordRe.mp (List.mem_of_mem_head? hv)).2.2.1
  | cons y v => exact ⟨y, v, hv⟩

theorem exists_hit_word (hbefore : before.any P.isWord = false)
    (h : ∃ c ∈ xs, P.isWord c = true) : ∃ w, .hit w ∈ pieces (wordRe P) 0 before xs := by
  induction xs generalizing before with
  | nil =>
    obtain ⟨c, hc, -⟩ := h
    cases hc
  | cons x xs ih =>
    rw [pieces]
    by_cases hx : P.isWord x = true
    · obtain ⟨y, v, hhead⟩ :
          ∃ y v, (Regex.words (wordRe P) before (x :: xs)).head? = some (y :: v) :=
        exists_head_word hbefore hx
      rw [hhead]
      exact ⟨y :: v, List.mem_cons_self⟩
    · split
      · rename_i y v _
        exact ⟨y :: v, List.mem_cons_self⟩
      · obtain ⟨c, hc, hword⟩ := h
        have hmem : c ∈ xs := by
          rcases List.mem_cons.mp hc with rfl | hmem
          · exact absurd hword hx
          · exact hmem
        have hx' : (some x).any P.isWord = false := by simpa using hx
        obtain ⟨w, hw⟩ := ih hx' ⟨c, hmem, hword⟩
        exact ⟨w, List.mem_cons_of_mem _ hw⟩

theorem not_hit_word (h : ∀ c ∈ xs, P.isWord c = false) :
    ∀ w, .hit w ∉ pieces (wordRe P) 0 before xs := by
  induction xs generalizing before with
  | nil => simp [pieces]
  | cons x xs ih =>
    obtain ⟨hx, hxs⟩ := List.forall_mem_cons.mp h
    intro w hw
    rw [pieces] at hw
    split at hw
    · rename_i y v hv
      obtain ⟨-, hpre, -, hword, -⟩ := mem_words_wordRe.mp (List.mem_of_mem_head? hv)
      have hyx : y = x := (List.cons_prefix_cons.mp hpre).1
      rw [← hyx, hword y List.mem_cons_self] at hx
      cases hx
    · exact ih hxs w ((List.mem_cons.mp hw).resolve_left (by simp))

/-- **There is a word where there is a character of one.** -/
theorem words_eq_nil_iff : words E text = [] ↔ ∀ c ∈ text, E.chars.isWord c = false := by
  constructor
  · intro hnil c hc
    by_contra hword
    obtain ⟨w, hw⟩ : ∃ w, .hit w ∈ pieces (wordRe E.chars) 0 none text :=
      exists_hit_word rfl ⟨c, hc, by simpa using hword⟩
    have hmem : w ∈ words E text := List.mem_filterMap.mpr ⟨.hit w, hw, rfl⟩
    rw [hnil] at hmem
    cases hmem
  · intro h
    refine List.eq_nil_iff_forall_not_mem.mpr fun w hw => ?_
    obtain ⟨p, hp, hpw⟩ := List.mem_filterMap.mp hw
    cases p with
    | plain x => cases hpw
    | hit v => exact not_hit_word h v hp

theorem vocab_eq_nil_iff : (vocab E text).length = 0 ↔ words E text = [] := by
  rw [vocab, List.length_eq_zero_iff]
  cases words E text with
  | nil => simp
  | cons w ws => simp [List.eraseDups_cons]

end Words

/-! ## Tokens -/

/-- A character on which `std::isspace` and `str.isspace` agree, as do the
other classes. -/
def IsCommon (c : Char) : Prop := IsAscii c ∧ ¬ (0x1c ≤ c.toNat ∧ c.toNat ≤ 0x1f)

instance (c : Char) : Decidable (IsCommon c) := inferInstanceAs (Decidable (_ ∧ _))

theorem isSpace_eq (hc : IsCommon c) : CppFeatures.isSpace c = pyIsSpace c := by
  obtain ⟨hascii, hsep⟩ := hc
  have hall : ∀ n < 128, ¬ (0x1c ≤ n ∧ n ≤ 0x1f) →
      CppFeatures.isSpace (Char.ofNat n) = pyIsSpace (Char.ofNat n) := by decide
  have h := hall c.toNat hascii hsep
  rwa [Char.ofNat_toNat] at h

/-- **Edges are runs.** Behind a space the loop counts the runs that are left;
inside of one it does not count this one again. -/
theorem countTokens_eq (htext : ∀ c ∈ text, IsCommon c) :
    ∃ first rest, text.splitOnP pyIsSpace = first :: rest ∧
      (∀ previous : Option Char, previous.all CppFeatures.isSpace = true →
        CppFeatures.countTokens previous text =
          ((first :: rest).filter fun s => !s.isEmpty).length) ∧
      ∀ previous : Option Char, previous.all CppFeatures.isSpace = false →
        CppFeatures.countTokens previous text = (rest.filter fun s => !s.isEmpty).length := by
  induction text with
  | nil => exact ⟨[], [], rfl, fun _ _ => rfl, fun _ _ => rfl⟩
  | cons c text ih =>
    obtain ⟨hc, htext⟩ := List.forall_mem_cons.mp htext
    obtain ⟨first, rest, hsplit, hspace, hinside⟩ := ih htext
    by_cases hs : pyIsSpace c = true
    · have hcpp : CppFeatures.isSpace c = true := by rw [isSpace_eq hc, hs]
      refine ⟨[], first :: rest, ?_, ?_, ?_⟩
      · rw [List.splitOnP_cons_eq_if_modifyHead, if_pos hs, hsplit]
      all_goals
        intro previous _
        rw [CppFeatures.countTokens, hcpp, hspace (some c) hcpp]
        simp
    · rw [Bool.not_eq_true] at hs
      have hcpp : CppFeatures.isSpace c = false := by rw [isSpace_eq hc, hs]
      refine ⟨c :: first, rest, ?_, ?_, ?_⟩
      · simp [List.splitOnP_cons_eq_if_modifyHead, hs, hsplit]
      all_goals
        intro previous hprevious
        rw [CppFeatures.countTokens, hcpp, hprevious, hinside (some c) hcpp]
        simp [Nat.add_comm]

theorem length_pySplit (htext : ∀ c ∈ text, IsCommon c) :
    (pySplit text).length = CppFeatures.countTokens none text := by
  obtain ⟨first, rest, hsplit, hspace, -⟩ := countTokens_eq htext
  rw [pySplit, hsplit, hspace none rfl]

theorem countWords_eq_zero (h : ∀ c ∈ text, c.isAlphanum = false) (inWord : Bool) :
    CppFeatures.countWords inWord text = 0 := by
  induction text generalizing inWord with
  | nil => rfl
  | cons c text ih =>
    obtain ⟨hc, htext⟩ := List.forall_mem_cons.mp h
    rw [CppFeatures.countWords, hc]
    exact ih htext false

theorem pySplit_eq_nil (h : pySplit text = []) : ∀ c ∈ text, pyIsSpace c = true := by
  induction text with
  | nil => simp
  | cons c text ih =>
    rw [pySplit, List.splitOnP_cons_eq_if_modifyHead] at h
    by_cases hs : pyIsSpace c = true
    · rw [if_pos hs] at h
      exact List.forall_mem_cons.mpr ⟨hs, ih (by simpa [pySplit] using h)⟩
    · -- the part that `c` opens is not empty
      rw [if_neg hs] at h
      obtain ⟨first, rest, hsplit⟩ := List.exists_cons_of_ne_nil
        (List.splitOnP_ne_nil pyIsSpace text)
      rw [hsplit] at h
      simp at h

theorem not_word_of_space (hascii : IsAscii c) (hc : pyIsSpace c = true) :
    (c.isAlphanum || c == '_') = false := by
  have hall : ∀ n < 128, pyIsSpace (Char.ofNat n) = true →
      ((Char.ofNat n).isAlphanum || Char.ofNat n == '_') = false := by decide
  have h := hall c.toNat hascii
  rw [Char.ofNat_toNat] at h
  exact h hc

/-- **Both count the same tokens**, also where there are none. -/
theorem tokenCount_eq (htext : ∀ c ∈ text, IsCommon c) :
    tokenCount E text = CppFeatures.tokens text := by
  rw [tokenCount, CppFeatures.tokens, ← length_pySplit htext]
  by_cases hnone : pySplit text = []
  · -- a text without tokens has no words either
    have hword : ∀ c ∈ text, E.chars.isWord c = false ∧ c.isAlphanum = false := by
      intro c hc
      have hascii := (htext c hc).1
      have hnot := not_word_of_space hascii (pySplit_eq_nil hnone c hc)
      rw [E.chars.isWord_ascii hascii]
      exact ⟨hnot, (Bool.or_eq_false_iff.mp hnot).1⟩
    have hwords : words E text = [] := words_eq_nil_iff.mpr fun c hc => (hword c hc).1
    rw [hnone, hwords, countWords_eq_zero fun c hc => (hword c hc).2]
    rfl
  · rw [if_neg (by simpa using hnone), if_neg (by simpa using hnone)]

/-! ## What agrees -/

/-- **Characters and tokens are counted alike.** -/
theorem characters_and_tokens_agree [IsStrictOrderedRing K] (E : Extractor K) (log2 : K → K)
    (text : List Char) (htext : ∀ c ∈ text, IsCommon c) :
    ∃ v, extractFeatures E text = some v ∧
      let w := CppFeatures.extract log2 text
      v.promptTokenCount = w.promptTokenCount ∧ v.promptCharCount = w.promptCharCount ∧
      v.avgTokenLength = w.avgTokenLength ∧ v.questionMarkCount = w.questionMarkCount ∧
      v.exclamationCount = w.exclamationCount ∧ v.periodCount = w.periodCount ∧
      v.commaCount = w.commaCount ∧ v.digitCount = w.digitCount ∧
      v.uppercaseRatio = w.uppercaseRatio ∧ v.lowercaseRatio = w.lowercaseRatio ∧
      v.whitespaceRatio = w.whitespaceRatio ∧ v.newlineCount = w.newlineCount := by
  obtain ⟨v, hv, hm⟩ := extractFeatures_spec E text
  have hascii : ∀ c ∈ text, IsAscii c := fun c hc => (htext c hc).1
  have hdigits : text.countP E.chars.isDigit = text.countP Char.isDigit :=
    List.countP_congr fun c hc => by rw [E.chars.isDigit_ascii (hascii c hc)]
  have huppers : text.countP E.chars.isUpper = text.countP Char.isUpper :=
    List.countP_congr fun c hc => by rw [E.chars.isUpper_ascii (hascii c hc)]
  have hlowers : text.countP E.chars.isLower = text.countP Char.isLower :=
    List.countP_congr fun c hc => by rw [E.chars.isLower_ascii (hascii c hc)]
  have hspaces : text.countP pyIsSpace = text.countP CppFeatures.isSpace :=
    List.countP_congr fun c hc => by rw [isSpace_eq (htext c hc)]
  have htoken := hm.promptTokenCount
  have havg := hm.avgTokenLength
  have hdigit := hm.digitCount
  have hupper := hm.uppercaseRatio
  have hlower := hm.lowercaseRatio
  have hspace := hm.whitespaceRatio
  rw [tokenCount_eq htext] at htoken havg
  rw [hdigits] at hdigit
  rw [huppers] at hupper
  rw [hlowers] at hlower
  rw [hspaces] at hspace
  exact ⟨v, hv, htoken, hm.promptCharCount, havg, hm.questionMarkCount, hm.exclamationCount,
    hm.periodCount, hm.commaCount, hdigit, hupper, hlower, hspace, hm.newlineCount⟩

/-- An extractor to compute with; its logarithm is a stand-in. -/
def plainExtractor : Extractor ℚ where
  chars := PyChars.ascii
  log2 := fun x => x - 1
  log2_pos := fun h => sub_pos.mpr h
  enableNer := false
  enableEmbedding := false
  namedEntityCount := fun _ => 0
  embeddingNorm := fun _ => 0

theorem four_tokens_agree :
    (∀ c ∈ "Why me, or you?\n".toList, IsCommon c) ∧
      ∃ v, extractFeatures plainExtractor "Why me, or you?\n".toList = some v ∧
        v.promptTokenCount = 4 := by
  have hcommon : ∀ c ∈ "Why me, or you?\n".toList, IsCommon c :=
    forall_mem_of_all (by decide)
  obtain ⟨v, hv, htoken, -⟩ := characters_and_tokens_agree plainExtractor (fun x => x) _ hcommon
  have hcpp : (CppFeatures.extract (fun x : ℚ => x) "Why me, or you?\n".toList).promptTokenCount =
      4 := by
    decide +kernel
  exact ⟨hcommon, v, hv, by rw [htoken, hcpp]⟩

/-! ## What does not -/

/-- A printable character of ASCII, a space or a line end. -/
def IsPrintable (c : Char) : Prop := (0x20 ≤ c.toNat ∧ c.toNat ≤ 0x7e) ∨ c = '\n'

instance (c : Char) : Decidable (IsPrintable c) := inferInstanceAs (Decidable (_ ∨ _))

/-- The punctuation marks that the C++ extractor counts. -/
def countedMarks : List Char := ['?', '!', '.', ',']

theorem isAscii_of_isPrintable (hc : IsPrintable c) : IsAscii c := by
  rcases hc with ⟨-, hc⟩ | rfl
  · exact Nat.lt_of_le_of_lt hc (by decide)
  · decide

/-- What is neither part of a word nor a punctuation mark is blank. -/
theorem printable_cases (hc : IsPrintable c) :
    (c.isAlphanum || c == '_') = true ∨ c ∈ punctuation ∨ c = ' ' ∨ c = '\n' := by
  have hall : ∀ n < 128, IsPrintable (Char.ofNat n) →
      ((Char.ofNat n).isAlphanum || Char.ofNat n == '_') = true ∨ Char.ofNat n ∈ punctuation ∨
        Char.ofNat n = ' ' ∨ Char.ofNat n = '\n' := by decide +kernel
  have h := hall c.toNat (isAscii_of_isPrintable hc)
  rw [Char.ofNat_toNat] at h
  exact h hc

theorem countP_eq_iff {p q : Char → Bool} (hqp : ∀ c, q c = true → p c = true) :
    text.countP p = text.countP q ↔ ∀ c ∈ text, p c = true → q c = true := by
  induction text with
  | nil => simp
  | cons c text ih =>
    have hle : text.countP q ≤ text.countP p := List.countP_mono_left fun c _ => hqp c
    rw [List.countP_cons, List.countP_cons, List.forall_mem_cons, ← ih]
    by_cases hq : q c = true
    · simp [hq, hqp c hq]
    · by_cases hp : p c = true
      · simp [hq, hp]
        omega
      · simp [hq, hp]

theorem mem_punctuation_of_mem_countedMarks (c : Char) :
    decide (c ∈ countedMarks) = true → decide (c ∈ punctuation) = true := by
  intro hc
  simp only [countedMarks, List.mem_cons, List.not_mem_nil, or_false, decide_eq_true_eq] at hc ⊢
  rcases hc with rfl | rfl | rfl | rfl <;> decide

theorem countP_countedMarks : text.countP (· ∈ countedMarks) =
    text.count '?' + text.count '!' + text.count '.' + text.count ',' := by
  induction text with
  | nil => rfl
  | cons c text ih =>
    rw [List.countP_cons, ih, List.count_cons, List.count_cons, List.count_cons, List.count_cons]
    by_cases hc : c ∈ countedMarks
    · simp only [countedMarks, List.mem_cons, List.not_mem_nil, or_false] at hc
      rcases hc with rfl | rfl | rfl | rfl
      all_goals
        simp [countedMarks]
        try omega
    · simp only [countedMarks, List.mem_cons, List.not_mem_nil, or_false, not_or] at hc
      obtain ⟨h₁, h₂, h₃, h₄⟩ := hc
      simp [countedMarks, h₁, h₂, h₃, h₄]

/-- All characters are among these: the marks that C++ counts, and blanks. -/
def OnlyMarks (text : List Char) : Prop := ∀ c ∈ text, c ∈ countedMarks ∨ c = ' ' ∨ c = '\n'

instance (text : List Char) : Decidable (OnlyMarks text) := List.decidableBAll _ text

/-- **Words and punctuation agree on prompts of marks alone.** -/
theorem words_and_punctuation_iff (htext : ∀ c ∈ text, IsPrintable c) :
    ((vocab E text).length = 0 ∧ text.countP (· ∈ punctuation) =
      text.count '?' + text.count '!' + text.count '.' + text.count ',') ↔ OnlyMarks text := by
  rw [vocab_eq_nil_iff, words_eq_nil_iff, ← countP_countedMarks,
    countP_eq_iff mem_punctuation_of_mem_countedMarks]
  simp only [decide_eq_true_eq]
  constructor
  · rintro ⟨hword, hmarks⟩ c hc
    have hnot := hword c hc
    rw [E.chars.isWord_ascii (isAscii_of_isPrintable (htext c hc))] at hnot
    rcases printable_cases (htext c hc) with h | h | h
    · rw [hnot] at h
      cases h
    · exact Or.inl (hmarks c hc h)
    · exact Or.inr h
  · intro honly
    refine ⟨fun c hc => ?_, fun c hc hp => ?_⟩
    · rw [E.chars.isWord_ascii (isAscii_of_isPrintable (htext c hc))]
      rcases honly c hc with h | rfl | rfl
      · simp only [countedMarks, List.mem_cons, List.not_mem_nil, or_false] at h
        rcases h with rfl | rfl | rfl | rfl <;> decide
      · decide
      · decide
    · rcases honly c hc with h | rfl | rfl
      · exact h
      · exact absurd hp (by decide)
      · exact absurd hp (by decide)

/-! ### Sentences, links and turns of such a prompt -/

theorem strip_eq_nil_iff {s : List Char} : strip s = [] ↔ ∀ c ∈ s, pyIsSpace c = true := by
  rw [strip, List.reverse_eq_nil_iff, List.dropWhile_eq_nil_iff]
  constructor
  · intro h
    rw [← List.dropWhile_eq_nil_iff]
    -- a part without spaces at its ends that is all spaces is empty
    by_contra hne
    obtain ⟨c, rest, hcons⟩ := List.exists_cons_of_ne_nil hne
    have hnot := List.head?_dropWhile_not pyIsSpace s
    rw [hcons] at hnot h
    have hc := h c (by simp)
    rw [hnot] at hc
    cases hc
  · intro h c hc
    rw [List.mem_reverse] at hc
    exact h c ((List.dropWhile_suffix _).subset hc)

theorem of_mem_splitOnP {p : Char → Bool} {s : List Char} (hs : s ∈ text.splitOnP p) :
    ∀ c ∈ s, c ∈ text ∧ p c = false := by
  induction text generalizing s with
  | nil =>
    rw [List.splitOnP_nil, List.mem_singleton] at hs
    simp [hs]
  | cons x text ih =>
    obtain ⟨first, rest, hsplit⟩ := List.exists_cons_of_ne_nil (List.splitOnP_ne_nil p text)
    rw [List.splitOnP_cons_eq_if_modifyHead] at hs
    have hold : ∀ s ∈ text.splitOnP p, ∀ c ∈ s, c ∈ x :: text ∧ p c = false := fun s hs c hc =>
      ⟨List.mem_cons_of_mem _ (ih hs c hc).1, (ih hs c hc).2⟩
    by_cases hx : p x = true
    · rw [if_pos hx] at hs
      rcases List.mem_cons.mp hs with rfl | hs
      · simp
      · exact hold s hs
    · rw [if_neg hx, hsplit, List.modifyHead_cons] at hs
      rcases List.mem_cons.mp hs with rfl | hs
      · refine List.forall_mem_cons.mpr ⟨⟨List.mem_cons_self, by simpa using hx⟩, ?_⟩
        exact hold first (by rw [hsplit]; exact List.mem_cons_self)
      · exact hold s (by rw [hsplit]; exact List.mem_cons_of_mem _ hs)

/-- The parts of a text between terminators that have a comma in them. -/
def commaParts (text : List Char) : ℕ := (text.splitOnP isTerminator).countP (',' ∈ ·)

theorem sentenceCount_of_onlyMarks (h : OnlyMarks text) :
    sentenceCount text = max 1 (commaParts text) := by
  rw [sentenceCount, ← List.countP_eq_length_filter, sentenceRe, countP_split_run (by rfl),
    commaParts]
  congr 1
  refine List.countP_congr fun s hs => ?_
  have hmem := of_mem_splitOnP hs
  rw [Bool.not_eq_true', List.isEmpty_eq_false_iff, ne_eq, strip_eq_nil_iff, decide_eq_true_eq]
  constructor
  · intro hne
    -- what is not blank and no terminator is a comma
    push Not at hne
    obtain ⟨c, hc, hspace⟩ := hne
    obtain ⟨hct, hterm⟩ := hmem c hc
    rcases h c hct with hmark | rfl | rfl
    · simp only [countedMarks, List.mem_cons, List.not_mem_nil, or_false] at hmark
      rcases hmark with rfl | rfl | rfl | rfl
      · exact absurd hterm (by decide)
      · exact absurd hterm (by decide)
      · exact absurd hterm (by decide)
      · exact hc
    · exact absurd (by decide) hspace
    · exact absurd (by decide) hspace
  · intro hcomma hall
    exact absurd (hall ',' hcomma) (by decide)

theorem not_mem_of_onlyMarks (h : OnlyMarks text)
    (hc : ¬ (c ∈ countedMarks ∨ c = ' ' ∨ c = '\n')) : c ∉ text := mt (h c) hc

/-- No letter of the text is the letter `c` in either case. -/
theorem not_sameLetter (h : OnlyMarks text) (hc : c = 'h' ∨ c = 'w') :
    ∀ y ∈ text, E.chars.sameLetter c y = false := by
  intro y hy
  have hmark : IsAscii y ∧ ('h'.toLower == y.toLower) = false ∧
      ('w'.toLower == y.toLower) = false := by
    rcases h y hy with hmark | rfl | rfl
    · simp only [countedMarks, List.mem_cons, List.not_mem_nil, or_false] at hmark
      rcases hmark with rfl | rfl | rfl | rfl <;> decide
    · decide
    · decide
  rcases hc with rfl | rfl
  · rw [E.chars.sameLetter_ascii (by decide) hmark.1, hmark.2.1]
  · rw [E.chars.sameLetter_ascii (by decide) hmark.1, hmark.2.2]

theorem plain_urlRe {P : PyChars} : Plain (urlRe P) := by
  simp [urlRe, Regex.optional, Plain, plain_litI]

theorem urls_of_onlyMarks (h : OnlyMarks text) : findall (urlRe E.chars) text = [] := by
  refine List.eq_nil_iff_forall_not_mem.mpr fun w hw => ?_
  obtain ⟨hlang, hin⟩ := mem_findall plain_urlRe hw
  have hfalse : ∀ {c y : Char}, c = 'h' ∨ c = 'w' → y ∈ w → E.chars.sameLetter c y = true →
      False := by
    intro c y hc hy hsame
    rw [not_sameLetter h hc y (hin.subset hy)] at hsame
    cases hsame
  rcases hlang with hlang | hlang
  · obtain ⟨u, v, rfl, hu, -⟩ := lang_seqs_cons.mp hlang
    obtain ⟨y, hy, hsame⟩ := exists_sameLetter (x := 'h') rfl hu
    exact hfalse (Or.inl rfl) (List.mem_append_left v hy) hsame
  · obtain ⟨u, v, rfl, hu, -⟩ := hlang
    obtain ⟨y, hy, hsame⟩ := exists_sameLetter (x := 'w') rfl hu
    exact hfalse (Or.inr rfl) (List.mem_append_left v hy) hsame

theorem turns_of_onlyMarks (h : OnlyMarks text) :
    max (turns text) 1 = 1 ↔ ¬ "\n\n".toList <:+: text := by
  have hs : 's' ∉ text := not_mem_of_onlyMarks h (by decide)
  have hnone : ∀ {needle : List Char}, 's' ∈ needle → countText needle text = 0 := by
    intro needle hmem
    rw [countText_eq_zero_iff (List.ne_nil_of_mem hmem)]
    exact fun hin => hs (hin.subset hmem)
  have hmarked : countText "user:".toList text + countText "assistant:".toList text +
      countText "system:".toList text = 0 := by
    rw [hnone (by decide), hnone (by decide), hnone (by decide)]
  have hline : "\n\n".toList <:+: text → '\n' ∈ text := fun hin => hin.subset (by decide)
  have hcount : countText "\n\n".toList text = 0 ↔ ¬ "\n\n".toList <:+: text :=
    countText_eq_zero_iff (by decide)
  rw [turns, hmarked, ← hcount]
  by_cases hmem : '\n' ∈ text
  · rw [if_pos ⟨rfl, hmem⟩]
    omega
  · rw [if_neg fun hboth => hmem hboth.2]
    exact iff_of_true rfl (hcount.mpr (mt hline hmem))

/-- **When words, sentences and turns are counted alike.** The prompt has only
marks that C++ counts and blanks, no empty line, and as many terminators `.`
and `?` as parts with a comma, where none counts as one. -/
theorem words_sentences_turns_agree_iff [IsStrictOrderedRing K] (E : Extractor K) (log2 : K → K)
    (text : List Char) (htext : ∀ c ∈ text, IsPrintable c) :
    ∃ v, extractFeatures E text = some v ∧
      let w := CppFeatures.extract log2 text
      ((v.wordCount = w.wordCount ∧ v.vocabularySize = w.vocabularySize ∧
          v.uniqueWordRatio = w.uniqueWordRatio ∧ v.punctuationCount = w.punctuationCount ∧
          v.urlCount = w.urlCount ∧ v.conversationTurnCount = w.conversationTurnCount ∧
          v.sentenceCount = w.sentenceCount) ↔
        OnlyMarks text ∧ ¬ "\n\n".toList <:+: text ∧
          max 1 (commaParts text) = max 1 (text.count '.' + text.count '?')) := by
  obtain ⟨v, hv, hm⟩ := extractFeatures_spec E text
  refine ⟨v, hv, ?_⟩
  have hmarks := words_and_punctuation_iff (E := E) htext
  simp only [CppFeatures.extract, hm.wordCount, hm.vocabularySize, hm.uniqueWordRatio,
    hm.punctuationCount, hm.urlCount, hm.conversationTurnCount, hm.sentenceCount]
  constructor
  · rintro ⟨-, hvocab, -, hpunct, -, hturns, hsentence⟩
    have honly := hmarks.mp ⟨by exact_mod_cast hvocab, by exact_mod_cast hpunct⟩
    refine ⟨honly, (turns_of_onlyMarks honly).mp (by exact_mod_cast hturns), ?_⟩
    rw [← sentenceCount_of_onlyMarks honly]
    exact_mod_cast hsentence
  · rintro ⟨honly, hlines, hsentence⟩
    obtain ⟨hvocab, hpunct⟩ := hmarks.mpr honly
    have hwords : words E text = [] := vocab_eq_nil_iff.mp hvocab
    have hcpp : CppFeatures.countWords false text = 0 := by
      refine countWords_eq_zero (fun c hc => ?_) false
      have hnot := words_eq_nil_iff.mp hwords c hc
      rw [E.chars.isWord_ascii (isAscii_of_isPrintable (htext c hc))] at hnot
      exact (Bool.or_eq_false_iff.mp hnot).1
    have hhttp : CppFeatures.contains text "http" = false := by
      rw [CppFeatures.contains, decide_eq_false_iff_not]
      exact fun hin => not_mem_of_onlyMarks honly (c := 'h') (by decide) (hin.subset (by decide))
    rw [hwords, hcpp, hvocab, hpunct, urls_of_onlyMarks honly, hhttp,
      (turns_of_onlyMarks honly).mpr hlines, sentenceCount_of_onlyMarks honly, hsentence]
    simp [indicator]

theorem comma_and_period_agree :
    (∀ c ∈ ", .".toList, IsPrintable c) ∧
      ∃ v, extractFeatures plainExtractor ", .".toList = some v ∧
        v.sentenceCount = (CppFeatures.extract (fun x : ℚ => x) ", .".toList).sentenceCount := by
  have hprintable : ∀ c ∈ ", .".toList, IsPrintable c := forall_mem_of_all (by decide)
  have honly : OnlyMarks ", .".toList ∧ ¬ "\n\n".toList <:+: ", .".toList ∧
      max 1 (commaParts ", .".toList) =
        max 1 (", .".toList.count '.' + ", .".toList.count '?') := by
    decide +kernel
  obtain ⟨v, hv, hiff⟩ :=
    words_sentences_turns_agree_iff plainExtractor (fun x => x) _ hprintable
  exact ⟨hprintable, v, hv, (hiff.mpr honly).2.2.2.2.2.2⟩

/-- The seven features. -/
def sevenFeatures (v : FeatureVector ℚ) : List ℚ :=
  [v.wordCount, v.vocabularySize, v.uniqueWordRatio, v.punctuationCount, v.urlCount,
    v.conversationTurnCount, v.sentenceCount]

/-- A prompt on which none of the seven agrees. -/
def mixedPrompt : List Char := "snake_case: www.a\n\nhi! ok".toList

theorem none_of_seven_agrees :
    (∀ c ∈ mixedPrompt, IsPrintable c) ∧
      (extractFeatures plainExtractor mixedPrompt).map sevenFeatures =
        some [5, 5, 1, 4, 1, 2, 3] ∧
      sevenFeatures (CppFeatures.extract (fun x => x) mixedPrompt) = [6, 0, 0, 2, 0, 1, 1] :=
  ⟨forall_mem_of_all (by decide), by decide +kernel⟩

end PyFeatures

end VllmScheduler
