import VllmScheduler.Common.PyRegex
import VllmScheduler.Common.Text
import VllmScheduler.Features.Cpp
import Mathlib.Data.List.MinMax
/-!
# Features of a prompt, in Python

`FeatureExtractor._extract_features` of `predictor/feature_extractor.py`, with
its regular expressions. A division by zero raises, so the extraction gives an
`Option`; `extractFeatures_spec` says that it never does, and what the features
are. What spaCy and the embedding model find is a parameter, as is
`math.log2`, of which only the sign is used.
-/

namespace VllmScheduler

namespace PyFeatures

open Regex PyRegex Text

/-! ## The expressions -/

section Expressions

variable (P : PyChars)

def isLetter (c : Char) : Bool := ('a' ≤ c && c ≤ 'z') || ('A' ≤ c && c ≤ 'Z')

/-- `[.!?]`. -/
def isTerminator (c : Char) : Bool := c == '.' || c == '!' || c == '?'

def wordRe : Regex Char := seqs [boundary P, plus (word P), boundary P]

def sentenceRe : Regex Char := plus (cls isTerminator)

def urlRe : Regex Char :=
  let rest : Regex Char := plus (cls fun c => !pyIsSpace c)
  alt (seqs [litI P "http", optional (litI P "s"), litI P "://", rest]) (seq (litI P "www.") rest)

def codeFenceRe : Regex Char := lit "```".toList

def pythonRe : Regex Char :=
  seq (boundary P) (alts (["def ", "class ", "import ", "from ", "print(", "if __name__",
    "lambda "].map (litI P)))

def sqlRe : Regex Char :=
  seqs [boundary P, alts (["SELECT", "INSERT", "UPDATE", "DELETE", "FROM", "WHERE",
    "JOIN"].map (litI P)), boundary P]

def jsonRe : Regex Char :=
  let quote : Regex Char := cls fun c => c == '\x22' || c == '\x27'
  seqs [cls fun c => c == '[' || c == '\x7b', star anything, quote, spaces, lit [':'], spaces,
    quote]

def xmlRe : Regex Char :=
  alt (lit "<?xml".toList) (seqs [lit ['<'], cls isLetter, star (cls (· != '>')), lit ['>']])

def yamlRe : Regex Char :=
  seqs [lineStart, star (cls fun c => pyIsSpace c || c == '-'),
    cls fun c => isLetter c || c == '_', star (cls fun c => P.isWord c || c == '-'), spaces,
    lit [':']]

def markdownRe : Regex Char :=
  let space : Regex Char := cls pyIsSpace
  let inLine : Regex Char := plus (cls (· != '\n'))
  alts [seqs [lineStart, upTo (lit ['#']) 5, space], seqs [lineStart, lit ['*'], space],
    seqs [lineStart, lit ['-'], space], lit "**".toList, lit "__".toList,
    seqs [lit ['['], inLine, lit "](".toList, inLine, lit [')']]]

/-- `\b…\s*:`, for a role. -/
def roleRe (role : String) : Regex Char := seqs [boundary P, litI P role, spaces, lit [':']]

/-- `_STOPWORDS`. -/
def stopwords : List (List Char) :=
  ["a", "an", "the", "and", "or", "but", "if", "in", "on", "at", "to", "for", "of", "is", "are",
    "was", "were", "be", "been", "being", "it", "this", "that", "with", "as", "by", "from",
    "not"].map String.toList

inductive Language where
  | en | es | fr | de
  deriving DecidableEq

/-- The languages in the order of `_LANG_HINTS`. -/
def languages : List Language := [.en, .es, .fr, .de]

def langHintWords : Language → List String
  | .en => ["the", "and", "is", "are", "you", "your"]
  | .es => ["el", "la", "los", "las", "que", "de", "en"]
  | .fr => ["le", "la", "les", "de", "et", "est", "une", "un"]
  | .de => ["der", "die", "das", "und", "ist", "ein", "eine"]

def langHintRe (lang : Language) : Regex Char :=
  seqs [boundary P, alts ((langHintWords lang).map (litI P)), boundary P]

/-- `_detect_language`: the first language with the most hits. -/
def detectLanguage (text : List Char) : Language :=
  let score := fun lang => (findall (langHintRe P lang) text).length
  match languages.argmax score with
  | some best => if 0 < score best then best else .en
  | none => .en

end Expressions

/-! ## Strings -/

/-- `str.split()`. -/
def pySplit (text : List Char) : List (List Char) :=
  (text.splitOnP pyIsSpace).filter fun s => !s.isEmpty

/-- `str.strip()`. -/
def strip (s : List Char) : List Char :=
  ((s.dropWhile pyIsSpace).reverse.dropWhile pyIsSpace).reverse

/-- `string.punctuation`. -/
def punctuation : List Char :=
  "!\x22#$%&\x27()*+,-./:;<=>?@[\x5c]^_\x60\x7b|\x7d~".toList

/-! ## The extractor -/

/-- What the extractor runs with. -/
structure Extractor (K : Type) [Field K] [LinearOrder K] where
  chars : PyChars
  log2 : K → K
  log2_pos : ∀ {x : K}, 1 < x → 0 < log2 x
  enableNer : Bool
  enableEmbedding : Bool
  namedEntityCount : List Char → K
  embeddingNorm : List Char → K

section Counts

variable {K : Type} [Field K] [LinearOrder K] (E : Extractor K) (text : List Char)

def words : List (List Char) := findall (wordRe E.chars) text

def tokenCount : ℕ :=
  if (pySplit text).isEmpty then max 1 (words E text).length else (pySplit text).length

/-- The set of the words in lower case. -/
def vocab : List (List Char) := ((words E text).map E.chars.lower).eraseDups

def sentenceCount : ℕ :=
  max 1 ((Regex.split sentenceRe text).filter fun s => !(strip s).isEmpty).length

def stopwordCount : ℕ := (words E text).countP fun w => E.chars.lower w ∈ stopwords

def turns : ℕ :=
  let marked := countText "user:".toList text + countText "assistant:".toList text +
    countText "system:".toList text
  if marked = 0 ∧ '\n' ∈ text then countText "\n\n".toList text + 1 else marked

end Counts

variable {K : Type} [Field K] [LinearOrder K]

/-- `a / b`. -/
def div? (a b : K) : Option K := if b = 0 then none else some (a / b)

/-- `a / n if n else 0.0`. -/
def ratio? (a : K) (n : ℕ) : Option K := if n = 0 then some 0 else div? a n

section Extraction

variable (E : Extractor K) (text : List Char)

/-- `_shannon_entropy`. -/
def shannonEntropy : Option K :=
  if text.isEmpty then some 0
  else do
    let terms ← text.eraseDups.mapM fun c => do
      let p ← div? (text.count c : K) text.length
      return p * E.log2 p
    return -terms.sum

/-- `info_density`. -/
def infoDensity (entropy : K) : Option K :=
  if 1 < (vocab E text).length then div? entropy (E.log2 (max (vocab E text).length 2 : ℕ))
  else some 0

def langToFloat : Language → K
  | .en => 0
  | .es => 1 / 4
  | .fr => 1 / 2
  | .de => 3 / 4

/-- `_reasoning_score`. -/
def reasoningScore (qMarks wordCount : ℕ) : Option K := do
  let keywords := ["why", "how", "explain", "reason", "analyze", "compare", "evaluate", "prove",
    "step", "think"].map String.toList
  let hits := (words E (E.chars.lower text)).countP fun w => w ∈ keywords
  let base ← div? (hits : K) (max wordCount 1 : ℕ)
  return min 1 (base * 10 + qMarks * (1 / 10))

/-- `_coding_probability`. -/
def codingProbability : Option K := do
  let lower := E.chars.lower text
  let signals := [search codeFenceRe text, search (pythonRe E.chars) text,
    search (sqlRe E.chars) text, decide ("function".toList <:+: lower),
    decide ("class ".toList <:+: lower), decide ("import ".toList <:+: lower)].count true
  let share ← div? (signals : K) 3
  return min 1 share

/-- `_extract_features`. -/
def extractFeatures : Option (FeatureVector K) := do
  let P := E.chars
  let chars := text.length
  let wordCount := (words E text).length
  let tokens := tokenCount E text
  let vocabSize := (vocab E text).length
  let uniqueRatio ← ratio? (vocabSize : K) wordCount
  let totalChars := max chars 1
  let qMarks := countText ['?'] text
  let entropy ← shannonEntropy E text
  let infoDensity ← infoDensity E text entropy
  let sentences := sentenceCount text
  let avgSentenceLen ← div? (wordCount : K) sentences
  let stopwordRatio ← ratio? (stopwordCount E text : K) wordCount
  let unicodeRatio ← div? (text.countP (fun c => 127 < c.toNat) : K) totalChars
  let reasoning ← reasoningScore E text qMarks wordCount
  let coding ← codingProbability E text
  let avgTokenLength ← div? (chars : K) tokens
  let avgWordLength ← ratio? (chars : K) wordCount
  let uppercaseRatio ← div? (text.countP P.isUpper : K) totalChars
  let lowercaseRatio ← div? (text.countP P.isLower : K) totalChars
  let whitespaceRatio ← div? (text.countP pyIsSpace : K) totalChars
  return {
    promptTokenCount := tokens
    promptCharCount := chars
    wordCount := wordCount
    avgTokenLength := avgTokenLength
    avgWordLength := avgWordLength
    vocabularySize := vocabSize
    uniqueWordRatio := uniqueRatio
    promptEntropy := entropy
    informationDensity := infoDensity
    punctuationCount := text.countP (· ∈ punctuation)
    questionMarkCount := qMarks
    exclamationCount := countText ['!'] text
    periodCount := countText ['.'] text
    commaCount := countText [','] text
    digitCount := text.countP P.isDigit
    uppercaseRatio := uppercaseRatio
    lowercaseRatio := lowercaseRatio
    whitespaceRatio := whitespaceRatio
    hasMarkdown := indicator (search markdownRe text)
    hasCodeFence := indicator (search codeFenceRe text)
    hasPython := indicator (search (pythonRe P) text)
    hasSql := indicator (search (sqlRe P) text)
    hasJson := indicator (search jsonRe text)
    hasXml := indicator (search xmlRe text)
    hasYaml := indicator (search (yamlRe P) text)
    urlCount := (findall (urlRe P) text).length
    newlineCount := countText ['\n'] text
    conversationTurnCount := (max (turns text) 1 : ℕ)
    hasSystemPrompt := indicator (search (roleRe P "system") text)
    hasAssistantPrompt := indicator (search (roleRe P "assistant") text)
    hasUserPrompt := indicator (search (roleRe P "user") text)
    languageCode := langToFloat (detectLanguage P text)
    unicodeRatio := unicodeRatio
    reasoningScore := reasoning
    codingProbability := coding
    stopwordRatio := stopwordRatio
    sentenceCount := sentences
    avgSentenceLength := avgSentenceLen
    namedEntityCount := if E.enableNer then E.namedEntityCount text else 0
    embeddingNorm := if E.enableEmbedding then E.embeddingNorm text else 0 }

end Extraction

/-! ## No division by zero -/

section Divisions

variable [IsStrictOrderedRing K] (E : Extractor K) (text : List Char)

omit [IsStrictOrderedRing K] in
theorem div?_of_ne {a b : K} (h : b ≠ 0) : div? a b = some (a / b) := if_neg h

theorem div?_natCast (a : K) {n : ℕ} (h : n ≠ 0) : div? a (n : K) = some (a / n) :=
  div?_of_ne (Nat.cast_ne_zero.mpr h)

theorem ratio?_eq (a : K) (n : ℕ) : ratio? a n = some (a / n) := by
  rw [ratio?]
  split
  · rename_i h
    rw [h, Nat.cast_zero, div_zero]
  · rename_i h
    exact div?_natCast a h

omit [IsStrictOrderedRing K] in
theorem tokenCount_pos : tokenCount E text ≠ 0 := by
  rw [tokenCount]
  split
  · omega
  · rename_i h
    simpa using h

theorem sentenceCount_pos : sentenceCount text ≠ 0 := by
  rw [sentenceCount]
  omega

theorem exists_shannonEntropy : ∃ h, shannonEntropy E text = some h := by
  rw [shannonEntropy]
  split
  · exact ⟨0, rfl⟩
  · rename_i hne
    have hlen : text.length ≠ 0 := by simpa using hne
    simp only [div?_natCast _ hlen]
    have hterms : ∀ l : List Char, ∃ terms, (l.mapM fun c => do
        let p ← some ((text.count c : K) / text.length)
        return p * E.log2 p) = some terms := by
      intro l
      induction l with
      | nil => exact ⟨[], rfl⟩
      | cons c l ih =>
        obtain ⟨terms, hl⟩ := ih
        exact ⟨_ :: terms, by rw [List.mapM_cons, hl]; rfl⟩
    obtain ⟨terms, hl⟩ := hterms text.eraseDups
    exact ⟨-terms.sum, by rw [hl]; rfl⟩

theorem exists_infoDensity (entropy : K) : ∃ d, infoDensity E text entropy = some d := by
  rw [infoDensity]
  split
  · have hlog : (1 : K) < (max (vocab E text).length 2 : ℕ) := by
      exact_mod_cast (by omega : 1 < max (vocab E text).length 2)
    exact ⟨_, div?_of_ne (E.log2_pos hlog).ne'⟩
  · exact ⟨0, rfl⟩

theorem exists_reasoningScore (qMarks wordCount : ℕ) :
    ∃ p, reasoningScore E text qMarks wordCount = some p := by
  rw [reasoningScore]
  simp only [div?_natCast _ (by omega : max wordCount 1 ≠ 0)]
  exact ⟨_, rfl⟩

theorem exists_codingProbability : ∃ p, codingProbability E text = some p := by
  have hthree : (3 : K) ≠ 0 := three_ne_zero
  rw [codingProbability]
  simp only [div?_of_ne hthree]
  exact ⟨_, rfl⟩

/-- What the extraction finds in a prompt: the counts, and what it makes of
them. -/
structure Measured (v : FeatureVector K) : Prop where
  promptTokenCount : v.promptTokenCount = (tokenCount E text : K)
  promptCharCount : v.promptCharCount = (text.length : K)
  wordCount : v.wordCount = ((words E text).length : K)
  avgTokenLength : v.avgTokenLength = (text.length : K) / tokenCount E text
  vocabularySize : v.vocabularySize = ((vocab E text).length : K)
  uniqueWordRatio : v.uniqueWordRatio = ((vocab E text).length : K) / (words E text).length
  punctuationCount : v.punctuationCount = (text.countP (· ∈ punctuation) : K)
  questionMarkCount : v.questionMarkCount = (text.count '?' : K)
  exclamationCount : v.exclamationCount = (text.count '!' : K)
  periodCount : v.periodCount = (text.count '.' : K)
  commaCount : v.commaCount = (text.count ',' : K)
  digitCount : v.digitCount = (text.countP E.chars.isDigit : K)
  uppercaseRatio : v.uppercaseRatio = (text.countP E.chars.isUpper : K) / (max text.length 1 : ℕ)
  lowercaseRatio : v.lowercaseRatio = (text.countP E.chars.isLower : K) / (max text.length 1 : ℕ)
  whitespaceRatio : v.whitespaceRatio = (text.countP pyIsSpace : K) / (max text.length 1 : ℕ)
  urlCount : v.urlCount = ((findall (urlRe E.chars) text).length : K)
  newlineCount : v.newlineCount = (text.count '\n' : K)
  conversationTurnCount : v.conversationTurnCount = (max (turns text) 1 : ℕ)
  unicodeRatio : v.unicodeRatio =
    (text.countP (fun c => 127 < c.toNat) : K) / (max text.length 1 : ℕ)
  reasoningScore : some v.reasoningScore =
    reasoningScore E text (text.count '?') (words E text).length
  codingProbability : some v.codingProbability = codingProbability E text
  stopwordRatio : v.stopwordRatio = (stopwordCount E text : K) / (words E text).length
  sentenceCount : v.sentenceCount = (sentenceCount text : K)

/-- **The extraction never raises**, and this is what it finds. -/
theorem extractFeatures_spec : ∃ v, extractFeatures E text = some v ∧ Measured E text v := by
  obtain ⟨entropy, hentropy⟩ := exists_shannonEntropy E text
  obtain ⟨density, hdensity⟩ := exists_infoDensity E text entropy
  have htotal : max text.length 1 ≠ 0 := by omega
  obtain ⟨coding, hcoding⟩ := exists_codingProbability E text
  obtain ⟨reasoning, hreasoning⟩ :=
    exists_reasoningScore E text (text.count '?') (words E text).length
  simp only [extractFeatures, ratio?_eq, hentropy, hdensity, hreasoning, hcoding,
    div?_natCast _ (sentenceCount_pos text), div?_natCast _ htotal,
    div?_natCast _ (tokenCount_pos E text), countText_singleton, Option.bind_eq_bind,
    Option.bind_some]
  refine ⟨_, rfl, ?_⟩
  exact ⟨rfl, rfl, rfl, rfl, rfl, rfl, rfl, rfl, rfl, rfl, rfl, rfl, rfl, rfl, rfl, rfl, rfl, rfl,
    rfl, hreasoning.symm, hcoding.symm, rfl, rfl⟩

end Divisions

end PyFeatures

end VllmScheduler
