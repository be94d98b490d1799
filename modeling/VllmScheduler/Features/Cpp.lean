import VllmScheduler.Predictor.Mlp
import Mathlib.Algebra.Order.Field.Basic
import Mathlib.Data.List.Basic
import Mathlib.Data.List.Infix
/-!
# Features of a prompt, in C++

`FeatureExtractor::extract` of `cpp/src/feature_extractor.cpp`. The array is
written by number, in the order of `FEATURE_NAMES`; here it is a record with
these names, and `toList` numbers it again.

A prompt is a list of bytes, each as the character with its code. The
character classes are those of the C locale. Floats are elements of an ordered
field, and `std::log2` is a parameter.
-/

namespace VllmScheduler

variable {K : Type}

/-- The features, in their order. -/
structure FeatureVector (K : Type) where
  promptTokenCount : K
  promptCharCount : K
  wordCount : K
  avgTokenLength : K
  avgWordLength : K
  vocabularySize : K
  uniqueWordRatio : K
  promptEntropy : K
  informationDensity : K
  punctuationCount : K
  questionMarkCount : K
  exclamationCount : K
  periodCount : K
  commaCount : K
  digitCount : K
  uppercaseRatio : K
  lowercaseRatio : K
  whitespaceRatio : K
  hasMarkdown : K
  hasCodeFence : K
  hasPython : K
  hasSql : K
  hasJson : K
  hasXml : K
  hasYaml : K
  urlCount : K
  newlineCount : K
  conversationTurnCount : K
  hasSystemPrompt : K
  hasAssistantPrompt : K
  hasUserPrompt : K
  languageCode : K
  unicodeRatio : K
  reasoningScore : K
  codingProbability : K
  stopwordRatio : K
  sentenceCount : K
  avgSentenceLength : K
  namedEntityCount : K
  embeddingNorm : K

/-- The features by number. -/
def FeatureVector.toList (v : FeatureVector K) : List K :=
  [v.promptTokenCount, v.promptCharCount, v.wordCount, v.avgTokenLength, v.avgWordLength,
    v.vocabularySize, v.uniqueWordRatio, v.promptEntropy, v.informationDensity,
    v.punctuationCount, v.questionMarkCount, v.exclamationCount, v.periodCount, v.commaCount,
    v.digitCount, v.uppercaseRatio, v.lowercaseRatio, v.whitespaceRatio, v.hasMarkdown,
    v.hasCodeFence, v.hasPython, v.hasSql, v.hasJson, v.hasXml, v.hasYaml, v.urlCount,
    v.newlineCount, v.conversationTurnCount, v.hasSystemPrompt, v.hasAssistantPrompt,
    v.hasUserPrompt, v.languageCode, v.unicodeRatio, v.reasoningScore, v.codingProbability,
    v.stopwordRatio, v.sentenceCount, v.avgSentenceLength, v.namedEntityCount, v.embeddingNorm]

theorem FeatureVector.length_toList (v : FeatureVector K) : v.toList.length = numFeatures := rfl

/-- `1.0` or `0.0`. -/
def indicator [Zero K] [One K] (b : Bool) : K := if b then 1 else 0

namespace CppFeatures

/-- `std::isspace` in the C locale. -/
def isSpace (c : Char) : Bool := c == ' ' || (0x09 ≤ c.toNat && c.toNat ≤ 0x0d)

/-- `contains`. -/
def contains (s : List Char) (needle : String) : Bool := needle.toList <:+: s

/-- The first loop: how many words begin, where `inWord` says whether one is
being read. -/
def countWords : Bool → List Char → ℕ
  | _, [] => 0
  | inWord, c :: cs =>
    if c.isAlphanum then (if inWord then 0 else 1) + countWords true cs else countWords false cs

/-- The second loop: how many characters begin a token, where `previous` is
the character before. -/
def countTokens : Option Char → List Char → ℕ
  | _, [] => 0
  | previous, c :: cs =>
    (if !isSpace c && previous.all isSpace then 1 else 0) + countTokens (some c) cs

def tokens (text : List Char) : ℕ :=
  if countTokens none text = 0 then max 1 (countWords false text) else countTokens none text

variable [Field K] [LinearOrder K]

/-- `shannon_entropy`: the loop goes over the 256 counters. -/
def shannonEntropy (log2 : K → K) (text : List Char) : K :=
  if text.isEmpty then 0
  else
    (List.range 256).foldl (fun h byte =>
      let c := text.countP (·.toNat = byte)
      if c = 0 then h else h - (c : K) / text.length * log2 ((c : K) / text.length)) 0

/-- `FeatureExtractor::extract`. Nothing is put into `seen`, and `vocab` stays
as it was set. -/
def extract (log2 : K → K) (prompt : List Char) : FeatureVector K :=
  let chars := prompt.length
  let words := countWords false prompt
  let vocab := 0
  let seen : List (List Char) := []
  let n : K := (max chars 1 : ℕ)
  let entropy := shannonEntropy log2 prompt
  let questions := prompt.count '?'
  let hasFence := contains prompt "```"
  let hasPython := contains prompt "def " || contains prompt "import "
  let sentences := max 1 (prompt.count '.' + questions)
  { promptTokenCount := tokens prompt
    promptCharCount := chars
    wordCount := words
    avgTokenLength := chars / tokens prompt
    avgWordLength := if 0 < words then (chars : K) / words else 0
    vocabularySize := (vocab : ℕ)
    uniqueWordRatio := if 0 < words then (seen.length : K) / words else 0
    promptEntropy := entropy
    informationDensity := entropy
    punctuationCount :=
      (questions + prompt.count '!' + prompt.count '.' + prompt.count ',' : ℕ)
    questionMarkCount := questions
    exclamationCount := prompt.count '!'
    periodCount := prompt.count '.'
    commaCount := prompt.count ','
    digitCount := prompt.countP Char.isDigit
    uppercaseRatio := prompt.countP Char.isUpper / n
    lowercaseRatio := prompt.countP Char.isLower / n
    whitespaceRatio := prompt.countP isSpace / n
    hasMarkdown := indicator (contains prompt "#" || contains prompt "**")
    hasCodeFence := indicator hasFence
    hasPython := indicator hasPython
    hasSql := indicator (contains prompt "SELECT" || contains prompt "select" ||
      contains prompt "FROM" || contains prompt "from")
    hasJson := indicator (contains prompt "\x7b" && contains prompt ":")
    hasXml := indicator (contains prompt "<?xml" || contains prompt "<html")
    hasYaml := indicator (contains prompt "---")
    urlCount := indicator (contains prompt "http")
    newlineCount := prompt.count '\n'
    conversationTurnCount := 1
    hasSystemPrompt := indicator (contains prompt "system:")
    hasAssistantPrompt := indicator (contains prompt "assistant:")
    hasUserPrompt := indicator (contains prompt "user:")
    languageCode := 0
    unicodeRatio := 0
    reasoningScore := min 1 ((questions : K) * (1 / 10) + if 0 < words then 1 / 10 else 0)
    codingProbability := if hasFence || hasPython then 8 / 10 else 1 / 10
    stopwordRatio := 3 / 10
    sentenceCount := sentences
    avgSentenceLength := if 0 < words then (chars : K) / sentences else 0
    namedEntityCount := 0
    embeddingNorm := 0 }

end CppFeatures

end VllmScheduler
