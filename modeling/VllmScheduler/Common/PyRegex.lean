import VllmScheduler.Common.PyChars
import VllmScheduler.Common.Regex
/-!
# Idioms of Python's `re`

The escapes and flags of Python's regular expressions in terms of `Regex`.
-/

namespace VllmScheduler

namespace PyRegex

open Regex

/-- `\s*`. -/
def spaces : Regex Char := star (cls pyIsSpace)

/-- Any character, with `DOTALL`. -/
def anything : Regex Char := cls fun _ => true

/-- `^`, with `MULTILINE`. -/
def lineStart : Regex Char := look fun before _ => before.all (· == '\n')

/-- Between one and `n + 1` times, as often as possible. -/
def upTo (r : Regex Char) : ℕ → Regex Char
  | 0 => r
  | n + 1 => seq r (optional (upTo r n))

section Classes

variable (P : PyChars)

/-- `\w`. -/
def word : Regex Char := cls P.isWord

/-- `\b`. -/
def boundary : Regex Char := look fun before after => before.any P.isWord != after.any P.isWord

/-- A text, with `IGNORECASE`. -/
def litI (s : String) : Regex Char := seqs (s.toList.map fun c => cls (P.sameLetter c))

end Classes

variable {x : Char} {s : List Char}

theorem not_mem_spaces (hs : ∀ y ∈ s, pyIsSpace y = true) (hx : pyIsSpace x = false) : x ∉ s := by
  intro hmem
  rw [hs x hmem] at hx
  cases hx

/-- A match of a text without regard to case has its letters. -/
theorem exists_sameLetter {P : PyChars} {t : String} {u : List Char} {cs : List Char}
    (ht : t.toList = x :: cs) (h : Lang (litI P t) u) : ∃ y ∈ u, P.sameLetter x y = true := by
  rw [litI, ht, List.map_cons, lang_seqs_cons] at h
  obtain ⟨_, v, rfl, ⟨y, hy, rfl⟩, -⟩ := h
  exact ⟨y, by simp, hy⟩

theorem plain_litI {P : PyChars} {t : String} : Plain (litI P t) := by
  simp [litI]

end PyRegex

end VllmScheduler
