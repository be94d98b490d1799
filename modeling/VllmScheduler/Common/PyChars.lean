import Mathlib.Data.List.Basic
/-!
# Character classes of Python strings

`str.isspace` and `\s` name a short list of code points. The other classes are
tables of the Unicode database; `PyChars` carries them with what is certain of
them: on ASCII they are what they are in C. `PyChars.ascii` is an instance to
compute with.
-/

namespace VllmScheduler

/-- The character is in ASCII. -/
def IsAscii (c : Char) : Prop := c.toNat < 128

instance (c : Char) : Decidable (IsAscii c) := inferInstanceAs (Decidable (c.toNat < 128))

/-- A text is checked character by character. -/
theorem forall_mem_of_all {p : Char → Prop} [DecidablePred p] {s : List Char}
    (h : s.all (fun c => decide (p c)) = true) : ∀ c ∈ s, p c := by
  simpa using h

/-- `str.isspace` of a character, and `\s`. -/
def pyIsSpace (c : Char) : Bool :=
  let n := c.toNat
  (0x09 ≤ n && n ≤ 0x0d) || (0x1c ≤ n && n ≤ 0x20) || n == 0x85 || n == 0xa0 || n == 0x1680 ||
    (0x2000 ≤ n && n ≤ 0x200a) || n == 0x2028 || n == 0x2029 || n == 0x202f || n == 0x205f ||
    n == 0x3000

/-- What Python's string methods and `re` know about characters. -/
structure PyChars where
  isUpper : Char → Bool
  isLower : Char → Bool
  isDigit : Char → Bool
  /-- `\w`. -/
  isWord : Char → Bool
  /-- `str.lower`. -/
  lower : List Char → List Char
  /-- The two match each other under `re.IGNORECASE`. -/
  sameLetter : Char → Char → Bool
  isUpper_ascii : ∀ {c}, IsAscii c → isUpper c = c.isUpper
  isLower_ascii : ∀ {c}, IsAscii c → isLower c = c.isLower
  isDigit_ascii : ∀ {c}, IsAscii c → isDigit c = c.isDigit
  isWord_ascii : ∀ {c}, IsAscii c → isWord c = (c.isAlphanum || c == '_')
  lower_ascii : ∀ {s}, (∀ c ∈ s, IsAscii c) → lower s = s.map Char.toLower
  sameLetter_ascii : ∀ {c d}, IsAscii c → IsAscii d →
    sameLetter c d = (c.toLower == d.toLower)

/-- The ASCII rules for all characters. -/
def PyChars.ascii : PyChars where
  isUpper := Char.isUpper
  isLower := Char.isLower
  isDigit := Char.isDigit
  isWord := fun c => c.isAlphanum || c == '_'
  lower := fun s => s.map Char.toLower
  sameLetter := fun c d => c.toLower == d.toLower
  isUpper_ascii := fun _ => rfl
  isLower_ascii := fun _ => rfl
  isDigit_ascii := fun _ => rfl
  isWord_ascii := fun _ => rfl
  lower_ascii := fun _ => rfl
  sameLetter_ascii := fun _ _ => rfl

end VllmScheduler
