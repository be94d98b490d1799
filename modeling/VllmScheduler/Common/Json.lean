import Mathlib.Data.List.Basic
import Mathlib.Data.List.Infix
import Mathlib.Algebra.Order.BigOperators.Group.List
import Mathlib.Algebra.Order.Group.Nat
import Mathlib.Tactic.Ring
import Mathlib.Tactic.Linarith
/-!
# JSON values as Python holds them

What `json.loads` returns, and what Python makes of it: the operator `in`,
`json.dumps` as web frameworks call it (`allow_nan=False`, and the text
encoded in UTF-8), `str` and `repr`. A Python string is a sequence of code
points and may hold a lone surrogate, which JSON can write and UTF-8 cannot.
Which code points beyond ASCII `repr` prints as they are is a table of the
Unicode database and so a parameter.
-/

namespace VllmScheduler

/-- A code point; unlike a `Char` it may be a surrogate. -/
abbrev CodePoint := Fin 0x110000

/-- A Python `str`. -/
abbrev PyString := List CodePoint

/-- The code point of a character. -/
def CodePoint.ofChar (c : Char) : CodePoint :=
  ⟨c.toNat, by rcases c.valid with h | h <;> simp only [Char.toNat] <;> omega⟩

/-- A literal. -/
def py (s : String) : PyString := s.toList.map CodePoint.ofChar

/-- Half of a UTF-16 pair. -/
def CodePoint.Surrogate (c : CodePoint) : Prop := 0xD800 ≤ c.val ∧ c.val ≤ 0xDFFF

instance (c : CodePoint) : Decidable c.Surrogate :=
  inferInstanceAs (Decidable (0xD800 ≤ c.val ∧ c.val ≤ 0xDFFF))

/-- The character of a code point, where the replacement character stands for
a surrogate. -/
def CodePoint.toChar (c : CodePoint) : Char := if c.Surrogate then '\uFFFD' else Char.ofNat c.val

theorem CodePoint.toChar_ofChar (c : Char) : (CodePoint.ofChar c).toChar = c := by
  have hnot : ¬ (CodePoint.ofChar c).Surrogate := by
    intro h
    rcases c.valid with hc | hc <;> simp only [Surrogate, ofChar, Char.toNat] at h <;> omega
  rw [toChar, if_neg hnot]
  exact Char.ofNat_toNat c

/-- Any other character stands for its own code point only. -/
theorem CodePoint.eq_ofChar_of_toChar {p : CodePoint} {c : Char} (h : p.toChar = c)
    (hc : c ≠ '\uFFFD') : p = CodePoint.ofChar c := by
  rw [toChar] at h
  split at h
  · exact absurd h.symm hc
  · rename_i hnot
    have hvalid : p.val.isValidChar := by
      have := p.isLt
      simp only [Surrogate] at hnot
      simp only [Nat.isValidChar]
      omega
    rw [Char.ofNat, dif_pos hvalid] at h
    rw [← h]
    rfl

theorem map_toChar_py (s : String) : (py s).map CodePoint.toChar = s.toList := by
  have hcomp : CodePoint.toChar ∘ CodePoint.ofChar = id := funext CodePoint.toChar_ofChar
  rw [py, List.map_map, hcomp, List.map_id]

/-- A literal is found among the characters only where it is found among the
code points. -/
theorem py_infix_of_infix_map {s : String} {xs : PyString} (hs : '\uFFFD' ∉ s.toList)
    (h : s.toList <:+: xs.map CodePoint.toChar) : py s <:+: xs := by
  obtain ⟨a, b, heq⟩ := h
  obtain ⟨ys, zs, rfl, hys, -⟩ := List.map_eq_append_iff.mp heq.symm
  obtain ⟨us, vs, rfl, -, hvs⟩ := List.map_eq_append_iff.mp hys
  refine ⟨us, zs, ?_⟩
  have hpoints : vs.map (CodePoint.ofChar ∘ CodePoint.toChar) = vs.map id := by
    refine List.map_congr_left fun p hp => ?_
    have hmem : p.toChar ∈ s.toList := hvs ▸ List.mem_map_of_mem hp
    exact (CodePoint.eq_ofChar_of_toChar rfl fun heq => hs (heq ▸ hmem)).symm
  rw [py, ← hvs, List.map_map, hpoints, List.map_id]

/-- A value of `json.loads`. A number is known by what `repr` prints of it.
The keys of an object it builds are distinct; nothing below depends on that. -/
inductive Json where
  | null
  | bool (value : Bool)
  | number (repr : PyString)
  | string (value : PyString)
  | array (items : List Json)
  | object (fields : List (PyString × Json))

namespace Json

/-- The number is not one of the floats JSON has no text for. -/
def Finite (repr : PyString) : Prop := repr ∉ [py "inf", py "-inf", py "nan"]

instance (repr : PyString) : Decidable (Finite repr) :=
  inferInstanceAs (Decidable (repr ∉ [py "inf", py "-inf", py "nan"]))

/-- `encode("utf-8")` does not raise. -/
def Encodes (s : PyString) : Prop := ∀ c ∈ s, ¬ c.Surrogate

instance (s : PyString) : Decidable (Encodes s) :=
  show Decidable (∀ c ∈ s, ¬ CodePoint.Surrogate c) from List.decidableBAll _ s

mutual

/-- `json.dumps(value, allow_nan=False).encode("utf-8")` does not raise. -/
def Encodable : Json → Prop
  | .null | .bool _ => True
  | .number repr => Finite repr
  | .string s => Encodes s
  | .array items => EncodableItems items
  | .object fields => EncodableFields fields

def EncodableItems : List Json → Prop
  | [] => True
  | v :: items => Encodable v ∧ EncodableItems items

def EncodableFields : List (PyString × Json) → Prop
  | [] => True
  | (k, v) :: fields => (Encodes k ∧ Encodable v) ∧ EncodableFields fields

end

mutual

/-- Whether a value can be rendered is decided by walking through it. -/
def decidableEncodable : (v : Json) → Decidable (Encodable v)
  | .null | .bool _ => isTrue (by simp [Encodable])
  | .number repr => decidable_of_iff (Finite repr) (by simp [Encodable])
  | .string s => decidable_of_iff (Encodes s) (by simp [Encodable])
  | .array items =>
    have := decidableEncodableItems items
    decidable_of_iff (EncodableItems items) (by simp [Encodable])
  | .object fields =>
    have := decidableEncodableFields fields
    decidable_of_iff (EncodableFields fields) (by simp [Encodable])

def decidableEncodableItems : (items : List Json) → Decidable (EncodableItems items)
  | [] => isTrue (by simp [EncodableItems])
  | v :: items =>
    have := decidableEncodable v
    have := decidableEncodableItems items
    decidable_of_iff (Encodable v ∧ EncodableItems items) (by simp [EncodableItems])

def decidableEncodableFields :
    (fields : List (PyString × Json)) → Decidable (EncodableFields fields)
  | [] => isTrue (by simp [EncodableFields])
  | (k, v) :: fields =>
    have := decidableEncodable v
    have := decidableEncodableFields fields
    decidable_of_iff ((Encodes k ∧ Encodable v) ∧ EncodableFields fields)
      (by simp [EncodableFields])

end

instance (v : Json) : Decidable (Encodable v) := decidableEncodable v

/-- The value is the string `s`. -/
def IsString (s : PyString) : Json → Prop
  | .string t => t = s
  | _ => False

instance (s : PyString) : ∀ v, Decidable (IsString s v)
  | .string t => inferInstanceAs (Decidable (t = s))
  | .null | .bool _ | .number _ | .array _ | .object _ => isFalse id

/-- `s in value`: a key of an object, an item of an array, a part of a string;
nothing for a value that is no container, where Python raises `TypeError`. -/
def contains (s : PyString) : Json → Option Bool
  | .object fields => some (s ∈ fields.map Prod.fst)
  | .array items => some (∃ v ∈ items, IsString s v)
  | .string t => some (s <:+: t)
  | _ => none

/-- `fields.get(key, default)`. -/
def getD (fields : List (PyString × Json)) (key : PyString) (default : Json) : Json :=
  ((fields.find? fun field => field.1 = key).map Prod.snd).getD default

/-! ## Texts -/

section Repr

variable (printable : CodePoint → Bool)

/-- The last `width` hexadecimal digits of a number. -/
def hexDigits (n : ℕ) : ℕ → PyString
  | 0 => []
  | width + 1 =>
    hexDigits (n / 16) width ++ [CodePoint.ofChar (Nat.digitChar (n % 16))]

/-- What `repr` writes for a character between the given quotes. -/
def escape (quote c : CodePoint) : PyString :=
  if c = quote ∨ c = CodePoint.ofChar '\x5c' then [CodePoint.ofChar '\x5c', c]
  else if c = CodePoint.ofChar '\t' then py "\\t"
  else if c = CodePoint.ofChar '\n' then py "\\n"
  else if c = CodePoint.ofChar '\r' then py "\\r"
  else if c.val < 0x20 ∨ c.val = 0x7f then py "\\x" ++ hexDigits c.val 2
  else if c.val < 0x7f ∨ printable c = true then [c]
  else if c.val ≤ 0xff then py "\\x" ++ hexDigits c.val 2
  else if c.val ≤ 0xffff then py "\\u" ++ hexDigits c.val 4
  else py "\\U" ++ hexDigits c.val 8

/-- `repr` of a string: double quotes where it holds a single one and no
double one. -/
def reprString (s : PyString) : PyString :=
  let single := CodePoint.ofChar '\x27'
  let double := CodePoint.ofChar '\x22'
  let quote := if single ∈ s ∧ double ∉ s then double else single
  quote :: (s.flatMap (escape printable quote) ++ [quote])

mutual

/-- `repr`. -/
def repr : Json → PyString
  | .null => py "None"
  | .bool b => py (if b then "True" else "False")
  | .number text => text
  | .string s => reprString printable s
  | .array items => py "[" ++ List.intercalate (py ", ") (reprItems items) ++ py "]"
  | .object fields =>
    py "\x7b" ++ List.intercalate (py ", ") (reprFields fields) ++ py "\x7d"

def reprItems : List Json → List PyString
  | [] => []
  | v :: items => repr v :: reprItems items

def reprFields : List (PyString × Json) → List PyString
  | [] => []
  | (k, v) :: fields => (reprString printable k ++ py ": " ++ repr v) :: reprFields fields

end

/-- `str`. -/
def str : Json → PyString
  | .string s => s
  | v => repr printable v

/-! ### How long they are -/

section Lengths

theorem length_intercalate (sep : PyString) (l : List PyString) :
    (List.intercalate sep l).length = (l.map List.length).sum + (l.length - 1) * sep.length := by
  induction l with
  | nil => simp
  | cons s l ih =>
    cases l with
    | nil => simp
    | cons t l =>
      rw [List.intercalate_cons_cons, List.length_append, List.length_append, ih]
      simp only [List.map_cons, List.sum_cons, List.length_cons, Nat.add_sub_cancel]
      ring

theorem length_le_intercalate (sep : PyString) {s : PyString} {l : List PyString} (hs : s ∈ l) :
    s.length ≤ (List.intercalate sep l).length := by
  rw [length_intercalate]
  have := List.single_le_sum (fun _ _ => Nat.zero_le _) s.length (List.mem_map_of_mem hs)
  omega

theorem length_escape_pos (quote c : CodePoint) : 1 ≤ (escape printable quote c).length := by
  rw [escape]
  split_ifs
  all_goals simp [py]

/-- A string is shorter than what `repr` prints of it. -/
theorem length_reprString (s : PyString) : s.length + 2 ≤ (reprString printable s).length := by
  have hescape : ∀ quote : CodePoint, s.length ≤ (s.flatMap (escape printable quote)).length := by
    intro quote
    induction s with
    | nil => rfl
    | cons c s ih =>
      have := length_escape_pos printable quote c
      rw [List.flatMap_cons, List.length_append, List.length_cons]
      omega
  rw [reprString]
  simp only [List.length_cons, List.length_append, List.length_nil]
  have := hescape (if CodePoint.ofChar '\x27' ∈ s ∧ CodePoint.ofChar '\x22' ∉ s then
    CodePoint.ofChar '\x22' else CodePoint.ofChar '\x27')
  omega

theorem length_str_le (v : Json) : (str printable v).length ≤ (repr printable v).length := by
  cases v with
  | string s =>
    have := length_reprString printable s
    rw [str, repr]
    omega
  | _ => exact le_rfl

theorem length_reprItems (items : List Json) :
    (reprItems printable items).length = items.length := by
  induction items with
  | nil => rfl
  | cons v items ih => rw [reprItems, List.length_cons, List.length_cons, ih]

theorem mem_reprFields {k : PyString} {v : Json} {fields : List (PyString × Json)}
    (h : (k, v) ∈ fields) :
    reprString printable k ++ py ": " ++ repr printable v ∈ reprFields printable fields := by
  induction fields with
  | nil => cases h
  | cons field fields ih =>
    obtain ⟨k', v'⟩ := field
    rw [reprFields]
    rcases List.mem_cons.mp h with heq | h
    · cases heq
      exact List.mem_cons_self
    · exact List.mem_cons_of_mem _ (ih h)

/-- **What a part of an object prints is no longer than the object.** -/
theorem length_str_getD_le (fields : List (PyString × Json)) (key : PyString) :
    (str printable (getD fields key (.object fields))).length ≤
      (repr printable (.object fields)).length := by
  rw [getD]
  cases hfind : fields.find? fun field => field.1 = key with
  | none => exact length_str_le printable _
  | some field =>
    obtain ⟨k, v⟩ := field
    have hle := length_le_intercalate (py ", ")
      (mem_reprFields printable (List.mem_of_find?_eq_some hfind))
    simp only [List.length_append] at hle
    have hstr := length_str_le printable v
    show (str printable v).length ≤ _
    rw [repr, List.length_append, List.length_append]
    omega

end Lengths

end Repr

end Json

end VllmScheduler
