import VllmScheduler.Common.Json
/-!
# The prompt of a chat

A chat is a list of messages, and the predictor wants one text. Both
`submit_chat` and `submit_chat_stream` of `scheduler/gateway.py` make it with
the same expression; `extract_from_messages` of
`predictor/feature_extractor.py`, with which the model is trained, makes it
with another one. The two differ where a message's content is a list of parts:
the gateway prints the list, the extractor joins the texts in it
(`prompts_agree_iff`).
-/

namespace VllmScheduler

namespace ChatPrompt

open Json

/-- A message: a `dict` of JSON values. -/
abbrev Message := List (PyString × Json)

variable (printable : CodePoint → Bool)

def role (m : Message) : Json := getD m (py "role") (.string (py "user"))

def content (m : Message) : Json := getD m (py "content") (.string [])

/-- `f"{role}: {content}"`. -/
def line (role content : PyString) : PyString := role ++ py ": " ++ content

/-- The prompt that `submit_chat` and `submit_chat_stream` submit. -/
def gatewayPrompt (messages : List Message) : PyString :=
  List.intercalate (py "\n") (messages.map fun m =>
    line (str printable (role m)) (str printable (content m)))

/-- The texts of the parts that are objects: of one without a text, all of
it. -/
def partTexts (items : List Json) : List PyString :=
  items.filterMap fun
    | .object fields => some (str printable (getD fields (py "text") (.object fields)))
    | _ => none

/-- The content as `extract_from_messages` writes it. -/
def contentText : Json → PyString
  | .array items => List.intercalate (py " ") (partTexts printable items)
  | v => str printable v

/-- The prompt that `extract_from_messages` extracts features from. -/
def extractorPrompt (messages : List Message) : PyString :=
  List.intercalate (py "\n") (messages.map fun m =>
    line (str printable (role m)) (contentText printable (content m)))

/-- The value is a list. -/
def IsList : Json → Prop
  | .array _ => True
  | _ => False

instance : ∀ v, Decidable (IsList v)
  | .array _ => isTrue trivial
  | .null | .bool _ | .number _ | .string _ | .object _ => isFalse id

/-! ## Contents -/

section Contents

theorem contentText_of_not_isList {v : Json} (h : ¬ IsList v) :
    contentText printable v = str printable v := by
  cases v with
  | array items => exact absurd trivial h
  | _ => rfl

/-- The texts of the parts are no longer than the parts, and no more. -/
theorem partTexts_le (items : List Json) :
    ((partTexts printable items).map List.length).sum ≤
        ((reprItems printable items).map List.length).sum ∧
      (partTexts printable items).length ≤ items.length := by
  induction items with
  | nil => exact ⟨le_rfl, le_rfl⟩
  | cons v items ih =>
    obtain ⟨hsum, hlen⟩ := ih
    cases v with
    | object fields =>
      have hle := length_str_getD_le printable fields (py "text")
      refine ⟨?_, ?_⟩
      · show (str printable (getD fields (py "text") (.object fields))).length +
            ((partTexts printable items).map List.length).sum ≤
          (repr printable (.object fields)).length + _
        exact Nat.add_le_add hle hsum
      · exact Nat.succ_le_succ hlen
    | _ => exact ⟨le_add_left hsum, hlen.trans (Nat.le_succ _)⟩

/-- **The joined texts of a list are shorter than the list printed.** -/
theorem length_contentText_lt {v : Json} (h : IsList v) :
    (contentText printable v).length < (str printable v).length := by
  cases v with
  | array items =>
    obtain ⟨hsum, hlen⟩ := partTexts_le printable items
    rw [contentText, str, VllmScheduler.Json.repr, List.length_append, List.length_append,
      length_intercalate, length_intercalate, length_reprItems, show (py " ").length = 1 from rfl,
      show (py ", ").length = 2 from rfl, show (py "[").length = 1 from rfl,
      show (py "]").length = 1 from rfl]
    · omega
    · simp
  | _ => exact h.elim

end Contents

/-! ## Prompts -/

section Prompts

theorem length_line (role content : PyString) :
    (line role content).length = role.length + 2 + content.length := by
  rw [line, List.length_append, List.length_append]
  rfl

theorem length_contentText_le (v : Json) :
    (contentText printable v).length ≤ (str printable v).length := by
  by_cases h : IsList v
  · exact (length_contentText_lt printable h).le
  · rw [contentText_of_not_isList printable h]

/-- A list among the contents makes the gateway's prompt the longer one. -/
theorem length_extractorPrompt_lt {messages : List Message}
    (h : ∃ m ∈ messages, IsList (content m)) :
    (extractorPrompt printable messages).length < (gatewayPrompt printable messages).length := by
  obtain ⟨m, hm, hlist⟩ := h
  rw [extractorPrompt, gatewayPrompt, length_intercalate, length_intercalate, List.length_map,
    List.length_map, List.map_map, List.map_map]
  refine Nat.add_lt_add_right (List.sum_lt_sum _ _ (fun m _ => ?_) ⟨m, hm, ?_⟩) _
  · have := length_contentText_le printable (content m)
    simp only [Function.comp_apply, length_line]
    omega
  · have := length_contentText_lt printable hlist
    simp only [Function.comp_apply, length_line]
    omega

/-- **When the two prompts agree.** No message has a list for its content. -/
theorem prompts_agree_iff (messages : List Message) :
    gatewayPrompt printable messages = extractorPrompt printable messages ↔
      ∀ m ∈ messages, ¬ IsList (content m) := by
  constructor
  · intro heq
    by_contra! hlist
    have hlt := length_extractorPrompt_lt printable hlist
    rw [heq] at hlt
    exact lt_irrefl _ hlt
  · intro hnone
    rw [gatewayPrompt, extractorPrompt]
    congr 1
    refine List.map_congr_left fun m hm => ?_
    rw [contentText_of_not_isList printable (hnone m hm)]

/-- A message whose content is one part of text. -/
def listMessage : Message :=
  [(py "role", .string (py "user")),
    (py "content", .array [.object [(py "type", .string (py "text")),
      (py "text", .string (py "hi"))]])]

/-- The gateway predicts the length of the printed list, the model was trained
on its text. -/
theorem prompts_of_list :
    gatewayPrompt (fun _ => true) [listMessage] =
        py "user: [\x7b'type': 'text', 'text': 'hi'\x7d]" ∧
      extractorPrompt (fun _ => true) [listMessage] = py "user: hi" ∧
      gatewayPrompt (fun _ => true) [listMessage] ≠
        extractorPrompt (fun _ => true) [listMessage] := by
  decide +kernel

end Prompts

end ChatPrompt

end VllmScheduler
