import Mathlib
import ChatCommands.Proofs.DefinitionGrammar

set_option autoImplicit false

/-!
# The canonical text of a definition

A definition that was read is written again with its own words: one space stands
between any two of them, and a token that has a colon but no tag after it loses the
colon. Nothing else of the text is changed, whatever its names, aliases and tags are.
-/
namespace ChatCommands
open Text

namespace Slot

/-- What a token has between its brackets. -/
def inside (token : List Char) : List Char := token.tail.dropLast

/-- The first colon between the brackets is the last character there, and the slot does not
take the rest. -/
def TagEmpty (token : List Char) : Prop :=
  ¬ mark <+: inside token ∧ (inside token).idxOf ':' + 1 = (inside token).length

instance (token : List Char) : Decidable (TagEmpty token) := inferInstanceAs (Decidable (_ ∧ _))

/-- The token without the colon of an empty tag, which stands before the closing bracket. -/
def canonical (token : String) : String :=
  if TagEmpty token.toList then String.ofList (token.toList.eraseIdx (token.toList.length - 2)) else token

theorem inside_bracketed (required : Bool) (body : List Char) :
    inside (bracketed required body) = body := by
  simp [inside, bracketed]

theorem eraseIdx_bracketed (required : Bool) (name : List Char) :
    (bracketed required (name ++ [':'])).eraseIdx ((bracketed required (name ++ [':'])).length - 2) =
      bracketed required name := by
  have at_colon : (bracketed required (name ++ [':'])).length - 2 = name.length + 1 := by
    simp [bracketed]
  rw [at_colon]
  simp [bracketed, List.eraseIdx_append_of_length_le]

theorem idxOf_colon {name : List Char} (plain : ':' ∉ name) (tag : List Char) :
    (name ++ ':' :: tag).idxOf ':' = name.length := by
  rw [List.idxOf_append_of_notMem plain, List.idxOf_cons_self, Nat.add_zero]

/-- A tag is empty exactly if the body ends where the name and the colon end. -/
theorem tagEmpty_tagged_iff {name tag : List Char} (required : Bool)
    (unmarked : ¬ mark <+: name ++ ':' :: tag) (plain : ':' ∉ name) :
    TagEmpty (bracketed required (name ++ ':' :: tag)) ↔ tag = [] := by
  rw [TagEmpty, inside_bracketed, idxOf_colon plain, and_iff_right unmarked, List.length_append,
    List.length_cons, ← List.length_eq_zero_iff]
  omega

theorem not_tagEmpty_plain {body : List Char} (required : Bool) (plain : ':' ∉ body) :
    ¬ TagEmpty (bracketed required body) := by
  rintro ⟨-, last⟩
  rw [inside_bracketed, List.idxOf_eq_length plain] at last
  omega

theorem not_tagEmpty_marked (required : Bool) (name : List Char) :
    ¬ TagEmpty (bracketed required (mark ++ name)) := by
  rintro ⟨unmarked, -⟩
  rw [inside_bracketed] at unmarked
  exact unmarked (List.prefix_append _ _)

/-- A slot that was read is written with the canonical form of its token. -/
theorem Written.format_toList_eq {token : List Char} {s : Slot} (h : Written token s) :
    s.format.toList = if TagEmpty token then token.eraseIdx (token.length - 2) else token := by
  obtain @⟨required, body, s, described⟩ := h
  rw [format_toList]
  cases described with
  | rest some plain =>
    rw [if_neg (not_tagEmpty_marked required _)]
    simp [bodyText, bracketed, mark]
  | untagged unmarked some plain =>
    rw [if_neg (not_tagEmpty_plain required plain)]
    simp [bodyText, bracketed]
  | @tagged name tag unmarked some plain =>
    by_cases empty : tag = []
    · rw [if_pos ((tagEmpty_tagged_iff required unmarked plain).2 empty), empty, eraseIdx_bracketed]
      simp [bodyText, bracketed]
    · rw [if_neg (mt (tagEmpty_tagged_iff required unmarked plain).1 empty)]
      simp [bodyText, bracketed, empty]

theorem Written.format_eq {token : String} {s : Slot} (h : Written token.toList s) :
    s.format = canonical token := by
  rw [← String.toList_inj, h.format_toList_eq, canonical]
  split <;> simp

theorem format_slots_eq {tokens : List String} {slots : List Slot}
    (h : List.Forall₂ (fun token s => Written token.toList s) tokens slots) :
    slots.map format = tokens.map canonical := by
  induction h with
  | nil => rfl
  | cons written _ ih => rw [List.map_cons, List.map_cons, ih, written.format_eq]

end Slot

namespace Definition

/-- The words of a definition's text after its first, each in its canonical form. -/
def canonicalWords : List String → List String
  | [] => []
  | head :: tokens => head :: tokens.map Slot.canonical

def canonical (text : String) : String := unwords (canonicalWords (words text))

/-- The keywords between bars are the first word again. -/
theorem head_eq {d : Definition} {head : String}
    (h : d.keywords.map String.toList = head.toList.splitOn '|') :
    "|".intercalate d.keywords = head := by
  rw [← String.toList_inj, head_toList, h, List.intercalate_splitOn]

theorem canonicalWords_eq {text : String} {d : Definition} (h : parse text = .ok d) :
    canonicalWords (words text) = "|".intercalate d.keywords :: d.slots.map Slot.format := by
  obtain ⟨head, tokens, split, -, keywords, written⟩ := parse_eq_ok_iff.1 h
  rw [split, canonicalWords, head_eq keywords, Slot.format_slots_eq written]

theorem format_eq_canonical {text : String} {d : Definition} (h : parse text = .ok d) :
    d.format = canonical text := by
  rw [canonical, canonicalWords_eq h, format]

theorem words_canonical {text : String} {d : Definition} (h : parse text = .ok d) :
    words (canonical text) = canonicalWords (words text) := by
  rw [← format_eq_canonical h, (wellFormed_of_parse h).words_format, canonicalWords_eq h]

/-- A definition is written with the words that it was read from, single spaces between them, and
without the colons of empty tags. That text means the same definition, and to read it and to write
what was read gives it back. -/
theorem format_of_parse {text : String} {d : Definition} (h : parse text = .ok d) :
    d.format = canonical text ∧ words (canonical text) = canonicalWords (words text) ∧
    parse (canonical text) = .ok d ∧
    (parse (canonical text)).map format = .ok (canonical text) ∧
    canonical (canonical text) = canonical text := by
  have written : d.format = canonical text := format_eq_canonical h
  have again : parse (canonical text) = .ok d :=
    written ▸ (wellFormed_of_parse h).parse_format
  refine ⟨written, words_canonical h, again, ?_, ?_⟩
  · rw [again, ← written]
    rfl
  · rw [← format_eq_canonical again, written]

/-- Only the colon without a tag goes: the tag that is followed by a colon, the name that is three points
and the empty alias stay. -/
theorem petDefinition_canonical :
    parse " pet|p| <.n>:>  [times:Int:] <......>" = .ok petDefinition ∧
    petDefinition.format = "pet|p| <.n>> [times:Int:] <......>" ∧
    canonical " pet|p| <.n>:>  [times:Int:] <......>" = "pet|p| <.n>> [times:Int:] <......>" :=
  have read : parse " pet|p| <.n>:>  [times:Int:] <......>" = .ok petDefinition := by decide +kernel
  have written : petDefinition.format = "pet|p| <.n>> [times:Int:] <......>" := by decide +kernel
  ⟨read, written, (format_of_parse read).1 ▸ written⟩

end Definition
end ChatCommands
