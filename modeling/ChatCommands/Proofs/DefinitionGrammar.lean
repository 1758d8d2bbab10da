import Mathlib
import ChatCommands.Proofs.DefinitionText
import ChatCommands.Proofs.WordGaps

set_option autoImplicit false

/-!
# The grammar of definitions

What is read as a definition is told without the reader: which words it has, what
may stand between the brackets of a token, and which slot a token then means. The
reader accepts exactly this, and of a text that it refuses the first word that is
at fault decides what is wrong.
-/
namespace ChatCommands
open Text

namespace Slot

def mark : List Char := ['.', '.', '.']

/-- What a slot's token may have between its brackets. -/
inductive Described (required : Bool) : List Char → Slot → Prop where
  | rest {name : List Char} (some : name ≠ []) (plain : ':' ∉ name) :
      Described required (mark ++ name) { name := String.ofList name, required, rest := true }
  | untagged {name : List Char} (unmarked : ¬ mark <+: name) (some : name ≠ []) (plain : ':' ∉ name) :
      Described required name { name := String.ofList name, required }
  /-- the name goes to the first colon, and the tag may be empty -/
  | tagged {name tag : List Char} (unmarked : ¬ mark <+: name ++ ':' :: tag) (some : name ≠ [])
      (plain : ':' ∉ name) : Described required (name ++ ':' :: tag)
        { name := String.ofList name, required, tag := if tag = [] then none else String.ofList tag }

def bracketed (required : Bool) (body : List Char) : List Char :=
  (if required then '<' else '[') :: (body ++ [if required then '>' else ']'])

/-- The token means the slot. -/
inductive Written : List Char → Slot → Prop where
  | brackets {required : Bool} {body : List Char} {s : Slot} (h : Described required body s) :
      Written (bracketed required body) s

/-- The token is one of a slot that takes the rest, but it has a colon. -/
inductive TypedRest : List Char → Prop where
  | brackets (required : Bool) {name : List Char} (colon : ':' ∈ name) :
      TypedRest (bracketed required (mark ++ name))

/-- What is wrong with a token that means no slot. -/
inductive Refused (token : String) : DefinitionError → Prop where
  | typedRest (h : TypedRest token.toList) : Refused token (.typedRest token)
  | badDelimiters (h : ¬ TypedRest token.toList) (unwritten : ∀ s, ¬ Written token.toList s) :
      Refused token (.badDelimiters token)

theorem body?_eq_some_iff {token body : List Char} {required : Bool} :
    body? token = some (required, body) ↔ token = bracketed required body := by
  constructor
  · intro h
    unfold body? at h
    split at h
    case h_1 => cases h
    case h_2 opening cs =>
      split at h
      case h_1 => cases h
      case h_2 closing required' pair =>
        split at h
        case isFalse => cases h
        case isTrue last =>
          cases h
          have cs_eq : cs = cs.dropLast ++ [closing] := (List.dropLast_append_getLast? closing last).symm
          unfold bracket? at pair
          split at pair <;> cases pair
          all_goals simpa [bracketed] using cs_eq
  · rintro rfl
    cases required <;> simp [bracketed, body?, bracket?]

theorem ofBody_marked (token : String) (required : Bool) (name : List Char) :
    ofBody token required (mark ++ name) =
      if name.contains ':' then .error (.typedRest token)
      else if name = [] then .error (.badDelimiters token)
      else .ok { name := String.ofList name, required, rest := true } := rfl

/-- The body is cut at its first colon, if there is one. -/
theorem exists_cut (body : List Char) : ∃ name, ':' ∉ name ∧
    (body = name ∨ ∃ tag, body = name ++ ':' :: tag) := by
  have plain : ':' ∉ body.takeWhile (· ≠ ':') := fun colon => by
    simpa using List.mem_takeWhile_imp colon
  refine ⟨body.takeWhile (· ≠ ':'), plain, ?_⟩
  have whole := List.takeWhile_append_dropWhile (p := (· ≠ ':')) (l := body)
  cases rest : body.dropWhile (· ≠ ':') with
  | nil =>
    rw [rest, List.append_nil] at whole
    exact .inl whole.symm
  | cons c tag =>
    have stopped := List.head?_dropWhile_not (· ≠ ':') body
    rw [rest] at stopped whole
    obtain rfl : c = ':' := by simpa using stopped
    exact .inr ⟨tag, whole.symm⟩

/-- How an unmarked body is read, by where its first colon stands. -/
theorem ofBody_cut (token : String) (required : Bool) {name : List Char} (plain : ':' ∉ name) :
    (¬ mark <+: name → ofBody token required name =
      if name = [] then .error (.badDelimiters token)
      else .ok { name := String.ofList name, required }) ∧
    ∀ tag, ¬ mark <+: name ++ ':' :: tag → ofBody token required (name ++ ':' :: tag) =
      if name = [] then .error (.badDelimiters token)
      else .ok { name := String.ofList name, required,
                 tag := if tag = [] then none else some (String.ofList tag) } := by
  constructor
  · intro unmarked
    obtain ⟨taken, dropped⟩ := takeWhile_colon plain []
    rw [List.append_nil] at taken dropped
    rw [ofBody_unmarked unmarked, taken, dropped]
    simp
  · intro tag unmarked
    obtain ⟨taken, dropped⟩ := takeWhile_colon plain (':' :: tag)
    rw [ofBody_unmarked unmarked, taken, dropped]
    simp

theorem ofBody_eq_ok_iff {token : String} {required : Bool} {body : List Char} {s : Slot} :
    ofBody token required body = .ok s ↔ Described required body s := by
  constructor
  · intro h
    by_cases marked : mark <+: body
    · obtain ⟨name, rfl⟩ := marked
      rw [ofBody_marked] at h
      split at h
      case isTrue => cases h
      case isFalse plain =>
        split at h
        case isTrue => cases h
        case isFalse some =>
          cases h
          exact .rest some (by simpa using plain)
    · obtain ⟨name, plain, rfl | ⟨tag, rfl⟩⟩ := exists_cut body
      · rw [(ofBody_cut token required plain).1 marked] at h
        split at h
        case isTrue => cases h
        case isFalse some =>
          cases h
          exact .untagged marked some plain
      · rw [(ofBody_cut token required plain).2 tag marked] at h
        split at h
        case isTrue => cases h
        case isFalse some =>
          cases h
          exact .tagged marked some plain
  · intro h
    cases h with
    | rest some plain => rw [ofBody_marked, if_neg (by simpa using plain), if_neg some]
    | untagged unmarked some plain =>
      rw [(ofBody_cut token required plain).1 unmarked, if_neg some]
    | tagged unmarked some plain =>
      rw [(ofBody_cut token required plain).2 _ unmarked, if_neg some]

theorem parse_eq_ok_iff {token : String} {s : Slot} :
    parse token = .ok s ↔ Written token.toList s := by
  unfold parse
  split
  case h_1 none =>
    refine ⟨nofun, fun written => ?_⟩
    generalize token.toList = cs at none written
    cases written with
    | brackets h => simp [body?_eq_some_iff.2 rfl] at none
  case h_2 required body some =>
    rw [ofBody_eq_ok_iff, body?_eq_some_iff.1 some]
    constructor
    · exact .brackets
    · intro written
      generalize cs_eq : bracketed required body = cs at written
      cases written with
      | @brackets required' body' s h =>
        have same := (body?_eq_some_iff.2 cs_eq.symm).symm.trans (body?_eq_some_iff.2 rfl)
        cases same
        exact h

theorem parse_of_typedRest {token : String} (h : TypedRest token.toList) :
    parse token = .error (.typedRest token) := by
  unfold parse
  generalize token.toList = cs at h
  cases h with
  | brackets required colon =>
    rw [body?_eq_some_iff.2 rfl]
    dsimp only
    rw [ofBody_marked, if_pos (by simpa using colon)]

theorem ofBody_error {token : String} {required : Bool} {body : List Char} {e : DefinitionError}
    (h : ofBody token required body = .error e) :
    (e = .typedRest token ∧ ∃ name, body = mark ++ name ∧ ':' ∈ name) ∨ e = .badDelimiters token := by
  by_cases marked : mark <+: body
  · obtain ⟨name, rfl⟩ := marked
    rw [ofBody_marked] at h
    split at h
    case isTrue colon =>
      cases h
      exact .inl ⟨rfl, name, rfl, by simpa using colon⟩
    case isFalse =>
      split at h
      case isTrue => exact .inr (Except.error.inj h).symm
      case isFalse => cases h
  · rw [ofBody_unmarked marked] at h
    split at h
    case isTrue => exact .inr (Except.error.inj h).symm
    case isFalse => cases h

theorem parse_error {token : String} {e : DefinitionError} (h : parse token = .error e) :
    (e = .typedRest token ∧ TypedRest token.toList) ∨ e = .badDelimiters token := by
  unfold parse at h
  split at h
  case h_1 => exact .inr (Except.error.inj h).symm
  case h_2 required body some =>
    rcases ofBody_error h with ⟨rfl, name, rfl, colon⟩ | bad
    · rw [body?_eq_some_iff.1 some]
      exact .inl ⟨rfl, .brackets required colon⟩
    · exact .inr bad

theorem parse_eq_error_iff {token : String} {e : DefinitionError} :
    parse token = .error e ↔ Refused token e := by
  constructor
  · intro h
    rcases parse_error h with ⟨rfl, typed⟩ | rfl
    · exact .typedRest typed
    · refine .badDelimiters (fun typed => ?_) fun s written => ?_
      · cases (parse_of_typedRest typed).symm.trans h
      · cases (parse_eq_ok_iff.2 written).symm.trans h
  · intro refused
    cases refused with
    | typedRest typed => exact parse_of_typedRest typed
    | badDelimiters untyped unwritten =>
      cases h : parse token with
      | ok s => exact absurd (parse_eq_ok_iff.1 h) (unwritten s)
      | error e =>
        rcases parse_error h with ⟨-, typed⟩ | rfl
        · exact absurd typed untyped
        · rfl

end Slot

namespace Definition

/-- What is wrong with a text of these words. -/
inductive Refused (text : String) : List String → DefinitionError → Prop where
  | empty : Refused text [] (.missingName text)
  | nameless {head : String} (bar : ['|'] <+: head.toList) (tokens : List String) :
      Refused text (head :: tokens) (.missingName text)
  | slot {head token : String} {before : List String} {e : DefinitionError}
      (named : ¬ ['|'] <+: head.toList)
      (good : ∀ t ∈ before, ∃ s, Slot.Written t.toList s) (refused : Slot.Refused token e)
      (after : List String) : Refused text (head :: (before ++ token :: after)) e

theorem splitBars_fst_eq_nil_iff {cs : List Char} (word : cs ≠ []) :
    (splitBars cs).1 = [] ↔ ['|'] <+: cs := by
  obtain ⟨c, cs, rfl⟩ := List.exists_cons_of_ne_nil word
  by_cases bar : c = '|'
  · simp [splitBars, bar, List.cons_prefix_cons]
  · simp [splitBars, bar, List.cons_prefix_cons, Ne.symm bar]

theorem parse_of_words {text head : String} {tokens : List String} (split : words text = head :: tokens) :
    parse text = if ['|'] <+: head.toList then .error (.missingName text)
      else (tokens.mapM Slot.parse).map fun slots =>
        { name := String.ofList (splitBars head.toList).1,
          aliases := (splitBars head.toList).2.map String.ofList, slots } := by
  have word : head.toList ≠ [] := (isWord_of_mem_words (split ▸ List.mem_cons_self)).1
  unfold parse
  rw [split]
  dsimp only
  by_cases bar : ['|'] <+: head.toList
  · rw [if_pos ((splitBars_fst_eq_nil_iff word).2 bar), if_pos bar]
  · rw [if_neg (mt (splitBars_fst_eq_nil_iff word).1 bar), if_neg bar]
    cases tokens.mapM Slot.parse <;> rfl

theorem keywords_toList_iff {d : Definition} {head : List Char} :
    d.keywords.map String.toList = head.splitOn '|' ↔
      d.name = String.ofList (splitBars head).1 ∧
        d.aliases = (splitBars head).2.map String.ofList := by
  rw [← splitBars_eq, keywords, List.map_cons, List.cons_eq_cons]
  refine and_congr ⟨fun h => by rw [← h, String.ofList_toList], fun h => by rw [h, String.toList_ofList]⟩ ?_
  constructor
  · intro h
    rw [← h, List.map_map]
    simp [Function.comp_def]
  · intro h
    rw [h, List.map_map]
    simp [Function.comp_def]

theorem parse_eq_ok_iff {text : String} {d : Definition} :
    parse text = .ok d ↔ ∃ head tokens, words text = head :: tokens ∧
      ¬ ['|'] <+: head.toList ∧ d.keywords.map String.toList = head.toList.splitOn '|' ∧
      List.Forall₂ (fun token s => Slot.Written token.toList s) tokens d.slots := by
  simp only [keywords_toList_iff, ← Slot.parse_eq_ok_iff, ← mapM_eq_ok_iff]
  cases split : words text with
  | nil => simp [parse, split]
  | cons head tokens =>
    rw [parse_of_words split]
    by_cases bar : ['|'] <+: head.toList
    · rw [if_pos bar]
      refine ⟨nofun, ?_⟩
      rintro ⟨_, _, ⟨⟩, named, -⟩
      exact absurd bar named
    · rw [if_neg bar]
      constructor
      · intro h
        cases slots : tokens.mapM Slot.parse with
        | error e => simp [slots, Except.map] at h
        | ok ss =>
          rw [slots] at h
          cases h
          exact ⟨head, tokens, rfl, bar, ⟨rfl, rfl⟩, slots⟩
      · rintro ⟨_, _, ⟨⟩, -, ⟨name, aliases⟩, slots⟩
        rw [slots, Except.map, ← name, ← aliases]

theorem parse_eq_error_iff {text : String} {e : DefinitionError} :
    parse text = .error e ↔ Refused text (words text) e := by
  cases split : words text with
  | nil =>
    constructor
    · intro h
      simp only [parse, split] at h
      cases h
      exact .empty
    · rintro ⟨⟩
      simp [parse, split]
  | cons head tokens =>
    rw [parse_of_words split]
    by_cases bar : ['|'] <+: head.toList
    · rw [if_pos bar]
      constructor
      · intro h
        cases h
        exact .nameless bar tokens
      · intro refused
        cases refused with
        | nameless => rfl
        | slot named => exact absurd bar named
    · rw [if_neg bar]
      have first : ((tokens.mapM Slot.parse).map fun slots : List Slot =>
          ({ name := String.ofList (splitBars head.toList).1,
             aliases := (splitBars head.toList).2.map String.ofList, slots } : Definition)) = .error e ↔
          tokens.mapM Slot.parse = .error e := by
        cases tokens.mapM Slot.parse <;> simp [Except.map]
      rw [first, mapM_eq_error_iff]
      simp only [Slot.parse_eq_ok_iff, Slot.parse_eq_error_iff]
      constructor
      · rintro ⟨before, token, after, rfl, good, refused⟩
        exact .slot bar good refused after
      · intro refused
        cases refused with
        | nameless bar' => exact absurd bar' bar
        | slot named good refused after => exact ⟨_, _, after, rfl, good, refused⟩

/-- A text is read as a definition if its first word is the keywords between bars and each other word
is the token of a slot. What is refused is refused for the first word that is not. -/
theorem parse_accepts_grammar (text : String) :
    (Spread text.toList ((words text).map String.toList) ∧
      (words text).map String.toList = cutWords text.toList) ∧
    (∀ d, parse text = .ok d ↔ ∃ head tokens, words text = head :: tokens ∧
      ¬ ['|'] <+: head.toList ∧ d.keywords.map String.toList = head.toList.splitOn '|' ∧
      List.Forall₂ (fun token s => Slot.Written token.toList s) tokens d.slots) ∧
    (∀ e, parse text = .error e ↔ Refused text (words text) e) := by
  have same : (words text).map String.toList = wordsOf text.toList := by
    simp [words, Function.comp_def]
  refine ⟨⟨?_, ?_⟩, fun _ => parse_eq_ok_iff, fun _ => parse_eq_error_iff⟩
  · rw [same]
    exact spread_wordsOf _
  · rw [same]
    exact wordsOf_eq_cutWords _

end Definition
end ChatCommands
