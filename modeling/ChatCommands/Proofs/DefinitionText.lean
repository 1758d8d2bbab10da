import Mathlib
import ChatCommands.Definition.Grammar
import ChatCommands.Proofs.FirstError
import ChatCommands.Proofs.MessageWords

set_option autoImplicit false

/-!
# Definitions and their texts

A definition can be read back from its text exactly if none of its parts holds a
character that ends the part, or that means something else where the part
begins. What is read from any text is of that kind, so that to write it down and
to read it again changes nothing.
-/
namespace ChatCommands
open Text

/-- A slot whose text is read as that slot. -/
structure Slot.WellFormed (s : Slot) : Prop where
  name : IsWord s.name.toList
  colon : ':' ∉ s.name.toList
  untagged : s.rest = true → s.tag = none
  unmarked : s.rest = false → ¬ ['.', '.', '.'] <+: s.name.toList
  tag : ∀ tag, s.tag = some tag → IsWord tag.toList

/-- A definition whose text is read as that definition. Aliases may be empty. -/
structure Definition.WellFormed (d : Definition) : Prop where
  name : d.name ≠ ""
  keywords : ∀ keyword ∈ d.keywords, ∀ c ∈ keyword.toList, isBlank c = false ∧ c ≠ '|'
  slots : ∀ s ∈ d.slots, s.WellFormed

namespace Text

theorem wordsOf_append_spaced {w : List Char} (hw : IsWord w) {ws : List (List Char)}
    (hws : ∀ w ∈ ws, IsWord w) : wordsOf (w ++ spaced ws) = w :: ws := by
  have h := wordsOf_spaced (List.forall_mem_cons.2 ⟨hw, hws⟩)
  rwa [spaced, List.flatMap_cons, List.cons_append, wordsOf, if_pos (by decide)] at h

theorem intercalate_cons {α : Type} (a : α) (x : List α) (xs : List (List α)) :
    [a].intercalate (x :: xs) = x ++ xs.flatMap (a :: ·) := by
  induction xs generalizing x with
  | nil => simp
  | cons y ys ih =>
    rw [List.intercalate_cons_cons, ih, List.flatMap_cons]
    simp

/-- Words are read back from the text in which single spaces separate them. -/
theorem words_unwords {w : String} {ws : List String}
    (h : ∀ word ∈ w :: ws, IsWord word.toList) : words (unwords (w :: ws)) = w :: ws := by
  obtain ⟨hw, hws⟩ := List.forall_mem_cons.1 h
  have text : (unwords (w :: ws)).toList = w.toList ++ spaced (ws.map String.toList) := by
    rw [unwords, String.toList_intercalate]
    exact intercalate_cons ' ' w.toList (ws.map String.toList)
  rw [words, text, wordsOf_append_spaced hw (List.forall_mem_map.2 hws)]
  simp

theorem isWord_of_mem_words {text word : String} (h : word ∈ words text) : IsWord word.toList := by
  obtain ⟨w, hw, rfl⟩ := List.mem_map.1 h
  simpa using isWord_of_mem_wordsOf hw

end Text

namespace Slot

/-- The text between the brackets. -/
def bodyText (s : Slot) : List Char :=
  (if s.rest then ['.', '.', '.'] else []) ++ s.name.toList ++
    match s.tag with
    | none => []
    | some tag => if tag = "" then [] else ':' :: tag.toList

theorem format_toList (s : Slot) : s.format.toList =
    (if s.required then '<' else '[') :: (s.bodyText ++ [if s.required then '>' else ']']) := by
  unfold format bodyText
  cases s.rest <;> cases s.required <;> cases s.tag <;> simp <;> split <;> simp

theorem parse_format_eq (s : Slot) : parse s.format = ofBody s.format s.required s.bodyText := by
  unfold parse
  rw [format_toList]
  cases s.required <;> simp [body?, bracket?]

/-- How a body is read that does not begin with the mark of a slot that takes the rest. -/
theorem ofBody_unmarked {body : List Char} (h : ¬ ['.', '.', '.'] <+: body) (token : String)
    (required : Bool) : ofBody token required body =
      if body.takeWhile (· ≠ ':') = [] then .error (.badDelimiters token)
      else .ok { name := String.ofList (body.takeWhile (· ≠ ':')), required,
                 tag := if (body.dropWhile (· ≠ ':')).drop 1 = [] then none
                   else some (String.ofList ((body.dropWhile (· ≠ ':')).drop 1)) } := by
  unfold ofBody
  split
  · exact absurd ⟨_, rfl⟩ h
  · rfl

theorem takeWhile_colon {name : List Char} (h : ':' ∉ name) (rest : List Char) :
    (name ++ rest).takeWhile (· ≠ ':') = name ++ rest.takeWhile (· ≠ ':') ∧
      (name ++ rest).dropWhile (· ≠ ':') = rest.dropWhile (· ≠ ':') := by
  have other : ∀ c ∈ name, decide (c ≠ ':') = true := by
    intro c hc
    simpa using fun same : c = ':' => h (same ▸ hc)
  exact ⟨List.takeWhile_append_of_pos other, List.dropWhile_append_of_pos other⟩

/-- The mark is not there unless the name begins with it, since it has no colon. -/
theorem marked_of_append {name rest : List Char} (h : ['.', '.', '.'] <+: name ++ ':' :: rest) :
    ['.', '.', '.'] <+: name := by
  rcases name with _ | ⟨a, _ | ⟨b, _ | ⟨c, name⟩⟩⟩
  · simp [List.cons_prefix_cons] at h
  · simp [List.cons_prefix_cons] at h
  · simp [List.cons_prefix_cons] at h
  · simpa [List.cons_prefix_cons] using h

theorem WellFormed.parse_format {s : Slot} (h : s.WellFormed) : parse s.format = .ok s := by
  rw [parse_format_eq]
  obtain ⟨name, required, rest, tag⟩ := s
  have named : name ≠ "" := by simpa [IsWord] using h.name.1
  cases rest with
  | true =>
    obtain rfl : tag = none := h.untagged rfl
    have plain := h.colon
    simp only at plain
    simp [bodyText, ofBody, plain, named]
  | false =>
    have unmarked : ¬ ['.', '.', '.'] <+: name.toList := h.unmarked rfl
    cases tag with
    | none =>
      have body : bodyText ⟨name, required, false, none⟩ = name.toList ++ [] := by simp [bodyText]
      rw [body, ofBody_unmarked (by simpa using unmarked)]
      obtain ⟨taken, dropped⟩ := takeWhile_colon h.colon []
      rw [taken, dropped]
      simp [named]
    | some tag =>
      have tagged : tag ≠ "" := by simpa [IsWord] using (h.tag tag rfl).1
      have body : bodyText ⟨name, required, false, some tag⟩ = name.toList ++ ':' :: tag.toList := by
        simp [bodyText, tagged]
      -- the tag may have colons of its own: the first one, where the name ends, counts
      rw [body, ofBody_unmarked fun marked => unmarked (marked_of_append marked)]
      obtain ⟨taken, dropped⟩ := takeWhile_colon h.colon (':' :: tag.toList)
      rw [taken, dropped]
      simp [named, tagged]

theorem WellFormed.isWord_format {s : Slot} (h : s.WellFormed) : IsWord s.format.toList := by
  have body : ∀ c ∈ s.bodyText, isBlank c = false := by
    intro c hc
    simp only [bodyText, List.mem_append] at hc
    rcases hc with (hc | hc) | hc
    · split at hc
      · obtain rfl : c = '.' := by simpa using hc
        decide
      · cases hc
    · exact h.name.2 c hc
    · split at hc
      case h_1 => cases hc
      case h_2 tag htag =>
        split at hc
        · cases hc
        · rcases List.mem_cons.1 hc with rfl | hc
          · decide
          · exact (h.tag tag htag).2 c hc
  rw [format_toList]
  refine ⟨List.cons_ne_nil _ _, List.forall_mem_cons.2 ⟨by cases s.required <;> decide, ?_⟩⟩
  intro c hc
  rcases List.mem_append.1 hc with hc | hc
  · exact body c hc
  · rw [List.mem_singleton.1 hc]
    cases s.required <;> decide

/-- The text between the brackets of a token has no blanks if the token has none. -/
theorem unbroken_body {token body : List Char} {required : Bool}
    (h : body? token = some (required, body)) (word : IsWord token) :
    ∀ c ∈ body, isBlank c = false := by
  unfold body? at h
  split at h
  case h_1 => cases h
  case h_2 opening cs =>
    split at h
    case h_1 => cases h
    case h_2 =>
      split at h
      case isTrue =>
        cases h
        exact fun c hc => word.2 c (List.mem_cons_of_mem _ (List.mem_of_mem_dropLast hc))
      case isFalse => cases h

theorem wellFormed_of_parse {token : String} {s : Slot} (h : parse token = .ok s)
    (word : IsWord token.toList) : s.WellFormed := by
  unfold parse at h
  split at h
  case h_1 => cases h
  case h_2 required body bracketed =>
    have unbroken := unbroken_body bracketed word
    by_cases marked : ['.', '.', '.'] <+: body
    · obtain ⟨name, rfl⟩ := marked
      simp only [List.cons_append, List.nil_append, ofBody] at h
      split at h
      case isTrue => cases h
      case isFalse plain =>
        split at h
        case isTrue => cases h
        case isFalse named =>
          cases h
          refine ⟨⟨by simpa using named, ?_⟩, by simpa using plain, fun _ => rfl, nofun, nofun⟩
          intro c hc
          exact unbroken c (by simp_all)
    · rw [ofBody_unmarked marked] at h
      split at h
      case isTrue => cases h
      case isFalse named =>
        cases h
        have within : ∀ c ∈ body.takeWhile (· ≠ ':'), isBlank c = false := fun c hc =>
          unbroken c ((List.takeWhile_sublist _).mem hc)
        refine ⟨⟨by simpa using named, by simpa using within⟩, ?_, nofun, fun _ => ?_, ?_⟩
        · intro colon
          rw [String.toList_ofList] at colon
          simpa using List.mem_takeWhile_imp colon
        · -- a mark at the beginning of the name would have been one of the body
          intro prefixed
          exact marked (List.IsPrefix.trans (by simpa using prefixed) (List.takeWhile_prefix _))
        · intro tag htag
          split at htag
          case isTrue => cases htag
          case isFalse tagged =>
            cases htag
            refine ⟨by simpa using tagged, fun c hc => unbroken c ?_⟩
            rw [String.toList_ofList] at hc
            exact (List.dropWhile_sublist _).mem (List.mem_of_mem_drop hc)

end Slot

namespace Definition

theorem splitBars_eq (cs : List Char) : (splitBars cs).1 :: (splitBars cs).2 = cs.splitOn '|' := by
  induction cs with
  | nil => rfl
  | cons c cs ih =>
    rw [List.splitOn_cons_eq_if_modifyHead, ← ih]
    by_cases bar : c = '|' <;> simp [splitBars, bar]

/-- The pieces between bars are read back from the text in which bars separate them. -/
theorem splitBars_intercalate {piece : List Char} {pieces : List (List Char)}
    (h : ∀ p ∈ piece :: pieces, '|' ∉ p) :
    splitBars (['|'].intercalate (piece :: pieces)) = (piece, pieces) := by
  have split := splitBars_eq (['|'].intercalate (piece :: pieces))
  rw [List.splitOn_intercalate '|' h (List.cons_ne_nil _ _)] at split
  exact Prod.ext (List.cons.inj split).1 (List.cons.inj split).2

theorem mem_of_mem_splitBars {cs : List Char} :
    ∀ piece ∈ (splitBars cs).1 :: (splitBars cs).2, ∀ c ∈ piece, c ∈ cs ∧ c ≠ '|' := by
  induction cs with
  | nil => simp [splitBars]
  | cons d cs ih =>
    unfold splitBars
    by_cases bar : d = '|'
    · simp only [if_pos bar]
      refine List.forall_mem_cons.2 ⟨by simp, fun piece hp c hc => ?_⟩
      exact ⟨List.mem_cons_of_mem _ (ih piece hp c hc).1, (ih piece hp c hc).2⟩
    · simp only [if_neg bar]
      obtain ⟨first, others⟩ := List.forall_mem_cons.1 ih
      refine List.forall_mem_cons.2 ⟨List.forall_mem_cons.2 ⟨by simp [bar], fun c hc => ?_⟩, ?_⟩
      · exact ⟨List.mem_cons_of_mem _ (first c hc).1, (first c hc).2⟩
      · exact fun piece hp c hc => ⟨List.mem_cons_of_mem _ (others piece hp c hc).1, (others piece hp c hc).2⟩

/-- The first word of a definition's text. -/
theorem head_toList (d : Definition) :
    ("|".intercalate d.keywords).toList = ['|'].intercalate (d.keywords.map String.toList) :=
  String.toList_intercalate

theorem WellFormed.isWord_head {d : Definition} (h : d.WellFormed) :
    IsWord ("|".intercalate d.keywords).toList := by
  rw [head_toList, Definition.keywords, List.map_cons, intercalate_cons]
  refine ⟨by simp [h.name], fun c hc => ?_⟩
  obtain ⟨name, aliases⟩ := List.forall_mem_cons.1 h.keywords
  simp only [List.mem_append, List.mem_flatMap, List.mem_map, List.mem_cons] at hc
  rcases hc with hc | ⟨_, ⟨other, ho, rfl⟩, rfl | hc⟩
  · exact (name c hc).1
  · decide
  · exact (aliases other ho c hc).1

/-- The words that a definition is written with are the words of its text. -/
theorem WellFormed.words_format {d : Definition} (h : d.WellFormed) :
    words d.format = "|".intercalate d.keywords :: d.slots.map Slot.format := by
  refine words_unwords (List.forall_mem_cons.2 ⟨h.isWord_head, ?_⟩)
  exact List.forall_mem_map.2 fun s hs => (h.slots s hs).isWord_format

theorem WellFormed.parse_format {d : Definition} (h : d.WellFormed) : parse d.format = .ok d := by
  have unbarred : ∀ piece ∈ d.keywords.map String.toList, '|' ∉ piece := by
    intro piece hp bar
    obtain ⟨keyword, hk, rfl⟩ := List.mem_map.1 hp
    exact (h.keywords keyword hk '|' bar).2 rfl
  have pieces := splitBars_intercalate unbarred
  have slots := mapM_map_ok fun s hs => (h.slots s hs).parse_format
  unfold parse
  rw [h.words_format]
  dsimp only
  rw [head_toList, Definition.keywords, List.map_cons, pieces]
  simp only [String.toList_eq_nil_iff, h.name, if_false, slots]
  simp [pure, Except.pure, bind, Except.bind]

theorem wellFormed_of_parse {text : String} {d : Definition} (h : parse text = .ok d) :
    d.WellFormed := by
  unfold parse at h
  split at h
  case h_1 => cases h
  case h_2 head tokens split =>
    have isWords : ∀ word ∈ head :: tokens, IsWord word.toList := fun word hw =>
      isWord_of_mem_words (split ▸ hw)
    obtain ⟨isHead, isTokens⟩ := List.forall_mem_cons.1 isWords
    dsimp only at h
    split at h
    case isTrue => cases h
    case isFalse named =>
      obtain ⟨slots, hslots, h⟩ := bind_eq_ok_iff.1 h
      cases h
      refine ⟨by simpa using named, ?_, fun s hs => ?_⟩
      · intro keyword hk c hc
        have piece : keyword.toList ∈ (splitBars head.toList).1 :: (splitBars head.toList).2 := by
          simp only [keywords, List.mem_cons, List.mem_map] at hk ⊢
          rcases hk with rfl | ⟨piece, hp, rfl⟩ <;> simp_all
        have ⟨within, unbarred⟩ := mem_of_mem_splitBars _ piece c hc
        exact ⟨isHead.2 c within, unbarred⟩
      · obtain ⟨token, ht, parsed⟩ := exists_of_mapM_ok hslots s hs
        exact Slot.wellFormed_of_parse parsed (isTokens token ht)

/-- A definition is read back from its text exactly if it is well-formed, and so is all that is read from
any text. -/
theorem parse_format_iff_wellFormed :
    (∀ d : Definition, parse d.format = .ok d ↔ d.WellFormed) ∧
    ∀ (text : String) (d : Definition), parse text = .ok d → d.WellFormed ∧ parse d.format = .ok d :=
  ⟨fun _ => ⟨wellFormed_of_parse, WellFormed.parse_format⟩,
    fun _ _ h => ⟨wellFormed_of_parse h, (wellFormed_of_parse h).parse_format⟩⟩

/-- A definition with an empty alias, with brackets, points and colons within names and tags. -/
def petDefinition : Definition where
  name := "pet"
  aliases := ["p", ""]
  slots := [{ name := ".n>" }, { name := "times", required := false, tag := some "Int:" },
    { name := "...", rest := true }]

theorem petDefinition_read :
    parse " pet|p| <.n>>  [times:Int:] <......>" = .ok petDefinition ∧
    petDefinition.WellFormed ∧ parse petDefinition.format = .ok petDefinition :=
  have read : parse " pet|p| <.n>>  [times:Int:] <......>" = .ok petDefinition := by decide +kernel
  ⟨read, parse_format_iff_wellFormed.2 _ _ read⟩

end Definition
end ChatCommands
