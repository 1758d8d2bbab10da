import Mathlib
import ChatCommands.Proofs.BindingLaw
import ChatCommands.Proofs.DefinitionText
import ChatCommands.Proofs.WordGaps

set_option autoImplicit false

/-!
# The layout of messages

A message that makes an invocation consists of the prelude, a gap, the keyword,
the tokens, each behind a gap that is not empty, and a last gap. Whatever its gaps
are, no other keyword and no other tokens can be read from it; and it makes no
invocation only if the prelude is missing or nothing but a gap follows it. What is
bound to a slot that takes the rest falls into the tokens of which it was joined.
-/
namespace ChatCommands
open Text

namespace Text

/-- The text of these words, each behind the gap at its place. -/
def behindGaps (gaps ws : List String) : String := String.join (List.zipWith (· ++ ·) gaps ws)

/-- Gaps that separate so many words from a first one, and what stands before it and at the end. -/
structure Separates (before : String) (gaps : List String) (after : String) (words : Nat) : Prop where
  before : IsGap before.toList
  after : IsGap after.toList
  count : gaps.length = words
  between : ∀ gap ∈ gaps, IsGap gap.toList ∧ gap ≠ ""

/-- The text consists of the words and of gaps that separate them. -/
def LaidOut (text first : String) (others : List String) : Prop :=
  (∀ word ∈ first :: others, IsWord word.toList) ∧
    ∃ before gaps after, Separates before gaps after others.length ∧
      text = before ++ first ++ behindGaps gaps others ++ after

@[simp] theorem behindGaps_nil : behindGaps [] [] = "" := rfl

@[simp] theorem behindGaps_cons (gap word : String) (gaps ws : List String) :
    behindGaps (gap :: gaps) (word :: ws) = gap ++ word ++ behindGaps gaps ws := by
  simp [behindGaps, String.join_cons]

theorem IsGap.blank_head {gap : List Char} (blank : IsGap gap) : ∀ c ∈ gap.head?, isBlank c = true :=
  fun c hc => blank c (List.mem_of_mem_head? hc)

theorem IsWord.not_blank_head {w : List Char} (word : IsWord w) (rest : List Char) :
    ¬ ∀ c ∈ (w ++ rest).head?, isBlank c = true := by
  obtain ⟨c, w, rfl⟩ := List.exists_cons_of_ne_nil word.1
  intro blank
  simpa [word.2 c List.mem_cons_self] using blank c rfl

theorem laidOut_of_spread {text first : String} {others : List String}
    (h : Spread text.toList ((first :: others).map String.toList)) : LaidOut text first others := by
  induction others generalizing text first with
  | nil =>
    generalize cs_eq : text.toList = cs at h
    cases h with
    | @word before _ rest _ blank word apart tail =>
      cases tail with
      | gap trailing =>
        refine ⟨by simpa using word, String.ofList before, [], String.ofList rest, ⟨?_, ?_, rfl, nofun⟩, ?_⟩
        · simpa using blank
        · simpa using trailing
        · rw [← String.toList_inj, cs_eq]
          simp
  | cons second others ih =>
    generalize cs_eq : text.toList = cs at h
    cases h with
    | @word before _ rest _ blank word apart tail =>
      have laidOut : LaidOut (String.ofList rest) second others := ih (by simpa using tail)
      obtain ⟨words, gap, gaps, after, separates, split⟩ := laidOut
      have nonempty : gap ≠ "" := by
        -- otherwise the first two words would be one
        rintro rfl
        rw [String.ofList_eq] at split
        simp only [split, String.empty_append, String.toList_append, List.append_assoc] at apart
        exact (words second List.mem_cons_self).not_blank_head _ apart
      refine ⟨List.forall_mem_cons.2 ⟨word, words⟩, String.ofList before, gap :: gaps, after, ?_, ?_⟩
      · refine ⟨by simpa using blank, separates.after, by simp [separates.count], ?_⟩
        exact List.forall_mem_cons.2 ⟨⟨separates.before, nonempty⟩, separates.between⟩
      · rw [← String.toList_inj, cs_eq, ← String.toList_ofList (l := rest), split]
        simp

theorem LaidOut.spread {text first : String} {others : List String} (h : LaidOut text first others) :
    Spread text.toList ((first :: others).map String.toList) := by
  induction others generalizing text first with
  | nil =>
    obtain ⟨words, before, gaps, after, separates, rfl⟩ := h
    obtain rfl : gaps = [] := List.length_eq_zero_iff.1 separates.count
    have spread := Spread.word separates.before (words first List.mem_cons_self) separates.after.blank_head
      (.gap separates.after)
    simpa using spread
  | cons second others ih =>
    obtain ⟨words, before, gaps, after, separates, rfl⟩ := h
    obtain ⟨gap, gaps, rfl⟩ := List.exists_cons_of_length_eq_add_one separates.count
    obtain ⟨isFirst, isOthers⟩ := List.forall_mem_cons.1 words
    obtain ⟨⟨blank, nonempty⟩, between⟩ := List.forall_mem_cons.1 separates.between
    have tail : LaidOut (gap ++ second ++ behindGaps gaps others ++ after) second others :=
      ⟨isOthers, gap, gaps, after, ⟨blank, separates.after, by simpa using separates.count, between⟩, rfl⟩
    have apart : ∀ c ∈ (gap ++ second ++ behindGaps gaps others ++ after).toList.head?,
        isBlank c = true := by
      obtain ⟨c, cs, split⟩ := List.exists_cons_of_ne_nil (mt String.toList_eq_nil_iff.1 nonempty)
      intro d hd
      exact blank d (by simp_all)
    simpa using Spread.word separates.before isFirst apart (ih tail)

theorem words_eq_iff_spread {text : String} {ws : List String} :
    words text = ws ↔ Spread text.toList (ws.map String.toList) := by
  rw [← wordsOf_eq_iff_spread, words]
  constructor
  · rintro rfl
    simp [Function.comp_def]
  · intro h
    simp [h, Function.comp_def]

theorem words_eq_cons_iff {text first : String} {others : List String} :
    words text = first :: others ↔ LaidOut text first others :=
  words_eq_iff_spread.trans ⟨laidOut_of_spread, LaidOut.spread⟩

theorem words_eq_nil_iff {text : String} : words text = [] ↔ IsGap text.toList := by
  rw [words_eq_iff_spread, List.map_nil]
  generalize text.toList = cs
  constructor
  · intro h
    cases h with
    | gap blank => exact blank
  · exact .gap

end Text

namespace Invocation

/-- The content begins with the prelude. -/
def Preluded (prelude content : String) : Prop := ∃ rest, content = prelude ++ rest

/-- The content is the prelude and a gap. -/
def Bare (prelude content : String) : Prop := ∃ gap, content = prelude ++ gap ∧ IsGap gap.toList

theorem preluded_iff {prelude content : String} :
    Preluded prelude content ↔ prelude.toList.isPrefixOf content.toList = true := by
  rw [List.isPrefixOf_iff_prefix]
  constructor
  · rintro ⟨rest, rfl⟩
    simp
  · rintro ⟨rest, whole⟩
    exact ⟨String.ofList rest, by simp [← String.toList_inj, whole]⟩

theorem wordsAfter_of_not_preluded {prelude content : String} (h : ¬ Preluded prelude content) :
    wordsAfter prelude content = [] := by
  simp [wordsAfter, afterPrelude?, mt preluded_iff.2 h]

theorem wordsAfter_prelude_append (prelude rest : String) :
    wordsAfter prelude (prelude ++ rest) = words rest := by
  simpa [words] using wordsAfter_append prelude rest.toList

theorem read?_eq_some_iff {prelude : String} {content : Option String} {i : Invocation} :
    read? prelude content = some i ↔ wordsAfter prelude (content.getD "") = i.keyword :: i.tokens := by
  unfold read?
  split
  case h_1 none => simp [none]
  case h_2 keyword tokens some =>
    rw [some, Option.some_inj]
    obtain ⟨keyword', tokens'⟩ := i
    simp

theorem read?_eq_none_iff {prelude : String} {content : Option String} :
    read? prelude content = none ↔ wordsAfter prelude (content.getD "") = [] := by
  unfold read?
  split
  case h_1 none => simp [none]
  case h_2 keyword tokens some => simp [some]

theorem wordsAfter_eq_cons_iff {prelude content keyword : String} {tokens : List String} :
    wordsAfter prelude content = keyword :: tokens ↔
      ∃ rest, content = prelude ++ rest ∧ LaidOut rest keyword tokens := by
  constructor
  · intro h
    by_cases preluded : Preluded prelude content
    · obtain ⟨rest, rfl⟩ := preluded
      rw [wordsAfter_prelude_append] at h
      exact ⟨rest, rfl, words_eq_cons_iff.1 h⟩
    · rw [wordsAfter_of_not_preluded preluded] at h
      cases h
  · rintro ⟨rest, rfl, laidOut⟩
    rw [wordsAfter_prelude_append]
    exact words_eq_cons_iff.2 laidOut

theorem wordsAfter_eq_nil_iff {prelude content : String} :
    wordsAfter prelude content = [] ↔ ¬ Preluded prelude content ∨ Bare prelude content := by
  constructor
  · intro h
    by_cases preluded : Preluded prelude content
    · obtain ⟨rest, rfl⟩ := preluded
      rw [wordsAfter_prelude_append] at h
      exact .inr ⟨rest, rfl, words_eq_nil_iff.1 h⟩
    · exact .inl preluded
  · rintro (preluded | ⟨gap, rfl, blank⟩)
    · exact wordsAfter_of_not_preluded preluded
    · rw [wordsAfter_prelude_append]
      exact words_eq_nil_iff.2 blank

end Invocation

namespace Argument
variable {σ : Type} {host : Host σ} {message : Option Message} {slot : Slot} {slots : List Slot}
  {tokens : List String} {u : List (Exchange (engineInterface σ))} {bound r : Assoc Value}

/-- If arguments are bound and a token is left for the slot that takes the rest, then all that are left
are bound to it. -/
theorem find?_rest_of_bindFrom {parsers : ParserSource}
    (trace : (bindFrom host parsers message bound slots tokens).Traces u (.ok r))
    (taker : slots[slots.findIdx (·.rest)]? = some slot) (left : slots.findIdx (·.rest) < tokens.length) :
    r.find? slot.name = some (.text (unwords (tokens.drop (slots.findIdx (·.rest))))) := by
  induction slots generalizing bound tokens u with
  | nil => cases taker
  | cons first slots ih =>
    cases tokens with
    | nil => cases left
    | cons token tokens =>
      cases rest : first.rest with
      | true =>
        have place : (first :: slots).findIdx (·.rest) = 0 := by simp [List.findIdx_cons, rest]
        rw [place] at taker ⊢
        cases taker
        simp only [bindFrom, rest, if_true, bindFrom_nil_right, Program.traces_done_iff] at trace
        -- nothing is bound after it, so no later slot of its name takes its place
        have ends := trace.2
        cases lacking : firstMissing? slots with
        | some lacked => simp [settled, lacking, Except.map] at ends
        | none =>
          simp only [settled, lacking, Option.elim, Except.map, Assoc.putAll, List.foldl_nil,
            Except.ok.injEq] at ends
          rw [← ends]
          exact Assoc.find?_put_self _ _ _
      | false =>
        have place : (first :: slots).findIdx (·.rest) = slots.findIdx (·.rest) + 1 := by
          simp [List.findIdx_cons, rest]
        rw [place] at taker left ⊢
        simp only [bindFrom, rest, if_false, Bool.false_eq_true] at trace
        split at trace
        case h_1 => cases (Program.traces_done_iff.1 trace).2
        case h_2 parser found =>
          obtain ⟨v, w, x, rfl, -, second⟩ := Program.traces_bind_iff.1 trace
          cases x with
          | ok value => simpa using ih second (by simpa using taker) (by simpa using left)
          | error f =>
            obtain ⟨e, ⟨⟩, -⟩ := refused_iff.1 second

end Argument

namespace Invocation

/-- A message makes an invocation exactly if it is laid out over its words behind the prelude, and makes
none exactly if the prelude is missing or only a gap follows it. The tokens that a slot takes as the
rest of the message can be read off from its value. -/
theorem read?_exact (prelude : String) (content : Option String) :
    (∀ keyword tokens, read? prelude content = some ⟨keyword, tokens⟩ ↔
      ∃ rest, content.getD "" = prelude ++ rest ∧ LaidOut rest keyword tokens) ∧
    (read? prelude content = none ↔
      ¬ Preluded prelude (content.getD "") ∨ Bare prelude (content.getD "")) ∧
    ∀ i, read? prelude content = some i → ∀ {σ : Type} (host : Host σ) (parsers : ParserSource)
      (message : Option Message) (slots : List Slot) (slot : Slot) (place : Nat),
      place = slots.findIdx (·.rest) → slots[place]? = some slot → place < i.tokens.length →
      ∀ u bound, (Argument.bind host parsers message slots i.tokens).Traces u (.ok bound) →
        ∃ text, bound.find? slot.name = some (.text text) ∧ words text = i.tokens.drop place := by
  refine ⟨fun keyword tokens => read?_eq_some_iff.trans wordsAfter_eq_cons_iff,
    read?_eq_none_iff.trans wordsAfter_eq_nil_iff, ?_⟩
  rintro i read σ host parsers message slots slot place rfl taker left u bound trace
  refine ⟨_, Argument.find?_rest_of_bindFrom trace taker left, ?_⟩
  have areWords : ∀ token ∈ i.tokens.drop (slots.findIdx (·.rest)), IsWord token.toList :=
    fun token ht => (isWord_of_read? read).2 token (List.mem_of_mem_drop ht)
  obtain ⟨token, tokens, split⟩ := List.exists_cons_of_ne_nil (List.drop_eq_nil_iff.not.2 left.not_ge)
  rw [split] at areWords ⊢
  exact words_unwords areWords

def quoteSlots : List Slot := [{ name := "who" }, { name := "text", rest := true }]

def quoteArguments : Assoc Value := [("who", .text "Bob"), ("text", .text "as usual")]

/-- The keyword begins with another prelude, and the gaps are uneven. -/
theorem quote_read : read? "!" (some "!!quote  \tBob  as\nusual ") = some ⟨"!quote", ["Bob", "as", "usual"]⟩ ∧
    (Argument.bind (Host.silent : Host Unit) (ParserTable.standard true .none) none quoteSlots
      ["Bob", "as", "usual"]).Traces [] (.ok quoteArguments) ∧
    ∃ text, quoteArguments.find? "text" = some (.text text) ∧ words text = ["as", "usual"] := by
  obtain ⟨invoked, -, taken⟩ := read?_exact "!" (some "!!quote  \tBob  as\nusual ")
  have separates : Separates "" ["  \t", "  ", "\n"] " " 3 := by
    refine ⟨?_, ?_, rfl, ?_⟩ <;> simp [IsGap, isBlank, blankRanges]
  have laidOut : LaidOut "!quote  \tBob  as\nusual " "!quote" ["Bob", "as", "usual"] :=
    ⟨by simp [IsWord, isBlank, blankRanges], "", _, " ", separates, by decide⟩
  have read := (invoked "!quote" ["Bob", "as", "usual"]).2 ⟨_, rfl, laidOut⟩
  have trace : (Argument.bind (Host.silent : Host Unit) (ParserTable.standard true .none) none quoteSlots
      ["Bob", "as", "usual"]).Traces [] (.ok quoteArguments) := .done _
  exact ⟨read, trace, taken _ read _ _ none quoteSlots ⟨"text", true, true, none⟩ 1 rfl rfl (by decide) [] _ trace⟩

end Invocation
end ChatCommands
