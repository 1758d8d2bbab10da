import Mathlib
import ChatCommands.Invocation

set_option autoImplicit false

/-!
# The words of messages

The words of a text are not empty and have no blanks, and every list of such
words is read back from a message in which a space stands before each of them.
-/
namespace ChatCommands
namespace Text

def IsWord (w : List Char) : Prop := w ≠ [] ∧ ∀ c ∈ w, isBlank c = false

def spaced (ws : List (List Char)) : List Char := ws.flatMap (' ' :: ·)

theorem not_isBlank_of_mem_spanWord {cs : List Char} {c : Char} (h : c ∈ (spanWord cs).1) :
    isBlank c = false := by
  induction cs with
  | nil => cases h
  | cons d cs ih =>
    cases hd : isBlank d with
    | true => simp [spanWord, hd] at h
    | false =>
      simp only [spanWord, hd, Bool.false_eq_true, if_false, List.mem_cons] at h
      rcases h with rfl | h
      · exact hd
      · exact ih h

theorem spanWord_append_of_head {w rest : List Char} (h : ∀ c ∈ w, isBlank c = false)
    (apart : ∀ c ∈ rest.head?, isBlank c = true) : spanWord (w ++ rest) = (w, rest) := by
  induction w with
  | nil =>
    cases rest with
    | nil => rfl
    | cons c rest => simp [spanWord, apart c rfl]
  | cons c w ih =>
    obtain ⟨hc, hw⟩ := List.forall_mem_cons.1 h
    simp [spanWord, hc, ih hw]

theorem spanWord_append_spaced {w : List Char} (h : ∀ c ∈ w, isBlank c = false)
    (ws : List (List Char)) : spanWord (w ++ spaced ws) = (w, spaced ws) := by
  refine spanWord_append_of_head h fun c hc => ?_
  cases ws with
  | nil => cases hc
  | cons v vs =>
    obtain rfl : ' ' = c := by simpa [spaced] using hc
    decide

theorem isWord_of_mem_wordsOf {cs w : List Char} (h : w ∈ wordsOf cs) : IsWord w := by
  induction cs using wordsOf.induct with
  | case1 => simp [wordsOf] at h
  | case2 c cs hc ih =>
    rw [wordsOf, if_pos hc] at h
    exact ih h
  | case3 c cs hc ih =>
    rw [wordsOf, if_neg hc] at h
    rcases List.mem_cons.1 h with rfl | h
    · refine ⟨nofun, List.forall_mem_cons.2 ⟨by simpa using hc, ?_⟩⟩
      exact fun d hd => not_isBlank_of_mem_spanWord hd
    · exact ih h

theorem wordsOf_spaced {ws : List (List Char)} (h : ∀ w ∈ ws, IsWord w) :
    wordsOf (spaced ws) = ws := by
  induction ws with
  | nil => simp [spaced, wordsOf]
  | cons w ws ih =>
    obtain ⟨⟨nonempty, blankFree⟩, hws⟩ := List.forall_mem_cons.1 h
    obtain ⟨c, cs, rfl⟩ := List.exists_cons_of_ne_nil nonempty
    obtain ⟨hc, hcs⟩ := List.forall_mem_cons.1 blankFree
    have first : spaced ((c :: cs) :: ws) = ' ' :: c :: (cs ++ spaced ws) := by simp [spaced]
    rw [first, wordsOf, if_pos (by decide), wordsOf, if_neg (by simp [hc]),
      spanWord_append_spaced hcs, ih hws]

end Text

namespace Invocation
open Text

theorem isWord_of_mem_wordsAfter {prelude content word : String}
    (h : word ∈ wordsAfter prelude content) : IsWord word.toList := by
  unfold wordsAfter at h
  split at h
  · cases h
  · obtain ⟨w, hw, rfl⟩ := List.mem_map.1 h
    simpa using isWord_of_mem_wordsOf hw

theorem isWord_of_read? {prelude : String} {content : Option String} {i : Invocation}
    (h : read? prelude content = some i) :
    IsWord i.keyword.toList ∧ ∀ token ∈ i.tokens, IsWord token.toList := by
  unfold read? at h
  split at h
  · cases h
  · rename_i keyword tokens heq
    cases h
    have words : ∀ word ∈ keyword :: tokens, IsWord word.toList := fun word hw =>
      isWord_of_mem_wordsAfter (heq ▸ hw)
    exact List.forall_mem_cons.1 words

theorem wordsAfter_append (prelude : String) (rest : List Char) :
    wordsAfter prelude (prelude ++ String.ofList rest) = (wordsOf rest).map String.ofList := by
  have after : afterPrelude? prelude.toList (prelude ++ String.ofList rest).toList = some rest := by
    simp [afterPrelude?, List.isPrefixOf_iff_prefix]
  rw [wordsAfter, after]

theorem read?_append {prelude keyword : String} {tokens : List String} {rest : List Char}
    (words : wordsOf rest = (keyword :: tokens).map String.toList) :
    read? prelude (some (prelude ++ String.ofList rest)) = some ⟨keyword, tokens⟩ := by
  have after : wordsAfter prelude (prelude ++ String.ofList rest) = keyword :: tokens := by
    simp [wordsAfter_append, words, Function.comp_def]
  simp only [read?, Option.getD_some, after]

/-- The message that invokes a command with these words. -/
def written (prelude : String) (ws : List String) : String :=
  prelude ++ String.ofList (spaced (ws.map String.toList))

end Invocation
end ChatCommands
