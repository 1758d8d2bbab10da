import Mathlib
import ChatCommands.Proofs.MessageWords

set_option autoImplicit false

/-!
# Words and the gaps between them

A text is spread over words if nothing but blanks stands before, between and
after them, and at least one blank between two of them. The words of a text are
the only ones over which it is spread, so that runs of blanks may be made longer
or shorter. In particular it does not matter whether a text is split as a whole,
or its margins are dropped, its first word is cut off and then the rest is split.
-/
namespace ChatCommands.Text

def IsGap (gap : List Char) : Prop := ∀ c ∈ gap, isBlank c = true

/-- The text consists of these words and of gaps. After each word comes a blank, or nothing at all. -/
inductive Spread : List Char → List (List Char) → Prop where
  | gap {gap : List Char} (blank : IsGap gap) : Spread gap []
  | word {gap w rest : List Char} {ws : List (List Char)} (blank : IsGap gap) (word : IsWord w)
      (apart : ∀ c ∈ rest.head?, isBlank c = true) (tail : Spread rest ws) :
      Spread (gap ++ w ++ rest) (w :: ws)

theorem wordsOf_gap_append {gap : List Char} (blank : IsGap gap) (cs : List Char) :
    wordsOf (gap ++ cs) = wordsOf cs := by
  induction gap with
  | nil => rfl
  | cons c gap ih =>
    obtain ⟨hc, hgap⟩ := List.forall_mem_cons.1 blank
    rw [List.cons_append, wordsOf, if_pos hc, ih hgap]

theorem wordsOf_gap {gap : List Char} (blank : IsGap gap) : wordsOf gap = [] := by
  simpa [wordsOf] using wordsOf_gap_append blank []

theorem wordsOf_word_append {w rest : List Char} (word : IsWord w)
    (apart : ∀ c ∈ rest.head?, isBlank c = true) : wordsOf (w ++ rest) = w :: wordsOf rest := by
  obtain ⟨c, w, rfl⟩ := List.exists_cons_of_ne_nil word.1
  obtain ⟨hc, hw⟩ := List.forall_mem_cons.1 word.2
  rw [List.cons_append, wordsOf, if_neg (by simp [hc]), spanWord_append_of_head hw apart]

/-- Where the first word ends there is a blank, or the text ends. -/
theorem isBlank_of_head_spanWord (cs : List Char) :
    ∀ c ∈ (spanWord cs).2.head?, isBlank c = true := by
  induction cs with
  | nil => simp [spanWord]
  | cons d cs ih =>
    cases hd : isBlank d with
    | true => simp [spanWord, hd]
    | false => simpa [spanWord, hd] using ih

theorem Spread.cons {c : Char} (hc : isBlank c = true) {cs : List Char} {ws : List (List Char)}
    (h : Spread cs ws) : Spread (c :: cs) ws := by
  cases h with
  | gap blank => exact .gap (List.forall_mem_cons.2 ⟨hc, blank⟩)
  | word blank word apart tail => exact .word (List.forall_mem_cons.2 ⟨hc, blank⟩) word apart tail

theorem spread_wordsOf (cs : List Char) : Spread cs (wordsOf cs) := by
  induction cs using wordsOf.induct with
  | case1 =>
    rw [wordsOf]
    exact .gap (by simp [IsGap])
  | case2 c cs hc ih =>
    rw [wordsOf, if_pos hc]
    exact ih.cons hc
  | case3 c cs hc ih =>
    rw [wordsOf, if_neg hc]
    have word : IsWord (c :: (spanWord cs).1) :=
      ⟨List.cons_ne_nil _ _,
        List.forall_mem_cons.2 ⟨by simpa using hc, fun d hd => not_isBlank_of_mem_spanWord hd⟩⟩
    have none : IsGap [] := by simp [IsGap]
    have spread := Spread.word none word (isBlank_of_head_spanWord cs) ih
    rwa [List.nil_append, List.cons_append, spanWord_append] at spread

/-- The words of a text are the only ones over which it is spread. -/
theorem wordsOf_eq_iff_spread {cs : List Char} {ws : List (List Char)} :
    wordsOf cs = ws ↔ Spread cs ws := by
  constructor
  · rintro rfl
    exact spread_wordsOf cs
  · intro h
    induction h with
    | gap blank => exact wordsOf_gap blank
    | word blank word apart tail ih =>
      rw [List.append_assoc, wordsOf_gap_append blank, wordsOf_word_append word apart, ih]

theorem Spread.append_gap {cs gap : List Char} {ws : List (List Char)} (h : Spread cs ws)
    (blank : IsGap gap) : Spread (cs ++ gap) ws := by
  induction h with
  | gap before => exact .gap (List.forall_mem_append.2 ⟨before, blank⟩)
  | @word before w rest ws hbefore word apart tail ih =>
    rw [List.append_assoc]
    refine .word hbefore word ?_ ih
    cases rest with
    | nil => exact fun c hc => blank c (List.mem_of_mem_head? hc)
    | cons c rest => exact apart

theorem isGap_takeWhile (cs : List Char) : IsGap (cs.takeWhile isBlank) :=
  fun _ hc => List.mem_takeWhile_imp hc

/-- Nothing but a gap is dropped at the end once it has been dropped at the beginning. -/
theorem exists_trimBlanks_append (cs : List Char) :
    ∃ gap, IsGap gap ∧ cs.dropWhile isBlank = trimBlanks cs ++ gap := by
  let back := (cs.dropWhile isBlank).reverse
  refine ⟨(back.takeWhile isBlank).reverse,
    fun c hc => isGap_takeWhile back c (List.mem_reverse.1 hc), ?_⟩
  rw [trimBlanks, ← List.reverse_append, List.takeWhile_append_dropWhile, List.reverse_reverse]

theorem wordsOf_trimBlanks (cs : List Char) : wordsOf (trimBlanks cs) = wordsOf cs := by
  obtain ⟨gap, blank, whole⟩ := exists_trimBlanks_append cs
  have trailing : wordsOf (trimBlanks cs ++ gap) = wordsOf (trimBlanks cs) :=
    wordsOf_eq_iff_spread.2 ((spread_wordsOf _).append_gap blank)
  rw [← trailing, ← whole, ← wordsOf_gap_append (isGap_takeWhile cs),
    List.takeWhile_append_dropWhile]

theorem not_isBlank_of_head_trimBlanks {cs rest : List Char} {c : Char}
    (h : trimBlanks cs = c :: rest) : isBlank c = false := by
  obtain ⟨gap, -, whole⟩ := exists_trimBlanks_append cs
  rw [h, List.cons_append] at whole
  have kept := List.head?_dropWhile_not isBlank cs
  rwa [whole, List.head?_cons] at kept

/-- The margins are dropped, the first word is cut off and then the rest is split. -/
def cutWords (cs : List Char) : List (List Char) :=
  match spanWord (trimBlanks cs) with
  | ([], _) => []
  | (w, rest) => w :: wordsOf rest

theorem wordsOf_eq_cutWords (cs : List Char) : wordsOf cs = cutWords cs := by
  rw [← wordsOf_trimBlanks, cutWords]
  cases h : trimBlanks cs with
  | nil => simp [wordsOf, spanWord]
  | cons c rest =>
    have hc : isBlank c = false := not_isBlank_of_head_trimBlanks h
    rw [wordsOf, if_neg (by simp [hc])]
    simp [spanWord, hc]

end ChatCommands.Text
