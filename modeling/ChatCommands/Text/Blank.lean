set_option autoImplicit false

/-!
# Blanks and words

A text is read as words separated by runs of blanks. A blank is one of the
twenty-nine code points in `blankRanges`; in particular the zero width space,
the Mongolian vowel separator and the byte order mark are not blanks.
-/
namespace ChatCommands.Text

/-- The closed intervals of code points that are blanks. -/
def blankRanges : List (Nat × Nat) :=
  [(0x9, 0xD), (0x1C, 0x20), (0x85, 0x85), (0xA0, 0xA0), (0x1680, 0x1680), (0x2000, 0x200A),
   (0x2028, 0x2029), (0x202F, 0x202F), (0x205F, 0x205F), (0x3000, 0x3000)]

def isBlank (c : Char) : Bool :=
  blankRanges.any fun r => r.1 ≤ c.toNat && c.toNat ≤ r.2

/-- The longest part at the front that has no blank, and what follows it. -/
def spanWord : List Char → List Char × List Char
  | [] => ([], [])
  | c :: cs => if isBlank c then ([], c :: cs) else (c :: (spanWord cs).1, (spanWord cs).2)

theorem spanWord_append (cs : List Char) : (spanWord cs).1 ++ (spanWord cs).2 = cs := by
  induction cs with
  | nil => rfl
  | cons c cs ih => by_cases h : isBlank c <;> simp [spanWord, h, ih]

theorem spanWord_snd_length_le (cs : List Char) : (spanWord cs).2.length ≤ cs.length := by
  have h := congrArg List.length (spanWord_append cs)
  simp only [List.length_append] at h
  omega

/-- The words of a text: its longest blank-free parts, in order. -/
def wordsOf : List Char → List (List Char)
  | [] => []
  | c :: cs =>
    if isBlank c then wordsOf cs else (c :: (spanWord cs).1) :: wordsOf (spanWord cs).2
termination_by cs => cs.length
decreasing_by
  · simp
  · have := spanWord_snd_length_le cs
    simp only [List.length_cons]
    omega

def words (text : String) : List String := (wordsOf text.toList).map String.ofList

def trimBlanks (cs : List Char) : List Char :=
  ((cs.dropWhile isBlank).reverse.dropWhile isBlank).reverse

def unwords (ws : List String) : String := " ".intercalate ws

end ChatCommands.Text
