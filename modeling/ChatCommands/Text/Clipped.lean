set_option autoImplicit false

/-!
# Clipped texts

A text may be cut to a number of bytes. Where the cut falls inside a character,
one replacement character stands for what is left of it.
-/
namespace ChatCommands.Text

/-- The characters that fit into so many bytes, with a replacement for one that only begins in them. -/
def clip : Nat → List Char → List Char
  | _, [] => []
  | limit, c :: cs =>
    if c.utf8Size ≤ limit then c :: clip (limit - c.utf8Size) cs
    else if limit = 0 then []
    else ['\ufffd']

def clipped (limit : Nat) (text : String) : String := String.ofList (clip limit text.toList)

end ChatCommands.Text
