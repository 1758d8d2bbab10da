import ChatCommands.Text.Blank

set_option autoImplicit false

/-!
# Invocations

A message invokes a command if it begins with the prelude and a word follows:
that word is the keyword and the words after it are the argument tokens. The
keyword may follow the prelude directly or after blanks.
-/
namespace ChatCommands
open Text

structure Invocation where
  keyword : String
  tokens : List String
  deriving DecidableEq, Repr

namespace Invocation

/-- What follows the prelude at the front of a text. -/
def afterPrelude? (prelude content : List Char) : Option (List Char) :=
  if prelude.isPrefixOf content then some (content.drop prelude.length) else none

/-- The words after the prelude; none at all without it. -/
def wordsAfter (prelude content : String) : List String :=
  match afterPrelude? prelude.toList content.toList with
  | none => []
  | some rest => (wordsOf rest).map String.ofList

/-- The invocation that a message makes. One without content makes none. -/
def read? (prelude : String) (content : Option String) : Option Invocation :=
  match wordsAfter prelude (content.getD "") with
  | [] => none
  | keyword :: tokens => some { keyword, tokens }

end Invocation
end ChatCommands
