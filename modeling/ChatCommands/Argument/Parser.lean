import ChatCommands.Argument.Reading
import ChatCommands.Assoc
import ChatCommands.Host.Message
import ChatCommands.Value.Written

set_option autoImplicit false

/-!
# Argument parsers

A slot's tag names the parser that reads its token, in a table to which the host
can add tags of its own or give another meaning to a tag that is there. A slot
without a tag takes its token as it is. What stands in the place of a table and
is none, only fails when a parser is looked up in it.
-/
namespace ChatCommands

/-- What looks up members for the host. -/
inductive MemberResolver where
  | none
  | hook (h : Hook)
  /-- a value of this type, which looks up nothing -/
  | unusable (type : String)
  deriving DecidableEq, Repr

inductive ArgumentParser where
  | text
  | integer
  | number
  /-- tries the patterns in order; without `strict` an unread token is bound to the missing date -/
  | date (strict : Bool) (patterns : List DatePattern)
  /-- asks the resolver for the member that is mentioned -/
  | member (resolver : MemberResolver)
  /-- a parser of the host -/
  | host (label : String) (parser : Hook)

namespace ArgumentParser

def label : ArgumentParser → String
  | .text => "StringArgumentParser"
  | .integer => "IntegerArgumentParser"
  | .number => "FloatArgumentParser"
  | .date .. => "DateArgumentParser"
  | .member _ => "GuildMemberArgumentParser"
  | .host label _ => label

end ArgumentParser

/-- The parsers of all tags. -/
abbrev ParserTable := Assoc ArgumentParser

namespace ParserTable

/-- The four tags that are always there. -/
def standard (strictDates : Bool) (resolver : MemberResolver) : ParserTable :=
  [("Int", .integer), ("Float", .number), ("Date", .date strictDates DatePattern.standard),
   ("GuildMember", .member resolver)]

def register (t : ParserTable) (tag : String) (p : ArgumentParser) : ParserTable := t.put tag p

def parser? (t : ParserTable) : Option String → Option ArgumentParser
  | none => some .text
  | some tag => t.find? tag

def knows (t : ParserTable) (tag : Option String) : Bool := (t.parser? tag).isSome

/-- The parser for whatever is given for a tag, if it is one. Nothing stands for no tag. -/
def query (t : ParserTable) : Value → Except Fault (Option ArgumentParser)
  | .none => .ok (t.parser? none)
  | .text tag => .ok (t.parser? (some tag))
  | v => v.key?.map fun _ => none

/-- The fault that there is no parser for what is given for a tag. -/
def unknown (tag : Value) : Fault := .raised { label := "KeyError" } (some tag.literal)

/-- The tags in the order of their code points. -/
def tags (t : ParserTable) : List String := t.keys.mergeSort

end ParserTable

/-- Where parsers are looked up: in a table, or in a value of some type that is none. -/
inductive ParserSource where
  | table (t : ParserTable)
  | unusable (type : String)

namespace ParserSource

instance : Coe ParserTable ParserSource := ⟨.table⟩

def knows : ParserSource → Option String → Except Fault Bool
  | .table t, tag => .ok (t.knows tag)
  | .unusable type, _ => .error (.noAttribute type "has_parser")

def parser : ParserSource → Option String → Except Fault ArgumentParser
  | .table t, tag => (t.parser? tag).elim (.error (.unknownTag (tag.getD ""))) .ok
  | .unusable type, _ => .error (.noAttribute type "get_parser")

end ParserSource
end ChatCommands
