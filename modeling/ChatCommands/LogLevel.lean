import ChatCommands.Settings.Basic
import ChatCommands.Text.Case

set_option autoImplicit false

/-!
# The level of the log

The level of the log is given by its name in any case, or else taken from the
settings. The lines of the log have one format.
-/
namespace ChatCommands.LogLevel

def levels : List (String × Nat) :=
  [("NOTSET", 0), ("DEBUG", 10), ("INFO", 20), ("WARN", 30), ("WARNING", 30), ("ERROR", 40),
   ("CRITICAL", 50), ("FATAL", 50)]

/-- The level to use: the one given, unless it is nothing or empty. -/
def chosen (s : Settings) (given : Value) : Value :=
  if given.isTruthy then given else .text s.logLevel

/-- Why a name gives no level. -/
inductive Refusal where
  | unknown (name : String)
  /-- the name is that of a text, which is no level's name -/
  | text (s : String)
  /-- the name is that of something else, which is written so -/
  | other (written : String)
  /-- a value of this type is no name -/
  | noName (type : String)
  deriving DecidableEq, Repr

/-- The format of lines that are not given another. -/
def basicFormat : String := "%(levelname)s:%(name)s:%(message)s"

def writtenStyles : String :=
  "\x7b'%': (<class 'logging.PercentStyle'>, '%(levelname)s:%(name)s:%(message)s'), " ++
  "'\x7b': (<class 'logging.StrFormatStyle'>, '\x7blevelname\x7d:\x7bname\x7d:\x7bmessage\x7d'), " ++
  "'$': (<class 'logging.StringTemplateStyle'>, " ++
  "'$\x7blevelname\x7d:$\x7bname\x7d:$\x7bmessage\x7d')\x7d"

/-- What is known by names in capitals and is no level. -/
def others : List (String × Refusal) :=
  [("BASIC_FORMAT", .text basicFormat), ("_STYLES", .other writtenStyles)]

def rankOf? (name : String) : Except Refusal Nat :=
  match levels.lookup name with
  | some n => .ok n
  | none => .error ((others.lookup name).getD (.unknown name))

def rank? (s : Settings) (given : Value) : Except Refusal Nat :=
  match chosen s given with
  | .text name => rankOf? (Text.capitals name)
  | v => .error (.noName v.typeName)

namespace Refusal

def label : Refusal → String
  | .unknown _ | .noName _ => "AttributeError"
  | .text _ => "ValueError"
  | .other _ => "TypeError"

def message : Refusal → String
  | .unknown name => "module 'logging' has no attribute '" ++ name ++ "'"
  | .text s => "Unknown level: " ++ Text.quoted s
  | .other written => "Level not an integer or a valid string: " ++ written
  | .noName type => (Fault.noAttribute type "upper").message

end Refusal

def lineFormat : String := "%(asctime)s - %(name)s - %(levelname)s - %(message)s"

end ChatCommands.LogLevel
