import ChatCommands.Settings.Basic
import ChatCommands.Text.Blank

set_option autoImplicit false

/-!
# Variables

The surroundings provide settings as variables: those of the process, and those
of a file with one variable a line. In the file a value may stand in quotes, in
which a backslash escapes; otherwise it ends at the line's end or at a comment.
A line may begin with the word `export`, and a value may refer to variables. A
line that fits none of this is skipped. Variables are known by their names in any
case, after a common beginning.
-/
namespace ChatCommands.Settings.Variables
open Text

abbrev Scan (α : Type) := List Char → Option (α × List Char)

/-- A blank that does not end the line. -/
def isSpace (c : Char) : Bool := isBlank c && c != '\n' && c != '\r'

def isLineEnd (c : Char) : Bool := c == '\n' || c == '\r'

def skipSpace (cs : List Char) : List Char := cs.dropWhile isSpace

def hash : Char := '#'
def apostrophe : Char := '\x27'
def quotationMark : Char := '\x22'
def backslash : Char := '\x5c'

/-- The word `export` and the blanks after it, if they are there. -/
def skipExport (cs : List Char) : List Char :=
  let word := "export".toList
  if word.isPrefixOf cs && ((cs.drop word.length).head?.map isSpace).getD false then
    skipSpace (cs.drop word.length)
  else cs

/-- The variable's name, in apostrophes or plain; none where a comment begins. -/
def scanName : Scan (Option String)
  | c :: cs =>
    if c = hash then some (none, c :: cs)
    else if c = apostrophe then
      let name := cs.takeWhile (· ≠ apostrophe)
      match name, cs.dropWhile (· ≠ apostrophe) with
      | _ :: _, _ :: rest => some (some (String.ofList name), rest)
      | _, _ => none
    else
      let plain := fun d => d ≠ '=' && d ≠ hash && !isBlank d
      let name := (c :: cs).takeWhile plain
      if name = [] then none else some (some (String.ofList name), (c :: cs).dropWhile plain)
  | [] => none

/-- The text up to the closing quote, which is not one after a backslash. -/
def scanQuoted (quote : Char) : Scan (List Char)
  | [] => none
  | [c] => if c = quote then some ([], []) else none
  | c :: d :: cs =>
    if c = quote then some ([], d :: cs)
    else if c = backslash then (scanQuoted quote cs).map fun r => (c :: d :: r.1, r.2)
    else (scanQuoted quote (d :: cs)).map fun r => (c :: r.1, r.2)

/-- What a letter after a backslash stands for between quotation marks. -/
def escaped? (c : Char) : Option Char :=
  if c = backslash ∨ c = apostrophe ∨ c = quotationMark then some c
  else match c with
    | 'a' => some '\x07'
    | 'b' => some '\x08'
    | 'f' => some '\x0c'
    | 'n' => some '\n'
    | 'r' => some '\r'
    | 't' => some '\t'
    | 'v' => some '\x0b'
    | _ => none

/-- What a character after a backslash stands for between apostrophes. -/
def escapedPlain? (c : Char) : Option Char :=
  if c = backslash ∨ c = apostrophe then some c else none

def decode (escape? : Char → Option Char) : List Char → List Char
  | [] => []
  | [c] => [c]
  | c :: d :: cs =>
    if c = backslash then
      match escape? d with
      | some e => e :: decode escape? cs
      | none => c :: decode escape? (d :: cs)
    else c :: decode escape? (d :: cs)

/-- The text before the first blanks that a comment follows. -/
def beforeComment : List Char → List Char
  | [] => []
  | c :: cs =>
    if isBlank c && (cs.dropWhile isBlank).head? == some hash then [] else c :: beforeComment cs

/-- A value without quotes: the line up to a comment, without blanks around it. -/
def scanPlain (cs : List Char) : String × List Char :=
  (String.ofList (trimBlanks (beforeComment (cs.takeWhile (!isLineEnd ·)))), cs.dropWhile (!isLineEnd ·))

def scanValue (cs : List Char) : Option (String × List Char) :=
  match skipSpace cs with
  | [] => some ("", [])
  | c :: rest =>
    if c = apostrophe then
      (scanQuoted c rest).map fun r => (String.ofList (decode escapedPlain? r.1), r.2)
    else if c = quotationMark then
      (scanQuoted c rest).map fun r => (String.ofList (decode escaped? r.1), r.2)
    else some (scanPlain cs)

/-- A comment, if there is one, and the end of the line. -/
def scanLineEnd (cs : List Char) : Option (List Char) :=
  let cs := match skipSpace cs with
    | c :: rest => if c = hash then rest.dropWhile (!isLineEnd ·) else cs
    | [] => cs
  match skipSpace cs with
  | [] => some []
  | c :: rest => if isLineEnd c then some rest else none

/-- What remains of the text after a line that fits nothing. -/
def skipLine (cs : List Char) : List Char := (cs.dropWhile (!isLineEnd ·)).drop 1

/-- The value after an equals sign, or none without the sign; the position at which it does not
fit. -/
def scanAssigned : List Char → Except (List Char) (Option String × List Char)
  | '=' :: cs =>
    match scanValue cs with
    | none => .error cs
    | some (v, rest) => .ok (some v, rest)
  | cs => .ok (none, cs)

/-- The variable of a line, and what follows; the position at which the line does not fit. -/
def scanLine (cs : List Char) : Except (List Char) (Option (String × Option String) × List Char) :=
  let cs := skipExport cs
  match scanName cs with
  | none => .error cs
  | some (name, cs) =>
    match scanAssigned (skipSpace cs) with
    | .error cs => .error cs
    | .ok (v, cs) =>
      match scanLineEnd cs with
      | none => .error cs
      | some rest => .ok (name.map fun n => (n, v), rest)

/-- The variables of a text, at most as many lines as `fuel`. -/
def scanLines : Nat → List Char → List (String × Option String)
  | 0, _ => []
  | fuel + 1, cs =>
    match cs.dropWhile isBlank with
    | [] => []
    | cs =>
      match scanLine cs with
      | .ok (some entry, rest) => entry :: scanLines fuel rest
      | .ok (none, rest) => scanLines fuel rest
      | .error stuck => scanLines fuel (skipLine stuck)

def unifyLineEnds : List Char → List Char
  | '\r' :: '\n' :: cs => '\n' :: unifyLineEnds cs
  | '\r' :: cs => '\n' :: unifyLineEnds cs
  | c :: cs => c :: unifyLineEnds cs
  | [] => []

/-- A text without the mark of the order of its bytes, which may stand at the front. -/
def dropMark : List Char → List Char
  | c :: cs => if c = '\ufeff' then cs else c :: cs
  | [] => []

/-- The variables of a file, in order, with those that have no value. -/
def ofText (text : String) : List (String × Option String) :=
  let cs := unifyLineEnds (dropMark text.toList)
  scanLines (cs.length + 1) cs

/-- A reference to a variable, after its dollar sign and brace: the name and what to take where it
is not known. -/
def scanReference (cs : List Char) : Option (String × String × List Char) :=
  let stop := fun c => c == '\x7d' || c == ':'
  let name := String.ofList (cs.takeWhile (!stop ·))
  match cs.dropWhile (!stop ·) with
  | ':' :: '-' :: rest =>
    match rest.dropWhile (· ≠ '\x7d') with
    | _ :: after => some (name, String.ofList (rest.takeWhile (· ≠ '\x7d')), after)
    | [] => none
  | '\x7d' :: rest => some (name, "", rest)
  | _ => none

/-- The text with all references replaced; `fuel` is at least its length. -/
def substitute (known : String → Option (Option String)) : Nat → List Char → String
  | 0, _ => ""
  | _ + 1, [] => ""
  | fuel + 1, '$' :: '\x7b' :: cs =>
    match scanReference cs with
    | some (name, otherwise, rest) =>
      ((known name).map (·.getD "")).getD otherwise ++ substitute known fuel rest
    | none => "$" ++ substitute known fuel ('\x7b' :: cs)
  | fuel + 1, c :: cs => String.singleton c ++ substitute known fuel cs

/-- The variables of a file with all references replaced. A later variable hides an earlier one and
both hide those of the process. -/
def resolve (process : Assoc String) (seen : Assoc (Option String)) :
    List (String × Option String) → Assoc (Option String)
  | [] => seen
  | (name, value) :: rest =>
    let known := fun name => (seen.find? name).or ((process.find? name).map some)
    let value := value.map fun v => substitute known (v.length + 1) v.toList
    resolve process (seen.put name value) rest

/-- The beginning of the names of all variables that hold settings. -/
def commonPrefix : String := "herald_"

def small (c : Char) : Char := if c.toNat = 0x212A then 'k' else c.toLower

def smallName (name : String) : String := String.ofList (name.toList.map small)

/-- The first value given under a name in any case. -/
def first? {α : Type} (name : String) (entries : List (String × α)) : Option α :=
  (entries.find? fun e => smallName e.1 = name).map (·.2)

def last? {α : Type} (name : String) (entries : List (String × α)) : Option α :=
  entries.foldl (fun found e => if smallName e.1 = name then some e.2 else found) none

def valueOf? (setting : String) (entries : List (String × Option String)) : Option String :=
  (last? (commonPrefix ++ setting) entries).join

end Variables

/-- The settings from values given by name in any case, from variables of the process and from a file
of variables; the earlier of these decides. Among values given by one name in several cases the first
decides. -/
def ofSources (given : Assoc Value) (process : Assoc String) (file : String) :
    Except (List Issue) Settings :=
  let fromFile := Variables.resolve process [] (Variables.ofText file)
  let fromProcess := process.map fun e => (e.1, some e.2)
  let find (setting : String) : Option Value :=
    (Variables.first? setting given).or
      (((Variables.valueOf? setting fromProcess).or (Variables.valueOf? setting fromFile)).map .text)
  ofValues (names.filterMap fun setting => (find setting).map fun v => (setting, v))

end ChatCommands.Settings
