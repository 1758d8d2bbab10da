import ChatCommands.Fault
import ChatCommands.Number.Decimal

set_option autoImplicit false

/-!
# Arguments of the test runner

The arguments are switches, some of which take a value, and one path. A long
switch may be cut short as long as it stays unique, and takes its value after an
equals sign or as the next argument. Short switches may be joined, and the last
of them may be followed directly by its value. After two dashes all is taken as
it is, and two dashes written together with a switch take its value away.
Negative numbers and arguments with a space are never switches.
-/
namespace ChatCommands.TestRun

inductive Switch where
  | help
  | noCoverage
  | htmlReport
  | failUnder
  | verbose
  | failFast
  | markers
  deriving DecidableEq, Repr

namespace Switch

def names : List (String × Switch) :=
  [("-h", help), ("--help", help), ("--no-coverage", noCoverage), ("--html-report", htmlReport),
   ("--fail-under", failUnder), ("--verbose", verbose), ("-v", verbose), ("--fail-fast", failFast),
   ("-x", failFast), ("--markers", markers), ("-m", markers)]

def takesValue (s : Switch) : Bool := s == failUnder || s == markers

end Switch

structure Options where
  noCoverage : Bool := false
  htmlReport : Bool := false
  failUnder : Option Int := some 80
  verbose : Bool := false
  failFast : Bool := false
  markers : Option String := none
  path : Option String := none
  deriving DecidableEq, Repr

/-- What one argument is. -/
inductive Word where
  | plain (text : String)
  /-- a switch with the value that is written together with it, if there is one -/
  | switch (s : Switch) (short : Bool) (attached : Option (List Char))
  | unknown
  | ambiguous
  deriving DecidableEq

namespace Word

/-- The text before the first equals sign, and the text after it if there is one. -/
def splitEquals (cs : List Char) : List Char × Option (List Char) :=
  match cs.dropWhile (· ≠ '=') with
  | [] => (cs, none)
  | _ :: value => (cs.takeWhile (· ≠ '='), some value)

def isShort (name : List Char) : Bool := name.length == 2

/-- The switches that an argument may mean without being the name of one. -/
def candidates (cs : List Char) : List Word :=
  if "--".toList.isPrefixOf cs then
    let (start, attached) := splitEquals cs
    Switch.names.filterMap fun (name, s) =>
      if start.isPrefixOf name.toList then some (.switch s (isShort name.toList) attached) else none
  else
    Switch.names.filterMap fun (name, s) =>
      if name.toList = cs.take 2 then some (.switch s true (some (cs.drop 2)))
      else if cs.isPrefixOf name.toList then some (.switch s (isShort name.toList) none)
      else none

def isNegativeNumber (cs : List Char) : Bool :=
  match cs with
  | '-' :: ds =>
    let body := if ds.getLast? = some '\n' then ds.dropLast else ds
    let fraction := body.dropWhile Text.isDigit
    (body != [] && fraction == []) ||
      (fraction.head? == some '.' && fraction.drop 1 != [] && (fraction.drop 1).all Text.isDigit)
  | _ => false

def ofArgument (text : String) : Word :=
  let cs := text.toList
  if cs.head? ≠ some '-' then .plain text
  else match Switch.names.lookup text with
    | some s => .switch s (isShort cs) none
    | none =>
      if cs.length = 1 then .plain text
      else
        let (start, attached) := splitEquals cs
        match attached, Switch.names.lookup (String.ofList start) with
        | some a, some s => .switch s (isShort start) (some a)
        | _, _ =>
          match candidates cs with
          | [w] => w
          | _ :: _ :: _ => .ambiguous
          | [] => if isNegativeNumber cs || cs.contains ' ' then .plain text else .unknown

end Word

/-- What the arguments ask for. -/
inductive Request where
  | run (o : Options)
  | help
  | refused
  deriving DecidableEq, Repr

/-- The options so far. -/
structure Reading where
  options : Options := {}
  pathTaken : Bool := false
  /-- the path is the last of the arguments -/
  endsInPath : Bool := false
  /-- there are arguments that mean nothing -/
  surplus : Bool := false

namespace Reading

def percentage? (text : String) : Option Int := Decimal.readInteger? Fault.digitLimit text

def takeFlag (r : Reading) : Switch → Reading
  | .noCoverage => { r with options := { r.options with noCoverage := true } }
  | .htmlReport => { r with options := { r.options with htmlReport := true } }
  | .verbose => { r with options := { r.options with verbose := true } }
  | .failFast => { r with options := { r.options with failFast := true } }
  | _ => r

/-- What takes the value of a switch away. -/
def noValue : String := "--"

/-- The options with the value of a switch, which has to be a number for some. -/
def takeValue? (r : Reading) (value : String) : Switch → Option Reading
  | .failUnder =>
    let number := if value = noValue then some none else (percentage? value).map some
    number.map fun failUnder => { r with options := { r.options with failUnder } }
  | .markers =>
    let markers := if value = noValue then none else some value
    some { r with options := { r.options with markers } }
  | _ => some r

def takePath (r : Reading) (path : Option String) : Reading :=
  { r with options := { r.options with path }, pathTaken := true }

/-- The switches of one argument. -/
inductive Cluster where
  | flags (switches : List Switch)
  /-- the last switch takes a value, which may be the next argument -/
  | last (switches : List Switch) (s : Switch) (value : Option (List Char))
  | refused

def cluster (before : List Switch) (s : Switch) (short : Bool) : Option (List Char) → Cluster
  | none => if s.takesValue then .last before s none else .flags (before ++ [s])
  | some value =>
    if s.takesValue then .last before s (some value)
    else if !short then .refused
    else match value with
      | [] => .refused
      | c :: rest =>
        match Switch.names.lookup (String.ofList ['-', c]) with
        | none => .refused
        | some next => cluster (before ++ [s]) next true (if rest = [] then none else some rest)
termination_by a => (a.map fun value => value.length + 1).getD 0
decreasing_by
  split <;> simp

/-- Reads the arguments before any two dashes, one after the other. -/
def readWords (r : Reading) : List Word → Except Request Reading
  | [] => .ok r
  | .plain text :: rest =>
    readWords (if r.pathTaken then { r with surplus := true }
      else { r.takePath (some text) with endsInPath := rest.isEmpty }) rest
  | .unknown :: rest => readWords { r with surplus := true } rest
  | .ambiguous :: _ => .error .refused
  | .switch s short attached :: rest =>
    match cluster [] s short attached with
    | .refused => .error .refused
    | .flags switches =>
      if switches.contains .help then .error .help else readWords (switches.foldl takeFlag r) rest
    | .last switches s (some value) =>
      if switches.contains .help then .error .help
      else match (switches.foldl takeFlag r).takeValue? (String.ofList value) s with
        | none => .error .refused
        | some r => readWords r rest
    | .last switches s none =>
      match rest with
      | .plain value :: rest =>
        if switches.contains .help then .error .help
        else match (switches.foldl takeFlag r).takeValue? value s with
          | none => .error .refused
          | some r => readWords r rest
      | _ => .error .refused

/-- Takes the arguments after two dashes: the first is the path, unless there is one already. -/
def takeRest (r : Reading) (rest : List String) : Reading :=
  if !r.pathTaken then { r.takePath rest.head? with surplus := r.surplus || rest.length > 1 }
  else { r with surplus := r.surplus || !r.endsInPath || !rest.isEmpty }

end Reading

def readArguments (arguments : List String) : Request :=
  let words := (arguments.takeWhile (· ≠ "--")).map Word.ofArgument
  if words.contains .ambiguous then .refused
  else match Reading.readWords {} words with
    | .error request => request
    | .ok r =>
      let r := match arguments.dropWhile (· ≠ "--") with
        | [] => r
        | _ :: rest => r.takeRest rest
      if r.surplus then .refused else .run r.options

end ChatCommands.TestRun
