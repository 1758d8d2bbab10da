import ChatCommands.Fault
import ChatCommands.Text.Blank
import ChatCommands.Text.Digit

set_option autoImplicit false

/-!
# Reports of test runs

The output of a test run says how many tests passed and failed, and a table of
coverage ends with a line of totals. The report repeats this, with the beginning
of the failures if there are any.
-/
namespace ChatCommands.TestRun
open Text

/-- What follows a text at the front of another. -/
def after? (start cs : List Char) : Option (List Char) :=
  if start.isPrefixOf cs then some (cs.drop start.length) else none

/-- What a scan finds at the first place where it finds something. -/
def findFirst? {α : Type} (scan : List Char → Option α) : List Char → Option α
  | [] => scan []
  | c :: cs => (scan (c :: cs)).or (findFirst? scan cs)

/-- One or more characters of a class, as many as there are, and what follows. -/
def spanSome? (p : Char → Bool) (cs : List Char) : Option (List Char × List Char) :=
  if cs.takeWhile p = [] then none else some (cs.takeWhile p, cs.dropWhile p)

def digitsBefore? (text cs : List Char) : Option (List Char) := do
  let (ds, rest) ← spanSome? isDigit cs
  let _ ← after? text rest
  return ds

/-- A count of tests that the output gives before a word; zero if it gives none. -/
def countBefore (word output : String) : Except Fault Nat :=
  match findFirst? (digitsBefore? word.toList) output.toList with
  | none => .ok 0
  | some ds => if ds.length > Fault.digitLimit then .error (.tooManyDigits ds.length)
    else .ok (digitsValue ds)

/-- The percentage at the end of a line of totals: the word, two numbers and a percentage, with
blanks between them. -/
def totalPercentage? (cs : List Char) : Option (List Char) := do
  let rest ← after? "TOTAL".toList cs
  let (_, rest) ← spanSome? isBlank rest
  let (_, rest) ← spanSome? isDigit rest
  let (_, rest) ← spanSome? isBlank rest
  let (_, rest) ← spanSome? isDigit rest
  let (_, rest) ← spanSome? isBlank rest
  digitsBefore? ['%'] rest

structure Counts where
  passed : Nat
  failed : Nat
  deriving DecidableEq, Repr

def Counts.total (c : Counts) : Nat := c.passed + c.failed

/-- The total has as many digits as an integer may have. -/
def Counts.isWritable (c : Counts) : Bool := c.total < Nat.pow 10 Fault.digitLimit

def counts (output : String) : Except Fault Counts := do
  let passed ← countBefore " passed" output
  let failed ← countBefore " failed" output
  return { passed, failed }

def coverage? (output : String) : Option String :=
  (findFirst? totalPercentage? output.toList).map String.ofList

def failures? (output : String) : Option (List Char) :=
  findFirst? (fun cs => if "FAILURES".toList.isPrefixOf cs then some cs else none) output.toList

/-- What a run of the tests ended with. -/
structure Result where
  exitCode : Int
  output : String
  errors : String

/-- At most so many characters of the failures are shown. -/
def failureWidth : Nat := 1000

/-- At most so many characters of the error output are shown. -/
def errorWidth : Nat := 500

/-- The failures as far as they are shown, or else the errors. -/
def details (r : Result) : List String :=
  match failures? r.output with
  | some cs => [String.ofList (cs.take failureWidth)]
  | none => if r.errors = "" then [] else [String.ofList (r.errors.toList.take errorWidth)]

def rule (c : Char) (width : Nat) : String := String.ofList (List.replicate width c)

/-- The lines of the report; some hold line feeds. -/
def report (r : Result) (c : Counts) : List String :=
  let status := if r.exitCode = 0 then "✅ Status: PASSED" else "❌ Status: FAILED"
  let tests := "📈 Tests: " ++ toString c.passed ++ " passed, " ++ toString c.failed ++ " failed, " ++
    toString c.total ++ " total"
  let coverage := match coverage? r.output with
    | some total => ["📊 Coverage: " ++ total ++ "%"]
    | none => []
  let failures := if c.failed > 0 then "\n❌ Failure Details:" :: details r else []
  ["\n📊 Results:", rule '=' 50, status, tests] ++ coverage ++ failures ++ [rule '-' 50]

end ChatCommands.TestRun
