import ChatCommands.Number.Written
import ChatCommands.TestRun.Arguments
import ChatCommands.TestRun.Report

set_option autoImplicit false

/-!
# Sessions of the test runner

A session reads the arguments, runs the tests with the command that they mean
and shows the report. It has to take place where the project's file is.
-/
namespace ChatCommands.TestRun

def standardPath : String := "tests/unit/"

def commandLine (interpreter : String) (o : Options) : List String :=
  let given := fun s : Option String => (s.getD "") != ""
  let path := if given o.path then o.path.getD "" else standardPath
  let coverage := if o.noCoverage then [] else
    ["--cov=herald", "--cov=config", "--cov-report=term-missing",
     "--cov-fail-under=" ++ o.failUnder.elim "[]" Number.integer] ++
      (if o.htmlReport then ["--cov-report=html:htmlcov"] else [])
  [interpreter, "-m", "pytest", path] ++ coverage ++ (if o.verbose then ["-v"] else []) ++
    (if o.failFast then ["-x"] else []) ++
    (if given o.markers then ["-m", o.markers.getD ""] else [])

/-- The pieces of the usage line, in the order in which they are shown. -/
def usagePieces : List String :=
  ["[-h]", "[--no-coverage]", "[--html-report]", "[--fail-under FAIL_UNDER]", "[--verbose]",
   "[--fail-fast]", "[--markers MARKERS]"]

/-- Pieces in lines of limited width, each after the same indentation. -/
def fillLines (width indent : Nat) (line : List String) (used : Nat) : List String → List (List String)
  | [] => if line = [] then [] else [line]
  | p :: ps =>
    if used + 1 + p.length > width && line != [] then
      line :: fillLines width indent [p] (indent + 1 + p.length) ps
    else fillLines width indent (line ++ [p]) (used + 1 + p.length) ps

def help (program : String) : List String :=
  let start := "usage: " ++ program ++ " "
  let blank := String.ofList (List.replicate start.length ' ')
  let lines := (fillLines 78 (start.length - 1) [] (start.length - 1) usagePieces ++ [["[test_path]"]]).map
    (" ".intercalate ·)
  let usage := match lines with
    | [] => [start]
    | l :: ls => (start ++ l) :: ls.map (blank ++ ·)
  usage ++
    ["", "Run herald tests", "", "positional arguments:",
     "  test_path             Specific test path to run", "", "options:",
     "  -h, --help            show this help message and exit",
     "  --no-coverage         Run without coverage reporting",
     "  --html-report         Generate HTML coverage report",
     "  --fail-under FAIL_UNDER",
     "                        Minimum coverage percentage",
     "  --verbose, -v         Verbose output",
     "  --fail-fast, -x       Stop on first failure",
     "  --markers MARKERS, -m MARKERS",
     "                        Run tests with specific markers"]

/-- What a session shows and what it ends with. -/
structure Session where
  /-- the commands that were run -/
  ran : List (List String)
  /-- the lines shown; some hold line feeds -/
  shown : List String
  exitCode : Except Fault Int

/-- What is shown, in single lines; the last one is empty. -/
def Session.lines (s : Session) : List String :=
  (String.join (s.shown.map (· ++ "\n"))).splitOn "\n"

def announcement (command : List String) : List String :=
  ["🚀 Running: " ++ " ".intercalate command, rule '=' 80]

def closing (o : Options) (exitCode : Int) : List String :=
  (if o.htmlReport && !o.noCoverage then ["\n📁 Open htmlcov/index.html in your browser"] else []) ++
    ["\n" ++ rule '=' 80,
     if exitCode = 0 then "🎉 Test run completed successfully!"
     else "💥 Test run failed - see details above",
     rule '=' 80]

/-- A session with the given arguments, where the tests would end with the given result. -/
def session (program interpreter : String) (inProject : Bool) (arguments : List String) (r : Result) :
    Session :=
  match readArguments arguments with
  | .refused => ⟨[], [], .ok 2⟩
  | .help => ⟨[], help program, .ok 0⟩
  | .run o =>
    if !inProject then
      ⟨[], ["Error: pyproject.toml not found. Please run from the project root directory."], .ok 1⟩
    else
      let command := commandLine interpreter o
      match counts r.output with
      | .error f => ⟨[command], announcement command, .error f⟩
      | .ok c =>
        if c.isWritable then
          ⟨[command], announcement command ++ report r c ++ closing o r.exitCode, .ok r.exitCode⟩
        else ⟨[command], announcement command, .error .tooLong⟩

end ChatCommands.TestRun
