import ChatCommands.TestRun.Session

set_option autoImplicit false

/-!
# The command line

Shows the session of a test run that has taken place. The standard input holds
the exit code of the run on its first line and its output after that.
-/
namespace ChatCommands.TestRun

def projectFile : String := "pyproject.toml"

def showSession (arguments : List String) : IO UInt32 := do
  let input ← IO.getStdin
  let code ← input.getLine
  let output ← input.readToEnd
  let inProject ← (System.mkFilePath [projectFile]).pathExists
  let exitCode := (Decimal.readInteger? Fault.digitLimit code).getD 0
  let s := session "test_runner" "python" inProject arguments ⟨exitCode, output, ""⟩
  for line in s.shown do
    IO.println line
  match s.exitCode with
  | .ok code => return UInt32.ofNat code.toNat
  | .error f =>
    IO.eprintln f.message
    return 1

end ChatCommands.TestRun

def main (arguments : List String) : IO UInt32 := ChatCommands.TestRun.showSession arguments
