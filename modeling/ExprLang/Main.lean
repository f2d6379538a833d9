import ExprLang.Command.Perform

set_option autoImplicit false

/-!
The program: reads the command line and the file, and writes the outcome.
-/

open ExprLang ExprLang.Command

/-- The text of a file, if it is there and is UTF-8. -/
def readSource (path : String) : IO (Option String) := do
  try
    return String.fromUTF8? (← IO.FS.readBinFile path)
  catch _ =>
    return none

def main (arguments : List String) : IO UInt32 := do
  let request := Request.ofArguments arguments
  let (path, outcome) ← match request with
    | .perform task path => do
      let source ← readSource path
      pure (path, task.perform path source false)
    | request => pure ("", request.answer)
  IO.print outcome.output
  for notice in outcome.notices do
    IO.eprint (notice.text path)
  return outcome.status.code
