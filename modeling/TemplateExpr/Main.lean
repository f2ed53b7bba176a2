import TemplateExpr.Command

/-!
# The program

Reads the arguments and, where a command needs it, standard input.
-/

namespace TemplateExpr.Command

/-- Standard input, unless it is a terminal. -/
def readInput : IO String := do
  let stdin ← IO.getStdin
  if ← stdin.isTty then return "" else stdin.readToEnd

/-- What the program leaves behind for its arguments. -/
def answer (args : List String) : IO Output := do
  match ofArgs? args with
  | none => return usage
  | some c => return c.execute (← if c.readsInput then readInput else pure "")

end TemplateExpr.Command

def main (args : List String) : IO UInt32 := do
  let output ← TemplateExpr.Command.answer args
  IO.print output.stdout
  IO.eprint output.stderr
  return output.code.toUInt32
