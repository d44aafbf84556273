import PadRouter.Console

/-!
# The demonstration as a program
-/

/-- Prints the demonstration. -/
def main : IO Unit := PadRouter.Demonstration.printed.forM IO.println
