import Scannerless.Demo

/-!
# Command

Prints the demonstration.
-/

def main : IO Unit :=
  IO.print Scannerless.Demo.everything
