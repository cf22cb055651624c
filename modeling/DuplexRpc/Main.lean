import DuplexRpc.CommandLine.Report

/-!
The program. It has no sockets of its own and so runs as on a detached network.
-/

def main (args : List String) : IO UInt32 := do
  match (DuplexRpc.CommandLine.run .detached args).report with
  | some report =>
    IO.print report.output
    IO.eprint report.errors
    pure report.code
  | none => pure 1
