import Postfix.CommandLine.Evaluate

/-! The program: reads its arguments, writes what the command leaves behind, and exits. -/
namespace Postfix

def CommandLine.write (o : CommandLine.Outcome) : IO UInt32 := do
  IO.print o.output
  for (level, message) in o.log do
    IO.eprintln (level.name ++ " - " ++ message)
  IO.eprint o.errors
  return UInt32.ofNat o.exit

end Postfix

def main (arguments : List String) : IO UInt32 := do
  match Postfix.CommandLine.run {} arguments with
  | .ok o => Postfix.CommandLine.write o
  | .error e =>
    IO.eprintln e.message
    return 1
