import Postfix.CommandLine.Evaluate
import Postfix.Failure.Kind

/-! The command that evaluates an expression of the sample arithmetic. -/
namespace Postfix.CommandLine

def sampleDefault : String := "1 1 +"

def kindName (e : Failure) : String := (e.kind?.map FailureKind.name).getD ""

def sampleValue : Value → String
  | .oneTwo v => v.digit
  | v => v.plain

def runSample (arguments : List String) : Except Failure Outcome :=
  let text := arguments.head?.getD sampleDefault
  match Expression.ofText text .oneTwo .oneTwo .none with
  | .error e =>
    if e.isDocumented then
      .ok { exit := 1, output := "Parsing results in " ++ kindName e ++ ": " ++ e.message ++ "\n" }
    else .error e
  | .ok e =>
    let subject := "Evaluation of " ++ Text.quoted text
    match e.evaluate .absent with
    | .ok v => .ok { exit := 0, output := subject ++ " gives " ++ sampleValue v ++ "\n" }
    | .error e =>
      if e.isEvaluation then .ok { exit := 1, output := subject ++ " fails: " ++ e.message ++ "\n" }
      else .error e

end Postfix.CommandLine
