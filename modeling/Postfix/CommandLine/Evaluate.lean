import Postfix.CommandLine.Arguments
import Postfix.Formula.Engine
import Postfix.Plan

/-! The command that evaluates one expression. Its exit code is zero with the value printed, one if
the expression cannot be built or evaluated, and two if the arguments do not go together. -/
namespace Postfix.CommandLine

open Formula (Level)

structure Outcome where
  exit : Nat
  output : String := ""
  errors : String := ""
  log : List (Level × String) := []

def specs : List OptionSpec :=
  [⟨"-h", false, none⟩, ⟨"--help", false, none⟩,
    ⟨"--operand_type", true, some Settings.operandTypes⟩,
    ⟨"--evaluator", true, some Settings.evaluators⟩, ⟨"--var", true, none⟩,
    ⟨"--named_var", true, none⟩, ⟨"--show_plan", false, none⟩, ⟨"--log_level", true, none⟩]

def invalid : Outcome := { exit := 2 }

def refuse (message : String) : Outcome := { exit := 2, log := [(.error, message)] }

/-- A failure that an expression is documented to end with is reported; any other one escapes. -/
def report (output : String) (e : Failure) : Except Failure Outcome :=
  if e.isDocumented then
    .ok { exit := 1, output := output, errors := "error: " ++ e.message ++ "\n" }
  else .error e

def readNamed : List String → Except String (List (Value × Value))
  | [] => .ok []
  | pair :: rest =>
    match splitValue pair with
    | ("", _) => .error pair
    | (_, none) => .error pair
    | (name, some value) => (readNamed rest).map ((.text name, .text value) :: ·)

def operandType (s : Settings) (p : Parsed) (family : String) : Except Fault NumericType :=
  match (p.last? "--operand_type").or (s.familyOperandTypes.lookup family) with
  | some name => NumericType.lookup (.text name)
  | none => .error (.noOperandType family)

def evaluateWith (s : Settings) (p : Parsed) (vars : VariableKind) (c : Container) :
    Except Failure Outcome := do
  let familyName := (p.last? "--evaluator").getD s.evaluator
  let family ← (Family.lookup (.text familyName)).mapError .fault
  let type ← (operandType s p familyName).mapError .fault
  if !family.accepts (.numeric type) then
    return refuse (familyName ++ " evaluator cannot use " ++ type.name ++ " operands")
  match Expression.ofText (p.positional.getD "") family (.numeric type) vars with
  | .error e => report "" e
  | .ok e =>
    let shown := if p.has "--show_plan" then e.plan ++ "\n" else ""
    match e.evaluate c with
    | .error e => report shown e
    | .ok v => return { exit := 0, output := shown ++ type.text v ++ "\n" }

def runParsed (s : Settings) (p : Parsed) : Except Failure Outcome :=
  let positional := p.all "--var"
  let named := p.all "--named_var"
  if !positional.isEmpty && !named.isEmpty then
    .ok (refuse "--var and --named_var cannot be combined")
  else if named.isEmpty then
    evaluateWith s p .index (.positional (positional.map .text))
  else match readNamed named with
    | .ok pairs => evaluateWith s p .name (.keyed pairs)
    | .error pair => .ok (refuse ("--named_var expects name=value, got " ++ Text.quoted pair))

def run (s : Settings) (arguments : List String) : Except Failure Outcome := do
  match read specs arguments with
  | .invalid => return invalid
  | .help => return { exit := 0 }
  | .parsed p =>
    s.validate.mapError .fault
    runParsed s p

end Postfix.CommandLine
