import Postfix.Operator.Family
import Postfix.Variable

/-! Tokens after classification. A token is read as an operator first, then as a variable, and as
an operand last; if none of the three can read it, all three reasons are kept. -/
namespace Postfix

inductive Role
  | operand
  | variable
  | operator
  deriving DecidableEq

def Role.name : Role → String
  | operand => "operand"
  | .variable => "variable"
  | operator => "evaluator"

def Role.named? (name : String) : Option Role :=
  [operand, .variable, operator].find? (·.name = name)

def Role.shown (role : Role) (text : String) : String :=
  "Token(" ++ role.name ++ ", " ++ Text.quoted text ++ ")"

inductive Token
  | operand (value : Value) (text : String)
  | reference (v : Variable)
  | operator (op : Operator)

namespace Token

def role : Token → Role
  | operand _ _ => .operand
  | reference _ => .variable
  | operator _ => .operator

def text : Token → String
  | operand _ text => text
  | reference v => v.text
  | operator op => op.symbol

def shown (t : Token) : String := t.role.shown t.text

def same (s t : Token) : Bool := s.role = t.role && s.text = t.text

end Token

/-- Reads a raw token in the first role that takes it. Only token faults move on to the next role;
a fault of another sort ends the reading. -/
def classify (family : Family) (vars : VariableKind) (kind : OperandKind) (raw : String) :
    Except Failure Token :=
  match family.read raw with
  | .ok op => .ok (.operator op)
  | .error (.fault f) => .error (.fault f)
  | .error (.token noOperator) =>
    match vars.read raw with
    | .ok v => .ok (.reference v)
    | .error (.fault f) => .error (.fault f)
    | .error (.token noVariable) =>
      match kind.read raw with
      | .ok value => .ok (.operand value (kind.text value))
      | .error (.fault f) => .error (.fault f)
      | .error (.token noOperand) => .error (.unclassified raw noOperator noVariable noOperand)

end Postfix
