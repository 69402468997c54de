import Postfix.Operator.Integer
import Postfix.Operator.Float.Apply
import Postfix.Value.Number
import Postfix.Operator.OneTwo
import Postfix.Operator.Table
import Postfix.Operand.Kind

/-! Families of operators: which symbols they read, which operand kinds they accept, and what
their operators declare and do. -/
namespace Postfix

inductive Family
  | /-- a family whose symbols are not defined -/
    undefined
  | float
  | integer
  | oneTwo
  | table (t : OperatorTable)
  deriving DecidableEq

inductive Operator
  | float (op : FloatOp)
  | integer (op : IntegerOp)
  | oneTwo (op : OneTwoOp)
  | table (op : TableOp)
  deriving DecidableEq

namespace Operator

def symbol : Operator → String
  | float op => op.symbol
  | integer op => op.symbol
  | oneTwo op => op.symbol
  | table op => op.symbol

def needed : Operator → Nat
  | float op => op.arity.1
  | integer op => op.arity.1
  | oneTwo op => op.arity.1
  | table op => op.needed

def generated : Operator → Nat
  | float op => op.arity.2
  | integer op => op.arity.2
  | oneTwo op => op.arity.2
  | table op => op.generated

def name : Operator → String
  | float op => op.name
  | integer op => op.name
  | oneTwo op => op.name
  | table op => op.symbol

def apply (dtype : Option DType) : Operator → Action Unit
  | float op => op.apply dtype
  | integer op => op.apply dtype
  | oneTwo op => op.apply
  | table op => op.apply dtype

end Operator

namespace Family

def operators : Family → List Operator
  | undefined => []
  | float => FloatOp.all.map .float
  | integer => IntegerOp.all.map .integer
  | oneTwo => OneTwoOp.all.map .oneTwo
  | table t => t.rows.map .table

def className : Family → String
  | undefined => "Evaluator"
  | float => "FloatEvaluator"
  | integer => "IntEvaluator"
  | oneTwo => "MyEvaluator"
  | table _ => "Table"

def symbolName? : Family → Option String
  | undefined => none
  | float => some "float evaluator"
  | integer => some "integer evaluator"
  | oneTwo => some "my evaluator"
  | table t => t.familyName

def accepts : Family → OperandKind → Bool
  | float, .numeric t => !t.isInteger
  | float, _ => false
  | integer, .numeric t => t.isSigned
  | integer, _ => false
  | _, _ => true

def read (family : Family) (token : String) : Except Refusal Operator :=
  match family with
  | undefined => .error (.fault .unimplemented)
  | family =>
    match family.operators.find? (·.symbol = token) with
    | some op => .ok op
    | none => .error (.token (.operator token family.symbolName?))

def lookup : Value → Except Fault Family
  | .text "float" | .fixedText "float" => .ok float
  | .text "int" | .fixedText "int" => .ok integer
  | v => match v.notKey? with
    | none => .error (.unknownFamily v.shown)
    | some name => .error (.unhashable name)

end Family
end Postfix
