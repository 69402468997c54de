import Postfix.Failure

/-! Kinds of failure, with the more general kind that each belongs to. The names are printed. -/
namespace Postfix

inductive FailureKind
  | expression
  | conversion
  | operatorToken
  | operandToken
  | variableSigil
  | variableIndex
  | noVariables
  | classification
  | incompatible
  | arity
  | notEnough
  | tooMany
  | evaluation
  | operands
  | integer
  | arithmetic (e : ArithmeticFault)
  | cannotAdd
  | cannotSubtract
  | notFound
  | unfit
  | underflow
  deriving DecidableEq

def ArithmeticFault.all : List ArithmeticFault :=
  [.addOverflow, .subUnderflow, .mulOverflow, .invalidDiv, .invalidRem, .negOverflow, .powOverflow,
    .invalidExponent]

def ArithmeticFault.kindName : ArithmeticFault → String
  | addOverflow => "AddOverflow"
  | subUnderflow => "SubUnderflow"
  | mulOverflow => "MulOverflow"
  | invalidDiv => "InvalidDiv"
  | invalidRem => "InvalidRem"
  | negOverflow => "NegOverflow"
  | powOverflow => "PowOverflow"
  | invalidExponent => "InvalidExponent"

namespace FailureKind

def name : FailureKind → String
  | expression => "ExpressionError"
  | conversion => "ConversionError"
  | operatorToken => "InvalidEvaluatorToken"
  | operandToken => "InvalidOperandToken"
  | variableSigil => "InvalidVariableName"
  | variableIndex => "VariableIndexError"
  | noVariables => "NoVariablesError"
  | classification => "ClassificationError"
  | incompatible => "IncompatibleOperandType"
  | arity => "ArityError"
  | notEnough => "NotEnoughOperands"
  | tooMany => "TooManyOperands"
  | evaluation => "EvaluationError"
  | operands => "OperandsError"
  | integer => "IntEvaluateError"
  | arithmetic e => e.kindName
  | cannotAdd => "CannotAddOperands"
  | cannotSubtract => "CannotSubOperands"
  | notFound => "VariableNotFound"
  | unfit => "VariableTypeError"
  | underflow => "StackUnderflowError"

def all : List FailureKind :=
  [expression, conversion, operatorToken, operandToken, variableSigil, variableIndex, noVariables,
    classification, incompatible, arity, notEnough, tooMany, evaluation, operands, integer] ++
    ArithmeticFault.all.map arithmetic ++ [cannotAdd, cannotSubtract, notFound, unfit, underflow]

def named? (name : String) : Option FailureKind := all.find? (·.name = name)

def ancestors : FailureKind → List FailureKind
  | expression | underflow => []
  | conversion | classification | incompatible | arity | evaluation => [expression]
  | operatorToken | operandToken | variableSigil | variableIndex | noVariables =>
    [conversion, expression]
  | notEnough | tooMany => [arity, expression]
  | operands | cannotAdd | cannotSubtract | notFound | unfit => [evaluation, expression]
  | integer => [operands, evaluation, expression]
  | arithmetic _ => [integer, operands, evaluation, expression]

def isA (kind general : FailureKind) : Bool := kind = general || kind.ancestors.contains general

end FailureKind

def TokenFault.failureKind : TokenFault → FailureKind
  | unconvertible _ | neitherOneNorTwo _ => .conversion
  | operator _ _ => .operatorToken
  | operand _ _ _ => .operandToken
  | sigil _ _ => .variableSigil
  | index _ _ => .variableIndex
  | noVariables _ => .noVariables

def Failure.kind? : Failure → Option FailureKind
  | token e => some e.failureKind
  | fault _ => none
  | unclassified _ _ _ _ => some .classification
  | incompatible _ _ => some .incompatible
  | notEnough _ _ | noResult => some .notEnough
  | tooMany _ => some .tooMany
  | arithmetic e _ => some (.arithmetic e)
  | cannotAdd _ _ => some .cannotAdd
  | cannotSubtract _ _ => some .cannotSubtract
  | notFound _ => some .notFound
  | unfit _ _ _ _ => some .unfit
  | underflow _ => some .underflow

end Postfix
