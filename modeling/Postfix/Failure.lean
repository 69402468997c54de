import Postfix.Value.Text
import Postfix.Failure.Operation

/-! Causes of failure and their wording.
A token fault says why one token cannot be read in one role. A fault is a limit or a misuse that no
caller of the engine is promised to handle. A failure is what building or evaluating an expression
ends with: a cause of its own, or one of the two others. -/
namespace Postfix

open Text

inductive TokenFault
  | unconvertible (token : String)
  | neitherOneNorTwo (token : String)
  | operator (token : String) (family : Option String)
  | operand (token typeName reason : String)
  | sigil (token sigil : String)
  | index (token reason : String)
  | noVariables (token : String)
  deriving DecidableEq

/-! The wording is shared with failures that are made from their parts. -/
namespace Wording

def unconvertible (token : String) : String := "cannot convert token " ++ token

def operator (token family : String) : String :=
  token ++ " is not a valid " ++ family ++ " symbol"

def operand (token typeName : String) (reason : Option String) : String :=
  token ++ " is not a valid " ++ typeName ++
    (match reason with | none => "" | some r => " (" ++ r ++ ")")

def sigil (token sign : String) : String :=
  token ++ " does not start with variable sigil " ++ sign

def index (token reason : String) : String :=
  "invalid variable index in " ++ token ++ ": " ++ reason

def noVariables (token : String) : String :=
  token ++ ": this expression does not accept variables"

def unclassified (token operator var operand : String) : String :=
  "invalid token " ++ token ++ ": evaluator: " ++ operator ++ "; variable: " ++ var ++
    "; operand: " ++ operand

def incompatible (family operand : String) : String :=
  family ++ " cannot evaluate " ++ operand ++ " operands"

def noResult : String := "not enough operands: expression leaves no result"

def notEnough (token position : String) : String :=
  "not enough operands for " ++ token ++ " at position " ++ position

def tooMany (remaining : String) : String :=
  "too many operands: " ++ remaining ++ " values left on the stack, expected 1"

def operands (description : String) (shown : List String) : String :=
  description ++ ": " ++ ", ".intercalate shown

def notFound (var : String) : String := "variable " ++ var ++ " not found in container"

def unfit (var value typeName : String) : String :=
  "variable " ++ var ++ " holds " ++ value ++ ", not convertible to " ++ typeName

end Wording

def TokenFault.message : TokenFault → String
  | unconvertible token => Wording.unconvertible (quoted token)
  | neitherOneNorTwo token => quoted token ++ " is neither '1' nor '2'"
  | operator token family => Wording.operator (quoted token) (family.getD "evaluator")
  | operand token typeName reason => Wording.operand (quoted token) typeName (some reason)
  | sigil token sign => Wording.sigil (quoted token) (quoted sign)
  | index token reason => Wording.index (quoted token) reason
  | noVariables token => Wording.noVariables (quoted token)

inductive Fault
  | digitLimit (digits : Nat)
  | shownDigitLimit
  | unreadable (literal : String)
  | realTooLarge
  | quotientTooLarge
  | outOfRange (n : Int) (typeName : String)
  | booleanOperand (shown typeName : String)
  | notInteger (shown : String)
  | notReal (shown : String)
  | notWhole (shown : String)
  | notConvertible (typeName : String)
  | nanInteger
  | infiniteInteger
  | noIntegerType (kind : Char)
  | noAttribute (typeName member : String)
  | operation (e : OperationFault)
  | unhashable (typeName : String)
  | unsupportedContainer (typeName : String)
  | unsupportedOperand (shown : String)
  | noOperandType (family : String)
  | unknownType (name : String)
  | notInexact (classLabel : String)
  | unsupportedData (typeName : String)
  | wrongLength (values labels : Nat)
  | repeatedLabels
  | unknownFamily (shown : String)
  | emptyCache
  | unknownRole (shown : String)
  | immutable (what : String)
  | notANumber
  | unimplemented
  | badSetting (message : String)
  deriving DecidableEq

namespace Fault

def kind : Fault → FaultKind
  | digitLimit _ | shownDigitLimit | unreadable _ | outOfRange _ _ | notWhole _ |
    nanInteger | noIntegerType _ | wrongLength _ _ | repeatedLabels | unknownRole _ |
    notInexact _ =>
    .badValue
  | realTooLarge | quotientTooLarge | infiniteInteger => .tooLarge
  | booleanOperand _ _ | notInteger _ | notReal _ | notConvertible _ |
    unhashable _ | unsupportedContainer _ | unsupportedData _ | notANumber | unknownType _ =>
    .badType
  | noAttribute _ _ | immutable _ => .missingAttribute
  | unsupportedOperand _ | noOperandType _ | unknownFamily _ | emptyCache => .missingKey
  | unimplemented => .unimplemented
  | badSetting _ => .assertion
  | operation e => e.kind

def operandNames : String := "int8, int16, int32, int64, float32, float64"

def message : Fault → String
  | digitLimit digits =>
    "Exceeds the limit (4300 digits) for integer string conversion: value has " ++ natText digits ++
      " digits; use sys.set_int_max_str_digits() to increase the limit"
  | shownDigitLimit =>
    "Exceeds the limit (4300 digits) for integer string conversion; " ++
      "use sys.set_int_max_str_digits() to increase the limit"
  | unreadable literal => "could not convert string to float: " ++ quoted literal
  | realTooLarge => "int too large to convert to float"
  | quotientTooLarge => "integer division result too large for a float"
  | outOfRange n typeName => intText n ++ " out of range for " ++ typeName
  | booleanOperand shown typeName => "boolean " ++ shown ++ " is not a " ++ typeName
  | notInteger shown => shown ++ " is not an integer"
  | notReal shown => shown ++ " is not a real number"
  | notWhole literal => "invalid literal for int() with base 10: " ++ literal
  | notConvertible typeName =>
    "int() argument must be a string, a bytes-like object or a real number, not '" ++ typeName ++
      "'"
  | nanInteger => "cannot convert float NaN to integer"
  | infiniteInteger => "cannot convert float infinity to integer"
  | noIntegerType kind => "Invalid integer data type '" ++ kind.toString ++ "'."
  | noAttribute typeName member =>
    "'" ++ typeName ++ "' object has no attribute '" ++ member ++ "'"
  | operation e => e.message
  | unhashable typeName => "unhashable type: '" ++ typeName ++ "'"
  | unsupportedContainer typeName => "Unsupported variable container: " ++ typeName
  | unsupportedOperand shown =>
    "Unsupported operand type: " ++ shown ++ "; available: " ++ operandNames
  | noOperandType family => family
  | unknownType name => "data type " ++ quoted name ++ " not understood"
  | notInexact classLabel => "data type " ++ classLabel ++ " not inexact"
  | unsupportedData typeName => "Unsupported data type: " ++ typeName
  | wrongLength values labels =>
    "Length of values (" ++ natText values ++ ") does not match length of index (" ++
      natText labels ++ ")"
  | repeatedLabels => "cannot reindex on an axis with duplicate labels"
  | unknownFamily shown => "Unknown evaluator family: " ++ shown ++ "; available: float, int"
  | emptyCache => "dictionary is empty"
  | unknownRole shown => shown ++ " is not a valid TokenType"
  | immutable what => what ++ " is immutable"
  | notANumber => "__int__ returned non-int (type str)"
  | unimplemented => ""
  | badSetting message => message

end Fault

inductive Refusal
  | token (e : TokenFault)
  | fault (f : Fault)
  deriving DecidableEq

def Refusal.message : Refusal → String
  | token e => e.message
  | fault f => f.message

inductive ArithmeticFault
  | addOverflow
  | subUnderflow
  | mulOverflow
  | invalidDiv
  | invalidRem
  | negOverflow
  | powOverflow
  | invalidExponent
  deriving DecidableEq

def ArithmeticFault.description : ArithmeticFault → String
  | addOverflow => "addition overflow"
  | subUnderflow => "subtraction underflow"
  | mulOverflow => "multiplication overflow"
  | invalidDiv => "invalid division"
  | invalidRem => "invalid remainder"
  | negOverflow => "negation overflow"
  | powOverflow => "power overflow"
  | invalidExponent => "exponent is not a non-negative integer"

inductive Underflow
  | pop
  | peek
  | noResult (expression : String)
  deriving DecidableEq

def Underflow.message : Underflow → String
  | pop => "pop from an empty stack"
  | peek => "peek on an empty stack"
  | noResult expression => "no result left after evaluating " ++ expression

inductive Failure
  | token (e : TokenFault)
  | fault (f : Fault)
  | unclassified (token : String) (operator var operand : TokenFault)
  | incompatible (family operand : String)
  | notEnough (position : Nat) (token : String)
  | noResult
  | tooMany (remaining : Nat)
  | arithmetic (e : ArithmeticFault) (operands : List Int)
  | cannotAdd (left right : OneTwo)
  | cannotSubtract (left right : OneTwo)
  | notFound (var : String)
  | unfit (var : String) (value : Value) (typeName : String) (cause : Refusal)
  | underflow (u : Underflow)

def Refusal.toFailure : Refusal → Failure
  | token e => .token e
  | fault f => .fault f

namespace Failure

def message : Failure → String
  | token e => e.message
  | fault f => f.message
  | unclassified raw operator var operand =>
    Wording.unclassified (quoted raw) operator.message var.message operand.message
  | incompatible family operand => Wording.incompatible family operand
  | notEnough position raw => Wording.notEnough raw (natText position)
  | noResult => Wording.noResult
  | tooMany remaining => Wording.tooMany (natText remaining)
  | arithmetic e operands => Wording.operands e.description (operands.map intText)
  | cannotAdd left right => "cannot add " ++ left.digit ++ " and " ++ right.digit
  | cannotSubtract left right => "cannot subtract " ++ right.digit ++ " from " ++ left.digit
  | notFound var => Wording.notFound var
  | unfit var value typeName _ => Wording.unfit var value.shown typeName
  | underflow u => u.message

/-- The failures that an evaluation is documented to end with. -/
def isEvaluation : Failure → Bool
  | arithmetic _ _ | cannotAdd _ _ | cannotSubtract _ _ | notFound _ | unfit _ _ _ _ => true
  | _ => false

/-- The failures that building an expression is documented to end with. -/
def isConstruction : Failure → Bool
  | unclassified _ _ _ _ | incompatible _ _ | notEnough _ _ | noResult | tooMany _ => true
  | _ => false

def isDocumented : Failure → Bool
  | token _ => true
  | e => e.isConstruction || e.isEvaluation

end Failure
end Postfix
