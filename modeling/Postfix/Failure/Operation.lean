import Postfix.Text.Digits

/-! Why an operation has no result for the operands that it meets, with the wording, and the kinds
that faults of every sort fall into. -/
namespace Postfix

open Text

inductive FaultKind
  | badValue
  | badType
  | tooLarge
  | missingAttribute
  | missingKey
  | unimplemented
  | assertion
  | zeroDivision
  | noLoop
  | decimalInvalid
  | decimalZeroDivision
  | decimalOverflow
  deriving DecidableEq

inductive OperationFault
  | /-- a plain integer beside a word of a type that does not hold it -/
    outOfBounds (n : Int) (typeName : String)
  | /-- a plain integer that no word of 64 bits holds -/
    beyondWords
  | negativeExponent
  | flagNegation
  | flagDifference
  | /-- an element type for which the operation is not defined -/
    notSupported (operation : String)
  | /-- element types that have no common one for which the operation is defined -/
    noLoop (operation operands : String)
  | textRepeat
  | /-- a plain value that does not bring a function of its own -/
    noMethod (typeName method : String)
  | /-- plain values of types that do not mix -/
    noPair (operator left right : String)
  | noOrder (relation left right : String)
  | notRealArgument (typeName : String)
  | noNegation (typeName : String)
  | noTruncation (typeName : String)
  | textSum (typeName : String)
  | bytesSum (typeName : String)
  | repeatCount (typeName : String)
  | realZeroDivision
  | complexZeroDivision
  | fractionZeroDivision (above : Int)
  | zeroNegativePower
  | powerTooLarge
  | decimalInvalid
  | decimalUndefined
  | decimalZeroDivision
  | decimalOverflow
  | nanDecimal
  | infiniteDecimal
  | /-- a function whose value is left open at the operand -/
    leftOpen (operation : String)
  deriving DecidableEq

namespace OperationFault

def kind : OperationFault → FaultKind
  | outOfBounds _ _ | beyondWords | powerTooLarge | infiniteDecimal => .tooLarge
  | negativeExponent | nanDecimal => .badValue
  | flagNegation | flagDifference | notSupported _ | textRepeat | noMethod _ _ | noPair _ _ _ |
    noOrder _ _ _ | notRealArgument _ | noNegation _ | noTruncation _ | textSum _ | bytesSum _ |
    repeatCount _ | leftOpen _ => .badType
  | noLoop _ _ => .noLoop
  | realZeroDivision | complexZeroDivision | fractionZeroDivision _ | zeroNegativePower =>
    .zeroDivision
  | decimalInvalid | decimalUndefined => .decimalInvalid
  | decimalZeroDivision => .decimalZeroDivision
  | decimalOverflow => .decimalOverflow

def signalText (signal : String) : String := "[<class 'decimal." ++ signal ++ "'>]"

def message : OperationFault → String
  | outOfBounds n typeName =>
    "Python integer " ++ intText n ++ " out of bounds for " ++ typeName
  | beyondWords => "Python int too large to convert to C long"
  | negativeExponent => "Integers to negative integer powers are not allowed."
  | flagNegation =>
    "The numpy boolean negative, the `-` operator, is not supported, use the `~` operator " ++
      "or the logical_not function instead."
  | flagDifference =>
    "numpy boolean subtract, the `-` operator, is not supported, use the bitwise_xor, " ++
      "the `^` operator, or the logical_xor function instead."
  | notSupported operation =>
    "ufunc '" ++ operation ++ "' not supported for the input types, and the inputs could not be " ++
      "safely coerced to any supported types according to the casting rule ''safe''"
  | noLoop operation operands =>
    "ufunc '" ++ operation ++ "' did not contain a loop with signature matching types " ++
      operands ++ " -> None"
  | textRepeat =>
    "The 'out' kwarg is necessary. Use numpy.strings.multiply without it."
  | noMethod typeName method =>
    "loop of ufunc does not support argument 0 of type " ++ typeName ++ " which has no callable " ++
      method ++ " method"
  | noPair operator left right =>
    "unsupported operand type(s) for " ++ operator ++ ": '" ++ left ++ "' and '" ++ right ++ "'"
  | noOrder relation left right =>
    "'" ++ relation ++ "' not supported between instances of '" ++ left ++ "' and '" ++ right ++
      "'"
  | notRealArgument typeName =>
    "float() argument must be a string or a real number, not '" ++ typeName ++ "'"
  | noNegation typeName => "bad operand type for unary -: '" ++ typeName ++ "'"
  | noTruncation typeName => "type " ++ typeName ++ " doesn't define __trunc__ method"
  | textSum typeName => "can only concatenate str (not \"" ++ typeName ++ "\") to str"
  | bytesSum typeName => "can't concat " ++ typeName ++ " to bytes"
  | repeatCount typeName => "can't multiply sequence by non-int of type '" ++ typeName ++ "'"
  | realZeroDivision => "float division by zero"
  | complexZeroDivision => "complex division by zero"
  | fractionZeroDivision above => "Fraction(" ++ intText above ++ ", 0)"
  | zeroNegativePower => "0.0 cannot be raised to a negative power"
  | powerTooLarge => "(34, 'Numerical result out of range')"
  | decimalInvalid => signalText "InvalidOperation"
  | decimalUndefined => signalText "DivisionUndefined"
  | decimalZeroDivision => signalText "DivisionByZero"
  | decimalOverflow => signalText "Overflow"
  | nanDecimal => "cannot convert NaN to integer"
  | infiniteDecimal => "cannot convert Infinity to integer"
  | leftOpen operation => "unsupported operands for " ++ operation

end OperationFault
end Postfix
