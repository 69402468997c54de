import Postfix.Operand.Numeric

/-! The kinds of operands that an expression can have: a numeric type, the two values of the sample
arithmetic, or words of small letters. Only numeric kinds have a name and an element type, and only
they take in values of other kinds; the others use what a container holds as it is. -/
namespace Postfix

open Text

inductive OperandKind
  | numeric (t : NumericType)
  | oneTwo
  | letters
  deriving DecidableEq

def OneTwo.read (token : String) : Except Refusal OneTwo :=
  if token = "1" then .ok .one
  else if token = "2" then .ok .two
  else .error (.token (.neitherOneNorTwo token))

def isLetters (token : String) : Bool :=
  let cs := token.toList
  !cs.isEmpty && cs.all fun c => 'a' ≤ c && c ≤ 'z'

namespace OperandKind

def name? : OperandKind → Option String
  | numeric t => some t.name
  | _ => none

def label : OperandKind → String
  | numeric t => t.name
  | oneTwo => "<class 'examples.custom_expression.MyOperandType'>"
  | letters => "<class '__main__.WordType'>"

def dtype? : OperandKind → Option DType
  | numeric t => some t.dtype
  | _ => none

def read : OperandKind → String → Except Refusal Value
  | numeric t, token => t.read token
  | oneTwo, token => (OneTwo.read token).map .oneTwo
  | letters, token =>
    if isLetters token then .ok (.text token) else .error (.token (.unconvertible token))

def text : OperandKind → Value → String
  | numeric t, v => t.text v
  | oneTwo, .oneTwo v => v.digit
  | _, v => v.plain

def coerce : OperandKind → Value → Except Refusal Value
  | numeric t, v => t.coerce v
  | _, v => .ok v

end OperandKind
end Postfix
