import Postfix.Decimal.Literal
import Postfix.Text.Blank
import Postfix.Text.DecimalDigit

/-! Integers as they are written outside of expressions: with blanks around, with single
underscores between digits, and with the decimal digits of any script. -/
namespace Postfix.Decimal

open Postfix.Text

/-- The ASCII character that a character stands for; one that stands for none is a question
mark, which no integer holds. -/
def asciiForm (c : Char) : Char :=
  if c.toNat < 128 then c
  else if isBlank c then ' '
  else match decimalValue? c with
    | some n => digitChar n
    | none => '?'

def isAsciiBlank (c : Char) : Bool := c = ' ' || (9 ≤ c.toNat && c.toNat ≤ 13)

structure Written where
  negative : Bool
  digits : List Char
  rest : List Char

def isGrouped : List Char → Bool
  | [] => false
  | '_' :: _ => false
  | [_] => true
  | _ :: '_' :: rest => isGrouped rest
  | _ :: rest => isGrouped rest

def Written.read? (cs : List Char) : Option Written :=
  let (negative, body) := splitSign ((cs.map asciiForm).dropWhile isAsciiBlank)
  let run := body.takeWhile fun c => isDigit c || c = '_'
  if isGrouped run then
    some ⟨negative, run.filter isDigit, (body.drop run.length).dropWhile isAsciiBlank⟩
  else none

def Written.toInt (w : Written) : Int :=
  if w.negative then -(readDigits w.digits : Int) else readDigits w.digits

end Postfix.Decimal
