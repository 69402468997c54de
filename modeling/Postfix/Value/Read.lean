import Postfix.Value.Text
import Postfix.Decimal.Literal

/-! Plain and machine numbers read from their written forms. -/
namespace Postfix.Value

open Decimal

def readReal (cs : List Char) : Option Binary := (readLiteral cs).bind Literal.toDouble

def integer? (s : String) : Option Int :=
  if isInteger s.toList then some (integerOf s.toList) else Option.none

def real? (s : String) : Option Value := (readReal s.toList).map real

def quotient? (num : Int) (den : Nat) : Option Value :=
  let common := Nat.gcd num.natAbs den
  if den = 0 then Option.none else some (fraction (num / (common : Int)) (den / common))

def fraction? (s : String) : Option Value :=
  let cs := s.toList
  match cs.dropWhile (· ≠ '/') with
  | _ :: below =>
    let above := cs.takeWhile (· ≠ '/')
    if isInteger above && isInteger below && below.all Text.isDigit then
      quotient? (integerOf above) (Text.readDigits below)
    else Option.none
  | [] =>
    let (negative, body) := splitSign cs
    (readNumeral body).bind fun n =>
      let digits := Text.readDigits (n.whole ++ n.fraction)
      let exponent := n.exponent - n.fraction.length
      quotient? (Binary.signed negative (digits * 10 ^ exponent.toNat)) (10 ^ (-exponent).toNat)

def decimal? (s : String) : Option Value :=
  let (negative, body) := splitSign s.toList
  match readNumeral body with
  | some n => some (decimal (.finite negative (Text.readDigits (n.whole ++ n.fraction))
      (n.exponent - n.fraction.length)))
  | Option.none =>
    let (signalling, folded) := match body.map foldCase with
      | 's' :: rest => (true, rest)
      | rest => (false, rest)
    match folded with
    | 'n' :: 'a' :: 'n' :: payload =>
      if payload.all Text.isDigit then
        some (decimal (.nan negative signalling
          (if payload.isEmpty then Option.none else some (Text.readDigits payload))))
      else Option.none
    | spelled => (readWord spelled).map fun _ => decimal (.infinite negative)

/-- Where the imaginary part begins: at the last sign that is neither in front nor in an
exponent. -/
def imaginaryStart (cs : List Char) : Nat :=
  let isStart (i : Nat) : Bool :=
    0 < i && (cs[i]? = some '+' || cs[i]? = some '-') &&
      cs[i - 1]? != some 'e' && cs[i - 1]? != some 'E'
  ((List.range cs.length).reverse.find? isStart).getD 0

def unbracketed (cs : List Char) : List Char :=
  match cs with
  | '(' :: rest => if rest.getLast? = some ')' then rest.dropLast else cs
  | _ => cs

def complex? (s : String) : Option Value :=
  let cs := unbracketed s.toList
  match cs.getLast? with
  | some 'j' =>
    let body := cs.dropLast
    let re := body.take (imaginaryStart body)
    let im := body.drop (imaginaryStart body)
    let whole := if re.isEmpty then some (Format.double.zero false) else readReal re
    let part := match im with
      | [] => some (Format.double.ofInt 1)
      | ['+'] => some (Format.double.ofInt 1)
      | ['-'] => some (Format.double.ofInt (-1))
      | _ => readReal im
    whole.bind fun x => part.map fun y => complex ⟨x, y⟩
  | _ => (readReal cs).map fun x => complex ⟨x, Format.double.zero false⟩

end Value

def DType.read? (t : DType) (s : String) : Option Value :=
  match t with
  | .word w => (Value.integer? s).map (.word w)
  | .float f => (Value.readReal s.toList).map fun x => .float f (f.ofBinary x)
  | _ => none

end Postfix
