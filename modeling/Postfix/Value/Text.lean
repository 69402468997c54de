import Postfix.Value.Basic
import Postfix.Decimal.Shortest
import Postfix.Text.Quoted

/-! How values are written: `shown` is the form in messages and inside lists, `plain` is the form
of a value on its own. -/
namespace Postfix

open Text Decimal

def WordType.name (t : WordType) : String :=
  (if t.signed then "int" else "uint") ++ natText t.width.bits

def Format.name : Format → String
  | .half => "float16"
  | .single => "float32"
  | .double => "float64"

def complexName : Format → String
  | .double => "complex128"
  | _ => "complex64"

def DType.name : DType → String
  | .flag => "bool"
  | .word t => t.name
  | .float f => f.name
  | .object => "object"

def DType.classLabel (t : DType) : String :=
  match t with
  | .object => "<class 'numpy.object_'>"
  | t => "<class 'numpy." ++ t.name ++ "'>"

def OneTwo.digit : OneTwo → String
  | .one => "1"
  | .two => "2"

def OneTwo.name : OneTwo → String
  | .one => "NUMBER1"
  | .two => "NUMBER2"

def boolText (b : Bool) : String := if b then "True" else "False"

/-- A decimal keeps its digits. The exponent is written out when it is positive, or when more than
five zeros would stand between the point and the digits. -/
def DecimalNumber.text : DecimalNumber → String
  | .infinite negative => if negative then "-Infinity" else "Infinity"
  | .nan negative signalling payload =>
    (if negative then "-" else "") ++ (if signalling then "sNaN" else "NaN") ++
      (match payload with | none => "" | some n => natText n)
  | .finite negative coefficient exponent =>
    let digits := natDigits coefficient
    let adjusted := digits.length - 1 + exponent
    let body :=
      if exponent ≤ 0 ∧ -6 ≤ adjusted then
        let point := digits.length + exponent
        if exponent = 0 then digits
        else if point ≤ 0 then '0' :: '.' :: (List.replicate (-point).toNat '0' ++ digits)
        else digits.take point.toNat ++ '.' :: digits.drop point.toNat
      else
        let mantissa := match digits with
          | [] => []
          | [c] => [c]
          | c :: rest => c :: '.' :: rest
        mantissa ++ 'E' :: (if adjusted < 0 then '-' else '+') :: natDigits adjusted.natAbs
    String.ofList (if negative then '-' :: body else body)

/-- The real part is left out when it is a positive zero. -/
def complexText (layout : Layout) (f : Format) (z : ComplexBinary) : String :=
  let part (x : Binary) := binaryText layout f x
  if z.re.isZero && !z.re.negative then part z.im ++ "j"
  else
    let join := if z.im.negative then "" else "+"
    "(" ++ part z.re ++ join ++ part z.im ++ "j)"

namespace Value

def scalarText : Value → String
  | none => "None"
  | bool b => boolText b
  | int n => intText n
  | real x => binaryText .byPoint .double x
  | fraction num den => if den = 1 then intText num else intText num ++ "/" ++ natText den
  | decimal d => d.text
  | complex z => complexText .part .double z
  | text s => s
  | bytes bs => quotedBytes bs
  | flag b => boolText b
  | word _ n => intText n
  | float f x => binaryText .byValue f x
  | complexFloat f z => complexText .partByValue f z
  | fixedText s => s
  | fixedBytes bs => quotedBytes bs
  | oneTwo v => "MyOperand." ++ v.name
  | _ => ""

mutual

def shown : Value → String
  | text s => quoted s
  | fraction num den => "Fraction(" ++ intText num ++ ", " ++ natText den ++ ")"
  | decimal d => "Decimal('" ++ d.text ++ "')"
  | flag b => "np." ++ boolText b ++ "_"
  | word t n => "np." ++ t.name ++ "(" ++ intText n ++ ")"
  | float f x => "np." ++ f.name ++ "(" ++ binaryText .byValue f x ++ ")"
  | complexFloat f z => "np." ++ complexName f ++ "(" ++ complexText .partByValue f z ++ ")"
  | fixedText s => "np.str_(" ++ quoted s ++ ")"
  | fixedBytes bs => "np.bytes_(" ++ quotedBytes bs ++ ")"
  | oneTwo v => "<MyOperand." ++ v.name ++ ": '" ++ v.digit ++ "'>"
  | list items => "[" ++ shownItems items ++ "]"
  | tuple [] => "()"
  | tuple [item] => "(" ++ shown item ++ ",)"
  | tuple items => "(" ++ shownItems items ++ ")"
  | mapping names items => "\x7b" ++ shownEntries names items ++ "\x7d"
  | v => v.scalarText

def shownItems : List Value → String
  | [] => ""
  | [item] => shown item
  | item :: rest => shown item ++ ", " ++ shownItems rest

def shownEntries : List String → List Value → String
  | name :: names, item :: rest =>
    quoted name ++ ": " ++ shown item ++ (if rest.isEmpty then "" else ", ") ++
      shownEntries names rest
  | _, _ => ""

end

def plain : Value → String
  | list items => shown (.list items)
  | tuple items => shown (.tuple items)
  | mapping names items => shown (.mapping names items)
  | v => v.scalarText

/-- The form of a value inside a longer text, where a machine real is written as a double. -/
def inserted : Value → String
  | float _ x => binaryText .byPoint .double (Format.double.ofBinary x)
  | v => v.plain

def sizedName (sort : String) (bits : Nat) : String :=
  if bits = 0 then sort else sort ++ natText bits

def typeName : Value → String
  | none => "NoneType"
  | bool _ => "bool"
  | int _ => "int"
  | real _ => "float"
  | fraction _ _ => "Fraction"
  | decimal _ => "Decimal"
  | complex _ => "complex"
  | text _ => "str"
  | bytes _ => "bytes"
  | list _ => "list"
  | tuple _ => "tuple"
  | mapping _ _ => "dict"
  | flag _ => "bool"
  | word t _ => t.name
  | float f _ => f.name
  | complexFloat f _ => complexName f
  | fixedText s => sizedName "str" (32 * s.length)
  | fixedBytes bs => sizedName "bytes" (8 * bs.length)
  | oneTwo _ => "MyOperand"
  | labelled => "Series"
  | gridRow => "ndarray"

def classLabel : Value → String
  | flag _ => "numpy.bool"
  | word t _ => "numpy." ++ t.name
  | float f _ => "numpy." ++ f.name
  | decimal _ => "decimal.Decimal"
  | gridRow => "numpy.ndarray"
  | v => v.typeName

def hasHugeInteger : Value → Bool
  | int n => digitBound ≤ n.natAbs
  | fraction num den => digitBound ≤ num.natAbs || digitBound ≤ den
  | list items => anyHuge items
  | tuple items => anyHuge items
  | mapping _ items => anyHuge items
  | _ => false
where
  digitBound : Nat := 10 ^ (4300 : Nat)
  anyHuge : List Value → Bool
    | [] => false
    | item :: rest => item.hasHugeInteger || anyHuge rest

end Value
end Postfix
