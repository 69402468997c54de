import Postfix.Operator.Action
import Postfix.Operator.Promotion
import Postfix.Operator.Float.Plain

/-! What the floating point operators do to the stack. Operands of one format give a result of that
format and never fail. A bare stack can hold other values too: the operation then runs in the type
that takes in both operands. Words wrap around and truth values add and multiply as such. -/
namespace Postfix

namespace FloatBinary

/-- The type that an operation runs in for operands of a common type. Quotients of integers are
doubles, and truth values are small words where they are no operands. -/
def runsIn : FloatBinary → MachineType → MachineType
  | div, .flag => .float .double
  | div, .word _ => .float .double
  | rem, .flag => .word .int8
  | pow, .flag => .word .int8
  | _, t => t

def onFlags (a b : Bool) : FloatBinary → Except Fault Value
  | add => .ok (.flag (a || b))
  | mul => .ok (.flag (a && b))
  | _ => .error (.operation .flagDifference)

/-- Words wrap around, and a remainder by zero is zero. -/
def onWords (t : WordType) (left right : Int) : FloatBinary → Except Fault Value
  | add => .ok (.word t (t.wrap (left + right)))
  | sub => .ok (.word t (t.wrap (left - right)))
  | mul => .ok (.word t (t.wrap (left * right)))
  | rem => .ok (.word t (if right = 0 then 0 else Int.tmod left right))
  | pow =>
    if right < 0 then .error (.operation .negativeExponent)
    else .ok (.word t (t.power left right.toNat))
  | div => .error (.operation (.leftOpen "/"))

def onComplexFloats (f : Format) (z w : ComplexBinary) : FloatBinary → Except Fault Value
  | add => .ok (.complexFloat f (z.add f w))
  | sub => .ok (.complexFloat f (z.sub f w))
  | mul => .ok (.complexFloat f (z.mul f w))
  | div => .ok (.complexFloat f (z.div f w))
  | rem => .error (.operation (.notSupported "fmod"))
  | pow => match z.pow? f w with
    | some power => .ok (.complexFloat f power)
    | none => .error (.operation (.leftOpen "pow"))

def onMachine (op : FloatBinary) (left right : Value) : MachineType → Except Fault Value
  | .flag => op.onFlags left.toBool right.toBool
  | .word t => do op.onWords t (← left.asWord t) (← right.asWord t)
  | .float f => return .float f (op.eval f (← left.asBinary f) (← right.asBinary f))
  | .complex f => do op.onComplexFloats f (← left.asComplex f) (← right.asComplex f)

/-- What messages call the element type of an operand. A text has at least one character then, and
a plain number has the type that it has on its own. -/
def elementLabel (v : Value) : String :=
  let named (name : String) : String := "dtype('" ++ name ++ "')"
  match v with
  | .bool _ => named "bool"
  | .flag _ => named "bool"
  | .word t _ => named t.name
  | .float f _ => named f.name
  | .complexFloat f _ => named (complexName f)
  | .int n => named (if WordType.int64.holds n then "int64"
      else if WordType.uint64.holds n then "uint64" else "O")
  | .real _ => named "float64"
  | .complex _ => named "complex128"
  | .bytes bs => named ("S" ++ Text.natText (max bs.length 1))
  | .fixedBytes bs => named ("S" ++ Text.natText (max bs.length 1))
  | v => named ("<U" ++ Text.natText (max v.characters.length 1))

/-- Sums, differences and products are not found for the two types; other operations have no types
that the operands could be brought into. -/
def noLoop (op : FloatBinary) (left right : Value) : Fault :=
  let pair := "(" ++ elementLabel left ++ ", " ++ elementLabel right ++ ")"
  .operation <| match op with
    | add => .noLoop op.functionName pair
    | sub => .noLoop op.functionName pair
    | mul => .noLoop op.functionName pair
    | op => .notSupported op.functionName

def isInteger : Value → Bool
  | .int _ => true
  | .word _ _ => true
  | _ => false

def beside (op : FloatBinary) (left right : Value) : Fault :=
  if op = mul && (isInteger left || isInteger right) then .operation .textRepeat
  else op.noLoop left right

def combine (op : FloatBinary) (left right : Value) : Except Fault Value :=
  match left.operandSort.common? right.operandSort with
  | some (.machine t) => op.onMachine left right (op.runsIn t)
  | some (.plain _) => .error (.operation (.leftOpen op.sign))
  | some .text =>
    if op = add then .ok (.fixedText (String.ofList (left.characters ++ right.characters)))
    else .error (op.noLoop left right)
  | some .bytes =>
    if op = add then .ok (.fixedBytes (left.octets ++ right.octets))
    else .error (op.noLoop left right)
  | some .object => op.onPlain left.unmachined right.unmachined
  | some .several => .ok .gridRow
  | none => .error (op.beside left right)

end FloatBinary

namespace FloatUnary

/-- The negative of a word wraps around. Its rounding goes through the doubles, whose integers wrap
around too. Any other function of a word is found in the least format that holds every word of its
width. -/
def onWord (t : WordType) (n : Int) (op : FloatUnary) : Value :=
  let f := t.width.format
  match op with
  | neg => .word t (t.wrap (-n))
  | round => .word t (t.wrap (Value.wholePart (Format.double.ofInt n)))
  | op => .float f (op.eval f (f.ofInt n))

def onFlag (b : Bool) : FloatUnary → Except Fault Value
  | neg => .error (.operation .flagNegation)
  | round => .error (.operation .flagDifference)
  | op => .ok (.float .half (op.eval .half (Format.half.ofInt b.toInt)))

/-- A plain integer is a word of 64 bits if one holds it, except that its rounding stays plain. -/
def onInteger (n : Int) (op : FloatUnary) : Except Fault Value :=
  if op = round then
    (NumericType.integerBinary n).map fun x => .int (Value.wholePart x)
  else if WordType.int64.holds n then .ok (op.onWord .int64 n)
  else if WordType.uint64.holds n then .ok (op.onWord .uint64 n)
  else op.onPlain (.int n)

def onComplex (f : Format) (z : ComplexBinary) (op : FloatUnary) : Except Fault Value :=
  let result (w? : Option ComplexBinary) : Except Fault Value := match w? with
    | some w => .ok (.complexFloat f w)
    | none => .error (.operation (.leftOpen op.functionName))
  match op with
  | neg => .ok (.complexFloat f z.neg)
  | sqrt => .ok (.complexFloat f (z.sqrt f))
  | exp => result (z.exp? f)
  | log2 => result (z.log2? f)
  | round => .error (.operation (.notSupported "trunc"))

/-- A text has no negative, and no type that another function could be found in. -/
def onText (label : String) (op : FloatUnary) : Fault :=
  .operation <| match op with
    | neg => .noLoop "negative" label
    | op => .notSupported op.functionName

def transform (op : FloatUnary) : Value → Except Fault Value
  | .float f x => .ok (.float f (op.eval f x))
  | .real x =>
    if op = round then .ok (.real (op.eval .double x)) else .ok (.float .double (op.eval .double x))
  | .word t n => .ok (op.onWord t n)
  | .int n => op.onInteger n
  | .bool b => op.onFlag b
  | .flag b => op.onFlag b
  | .complex z => op.onComplex .double z
  | .complexFloat f z => op.onComplex f z
  | .text _ => .error (op.onText "<class 'numpy.dtypes.StrDType'>")
  | .fixedText _ => .error (op.onText "<class 'numpy.dtypes.StrDType'>")
  | .bytes _ => .error (op.onText "<class 'numpy.dtypes.BytesDType'>")
  | .fixedBytes _ => .error (op.onText "<class 'numpy.dtypes.BytesDType'>")
  | .list _ => .ok .gridRow
  | .tuple _ => .ok .gridRow
  | .labelled => .ok .gridRow
  | .gridRow => .ok .gridRow
  | v => op.onPlain v

end FloatUnary

namespace FloatOp

def applyBinary (op : FloatBinary) : Action Unit := do
  let (left, right) ← Action.popTwo
  Action.push (← Action.ofFault (op.combine left right))

def applyUnary (op : FloatUnary) : Action Unit := do
  Action.push (← Action.ofFault (op.transform (← Action.pop)))

def constant (dtype : Option DType) (n : Nat) : Value := (dtype.getD (.float .double)).ofNat n

def apply (dtype : Option DType) : FloatOp → Action Unit
  | binary op => applyBinary op
  | unary op => applyUnary op
  | swap => Action.swap
  | zero => Action.push (constant dtype 0)
  | one => Action.push (constant dtype 1)

end FloatOp
end Postfix
