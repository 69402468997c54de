import Postfix.Operator.Float
import Postfix.Operator.Integer
import Postfix.Operand.Numeric
import Postfix.Value.Column
import Postfix.Decimal.Arithmetic
import Postfix.Binary.Complex

/-! The floating point operators on plain values, of which one has no machine form. Fractions and
integers are exact, decimals mix with integers only, and beside a real or a complex number a
fraction becomes one. Every other pair is refused by the types of the two. -/
namespace Postfix

structure Ratio where
  num : Int
  den : Nat

namespace Ratio

def toValue (r : Ratio) : Value :=
  let common := Nat.gcd r.num.natAbs r.den
  .fraction (r.num / (common : Int)) (r.den / common)

def toBinary (r : Ratio) : Except Fault Binary := NumericType.quotientBinary r.num r.den

def add (r s : Ratio) : Ratio := ⟨r.num * s.den + s.num * r.den, r.den * s.den⟩

def neg (r : Ratio) : Ratio := ⟨-r.num, r.den⟩

def mul (r s : Ratio) : Ratio := ⟨r.num * s.num, r.den * s.den⟩

/-- A quotient by zero is reported with what is left of the dividend. -/
def div (r s : Ratio) : Except Fault Ratio :=
  if s.num = 0 then .error (.operation (.fractionZeroDivision r.num.sign))
  else .ok ⟨r.num * s.den * s.num.sign, r.den * s.num.natAbs⟩

def powInt (r : Ratio) (n : Int) : Except Fault Ratio :=
  let above := IntegerBinary.power r.num n.natAbs
  let below := (IntegerBinary.power r.den n.natAbs).toNat
  if 0 ≤ n then .ok ⟨above, below⟩ else div ⟨1, 1⟩ ⟨above, below⟩

end Ratio

namespace Value

def unmachined : Value → Value
  | complexFloat _ z => complex z
  | fixedText s => text s
  | fixedBytes bs => bytes bs
  | v => v.toPlain

def asRatio? : Value → Option Ratio
  | bool b => some ⟨b.toInt, 1⟩
  | int n => some ⟨n, 1⟩
  | fraction num den => some ⟨num, den⟩
  | _ => Option.none

def asDecimal? : Value → Option DecimalNumber
  | bool b => some (.ofInt b.toInt)
  | int n => some (.ofInt n)
  | decimal d => some d
  | _ => Option.none

def isWhole : Value → Bool
  | bool _ => true
  | int _ => true
  | _ => false

def isDecimal : Value → Bool
  | decimal _ => true
  | _ => false

end Value

/-! ### Plain reals and complex numbers -/

/-- A plain power: what is too large is a failure, and so is an inverse of zero. A root of a
negative number is left open. -/
def plainPower (x y : Binary) : Except Fault Value :=
  let power := Binary.pow .double x y
  match x, y with
  | .finite s m _, .finite t n e =>
    if n ≠ 0 ∧ m = 0 ∧ t then .error (.operation .zeroNegativePower)
    else if s && m ≠ 0 && !Binary.isInteger n e then .error (.operation (.leftOpen "pow"))
    else if power.isInfinite then .error (.operation .powerTooLarge)
    else .ok (.real power)
  | _, _ => .ok (.real power)

namespace FloatBinary

def onRatios (r s : Ratio) : FloatBinary → Except Fault Value
  | add => .ok (r.add s).toValue
  | sub => .ok (r.add s.neg).toValue
  | mul => .ok (r.mul s).toValue
  | div => (r.div s).map Ratio.toValue
  | rem => .error (.operation (.leftOpen "%"))
  | pow =>
    if s.den = 1 then (r.powInt s.num).map Ratio.toValue
    else do plainPower (← r.toBinary) (← s.toBinary)

def onDecimals (x y : DecimalNumber) (op : FloatBinary) : Except Fault Value :=
  let outcome := match op with
    | add => x.add y
    | sub => x.sub y
    | mul => x.mul y
    | div => x.div y
    | rem => .error (.leftOpen "%")
    | pow => x.pow y
  (outcome.map Value.decimal).mapError .operation

def onReals (x y : Binary) (op : FloatBinary) : Except Fault Value :=
  match op with
  | div =>
    if y.isZero then .error (.operation .realZeroDivision)
    else .ok (.real (Binary.div .double x y))
  | pow => plainPower x y
  | op => .ok (.real (op.eval .double x y))

def onComplex (z w : ComplexBinary) : FloatBinary → Except Fault Value
  | add => .ok (.complex (z.add .double w))
  | sub => .ok (.complex (z.sub .double w))
  | mul => .ok (.complex (z.mul .double w))
  | div => match z.quotient? .double w with
    | some q => .ok (.complex q)
    | none => .error (.operation .complexZeroDivision)
  | op => .error (.operation (.leftOpen op.sign))

def refuse (op : FloatBinary) (left right : Value) : Fault :=
  .operation <| match op, left, right with
    | add, .text _, v => .textSum v.classLabel
    | add, .bytes _, v => .bytesSum v.classLabel
    | mul, .text _, v => .repeatCount v.classLabel
    | mul, .bytes _, v => .repeatCount v.classLabel
    | mul, v, .text _ => .repeatCount v.classLabel
    | mul, v, .bytes _ => .repeatCount v.classLabel
    | op, v, w => .noPair op.sign v.classLabel w.classLabel

/-- A fraction beside a value that is no quotient of integers: a base becomes a real, and so does an
exponent that is not whole. -/
def powerPlain (left right : Value) : Except Fault Value := do
  let left ← match left with
    | .fraction num den => (NumericType.quotientBinary num den).map Value.real
    | v => .ok v
  let right ← match right with
    | .fraction num den =>
      if den = 1 then .ok (.int num) else (NumericType.quotientBinary num den).map Value.real
    | v => .ok v
  match left, right with
  | .real x, .real y => plainPower x y
  | .real x, .int n => plainPower x (← NumericType.integerBinary n)
  | .decimal x, .int n => pow.onDecimals x (.ofInt n)
  | .complex _, .real _ => .error (.operation (.leftOpen pow.sign))
  | .complex _, .int _ => .error (.operation (.leftOpen pow.sign))
  | .real _, .complex _ => .error (.operation (.leftOpen pow.sign))
  | v, w => .error (pow.refuse v w)

def isMixedPower (op : FloatBinary) (left right : Value) : Bool :=
  let isFraction (v : Value) : Bool := match v with
    | .fraction _ _ => true
    | _ => false
  op = pow && (isFraction left && right.asRatio?.isNone || isFraction right && left.asRatio?.isNone)

def onPlain (op : FloatBinary) (left right : Value) : Except Fault Value :=
  if op = rem then .error (.noAttribute left.classLabel "fmod")
  else if op.isMixedPower left right then powerPlain left right
  else if left.isDecimal || right.isDecimal then
    match left.asDecimal?, right.asDecimal? with
    | some x, some y => op.onDecimals x y
    | _, _ => .error (op.refuse left right)
  else match left.asRatio?, right.asRatio? with
    | some r, some s =>
      if op = pow && left.isWhole && s.den = 1 && 0 ≤ s.num then
        .ok (.int (IntegerBinary.power r.num s.num.toNat))
      else op.onRatios r s
    | some r, none => match right with
      | .real y => do op.onReals (← r.toBinary) y
      | .complex w => do op.onComplex (.ofBinary .double (← r.toBinary)) w
      | v => .error (op.refuse left v)
    | none, some s => match left with
      | .real x => do op.onReals x (← s.toBinary)
      | .complex z => do op.onComplex z (.ofBinary .double (← s.toBinary))
      | v => .error (op.refuse v right)
    | none, none => .error (op.refuse left right)

end FloatBinary

/-- A function of a plain value without a machine form. Only a decimal brings a root and an
exponential of its own. The rounding asks for a sign, which none of them has. -/
def FloatUnary.onPlain (op : FloatUnary) (v : Value) : Except Fault Value :=
  let decimal (outcome : DecimalNumber.Outcome) : Except Fault Value :=
    (outcome.map Value.decimal).mapError .operation
  match op, v with
  | neg, .int n => .ok (.int (-n))
  | neg, .fraction num den => .ok (.fraction (-num) den)
  | neg, .decimal d => decimal d.neg
  | neg, v => .error (.operation (.noNegation v.classLabel))
  | sqrt, .decimal d => decimal d.sqrt
  | exp, .decimal d => decimal d.exp
  | round, .fraction _ _ => .error (.operation (.notSupported "copysign"))
  | round, .decimal (.finite _ _ _) => .error (.operation (.notSupported "copysign"))
  | round, .decimal (.infinite _) => .error (.operation .infiniteDecimal)
  | round, .decimal (.nan _ _ _) => .error (.operation .nanDecimal)
  | round, v => .error (.operation (.noTruncation v.classLabel))
  | op, v => .error (.operation (.noMethod v.classLabel op.functionName))

end Postfix
