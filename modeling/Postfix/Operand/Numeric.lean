import Postfix.Failure
import Postfix.Value.ElementName
import Postfix.Decimal.Integer

/-! Numeric operand types: reading literals, writing values, and taking in values of other kinds.
Six of them are registered under names. A value is taken in only if it is, or is written as, a
number of the type: integers exactly or not at all, reals rounded to the format. -/
namespace Postfix

open Text Decimal

inductive NumericType
  | word (t : WordType)
  | float (f : Format)
  deriving DecidableEq

namespace NumericType

def signed (w : Width) : NumericType := .word ⟨true, w⟩

def int8 : NumericType := signed .w8
def int16 : NumericType := signed .w16
def int32 : NumericType := signed .w32
def int64 : NumericType := signed .w64
def float32 : NumericType := .float .single
def float64 : NumericType := .float .double

def registered : List NumericType := [int8, int16, int32, int64, float32, float64]

def dtype : NumericType → DType
  | .word t => .word t
  | .float f => .float f

def name (t : NumericType) : String := t.dtype.name

def isInteger : NumericType → Bool
  | .word _ => true
  | .float _ => false

def isSigned : NumericType → Bool
  | .word t => t.signed
  | .float _ => false

def ofDType? : DType → Option NumericType
  | .word t => some (.word t)
  | .float f => some (.float f)
  | _ => none

def ofName (name : String) : Except Fault NumericType :=
  match DType.named? name with
  | none => .error (.unknownType name)
  | some t => match ofDType? t with
    | some t => .ok t
    | none => .error (.notInexact t.classLabel)

def registered? (t : DType) : Option NumericType :=
  (ofDType? t).filter registered.contains

def named? (name : String) : Option NumericType := (DType.named? name).bind registered?

def elementType? : Value → Option DType
  | .flag _ => some .flag
  | .word t _ => some (.word t)
  | .float f _ => some (.float f)
  | _ => none

def asciiText? (bytes : List UInt8) : Option String :=
  if bytes.all (· < 128) then some (String.ofList (bytes.map fun b => Char.ofNat b.toNat)) else none

/-- The registered type that a value names. No value at all names the widest reals, and a machine
scalar names its own type. -/
def lookup (v : Value) : Except Fault NumericType :=
  let found := match v with
    | .none => some float64
    | .text s | .fixedText s => named? s
    | .bytes bs => (asciiText? bs).bind named?
    | v => (elementType? v).bind registered?
  match found with
  | some t => .ok t
  | none => .error (.unsupportedOperand v.shown)

/-! ### Literals -/

def readWord (t : WordType) (token : String) : Except Refusal Value :=
  let cs := dropFinalNewline token.toList
  let digits := (splitSign cs).2.length
  if !Decimal.isInteger cs then .error (.token (.operand token t.name "not an integer literal"))
  else if digitLimit < digits then .error (.fault (.digitLimit digits))
  else if t.holds (integerOf cs) then .ok (.word t (integerOf cs))
  else .error (.token (.operand token t.name "out of range"))

def readFloat (f : Format) (token : String) : Except Refusal Value :=
  match readLiteral (dropFinalNewline token.toList) with
  | none => .error (.token (.operand token f.name "not a float literal"))
  | some literal => match literal.toBinary f with
    | some x => .ok (.float f x)
    | none => .error (.fault (.unreadable token))

def read : NumericType → String → Except Refusal Value
  | .word t => readWord t
  | .float f => readFloat f

/-! ### Values of other kinds -/

def owns : NumericType → Value → Bool
  | .word t, .word u _ => t = u
  | .float f, .float g _ => f = g
  | _, _ => false

def wholeBinary : Binary → Option Int
  | .finite s m e =>
    if m * 2 ^ e.toNat % 2 ^ (-e).toNat = 0 then
      some (Binary.signed s (m * 2 ^ e.toNat / 2 ^ (-e).toNat))
    else none
  | _ => none

def quotientBinary (num : Int) (den : Nat) : Except Fault Binary :=
  let x := Format.double.round (num < 0) num.natAbs den
  if x.isInfinite then .error .quotientTooLarge else .ok x

def integerBinary (n : Int) : Except Fault Binary :=
  let x := Format.double.ofInt n
  if x.isInfinite then .error .realTooLarge else .ok x

/-- The integer that a real number stands for. A fraction counts as an integer when its nearest
double is one, and then its own fractional part is dropped. -/
def wholeNumber : Value → Except Fault (Option Int)
  | .int n => .ok (some n)
  | .word _ n => .ok (some n)
  | .real x => .ok (wholeBinary x)
  | .float _ x => .ok (wholeBinary x)
  | .fraction num den => do
    let x ← quotientBinary num den
    return (wholeBinary x).map fun _ => Int.tdiv num den
  | _ => .ok none

def coerceWord (t : WordType) (v : Value) : Except Fault Value := do
  match ← wholeNumber v with
  | none => .error (if v.hasHugeInteger then .shownDigitLimit else .notInteger v.shown)
  | some n =>
    if t.holds n then .ok (.word t n)
    else .error (if 10 ^ digitLimit ≤ n.natAbs then .shownDigitLimit else .outOfRange n t.name)

/-- Plain numbers go through the widest format; machine scalars are rounded once. -/
def coerceFloat (f : Format) (v : Value) : Except Fault Value :=
  match v with
  | .int n => return .float f (f.ofBinary (← integerBinary n))
  | .fraction num den => return .float f (f.ofBinary (← quotientBinary num den))
  | .real x => return .float f (f.ofBinary x)
  | .float _ x => return .float f (f.ofBinary x)
  | .word _ n => return .float f (f.ofInt n)
  | _ => .error (if v.hasHugeInteger then .shownDigitLimit else .notReal v.shown)

/-- A value taken in as an operand. Booleans are no numbers, and texts of both sorts are read as
literals. -/
def coerce (t : NumericType) (v : Value) : Except Refusal Value :=
  if t.owns v then .ok v
  else match v with
    | .bool _ => .error (.fault (.booleanOperand v.shown t.name))
    | .flag _ => .error (.fault (.booleanOperand v.shown t.name))
    | .text s | .fixedText s => t.read s
    | _ => (match t with | .word w => coerceWord w v | .float f => coerceFloat f v).mapError .fault

/-! ### Values written -/

def text : NumericType → Value → String
  | .word _, .word _ n => intText n
  | .float f, .float _ x => binaryText .plain f (f.ofBinary x)
  | _, v => v.plain

def shownLimit : Nat := 200

/-- The integer that a text denotes. Too many digits are reported before anything that follows
them. -/
def writtenInteger (shown : String) (cs : List Char) : Except Fault Int :=
  let wrong : Fault := .notWhole (String.ofList (shown.toList.take shownLimit))
  match Written.read? cs with
  | none => .error wrong
  | some w =>
    if digitLimit < w.digits.length then .error (.digitLimit w.digits.length)
    else if w.rest.isEmpty then .ok w.toInt
    else .error wrong

def integerPart (v : Value) : Except Fault Int :=
  match v with
  | .bool b => .ok b.toInt
  | .flag b => .ok b.toInt
  | .int n => .ok n
  | .word _ n => .ok n
  | .fraction num den => .ok (Int.tdiv num den)
  | .decimal (.finite s c e) => .ok (Binary.signed s (c * 10 ^ e.toNat / 10 ^ (-e).toNat))
  | .decimal (.infinite _) => .error (.operation .infiniteDecimal)
  | .decimal (.nan _ _ _) => .error (.operation .nanDecimal)
  | .real x => ofBinary x
  | .float _ x => ofBinary x
  | .text s | .fixedText s => writtenInteger (quoted s) s.toList
  | .bytes bs => writtenInteger v.shown (bs.map fun b => Char.ofNat b.toNat)
  | v => .error (.notConvertible v.typeName)
where
  ofBinary : Binary → Except Fault Int
    | .finite s m e => .ok (Binary.signed s (m * 2 ^ e.toNat / 2 ^ (-e).toNat))
    | .inf _ => .error .infiniteInteger
    | .nan => .error .nanInteger

def writeWord (v : Value) : Except Fault String := do
  let n ← integerPart v
  if 10 ^ digitLimit ≤ n.natAbs then .error .shownDigitLimit else return intText n

def isWordSized (n : Int) : Bool := -(2 ^ (63 : Nat) : Nat) ≤ n && n < (2 ^ (64 : Nat) : Nat)

/-- Not every number can be asked whether it is NaN: plain ones beyond the machine cannot. -/
def writeFloat (f : Format) (v : Value) : Except Fault String :=
  let number (x : Binary) : Except Fault String := .ok (binaryText .plain f (f.ofBinary x))
  match v with
  | .bool b => number (f.ofInt b.toInt)
  | .flag b => number (f.ofInt b.toInt)
  | .int n =>
    if isWordSized n then number (Format.double.ofInt n)
    else .error (.operation (.notSupported "isnan"))
  | .word _ n => .ok (binaryText .plain f (f.ofInt n))
  | .real x => number x
  | .float _ x => number x
  | .complex z =>
    if z.re.isNaN || z.im.isNaN then .ok (binaryText .plain f .nan)
    else if z.re.isInfinite || z.im.isInfinite then
      .error (.operation (.noOrder ">" v.typeName "int"))
    else .error (.operation (.notRealArgument v.typeName))
  | _ => .error (.operation (.notSupported "isnan"))

def write : NumericType → Value → Except Fault String
  | .word _, v => writeWord v
  | .float f, v => writeFloat f v

/-! ### Constants -/

def ofNat : NumericType → Nat → Value
  | .word t, n => .word t n
  | .float f, n => .float f (f.ofInt n)

def zero (t : NumericType) : Value := t.ofNat 0
def one (t : NumericType) : Value := t.ofNat 1

def limits : NumericType → Value × Value
  | .word t => (.int t.minimum, .int t.maximum)
  | .float f =>
    let plain (negative : Bool) : Value := .real (Format.double.ofBinary (f.largest negative))
    (plain true, plain false)

end NumericType

def DType.ofNat : DType → Nat → Value
  | .flag, n => .flag (n != 0)
  | .word t, n => .word t n
  | .float f, n => .float f (f.ofInt n)
  | .object, n => .int n

def DType.counted (t : DType) (n : Nat) : Except Fault Value :=
  match t with
  | .word w => if w.holds n then .ok (t.ofNat n) else .error (.operation (.outOfBounds n w.name))
  | t => .ok (t.ofNat n)

end Postfix
