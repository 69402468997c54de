import Postfix.Operand.Numeric
import Postfix.Value.Column

/-! Operands of different types in one operation. Machine scalars have a common type that takes in
both; a plain number takes the type of its partner if that is of its sort or a wider one; values
without a machine form make the operation one of plain values. -/
namespace Postfix

inductive MachineType
  | flag
  | word (t : WordType)
  | float (f : Format)
  | complex (f : Format)
  deriving DecidableEq

inductive PlainSort
  | integer
  | real
  | complex
  deriving DecidableEq

inductive OperandSort
  | machine (t : MachineType)
  | plain (s : PlainSort)
  | text
  | bytes
  | /-- a value without a machine form -/
    object
  | /-- several values at once -/
    several
  deriving DecidableEq

namespace WordType

/-- The number of the type that differs from `n` by a multiple of its size. -/
def wrap (t : WordType) (n : Int) : Int :=
  t.minimum + (n - t.minimum) % (2 ^ t.width.bits : Nat)

def power (t : WordType) (base : Int) (n : Nat) : Int :=
  if n = 0 then t.wrap 1
  else
    let half := t.power (t.wrap (base * base)) (n / 2)
    if n % 2 = 1 then t.wrap (half * base) else half

def int8 : WordType := ⟨true, .w8⟩
def int64 : WordType := ⟨true, .w64⟩
def uint64 : WordType := ⟨false, .w64⟩

end WordType

namespace MachineType

def ofDType : DType → MachineType
  | .word t => .word t
  | .float f => .float f
  | _ => .flag

def join : MachineType → MachineType → MachineType
  | flag, t => t
  | t, flag => t
  | word t, word u => ofDType (t.join u)
  | word t, float f => float (t.width.format.max f)
  | word t, complex f => complex (t.width.format.max f)
  | float f, word t => float (t.width.format.max f)
  | float f, float g => float (f.max g)
  | float f, complex g => complex (f.max g)
  | complex f, word t => complex (t.width.format.max f)
  | complex f, float g => complex (f.max g)
  | complex f, complex g => complex (f.max g)

end MachineType

namespace PlainSort

def machine : PlainSort → MachineType
  | integer => .word .int64
  | real => .float .double
  | complex => .complex .double

def beside : PlainSort → MachineType → MachineType
  | integer, .flag => .word .int64
  | integer, t => t
  | real, .float f => .float f
  | real, .complex f => .complex f
  | real, _ => .float .double
  | complex, .float f => .complex (f.max .single)
  | complex, .complex f => .complex f
  | complex, _ => .complex .double

def max : PlainSort → PlainSort → PlainSort
  | integer, s => s
  | s, integer => s
  | real, s => s
  | s, real => s
  | complex, complex => complex

end PlainSort

namespace OperandSort

def common? : OperandSort → OperandSort → Option OperandSort
  | machine t, machine u => some (machine (t.join u))
  | machine t, plain s => some (machine (s.beside t))
  | plain s, machine t => some (machine (s.beside t))
  | plain s, plain r => some (machine (s.max r).machine)
  | several, _ => some several
  | _, several => some several
  | object, _ => some object
  | _, object => some object
  | text, text => some text
  | text, bytes => some text
  | bytes, text => some text
  | bytes, bytes => some bytes
  | _, _ => none

end OperandSort

namespace Value

def operandSort : Value → OperandSort
  | bool _ => .machine .flag
  | flag _ => .machine .flag
  | word t _ => .machine (.word t)
  | float f _ => .machine (.float f)
  | complexFloat f _ => .machine (.complex f)
  | int _ => .plain .integer
  | real _ => .plain .real
  | complex _ => .plain .complex
  | text _ => .text
  | fixedText _ => .text
  | bytes _ => .bytes
  | fixedBytes _ => .bytes
  | list _ => .several
  | tuple _ => .several
  | labelled => .several
  | gridRow => .several
  | mapping _ _ => .object
  | none => .object
  | fraction _ _ => .object
  | decimal _ => .object
  | oneTwo _ => .object

/-! ### Operands brought into a type -/

def toBool : Value → Bool
  | bool b => b
  | flag b => b
  | _ => false

/-- Plain integers have to lie in the range of the type; machine scalars come from within it.
Integers that no word holds are told apart, and narrow types count the upper half of the unsigned
words of 64 bits among them. -/
def asWord (t : WordType) : Value → Except Fault Int
  | bool b => .ok b.toInt
  | flag b => .ok b.toInt
  | word _ n => .ok n
  | int n =>
    let widest : WordType := if !t.signed && 32 ≤ t.width.bits then .uint64 else .int64
    if t.holds n then .ok n
    else if WordType.int64.holds n || widest.holds n then
      .error (.operation (.outOfBounds n t.name))
    else .error (.operation .beyondWords)
  | _ => .ok 0

def asBinary (f : Format) : Value → Except Fault Binary
  | bool b => .ok (f.ofInt b.toInt)
  | flag b => .ok (f.ofInt b.toInt)
  | word _ n => .ok (f.ofInt n)
  | float g x => .ok (if g = f then x else f.ofBinary x)
  | int n => (NumericType.integerBinary n).map f.ofBinary
  | real x => .ok (f.ofBinary x)
  | _ => .ok .nan

def asComplex (f : Format) : Value → Except Fault ComplexBinary
  | complexFloat _ z => .ok (f.ofComplex z)
  | complex z => .ok (f.ofComplex z)
  | v => (v.asBinary f).map fun x => ⟨x, f.zero false⟩

def characters : Value → List Char
  | text s => s.toList
  | fixedText s => s.toList
  | bytes bs => bs.map fun b => Char.ofNat b.toNat
  | fixedBytes bs => bs.map fun b => Char.ofNat b.toNat
  | _ => []

def octets : Value → List UInt8
  | bytes bs => bs
  | fixedBytes bs => bs
  | _ => []

end Value
end Postfix
