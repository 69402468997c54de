import Postfix.Binary.Elementary

/-! The operators of floating point arithmetic, and their results in one format. No operation fails:
a division by zero gives an infinity or NaN. -/
namespace Postfix

inductive FloatBinary
  | add
  | sub
  | mul
  | div
  | rem
  | pow
  deriving DecidableEq

inductive FloatUnary
  | neg
  | sqrt
  | log2
  | exp
  | round
  deriving DecidableEq

inductive FloatOp
  | binary (op : FloatBinary)
  | unary (op : FloatUnary)
  | swap
  | zero
  | one
  deriving DecidableEq

/-- A transcendental function of a format; in the narrowest one it is rounded twice. -/
def Format.widened (f : Format) (value : Format → Binary) : Binary :=
  match f with
  | half => half.ofBinary (value single)
  | f => value f

def FloatBinary.eval (f : Format) : FloatBinary → Binary → Binary → Binary
  | add => Binary.add f
  | sub => Binary.sub f
  | mul => Binary.mul f
  | div => Binary.div f
  | rem => Binary.rem f
  | pow => fun x y => f.widened fun g => Binary.pow g x y

def FloatUnary.eval (f : Format) : FloatUnary → Binary → Binary
  | neg => Binary.neg
  | sqrt => Binary.sqrt f
  | log2 => fun x => f.widened fun g => Binary.log2 g x
  | exp => fun x => f.widened fun g => Binary.exp g x
  | round => Binary.roundAway f

def FloatBinary.sign : FloatBinary → String
  | add => "+"
  | sub => "-"
  | mul => "*"
  | div => "/"
  | rem => "%"
  | pow => "** or pow()"

def FloatBinary.functionName : FloatBinary → String
  | add => "add"
  | sub => "subtract"
  | mul => "multiply"
  | div => "divide"
  | rem => "fmod"
  | pow => "power"

def FloatUnary.functionName : FloatUnary → String
  | neg => "negative"
  | sqrt => "sqrt"
  | log2 => "log2"
  | exp => "exp"
  | round => "trunc"

namespace FloatOp

def all : List FloatOp :=
  [binary .add, binary .sub, binary .mul, binary .div, binary .rem, unary .neg, unary .sqrt,
    binary .pow, unary .log2, unary .exp, swap, zero, one, unary .round]

def symbol : FloatOp → String
  | binary .add => "+"
  | binary .sub => "-"
  | binary .mul => "*"
  | binary .div => "/"
  | binary .rem => "%"
  | binary .pow => "pow"
  | unary .neg => "neg"
  | unary .sqrt => "sqrt"
  | unary .log2 => "log2"
  | unary .exp => "exp"
  | unary .round => "round"
  | swap => "swap"
  | zero => "zero"
  | one => "one"

def name : FloatOp → String
  | binary .add => "ADD"
  | binary .sub => "SUB"
  | binary .mul => "MUL"
  | binary .div => "DIV"
  | binary .rem => "REM"
  | binary .pow => "POW"
  | unary .neg => "NEG"
  | unary .sqrt => "SQRT"
  | unary .log2 => "LOG2"
  | unary .exp => "EXP"
  | unary .round => "ROUND"
  | swap => "SWAP"
  | zero => "ZERO"
  | one => "ONE"

def arity : FloatOp → Nat × Nat
  | binary _ => (2, 1)
  | unary _ => (1, 1)
  | swap => (2, 2)
  | zero | one => (0, 1)

end FloatOp

end Postfix
