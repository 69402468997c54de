import Postfix.Operator.Action
import Postfix.Operand.Numeric

/-! Checked integer arithmetic. Each result is computed exactly and then has to lie in the range of
the element type of the stack; nothing wraps. Division and remainder truncate toward zero. -/
namespace Postfix

inductive IntegerBinary
  | add
  | sub
  | mul
  | div
  | rem
  | pow
  deriving DecidableEq

inductive IntegerOp
  | binary (op : IntegerBinary)
  | neg
  | swap
  | zero
  | one
  deriving DecidableEq

namespace IntegerOp

def all : List IntegerOp :=
  [binary .add, binary .sub, binary .mul, binary .div, binary .rem, neg, binary .pow, swap, zero,
    one]

def symbol : IntegerOp → String
  | binary .add => "+"
  | binary .sub => "-"
  | binary .mul => "*"
  | binary .div => "/"
  | binary .rem => "%"
  | binary .pow => "pow"
  | neg => "neg"
  | swap => "swap"
  | zero => "zero"
  | one => "one"

def name : IntegerOp → String
  | binary .add => "ADD"
  | binary .sub => "SUB"
  | binary .mul => "MUL"
  | binary .div => "DIV"
  | binary .rem => "REM"
  | binary .pow => "POW"
  | neg => "NEG"
  | swap => "SWAP"
  | zero => "ZERO"
  | one => "ONE"

def arity : IntegerOp → Nat × Nat
  | binary _ => (2, 1)
  | neg => (1, 1)
  | swap => (2, 2)
  | zero | one => (0, 1)

/-- The word type whose range a result is held to. A stack without an element type takes the one
of a sample operand. -/
def rangeOf : Option DType → Int → Except Fault WordType
  | some (.word t), _ => .ok t
  | some .flag, _ => .error (.noIntegerType 'b')
  | some (.float _), _ => .error (.noIntegerType 'f')
  | some .object, _ => .error (.noIntegerType 'O')
  | none, sample =>
    if WordType.holds ⟨true, .w64⟩ sample then .ok ⟨true, .w64⟩
    else if WordType.holds ⟨false, .w64⟩ sample then .ok ⟨false, .w64⟩
    else .error (.noIntegerType 'O')

def elementBits : Option DType → Nat
  | some .flag => 8
  | some (.word t) => t.width.bits
  | some (.float .half) => 16
  | some (.float .single) => 32
  | _ => 64

end IntegerOp

/-- A power whose base has no magnitude is found without multiplying. -/
def IntegerBinary.power (base : Int) (exponent : Nat) : Int :=
  if base = 0 then if exponent = 0 then 1 else 0
  else if base = 1 then 1
  else if base = -1 then if exponent % 2 = 0 then 1 else -1
  else base ^ exponent

/-- The quotient of the magnitudes, turned around where the signs differ. -/
def IntegerBinary.truncatedQuotient (left right : Int) : Int :=
  let quotient := left.natAbs / right.natAbs
  if decide (left < 0) ≠ decide (right < 0) then -quotient else quotient

theorem IntegerBinary.truncatedQuotient_eq_tdiv (left right : Int) :
    truncatedQuotient left right = left.tdiv right := by
  have size : (left.tdiv right).natAbs = left.natAbs / right.natAbs := Int.natAbs_tdiv left right
  rw [truncatedQuotient, ← size]
  -- The magnitudes agree; the signs tell on which side of zero each quotient lies.
  by_cases l : left < 0 <;> by_cases r : right < 0 <;>
    simp only [l, r, ne_eq, decide_true, decide_false, not_true_eq_false, Bool.true_eq_false,
      Bool.false_eq_true, not_false_eq_true, if_true, if_false]
  · have sign := Int.tdiv_nonneg (Int.neg_nonneg_of_nonpos (Int.le_of_lt l))
      (Int.neg_nonneg_of_nonpos (Int.le_of_lt r))
    rw [Int.neg_tdiv_neg] at sign
    omega
  · have sign := Int.tdiv_nonneg (Int.neg_nonneg_of_nonpos (Int.le_of_lt l)) (Int.not_lt.mp r)
    rw [Int.neg_tdiv] at sign
    omega
  · have sign := Int.tdiv_nonneg (Int.not_lt.mp l) (Int.neg_nonneg_of_nonpos (Int.le_of_lt r))
    rw [Int.tdiv_neg] at sign
    omega
  · have sign := Int.tdiv_nonneg (Int.not_lt.mp l) (Int.not_lt.mp r)
    omega

/-- The exact result, or why there is none. An exponent as large as the width overflows for every
base with a magnitude, so the power is not computed then. -/
def IntegerBinary.exact (bits : Nat) (left right : Int) : IntegerBinary → Except ArithmeticFault Int
  | add => .ok (left + right)
  | sub => .ok (left - right)
  | mul => .ok (left * right)
  | div => if right = 0 then .error .invalidDiv else .ok (truncatedQuotient left right)
  | rem => if right = 0 then .error .invalidRem else .ok (left - right * truncatedQuotient left right)
  | pow =>
    if right < 0 then .error .invalidExponent
    else if 2 ≤ left.natAbs ∧ (bits : Int) ≤ right then .error .powOverflow
    else .ok (power left right.toNat)

def IntegerBinary.overflow : IntegerBinary → ArithmeticFault
  | add => .addOverflow
  | sub => .subUnderflow
  | mul => .mulOverflow
  | div => .invalidDiv
  | rem => .invalidRem
  | pow => .powOverflow

namespace IntegerOp

def pushChecked (dtype : Option DType) (result : Int) (fault : ArithmeticFault) (sample : Int)
    (operands : List Int) : Action Unit := do
  let t ← Action.ofFault (rangeOf dtype sample)
  if t.holds result then Action.push (.word t result)
  else Action.fail (.arithmetic fault operands)

def applyBinary (dtype : Option DType) (op : IntegerBinary) : Action Unit := do
  let (leftValue, rightValue) ← Action.popTwo
  let left ← Action.ofFault (NumericType.integerPart leftValue)
  let right ← Action.ofFault (NumericType.integerPart rightValue)
  match op.exact (elementBits dtype) left right with
  | .error e => Action.fail (.arithmetic e [left, right])
  | .ok result => pushChecked dtype result op.overflow left [left, right]

def applyNeg (dtype : Option DType) : Action Unit := do
  let operand ← Action.ofFault (NumericType.integerPart (← Action.pop))
  pushChecked dtype (-operand) .negOverflow operand [operand]

def constant (dtype : Option DType) (n : Nat) : Value :=
  (dtype.getD (.word ⟨true, .w64⟩)).ofNat n

def apply (dtype : Option DType) : IntegerOp → Action Unit
  | binary op => applyBinary dtype op
  | neg => applyNeg dtype
  | swap => Action.swap
  | zero => Action.push (constant dtype 0)
  | one => Action.push (constant dtype 1)

end IntegerOp
end Postfix
