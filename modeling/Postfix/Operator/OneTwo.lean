import Postfix.Operator.Action

/-! The sample arithmetic of one and two: the sum of one and one, and the difference of two and
one, are all it can work out. Values of other kinds are refused, since they have no digit to name
in the message. -/
namespace Postfix

inductive OneTwoOp
  | add
  | sub
  deriving DecidableEq

namespace OneTwoOp

def all : List OneTwoOp := [add, sub]

def symbol : OneTwoOp → String
  | add => "+"
  | sub => "-"

def name : OneTwoOp → String
  | add => "ADD"
  | sub => "SUB"

def arity : OneTwoOp → Nat × Nat := fun _ => (2, 1)

def digits? : Value → Value → Option (OneTwo × OneTwo)
  | .oneTwo left, .oneTwo right => some (left, right)
  | _, _ => none

/-- The operand that the message of a failed operation names first and has no digit for, or else
the other one. -/
def undigited (first second : Value) : Failure :=
  match first with
  | .oneTwo _ => .fault (.noAttribute second.classLabel "value")
  | v => .fault (.noAttribute v.classLabel "value")

def apply (op : OneTwoOp) : Action Unit := do
  let (left, right) ← Action.popTwo
  match op, digits? left right with
  | add, some (.one, .one) => Action.push (.oneTwo .two)
  | add, some (l, r) => Action.fail (.cannotAdd l r)
  | add, none => Action.fail (undigited left right)
  | sub, some (.two, .one) => Action.push (.oneTwo .one)
  | sub, some (l, r) => Action.fail (.cannotSubtract l r)
  | sub, none => Action.fail (undigited right left)

end OneTwoOp
end Postfix
