import Postfix.Operator.Action
import Postfix.Operand.Numeric

/-! Families of operators that are given by a table of counts. What a row declares and what it does
are separate numbers, so a table can hold operators that keep their word and others that do not. -/
namespace Postfix

/-- A row declares how many values are needed and generated, and takes and gives back others. -/
structure TableOp where
  symbol : String
  needed : Nat
  generated : Nat
  pops : Nat
  pushes : Nat
  deriving DecidableEq

/-- Two tables are the same family only if their marks agree. -/
structure OperatorTable where
  rows : List TableOp
  familyName : Option String
  mark : Nat
  deriving DecidableEq

namespace TableOp

def popMany : Nat → Action (List Value)
  | 0 => pure []
  | n + 1 => do
    let v ← Action.pop
    return v :: (← popMany n)

/-- The value to push at a position: those taken go round in turn. If none was taken it is a
number, counted from one, which the type of the stack has to hold. -/
def output (dtype : Option DType) (taken : List Value) (i : Nat) : Except Fault Value :=
  match taken[i % taken.length]? with
  | some v => .ok v
  | none => match dtype with
    | some t => t.counted (i + 1)
    | none => .ok (.text (Text.natText (i + 1)))

def pushOutputs (dtype : Option DType) (taken : List Value) : List Nat → Action Unit
  | [] => pure ()
  | i :: rest => do
    Action.push (← Action.ofFault (output dtype taken i))
    pushOutputs dtype taken rest

def apply (dtype : Option DType) (op : TableOp) : Action Unit := do
  let taken ← popMany op.pops
  pushOutputs dtype taken (List.range op.pushes)

end TableOp
end Postfix
