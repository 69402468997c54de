import Postfix.Stack

/-! What an operator does to the working stack: a failure leaves the stack as it is at that
moment, with the operands that were taken gone. -/
namespace Postfix

abbrev Action := ExceptT Failure (StateM (Stack Value))

namespace Action

def runOn {α : Type} (a : Action α) (s : Stack Value) : Except Failure α × Stack Value :=
  (ExceptT.run a).run s

def fail {α : Type} (e : Failure) : Action α := fun s => (.error e, s)

def ofFault {α : Type} : Except Fault α → Action α
  | .ok v => pure v
  | .error f => fail (.fault f)

def push (v : Value) : Action Unit := fun s => (.ok (), s.push v)

def pop : Action Value := fun s =>
  match s.pop with
  | (.ok v, s) => (.ok v, s)
  | (.error u, s) => (.error (.underflow u), s)

def popTwo : Action (Value × Value) := fun s =>
  match s.popTwo with
  | (.ok p, s) => (.ok p, s)
  | (.error u, s) => (.error (.underflow u), s)

def swap : Action Unit := do
  let (left, right) ← popTwo
  push right
  push left

end Action
end Postfix
