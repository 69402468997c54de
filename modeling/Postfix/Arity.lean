import Postfix.Token

/-! Static simulation of a token sequence: only the number of values on the stack is followed.
Five readings of it are kept apart. `check` stops at the first operator that lacks operands and
otherwise gives the greatest depth; `isValid`, `stackSize` and `depths` answer parts of the same
question; `maxDepth` never stops, and takes what is there when an operator lacks operands. -/
namespace Postfix.Arity

def step (balance : Nat) : Token → Option Nat
  | .operator op =>
    if balance < op.needed then none else some (balance - op.needed + op.generated)
  | _ => some (balance + 1)

def finish (balance depth : Nat) : Except Failure Nat :=
  if balance = 0 then .error .noResult
  else if 1 < balance then .error (.tooMany balance)
  else .ok depth

def checkFrom (position balance depth : Nat) : List Token → Except Failure Nat
  | [] => finish balance depth
  | t :: rest =>
    match step balance t with
    | none => .error (.notEnough position t.text)
    | some next => checkFrom (position + 1) next (max depth next) rest

/-- The greatest number of values after any token, if the sequence is well formed. -/
def check (tokens : List Token) : Except Failure Nat := checkFrom 0 0 0 tokens

def isValid (tokens : List Token) : Bool :=
  match check tokens with
  | .ok _ => true
  | .error _ => false

def maxDepthFrom (balance depth : Nat) : List Token → Nat
  | [] => depth
  | t :: rest =>
    let next := match t with
      | .operator op => balance - op.needed + op.generated
      | _ => balance + 1
    maxDepthFrom next (max depth next) rest

def maxDepth (tokens : List Token) : Nat := maxDepthFrom 0 0 tokens

def stackSizeFrom (balance : Nat) : List Token → Option Nat
  | [] => some balance
  | t :: rest => (step balance t).bind fun next => stackSizeFrom next rest

/-- The number of values in the end, if every operator has enough operands. -/
def stackSize (tokens : List Token) : Option Nat := stackSizeFrom 0 tokens

def depthsFrom (depth : Int) : List Token → List Int
  | [] => []
  | t :: rest =>
    let next := match t with
      | .operator op => depth - op.needed + op.generated
      | _ => depth + 1
    next :: depthsFrom next rest

def depths (tokens : List Token) : List Int := depthsFrom 0 tokens

end Postfix.Arity
