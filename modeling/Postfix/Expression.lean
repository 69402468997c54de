import Postfix.Arity
import Postfix.Container
import Postfix.Text.Blank

/-! Expressions in postfix notation. Building one classifies its tokens and checks their arity, so
an expression comes with the depth of stack that its evaluation needs; evaluating it runs the
tokens on a stack of that capacity. -/
namespace Postfix

structure Expression where
  tokens : List Token
  maxStack : Nat
  kind : OperandKind
  family : Family
  variableKind : VariableKind

namespace Expression

def ofTokens (raw : List String) (family : Family) (kind : OperandKind) (vars : VariableKind) :
    Except Failure Expression := do
  if family.accepts kind then
    let tokens ← raw.mapM (classify family vars kind)
    let depth ← Arity.check tokens
    return ⟨tokens, depth, kind, family, vars⟩
  else .error (.incompatible family.className kind.label)

def ofText (text : String) (family : Family) (kind : OperandKind) (vars : VariableKind) :
    Except Failure Expression :=
  ofTokens (Text.splitTokens text) family kind vars

def render (e : Expression) (separator : String) : String :=
  separator.intercalate (e.tokens.map Token.text)

def text (e : Expression) : String := e.render " "

def shown (e : Expression) : String :=
  "Expression(" ++ Text.quoted e.text ++ ", max_stack=" ++ Text.natText e.maxStack ++ ")"

def addReference (seen : List Variable) : Token → List Variable
  | .reference v => if seen.contains v then seen else seen ++ [v]
  | _ => seen

/-- The variables that occur, each once, in the order of first appearance. -/
def references (e : Expression) : List Variable := e.tokens.foldl addReference []

def sameTokens : List Token → List Token → Bool
  | [], [] => true
  | s :: ss, t :: ts => s.same t && sameTokens ss ts
  | _, _ => false

/-- Equality looks at the tokens, the operand kind and the family. -/
def same (d e : Expression) : Bool :=
  sameTokens d.tokens e.tokens && d.kind = e.kind && d.family = e.family

def sameHash (d e : Expression) : Bool := sameTokens d.tokens e.tokens && d.family = e.family

/-! ### Evaluation -/

/-- The refusals that count as a property of the value, and not of the engine. -/
def isOfValue : Refusal → Bool
  | .token _ => true
  | .fault f => f.kind = .badValue || f.kind = .badType

def resolve (kind : OperandKind) (c : Container) (v : Variable) : Except Failure Value :=
  match c.lookup v.key with
  | .error f => .error (.fault f)
  | .ok none => .error (.notFound v.text)
  | .ok (some value) =>
    match kind.coerce value with
    | .ok operand => .ok operand
    | .error cause =>
      if isOfValue cause then
        if value.hasHugeInteger then .error (.fault .shownDigitLimit)
        else .error (.unfit v.text value kind.label cause)
      else .error cause.toFailure

def perform (kind : OperandKind) (c : Container) : Token → Action Unit
  | .operand value _ => Action.push value
  | .reference v =>
    match resolve kind c v with
    | .ok operand => Action.push operand
    | .error e => Action.fail e
  | .operator op => op.apply kind.dtype?

def performAll (kind : OperandKind) (c : Container) : List Token → Action Unit
  | [] => pure ()
  | t :: rest => do
    perform kind c t
    performAll kind c rest

def run (e : Expression) (c : Container) : Except Failure Unit × Stack Value :=
  (performAll e.kind c e.tokens).runOn (Stack.withCapacity e.maxStack)

def evaluate (e : Expression) (c : Container) : Except Failure Value :=
  match e.run c with
  | (.error f, _) => .error f
  | (.ok _, s) =>
    match s.top? with
    | some v => .ok v
    | none => .error (.underflow (.noResult e.text))

end Expression
end Postfix
