import Postfix.Value.Number
import Postfix.Failure

/-! Containers of variable values and the one question they are asked: the value under a key.
A stored nothing counts as not found, so the answer is an option of a value other than nothing. -/
namespace Postfix

inductive Container
  | absent
  | /-- values at the positions from zero on -/
    positional (items : List Value)
  | /-- pairs of key and value, where a later pair replaces an earlier one -/
    keyed (pairs : List (Value × Value))
  | /-- pairs of key and value that are searched from the first on -/
    searched (pairs : List (Value × Value))
  | /-- values under labels, which may repeat -/
    labelled (entries : List (Value × Value))
  | /-- a container without values -/
    empty
  | unsupported (typeName : String)

namespace Container

/-- The position that a key denotes: integers only, and never counted from the end. -/
def position? : Value → Option Nat
  | .int n => if 0 ≤ n then some n.toNat else none
  | .word _ n => if 0 ≤ n then some n.toNat else none
  | _ => none

/-- Whether a key finds a label: equal, and both numbers, both truth values or both texts. -/
def labelMatches (key label : Value) : Bool :=
  match key, label with
  | .bool _, .bool _ => key.same label
  | .flag _, .bool _ => key.same label
  | .text _, .text _ => key.same label
  | _, _ => key.isMeasure && label.isMeasure && key.same label

def found : Value → Option Value
  | .none => none
  | v => some v

def single : List Value → Option Value
  | [] => none
  | [v] => found v
  | _ => some .labelled

def lookup (c : Container) (key : Value) : Except Fault (Option Value) :=
  match c with
  | absent => .ok none
  | empty => .ok none
  | positional items => .ok (((position? key).bind (items[·]?)).bind found)
  | keyed pairs => match key.notKey? with
    | none => .ok ((pairs.reverse.find? fun p => p.1.same key).bind fun p => found p.2)
    | some name => .error (.unhashable name)
  | searched pairs => .ok ((pairs.find? fun p => p.1.equal key).bind fun p => found p.2)
  | labelled entries => match key.notKey? with
    | none => .ok (single ((entries.filter fun e => labelMatches key e.1).map (·.2)))
    | some name => .error (.unhashable name)
  | unsupported typeName => .error (.unsupportedContainer typeName)

end Container
end Postfix
