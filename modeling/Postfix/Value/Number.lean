import Postfix.Value.Basic

/-! The exact number that a value denotes, and the equality of values as keys: numbers of every
kind are equal when they denote the same number, and all else only within its own kind. -/
namespace Postfix

/-- A rational with a positive denominator, not necessarily in lowest terms, or an infinity. -/
inductive Exact
  | ratio (num : Int) (den : Nat)
  | infinite (negative : Bool)

def Exact.same : Exact → Exact → Bool
  | .ratio a b, .ratio c d => a * d = c * b
  | .infinite s, .infinite t => s = t
  | _, _ => false

def Binary.number? : Binary → Option Exact
  | .nan => none
  | .inf s => some (.infinite s)
  | .finite s m e => some (.ratio (Binary.signed s (m * 2 ^ e.toNat)) (2 ^ (-e).toNat))

def DecimalNumber.number? : DecimalNumber → Option Exact
  | .nan _ _ _ => none
  | .infinite s => some (.infinite s)
  | .finite s c e => some (.ratio (Binary.signed s (c * 10 ^ e.toNat)) (10 ^ (-e).toNat))

namespace Value

def number? : Value → Option Exact
  | bool b => some (.ratio b.toInt 1)
  | int n => some (.ratio n 1)
  | real x => x.number?
  | fraction num den => some (.ratio num den)
  | decimal d => d.number?
  | complex ⟨re, .finite _ 0 _⟩ => re.number?
  | flag b => some (.ratio b.toInt 1)
  | word _ n => some (.ratio n 1)
  | float _ x => x.number?
  | _ => Option.none

mutual

def same : Value → Value → Bool
  | none, none => true
  | text s, text t => s = t
  | bytes s, bytes t => s = t
  | list s, list t => sameItems s t
  | tuple s, tuple t => sameItems s t
  | oneTwo s, oneTwo t => s = t
  | complex z, complex w =>
    sameNumber (.real z.re) (.real w.re) && sameNumber (.real z.im) (.real w.im)
  | v, w => sameNumber v w

def sameItems : List Value → List Value → Bool
  | [], [] => true
  | v :: vs, w :: ws => same v w && sameItems vs ws
  | _, _ => false

def sameNumber (v w : Value) : Bool :=
  match v.number?, w.number? with
  | some a, some b => a.same b
  | _, _ => false

end

/-- How a number is seen beside another: a plain number takes the format of a machine real, and a
word beside a real or complex number becomes a double. A plain integer that no word of 64 bits
holds stays exact beside a double. -/
def seenBeside (v w : Value) : Value :=
  match v, w with
  | real x, float f _ => float f (f.ofBinary x)
  | int n, float f _ =>
    if f = .double && !(WordType.mk true .w64).holds n then v
    else float f (f.ofBinary (Format.double.ofInt n))
  | word _ n, real _ => real (Format.double.ofInt n)
  | word _ n, float _ _ => real (Format.double.ofInt n)
  | word _ n, complex _ => real (Format.double.ofInt n)
  | complex z, float .double _ => complex z
  | complex z, float _ _ => complex ⟨Format.single.ofBinary z.re, Format.single.ofBinary z.im⟩
  | _, _ => v

/-- Equality of values as such, which is coarser than equality as keys where a machine scalar
meets a number that has to be rounded. -/
def equal : Value → Value → Bool
  | list s, list t => equalItems s t
  | tuple s, tuple t => equalItems s t
  | v, w => (v.seenBeside w).same (w.seenBeside v)
where
  equalItems : List Value → List Value → Bool
    | [], [] => true
    | v :: vs, w :: ws => equal v w && equalItems vs ws
    | _, _ => false

def notKey? : Value → Option String
  | list _ => some "list"
  | mapping _ _ => some "dict"
  | labelled => some "Series"
  | gridRow => some "ndarray"
  | tuple items => firstNotKey? items
  | _ => Option.none
where
  firstNotKey? : List Value → Option String
    | [] => Option.none
    | item :: rest => match item.notKey? with
      | some name => some name
      | Option.none => firstNotKey? rest

def isMeasure : Value → Bool
  | int _ => true
  | real _ => true
  | word _ _ => true
  | float _ _ => true
  | _ => false

end Value
end Postfix
