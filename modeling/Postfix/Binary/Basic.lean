/-! Binary floating point data and the one rounding that every operation goes through.
A finite datum is its sign, a natural significand and a power of two, so its value is exact.
One NaN stands for all of them: neither its sign nor its payload is ever shown. -/
namespace Postfix

-- Powers are those of the core library throughout, whatever other instances are in scope.
attribute [scoped instance (5000)] instPowNat

inductive Format
  | half
  | single
  | double
  deriving DecidableEq

namespace Format

def precision : Format → Nat
  | half => 11
  | single => 24
  | double => 53

/-- The exponent of the spacing of the subnormal numbers. -/
def minExp : Format → Int
  | half => -24
  | single => -149
  | double => -1074

/-- The exponent of the spacing of the largest numbers. -/
def maxExp : Format → Int
  | half => 5
  | single => 104
  | double => 971

end Format

inductive Binary
  | nan
  | inf (negative : Bool)
  | finite (negative : Bool) (mant : Nat) (exp : Int)
  deriving DecidableEq

namespace Binary

def signed (negative : Bool) (n : Nat) : Int := if negative then -(n : Int) else n

/-- Each number of a format has one representation: its significand is full unless its exponent
is the least one. -/
def Canonical (f : Format) : Binary → Prop
  | nan => True
  | inf _ => True
  | finite _ m e => f.minExp ≤ e ∧ e ≤ f.maxExp ∧ m < 2 ^ f.precision ∧
      (e = f.minExp ∨ 2 ^ (f.precision - 1) ≤ m)

def isNaN : Binary → Bool
  | nan => true
  | _ => false

def isInfinite : Binary → Bool
  | inf _ => true
  | _ => false

def isZero : Binary → Bool
  | finite _ m _ => m = 0
  | _ => false

def negative : Binary → Bool
  | nan => false
  | inf s => s
  | finite s _ _ => s

end Binary

structure ComplexBinary where
  re : Binary
  im : Binary
  deriving DecidableEq

/-- The integer nearest to `num / den`; a half goes to the even one. -/
def nearestEven (num den : Nat) : Nat :=
  let q := num / den
  let r := num % den
  if den < 2 * r ∨ (2 * r = den ∧ q % 2 = 1) then q + 1 else q

/-- The largest `k` with `2 ^ k ≤ num / den`, both positive. -/
def floorLog (num den : Nat) : Int :=
  let k : Int := (Nat.log2 num : Int) - Nat.log2 den
  if den * 2 ^ k.toNat ≤ num * 2 ^ (-k).toNat then k else k - 1

namespace Format

def zero (f : Format) (negative : Bool) : Binary := .finite negative 0 f.minExp

def spacing (f : Format) (num den : Nat) : Int :=
  max (floorLog num den - (f.precision - 1 : Nat)) f.minExp

/-- A significand that rounding has filled up moves on to the next binade. -/
def settle (f : Format) (negative : Bool) (m : Nat) (e : Int) : Binary :=
  if m = 2 ^ f.precision then
    if f.maxExp < e + 1 then .inf negative else .finite negative (2 ^ (f.precision - 1)) (e + 1)
  else if f.maxExp < e then .inf negative else .finite negative m e

/-- The datum nearest to `± num / den`; a tie goes to the even significand. -/
def round (f : Format) (negative : Bool) (num den : Nat) : Binary :=
  if num = 0 then f.zero negative
  else
    let e := f.spacing num den
    f.settle negative (nearestEven (num * 2 ^ (-e).toNat) (den * 2 ^ e.toNat)) e

def roundDyadic (f : Format) (negative : Bool) (m : Nat) (e : Int) : Binary :=
  f.round negative (m * 2 ^ e.toNat) (2 ^ (-e).toNat)

def ofInt (f : Format) (n : Int) : Binary := f.round (n < 0) n.natAbs 1

def ofBinary (f : Format) : Binary → Binary
  | .nan => .nan
  | .inf s => .inf s
  | .finite s m e => f.roundDyadic s m e

def ofComplex (f : Format) (z : ComplexBinary) : ComplexBinary := ⟨f.ofBinary z.re, f.ofBinary z.im⟩

def largest (f : Format) (negative : Bool) : Binary :=
  .finite negative (2 ^ f.precision - 1) f.maxExp

end Format
end Postfix
