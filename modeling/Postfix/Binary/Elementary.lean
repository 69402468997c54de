import Postfix.Binary.Arithmetic

/-! Base-two logarithm, exponential and power, each the datum nearest to the exact value.
A transcendental value is enclosed between two rationals at growing scales until both ends round
alike. The values that can lie on a rounding boundary are rational and are found exactly first:
powers of two for the logarithm, roots and powers of dyadic numbers for the power. -/
namespace Postfix.Binary

/-- The reals between `lo / 2 ^ s` and `hi / 2 ^ s`, for a scale `s` that is kept outside. -/
structure Enclosure where
  lo : Int
  hi : Int

namespace Enclosure

def floorShift (n : Int) (s : Nat) : Int := n / (2 ^ s : Nat)

def ceilShift (n : Int) (s : Nat) : Int := -(-n / (2 ^ s : Nat))

def add (a b : Enclosure) : Enclosure := ⟨a.lo + b.lo, a.hi + b.hi⟩

def neg (a : Enclosure) : Enclosure := ⟨-a.hi, -a.lo⟩

def widen (a : Enclosure) (n : Nat) : Enclosure := ⟨a.lo - n, a.hi + n⟩

def mul (s : Nat) (a b : Enclosure) : Enclosure :=
  let p := a.lo * b.lo
  let q := a.lo * b.hi
  let r := a.hi * b.lo
  let t := a.hi * b.hi
  ⟨floorShift (min (min p q) (min r t)) s, ceilShift (max (max p q) (max r t)) s⟩

def divNat (a : Enclosure) (n : Nat) : Enclosure := ⟨a.lo / n, -(-a.hi / n)⟩

def div (s : Nat) (a b : Enclosure) : Enclosure :=
  let below := if 0 ≤ a.lo then b.hi else b.lo
  let above := if 0 ≤ a.hi then b.lo else b.hi
  ⟨(a.lo * (2 ^ s : Nat)) / below, -(-(a.hi * (2 ^ s : Nat)) / above)⟩

def mulDyadic (a : Enclosure) (negative : Bool) (n : Nat) (e : Int) : Enclosure :=
  let b : Enclosure := ⟨floorShift (a.lo * (n * 2 ^ e.toNat : Nat)) (-e).toNat,
    ceilShift (a.hi * (n * 2 ^ e.toNat : Nat)) (-e).toNat⟩
  if negative then b.neg else b

def mulInt (a : Enclosure) (k : Int) : Enclosure := a.mulDyadic (k < 0) k.natAbs 0

/-- `sum + power / k + power * square / (k + 2) + …`, the odd series of the area tangent. -/
def oddSeries (s : Nat) (square : Enclosure) : (terms k : Nat) → (power sum : Enclosure) → Enclosure
  | 0, _, _, sum => sum
  | terms + 1, k, power, sum =>
    oddSeries s square terms (k + 2) (power.mul s square) (sum.add (power.divNat k))

/-- The logarithm of `a / b`, from one up to two: twice the area tangent of `(a - b) / (a + b)`,
which is at most a third, so three bits are gained with each term. -/
def logRatio (s a b : Nat) : Enclosure :=
  let z : Enclosure := ⟨((a - b) * 2 ^ s / (a + b) : Nat), ((a - b) * 2 ^ s / (a + b) + 1 : Nat)⟩
  let half := oddSeries s (z.mul s z) (s / 3 + 2) 1 z ⟨0, 0⟩
  (half.add half).widen 4

def logTwo (s : Nat) : Enclosure := logRatio s 2 1

def log (s m : Nat) (e : Int) : Enclosure :=
  let k := Nat.log2 m
  ((logTwo s).mulInt (e + k)).add (logRatio s m (2 ^ k))

/-- `sum + term + term * r / (k + 1) + …`, the series of the exponential. -/
def expSeries (s : Nat) (r : Enclosure) : (terms k : Nat) → (term sum : Enclosure) → Enclosure
  | 0, _, _, sum => sum
  | terms + 1, k, term, sum =>
    expSeries s r terms (k + 1) ((term.mul s r).divNat (k + 1)) (sum.add term)

def exp (s : Nat) (t : Enclosure) : Enclosure × Int :=
  let two := logTwo s
  let k := t.lo / two.lo
  let r := t.add (two.mulInt (-k))
  ((expSeries s r (s / 2 + 8) 0 ⟨(2 ^ s : Nat), (2 ^ s : Nat)⟩ ⟨0, 0⟩).widen 4, k)

def settled (f : Format) (a : Enclosure) (e : Int) : Option Binary :=
  let low := f.roundDyadic (a.lo < 0) a.lo.natAbs e
  let high := f.roundDyadic (a.hi < 0) a.hi.natAbs e
  if low = high then some low else none

/-- The exponential of `t`, with the sign given. Beyond eight hundred every format overflows or
vanishes. -/
def settledExp (f : Format) (s : Nat) (negative : Bool) (t : Enclosure) : Option Binary :=
  let bound : Int := (800 * 2 ^ s : Nat)
  if bound < t.lo then some (.inf negative)
  else if t.hi < -bound then some (f.zero negative)
  else if bound < t.hi ∨ t.lo < -bound then none
  else
    let (a, k) := exp s t
    (settled f a (k - s)).map fun x => if negative then x.neg else x

end Enclosure

/-- The scales that are tried. The last is far beyond what any value of the formats needs. -/
def scales : List Nat := [96, 192, 384, 768, 1536, 3072]

def firstSettled (attempt : Nat → Option Binary) : Binary := (scales.findSome? attempt).getD .nan

def exp (f : Format) : Binary → Binary
  | nan => nan
  | inf s => if s then f.zero false else inf false
  | finite s m e =>
    if m = 0 then f.ofInt 1
    else firstSettled fun scale =>
      let unit : Enclosure := ⟨(2 ^ scale : Nat), (2 ^ scale : Nat)⟩
      Enclosure.settledExp f scale false (unit.mulDyadic s m e)

def ln (f : Format) (m : Nat) (e : Int) : Binary :=
  if m = 2 ^ Nat.log2 m ∧ e + Nat.log2 m = 0 then f.zero false
  else firstSettled fun scale => Enclosure.settled f (Enclosure.log scale m e) (-scale)

def log2 (f : Format) : Binary → Binary
  | nan => nan
  | inf s => if s then nan else inf false
  | finite s m e =>
    if m = 0 then inf true
    else if s then nan
    else
      let k := Nat.log2 m
      if m = 2 ^ k then f.ofInt (e + k)
      else firstSettled fun scale =>
        Enclosure.settled f ((Enclosure.log scale m e).div scale (Enclosure.logTwo scale)) (-scale)

def oddPart (m : Nat) (e : Int) : Nat × Int :=
  if 0 < m ∧ m % 2 = 0 then oddPart (m / 2) (e + 1) else (m, e)
termination_by m
decreasing_by omega

def exactRoots : (n m : Nat) → (e : Int) → Option (Nat × Int)
  | 0, m, e => some (m, e)
  | n + 1, m, e =>
    let root := Nat.sqrt m
    if root * root = m ∧ e % 2 = 0 then exactRoots n root (e / 2) else none

def powerOfTwo (f : Format) (negative : Bool) (e : Int) : Binary :=
  if 2000 < e then .inf negative
  else if e < -2000 then f.zero negative
  else f.roundDyadic negative 1 e

def powPositive (f : Format) (negative : Bool) (m : Nat) (d : Int) (s : Bool) (n : Nat) (e : Int) :
    Binary :=
  let (m, d) := oddPart m d
  let (n, e) := oddPart n e
  let enclosed := firstSettled fun scale =>
    Enclosure.settledExp f scale negative ((Enclosure.log scale m d).mulDyadic s n e)
  match exactRoots (-e).toNat m d with
  | none => enclosed
  | some (root, d) =>
    let exponent := n * 2 ^ e.toNat
    if root = 1 then powerOfTwo f negative (if s then -(d * exponent) else d * exponent)
    else if s ∨ 64 < exponent then enclosed
    else f.roundDyadic negative (root ^ exponent) (d * exponent)

/-- Whether a finite number is an integer, and then whether it is odd. -/
def isInteger (m : Nat) (e : Int) : Bool := m % 2 ^ (-e).toNat = 0

def isOddInteger (m : Nat) (e : Int) : Bool := e ≤ 0 && isInteger m e && m / 2 ^ (-e).toNat % 2 = 1

def isOne (m : Nat) (e : Int) : Bool := e ≤ 0 && m = 2 ^ (-e).toNat

/-- The special values come first: everything to the zeroth power is one, and so is every power
of one, NaN included. -/
def pow (f : Format) (x y : Binary) : Binary :=
  match x, y with
  | _, finite _ 0 _ => f.ofInt 1
  | nan, _ => nan
  | finite s m d, nan => if !s && isOne m d then f.ofInt 1 else nan
  | inf _, nan => nan
  | inf _, inf t => if t then f.zero false else inf false
  | finite _ m d, inf t =>
    if isOne m d then f.ofInt 1
    else if le (abs (finite false m d)) (f.ofInt 1) = t then inf false
    else f.zero false
  | inf s, finite t n e =>
    let negative := s && isOddInteger n e
    if t then f.zero negative else inf negative
  | finite s m d, finite t n e =>
    let negative := s && isOddInteger n e
    if m = 0 then if t then inf negative else f.zero negative
    else if s && !isInteger n e then nan
    else if isOne m d then if negative then neg (f.ofInt 1) else f.ofInt 1
    else powPositive f negative m d t n e

end Postfix.Binary
