import Postfix.Value.Basic
import Postfix.Binary.Elementary
import Postfix.Failure.Operation

/-! Arithmetic of decimals: the exact result, brought to at most 28 digits; a half goes to the even
digit. Exact results keep the exponent that the operands suggest as far as they can. -/
namespace Postfix.DecimalNumber

abbrev Outcome := Except OperationFault DecimalNumber

def digitsKept : Nat := 28

def topExponent : Int := 999999

def bottomExponent : Int := -1000026

def digitCount (n : Nat) : Nat :=
  let k := Nat.log2 n * 30103 / 100000
  if 10 ^ (k + 1) ≤ n then k + 2 else if 10 ^ k ≤ n then k + 1 else k

def ofInt (n : Int) : DecimalNumber := .finite (n < 0) n.natAbs 0

/-- The decimal next to `± c * 10 ^ e`. What is too large is an overflow, and what is too small
loses digits until nothing is left. -/
def settle (negative : Bool) (c : Nat) (e : Int) : Outcome :=
  if c = 0 then .ok (.finite negative 0 (min (max e bottomExponent) topExponent))
  else if topExponent < digitCount c - 1 + e then .error .decimalOverflow
  else
    let low := max (digitCount c + e - digitsKept) bottomExponent
    if low ≤ e then .ok (.finite negative c e)
    else if digitCount c + e < low then .ok (.finite negative 0 low)
    else
      let kept := nearestEven c (10 ^ (low - e).toNat)
      if kept = 10 ^ digitsKept then
        if topExponent < low + digitsKept then .error .decimalOverflow
        else .ok (.finite negative (10 ^ (digitsKept - 1)) (low + 1))
      else .ok (.finite negative kept low)

/-- The decimal next to `± num / den`, a positive quotient, found from one digit more than is kept
and from whether anything is left over. An exact quotient has an exponent as near as possible to the
ideal one. -/
def settleQuotient (negative : Bool) (num den : Nat) (e ideal : Int) : Outcome :=
  let shift : Int := (digitCount den : Int) - digitCount num + digitsKept + 1
  let above := num * 10 ^ shift.toNat
  let below := den * 10 ^ (-shift).toNat
  let q := above / below
  let low := e - shift
  if above % below ≠ 0 then settle negative (if q % 5 = 0 then q + 1 else q) low
  else
    let (q, low) := strip (ideal - low).toNat q low
    settle negative q low
where
  /-- At most so many zeros at the end are moved into the exponent. -/
  strip : Nat → Nat → Int → Nat × Int
    | 0, q, e => (q, e)
    | n + 1, q, e => if q % 10 = 0 then strip n (q / 10) (e + 1) else (q, e)

/-! ### Numbers that are not finite -/

/-- A signalling operand is an error; a quiet one is the result, with as many digits of its payload
as a number can have. -/
def quiet : DecimalNumber → Outcome
  | .nan negative false payload => .ok (.nan negative false (payload.bind fun n =>
      let kept := n % 10 ^ digitsKept
      if kept = 0 then none else some kept))
  | _ => .error .decimalInvalid

def isNaN : DecimalNumber → Bool
  | .nan _ _ _ => true
  | _ => false

def isSignalling : DecimalNumber → Bool
  | .nan _ signalling _ => signalling
  | _ => false

def notNumber? (x y : DecimalNumber) : Option Outcome :=
  if x.isSignalling || y.isSignalling then some (.error .decimalInvalid)
  else if x.isNaN then some x.quiet
  else if y.isNaN then some y.quiet
  else none

def negative : DecimalNumber → Bool
  | .finite s _ _ => s
  | .infinite s => s
  | .nan s _ _ => s

/-! ### Operations -/

/-- Zero has no sign but the positive one. -/
def neg : DecimalNumber → Outcome
  | .finite s c e => settle (!s && c ≠ 0) c e
  | .infinite s => .ok (.infinite (!s))
  | x => x.quiet

def opposite : DecimalNumber → DecimalNumber
  | .finite s c e => .finite (!s) c e
  | .infinite s => .infinite (!s)
  | x => x

/-- A sum of zero is positive unless both terms are negative. -/
def add (x y : DecimalNumber) : Outcome :=
  match notNumber? x y with
  | some outcome => outcome
  | none => match x, y with
    | .finite s c d, .finite t k e =>
      let low := min d e
      let total := Binary.signed s (c * 10 ^ (d - low).toNat) +
        Binary.signed t (k * 10 ^ (e - low).toNat)
      settle (if total = 0 then s && t else total < 0) total.natAbs low
    | .infinite s, .infinite t => if s = t then .ok (.infinite s) else .error .decimalInvalid
    | .infinite s, _ => .ok (.infinite s)
    | _, y => .ok y

def sub (x y : DecimalNumber) : Outcome :=
  match notNumber? x y with
  | some outcome => outcome
  | none => add x y.opposite

def isZero : DecimalNumber → Bool
  | .finite _ c _ => c = 0
  | _ => false

def mul (x y : DecimalNumber) : Outcome :=
  match notNumber? x y with
  | some outcome => outcome
  | none => match x, y with
    | .finite s c d, .finite t k e => settle (s != t) (c * k) (d + e)
    | x, y =>
      if x.isZero || y.isZero then .error .decimalInvalid
      else .ok (.infinite (x.negative != y.negative))

def div (x y : DecimalNumber) : Outcome :=
  match notNumber? x y with
  | some outcome => outcome
  | none => match x, y with
    | .finite s c d, .finite t k e =>
      if k = 0 then .error (if c = 0 then .decimalUndefined else .decimalZeroDivision)
      else if c = 0 then settle (s != t) 0 (d - e)
      else settleQuotient (s != t) c k (d - e) (d - e)
    | .infinite _, .infinite _ => .error .decimalInvalid
    | .infinite s, y => .ok (.infinite (s != y.negative))
    | x, y => settle (x.negative != y.negative) 0 bottomExponent

def sqrt : DecimalNumber → Outcome
  | .finite s c e =>
    if c = 0 then settle s 0 (e / 2)
    else if s then .error .decimalInvalid
    else
      let half := e / 2
      let square := c * 10 ^ (e % 2).toNat
      let shift : Int := (digitsKept + 1 : Nat) - ((digitCount square + 1) / 2 : Nat)
      let wide := square * 100 ^ shift.toNat / 100 ^ (-shift).toNat
      let root := Nat.sqrt wide
      let exact := root * root = wide && wide * 100 ^ (-shift).toNat = square * 100 ^ shift.toNat
      if exact then settle false (root / 10 ^ shift.toNat * 10 ^ (-shift).toNat) half
      else settle false (if root % 5 = 0 then root + 1 else root) (half - shift)
  | .infinite s => if s then .error .decimalInvalid else .ok (.infinite false)
  | x => x.quiet

/-! ### Exponential and power -/

open Binary (Enclosure)

def settleDyadic (negative : Bool) (a : Int) (e : Int) : Outcome :=
  let num := a.toNat * 2 ^ e.toNat
  let den := 2 ^ (-e).toNat
  let shift : Int := (digitCount den : Int) - digitCount num + digitsKept + 1
  let above := num * 10 ^ shift.toNat
  let below := den * 10 ^ (-shift).toNat
  settle negative (if above % below = 0 then above / below else
    let q := above / below
    if q % 5 = 0 then q + 1 else q) (-shift)

/-- The decimals next to the ends of the exponential of an enclosed number, or what both of them
come to when it is out of range. There are none while the ends lie on both sides of the range. -/
def expEnds (negative : Bool) (s : Nat) (t : Enclosure) : Option (Outcome × Outcome) :=
  let bound : Int := (3000000 * 2 ^ s : Nat)
  let both (outcome : Outcome) := some (outcome, outcome)
  if bound < t.lo then both (.error .decimalOverflow)
  else if t.hi < -bound then both (settle negative 0 bottomExponent)
  else if bound < t.hi ∨ t.lo < -bound then none
  else
    let (a, k) := Enclosure.exp s t
    some (settleDyadic negative a.lo (k - s), settleDyadic negative a.hi (k - s))

/-- The exponential of a number that is enclosed ever more closely. If the ends never round alike,
the value is a decimal, and the end above is taken at the largest scale. The scales grow with the
number of bits of what the number was multiplied by. -/
def settleExp (negative : Bool) (bits : Nat) (exponent : Nat → Enclosure) : Outcome :=
  let ends (s : Nat) : Option (Outcome × Outcome) := expEnds negative s (exponent s)
  let settled (s : Nat) : Option Outcome := match ends s with
    | some (.ok (.finite _ c d), .ok (.finite _ k e)) =>
      if c = k ∧ d = e then some (.ok (.finite negative c d)) else none
    | some (.error a, .error _) => some (.error a)
    | _ => none
  match [192 + bits, 384 + bits].findSome? settled with
  | some outcome => outcome
  | none => match ends (384 + bits) with
    | some (_, above) => above
    | none => .error .decimalOverflow

def enclosure (negative : Bool) (c : Nat) (e : Int) (s : Nat) : Enclosure :=
  let scaled := c * 10 ^ e.toNat * 2 ^ s / 10 ^ (-e).toNat
  let a : Enclosure := ⟨scaled, scaled + 1⟩
  if negative then a.neg else a

def logarithm (c : Nat) (e : Int) (s : Nat) : Enclosure :=
  (Enclosure.log s c 0).add ((Enclosure.log s 10 0).mulInt e)

def exp : DecimalNumber → Outcome
  | .finite s c e =>
    if c = 0 then .ok (ofInt 1)
    else if 7 < digitCount c + e then
      if s then settle false 0 bottomExponent else .error .decimalOverflow
    else settleExp false 0 (enclosure s c (max e (-400)))
  | .infinite s => .ok (if s then .finite false 0 0 else .infinite false)
  | x => x.quiet

def integer? : DecimalNumber → Option Int
  | .finite s c e =>
    if c * 10 ^ e.toNat % 10 ^ (-e).toNat = 0 then
      some (Binary.signed s (c * 10 ^ e.toNat / 10 ^ (-e).toNat))
    else none
  | _ => none

def isOne (c : Nat) (e : Int) : Bool := c * 10 ^ e.toNat = 10 ^ (-e).toNat

def exactPowers : Nat := 2000

/-- A power of one has as many zeros as multiplying would give; by an exponent that is not an
integer it has all of them. -/
def powOne (negative : Bool) (d : Int) (exponent : Option Int) : DecimalNumber :=
  let zeros : Nat := match exponent with
    | some n => if n < 0 then 0 else (min (n * -d) (digitsKept - 1)).toNat
    | none => digitsKept - 1
  .finite negative (10 ^ zeros) (-zeros)

/-- Whether an exponent is so large that every power of a number other than one is out of range: a
number of so many digits differs from one by at least a unit in the last of them. -/
def isFarExponent (c k : Nat) (e : Int) : Bool := (digitCount c : Int) + 10 < digitCount k + e

def powFar (negative isGrowing : Bool) : Outcome :=
  if isGrowing then .error .decimalOverflow else settle negative 0 bottomExponent

def powFinite (s : Bool) (c : Nat) (d : Int) (t : Bool) (k : Nat) (e : Int) : Outcome :=
  let exponent := integer? (.finite t k e)
  let sign := s && (match exponent with | some n => n % 2 = 1 | none => false)
  if s && exponent.isNone then .error .decimalInvalid
  else if isOne c d then .ok (powOne sign d exponent)
  else if isFarExponent c k e then powFar sign ((10 ^ (-d).toNat < c * 10 ^ d.toNat) = !t)
  else match exponent with
    | some n =>
      if n.natAbs ≤ exactPowers then
        let power := c ^ n.natAbs
        if n < 0 then settleQuotient sign 1 power (d * n) (d * n) else settle sign power (d * n)
      else settleExp sign (Nat.log2 n.natAbs) fun scale => (logarithm c d scale).mulInt n
    | none =>
      let bits := Nat.log2 (k * 10 ^ e.toNat / 10 ^ (-e).toNat)
      settleExp false bits fun scale => (logarithm c d scale).mul scale (enclosure t k e scale)

def pow (x y : DecimalNumber) : Outcome :=
  match notNumber? x y with
  | some outcome => outcome
  | none =>
    let odd := match integer? y with
      | some n => n % 2 = 1
      | none => false
    let sign := x.negative && odd
    if x.isZero then
      if y.isZero then .error .decimalInvalid
      else .ok (if y.negative then .infinite sign else .finite sign 0 0)
    else match x, y with
      | _, .finite _ 0 _ => .ok (ofInt 1)
      | .infinite s, .finite t _ _ =>
        if s && (integer? y).isNone then .error .decimalInvalid
        else .ok (if t then .finite sign 0 0 else .infinite sign)
      | .infinite s, .infinite t =>
        if s then .error .decimalInvalid else .ok (if t then .finite false 0 0 else .infinite false)
      | .finite s c d, .infinite t =>
        if s then .error .decimalInvalid
        else if isOne c d then .ok (powOne false d none)
        else if (10 ^ (-d).toNat < c * 10 ^ d.toNat) = !t then .ok (.infinite false)
        else .ok (.finite false 0 0)
      | .finite s c d, .finite t k e => powFinite s c d t k e
      | x, _ => x.quiet

end Postfix.DecimalNumber
