import Postfix.Binary.Basic
import Postfix.Text.Digits

/-! The shortest decimal digits that identify a datum among the data of its format.
The numbers that round to a positive finite datum form an interval, with its ends exactly when the
significand is even. The coarsest decimal grid with a point in the interval gives the digits; of
two points the nearer one is taken, and a tie goes to the even digit. If no grid that is tried has
a point, all digits of the exact value are given, so the answer always lies in the interval. -/
namespace Postfix.Decimal

open Postfix.Text

structure Scaled where
  coefficient : Nat
  exponent : Int

/-- The ends of the interval around `m * 2 ^ e`, in units of `2 ^ (e - 2)`. Below a full binade the
neighbour is nearer by half. -/
def lowEnd (f : Format) (m : Nat) (e : Int) : Nat :=
  if m = 2 ^ (f.precision - 1) ∧ f.minExp < e then 4 * m - 1 else 4 * m - 2

def highEnd (m : Nat) : Nat := 4 * m + 2

def onGrid (f : Format) (m : Nat) (e : Int) (j : Int) : Option Scaled :=
  let unit := 2 ^ (e - 2).toNat * 10 ^ (-j).toNat
  let step := 10 ^ j.toNat * 2 ^ (2 - e).toNat
  let low := lowEnd f m e * unit
  let high := highEnd m * unit
  let value := 4 * m * unit
  let inside (d : Nat) : Bool :=
    if m % 2 = 0 then low ≤ d * step && d * step ≤ high else low < d * step && d * step < high
  let below := value / step
  let gap := value % step
  if inside below then
    if inside (below + 1) then
      if 2 * gap < step ∨ (2 * gap = step ∧ below % 2 = 0) then some ⟨below, j⟩
      else some ⟨below + 1, j⟩
    else some ⟨below, j⟩
  else if inside (below + 1) then some ⟨below + 1, j⟩
  else none

def exact (m : Nat) (e : Int) : Scaled :=
  if 0 ≤ e then ⟨m * 2 ^ e.toNat, 0⟩ else ⟨m * 5 ^ (-e).toNat, e⟩

def topExponent (m : Nat) (e : Int) : Int := ((Nat.log2 m : Int) + e + 1) * 30103 / 100000 + 2

def shortest (f : Format) (m : Nat) (e : Int) : Scaled :=
  ((List.range 25).findSome? fun (i : Nat) => onGrid f m e (topExponent m e - i)).getD (exact m e)

/-- Significant digits, and where the point stands: before the digit of that number, counted from
the first. There is no zero at either end of the digits. -/
structure Digits where
  digits : List Char
  point : Int

def dropTrailingZeros (cs : List Char) : List Char := (cs.reverse.dropWhile (· = '0')).reverse

def Scaled.toDigits (d : Scaled) : Digits :=
  let cs := natDigits d.coefficient
  ⟨dropTrailingZeros cs, cs.length + d.exponent⟩

def Digits.parts (d : Digits) : List Char × List Char :=
  if d.point ≤ 0 then (['0'], List.replicate (-d.point).toNat '0' ++ d.digits)
  else
    (d.digits.take d.point.toNat ++ List.replicate (d.point.toNat - d.digits.length) '0',
      d.digits.drop d.point.toNat)

/-- Positional notation; a point is written before a fraction only. -/
def Digits.positional (d : Digits) : List Char :=
  let (whole, fraction) := d.parts
  if fraction.isEmpty then whole else whole ++ '.' :: fraction

def Digits.pointed (d : Digits) : List Char :=
  let (whole, fraction) := d.parts
  whole ++ '.' :: (if fraction.isEmpty then ['0'] else fraction)

/-- One digit before the point, and an exponent of two digits or more with its sign. -/
def Digits.scientific (d : Digits) : List Char :=
  let exponent := d.point - 1
  let mantissa := match d.digits with
    | [] => ['0']
    | [c] => [c]
    | c :: rest => c :: '.' :: rest
  mantissa ++ 'e' :: (if exponent < 0 then '-' else '+') :: exponentDigits exponent.natAbs

inductive Layout
  | /-- never an exponent, and no fraction for an integer -/
    plain
  | /-- an exponent outside the decimal points from minus three to sixteen -/
    byPoint
  | /-- an exponent below a ten-thousandth, and from the limit of the format on -/
    byValue
  | /-- as `byPoint`, but no fraction for an integer -/
    part
  | /-- as `byValue`, but no fraction for an integer -/
    partByValue

/-- The most digits before the point that a number of a format is written with by its value. -/
def wholeDigits : Format → Nat
  | .half => 3
  | .single => 6
  | .double => 16

def isModerate (f : Format) (m : Nat) (e : Int) : Bool :=
  2 ^ (-e).toNat ≤ m * 2 ^ e.toNat * 10000 &&
    m * 2 ^ e.toNat < 10 ^ wholeDigits f * 2 ^ (-e).toNat

def magnitudeChars (layout : Layout) (f : Format) (m : Nat) (e : Int) : List Char :=
  match layout with
  | .plain => if m = 0 then ['0'] else (shortest f m e).toDigits.positional
  | .byPoint =>
    if m = 0 then ['0', '.', '0']
    else
      let d := (shortest f m e).toDigits
      if -4 < d.point ∧ d.point ≤ 16 then d.pointed else d.scientific
  | .byValue =>
    if m = 0 then ['0', '.', '0']
    else
      let d := (shortest f m e).toDigits
      if isModerate f m e then d.pointed else d.scientific
  | .part =>
    if m = 0 then ['0']
    else
      let d := (shortest f m e).toDigits
      if -4 < d.point ∧ d.point ≤ 16 then d.positional else d.scientific
  | .partByValue =>
    if m = 0 then ['0']
    else
      let d := (shortest f m e).toDigits
      if isModerate f m e then d.positional else d.scientific

def binaryChars (layout : Layout) (f : Format) : Binary → List Char
  | .nan => ['n', 'a', 'n']
  | .inf s => if s then ['-', 'i', 'n', 'f'] else ['i', 'n', 'f']
  | .finite s m e =>
    if s then '-' :: magnitudeChars layout f m e else magnitudeChars layout f m e

def binaryText (layout : Layout) (f : Format) (x : Binary) : String :=
  String.ofList (binaryChars layout f x)

end Postfix.Decimal
