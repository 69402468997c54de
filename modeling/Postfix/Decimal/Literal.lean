import Postfix.Binary.Basic
import Postfix.Text.Digits

/-! Integer and decimal literals: what they look like and what they denote.
A literal may end in one line feed, which is not part of its value. The words for infinity take
either case of each letter and also the dotted capital and the dotless small `i`; a word with one
of those two letters looks like a literal but denotes no number. -/
namespace Postfix.Decimal

open Postfix.Text

def digitLimit : Nat := 4300

def dropFinalNewline (cs : List Char) : List Char :=
  if cs.getLast? = some '\n' then cs.dropLast else cs

def splitSign : List Char → Bool × List Char
  | '-' :: rest => (true, rest)
  | '+' :: rest => (false, rest)
  | rest => (false, rest)

def isInteger (cs : List Char) : Bool :=
  let digits := (splitSign cs).2
  !digits.isEmpty && digits.all isDigit

def integerOf (cs : List Char) : Int :=
  let (negative, digits) := splitSign cs
  if negative then -(readDigits digits : Int) else readDigits digits

/-- A decimal without its sign: `(whole fraction) * 10 ^ (exponent - length of fraction)`. -/
structure Numeral where
  whole : List Char
  fraction : List Char
  exponent : Int

def readExponent : List Char → Option Int
  | [] => some 0
  | c :: rest =>
    if (c = 'e' || c = 'E') && isInteger rest then some (integerOf rest) else none

/-- Digits with an optional point and further digits, or a point and at least one digit; then an
optional exponent. -/
def readNumeral (cs : List Char) : Option Numeral :=
  let whole := cs.takeWhile isDigit
  match cs.dropWhile isDigit with
  | '.' :: rest =>
    let fraction := rest.takeWhile isDigit
    if whole.isEmpty && fraction.isEmpty then none
    else (readExponent (rest.dropWhile isDigit)).map fun e => ⟨whole, fraction, e⟩
  | rest => if whole.isEmpty then none else (readExponent rest).map fun e => ⟨whole, [], e⟩

def foldCase (c : Char) : Char :=
  if 'A' ≤ c ∧ c ≤ 'Z' then Char.ofNat (c.toNat + 32)
  else if c = 'ı' ∨ c = 'İ' then 'i'
  else c

inductive Word
  | infinity
  | nan

def readWord (cs : List Char) : Option Word :=
  let folded := cs.map foldCase
  if folded = ['i', 'n', 'f'] ∨ folded = ['i', 'n', 'f', 'i', 'n', 'i', 't', 'y'] then
    some .infinity
  else if folded = ['n', 'a', 'n'] then some .nan
  else none

inductive Literal
  | number (negative : Bool) (numeral : Numeral)
  | infinite (negative : Bool)
  | nan
  | nothing

def readLiteral (cs : List Char) : Option Literal :=
  let (negative, body) := splitSign cs
  match readNumeral body with
  | some numeral => some (.number negative numeral)
  | none =>
    match readWord body with
    | none => none
    | some word =>
      if body.all fun c => c.toNat < 128 then
        some (match word with | .infinity => .infinite negative | .nan => .nan)
      else some .nothing

/-- `± coefficient * 10 ^ exponent`. Exponents that no format reaches are settled at once. -/
def ofScaled (f : Format) (negative : Bool) (coefficient : Nat) (exponent : Int) : Binary :=
  if coefficient = 0 then f.zero negative
  else if 400 < exponent then .inf negative
  else if exponent < -(401 + Nat.log2 coefficient : Nat) then f.zero negative
  else f.round negative (coefficient * 10 ^ exponent.toNat) (10 ^ (-exponent).toNat)

def Numeral.toBinary (f : Format) (negative : Bool) (n : Numeral) : Binary :=
  ofScaled f negative (readDigits (n.whole ++ n.fraction)) (n.exponent - n.fraction.length)

def Literal.toDouble : Literal → Option Binary
  | .number negative numeral => some (numeral.toBinary .double negative)
  | .infinite negative => some (.inf negative)
  | .nan => some .nan
  | .nothing => none

/-- Every literal is read in the widest format first; a narrower format rounds once more. -/
def Literal.toBinary (f : Format) (l : Literal) : Option Binary := l.toDouble.map f.ofBinary

end Postfix.Decimal
