import Postfix.Value.Number
import Postfix.Value.Text

/-! What the hash of a value depends on. Values that are equal as keys have the same digest, and
some others share one by construction: numbers count modulo a prime, and a text counts by the bytes
that store it. -/
namespace Postfix

inductive Digest
  | nothing
  | number (n : Int)
  | stored (bytes : List UInt8)
  | sequence (items : List Digest)
  | /-- the digest of a value that no other value shares -/
    alone

namespace Digest

mutual

def same : Digest → Digest → Bool
  | nothing, nothing => true
  | number a, number b => a = b
  | stored s, stored t => s = t
  | sequence s, sequence t => sameItems s t
  | _, _ => false

def sameItems : List Digest → List Digest → Bool
  | [], [] => true
  | a :: s, b :: t => same a b && sameItems s t
  | _, _ => false

end

/-! ### Numbers -/

/-- The Mersenne prime that numbers are taken modulo. -/
def modulus : Nat := 2 ^ (61 : Nat) - 1

/-- Stands for infinity, and for a quotient whose denominator the prime divides. -/
def infinity : Nat := 314159

def powerMod (base exponent : Nat) : Nat :=
  if exponent = 0 then 1
  else
    let half := powerMod (base * base % modulus) (exponent / 2)
    if exponent % 2 = 0 then half else base * half % modulus
termination_by exponent

/-- One number is set aside to report failure, and the next below it is used instead. -/
def reserve (n : Int) : Int := if n = -1 then -2 else n

/-- The inverse of the denominator is a power of it, as the modulus is prime. -/
def residue (num den : Nat) : Nat :=
  if den % modulus = 0 then infinity
  else num % modulus * powerMod (den % modulus) (modulus - 2) % modulus

def ofExact : Exact → Int
  | .ratio num den => reserve (Binary.signed (num < 0) (residue num.natAbs den))
  | .infinite negative => Binary.signed negative infinity

def ofBinary? (x : Binary) : Option Int := x.number?.map ofExact

def imaginaryFactor : Int := 1000003

def ofComplex (z : ComplexBinary) : Digest :=
  match ofBinary? z.re, ofBinary? z.im with
  | some re, some im => number (reserve ((re + imaginaryFactor * im).bmod (2 ^ (64 : Nat))))
  | _, _ => alone

/-! ### Texts -/

def unitSize (c : Char) : Nat :=
  if c.toNat < 256 then 1 else if c.toNat < 65536 then 2 else 4

def littleEndian : (size n : Nat) → List UInt8
  | 0, _ => []
  | size + 1, n => UInt8.ofNat (n % 256) :: littleEndian size (n / 256)

def ofBytes (bytes : List UInt8) : Digest := if bytes.isEmpty then number 0 else stored bytes

/-- Every character of a text takes as much room as the one that needs the most. -/
def ofText (s : String) : Digest :=
  let size := s.toList.foldl (fun size c => max size (unitSize c)) 1
  ofBytes (s.toList.flatMap fun c => littleEndian size c.toNat)

end Digest

namespace Value

mutual

def digest : Value → Digest
  | none => .nothing
  | text s => .ofText s
  | fixedText s => .ofText s
  | bytes bs => .ofBytes bs
  | fixedBytes bs => .ofBytes bs
  | tuple items => .sequence (digestItems items)
  | oneTwo v => .ofText v.name
  | complex z => .ofComplex z
  | complexFloat _ z => .ofComplex z
  | v => match v.number? with
    | some x => .number (Digest.ofExact x)
    | Option.none => .alone

def digestItems : List Value → List Digest
  | [] => []
  | v :: rest => v.digest :: digestItems rest

end

def sameHash (v w : Value) : Bool := v.digest.same w.digest

end Value
end Postfix
