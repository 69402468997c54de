import Postfix.Binary.Elementary

/-! Arithmetic of complex numbers by their parts. Every step on a part is rounded. Roots are given
for all numbers; powers for small integral exponents, and the exponential and the logarithm on the
axis where neither sine, cosine nor an angle is needed. -/
namespace Postfix.ComplexBinary

open Binary

def ofBinary (f : Format) (x : Binary) : ComplexBinary := ⟨x, f.zero false⟩

def isZero (z : ComplexBinary) : Bool := z.re.isZero && z.im.isZero

def neg (z : ComplexBinary) : ComplexBinary := ⟨z.re.neg, z.im.neg⟩

def add (f : Format) (z w : ComplexBinary) : ComplexBinary :=
  ⟨Binary.add f z.re w.re, Binary.add f z.im w.im⟩

def sub (f : Format) (z w : ComplexBinary) : ComplexBinary :=
  ⟨Binary.sub f z.re w.re, Binary.sub f z.im w.im⟩

def mul (f : Format) (z w : ComplexBinary) : ComplexBinary :=
  ⟨Binary.sub f (Binary.mul f z.re w.re) (Binary.mul f z.im w.im),
    Binary.add f (Binary.mul f z.re w.im) (Binary.mul f z.im w.re)⟩

def isFlat (w : ComplexBinary) : Bool := le (abs w.im) (abs w.re)

/-- A quotient with the larger part of the divisor taken out, and with one inverse for both parts.
A divisor of zero is taken for a real one. -/
def div (f : Format) (z w : ComplexBinary) : ComplexBinary :=
  let plus := Binary.add f
  let minus := Binary.sub f
  let times := Binary.mul f
  let quotient := Binary.div f
  let one := f.ofInt 1
  if w.isZero then ⟨quotient z.re (abs w.re), quotient z.im (abs w.re)⟩
  else if w.isFlat then
    let ratio := quotient w.im w.re
    let scale := quotient one (plus w.re (times w.im ratio))
    ⟨times (plus z.re (times z.im ratio)) scale, times (minus z.im (times z.re ratio)) scale⟩
  else
    let ratio := quotient w.re w.im
    let scale := quotient one (plus w.im (times w.re ratio))
    ⟨times (plus (times z.re ratio) z.im) scale, times (minus (times z.im ratio) z.re) scale⟩

/-- A quotient with the larger part of the divisor taken out, and a division for each part. There
is none by zero. -/
def quotient? (f : Format) (z w : ComplexBinary) : Option ComplexBinary :=
  let plus := Binary.add f
  let minus := Binary.sub f
  let times := Binary.mul f
  let quotient := Binary.div f
  if w.isZero then none
  else if w.isFlat then
    let ratio := quotient w.im w.re
    let below := plus w.re (times w.im ratio)
    some ⟨quotient (plus z.re (times z.im ratio)) below,
      quotient (minus z.im (times z.re ratio)) below⟩
  else
    let ratio := quotient w.re w.im
    let below := plus (times w.re ratio) w.im
    some ⟨quotient (plus (times z.re ratio) z.im) below,
      quotient (minus (times z.im ratio) z.re) below⟩

/-- The product of a number with the `n`-th power of another, by squaring. -/
def mulPower (f : Format) (product z : ComplexBinary) (n : Nat) : ComplexBinary :=
  if n = 0 then product
  else mulPower f (if n % 2 = 1 then mul f product z else product) (mul f z z) (n / 2)

def powNat (f : Format) (z : ComplexBinary) : Nat → ComplexBinary
  | 1 => z
  | 2 => mul f z z
  | 3 => mul f z (mul f z z)
  | n => mulPower f (ofBinary f (f.ofInt 1)) z n

def smallInteger? (w : ComplexBinary) : Option Int :=
  match w.re with
  | .finite s m e =>
    let n := m * 2 ^ e.toNat / 2 ^ (-e).toNat
    if w.im.isZero && isInteger m e && n < 100 then some (signed s n) else none
  | _ => none

def pow? (f : Format) (z w : ComplexBinary) : Option ComplexBinary :=
  if w.isZero then some (ofBinary f (f.ofInt 1))
  else if z.isZero then
    some (if le (f.zero false) w.re && !w.re.isZero then ofBinary f (f.zero false)
      else ⟨.nan, .nan⟩)
  else (smallInteger? w).map fun n =>
    let power := powNat f z n.natAbs
    if n < 0 then div f (ofBinary f (f.ofInt 1)) power else power

def length (f : Format) (z : ComplexBinary) : Binary :=
  match z.re, z.im with
  | .finite _ m d, .finite _ n e =>
    let low := min d e
    let square (k : Nat) (c : Int) : Nat := (k * 2 ^ (c - low).toNat) * (k * 2 ^ (c - low).toNat)
    Binary.sqrt f (.finite false (square m d + square n e) (2 * low))
  | .nan, .finite _ _ _ => .nan
  | .finite _ _ _, .nan => .nan
  | .nan, .nan => .nan
  | _, _ => .inf false

/-- The root whose real part is not negative. Off the axes, the part with the larger magnitude is
the root of the mean of the length and the other is found from it. -/
def sqrt (f : Format) (z : ComplexBinary) : ComplexBinary :=
  let half := f.round false 1 2
  let times := Binary.mul f
  let root := Binary.sqrt f
  match z.re, z.im with
  | _, .inf s => ⟨.inf false, .inf s⟩
  | .inf true, .nan => ⟨.nan, .inf false⟩
  | .inf true, y => ⟨f.zero false, copySign (.inf false) y⟩
  | .inf false, .nan => ⟨.inf false, .nan⟩
  | .inf false, y => ⟨.inf false, copySign (f.zero false) y⟩
  | .nan, _ => ⟨.nan, .nan⟩
  | _, .nan => ⟨.nan, .nan⟩
  | x, y =>
    if y.isZero then
      if x.negative && !x.isZero then ⟨f.zero false, copySign (root x.neg) y⟩
      else ⟨abs (root x), copySign (f.zero false) y⟩
    else if x.isZero then
      let part := root (times half (abs y))
      ⟨part, copySign part y⟩
    else
      let long := length f z
      if x.negative then
        let im := root (times half (Binary.sub f long x))
        ⟨abs (times half (Binary.div f y im)), copySign im y⟩
      else
        let re := root (times half (Binary.add f long x))
        ⟨re, copySign (times half (Binary.div f y re)) y⟩

def exp? (f : Format) (z : ComplexBinary) : Option ComplexBinary :=
  if z.im.isZero then
    let x := Binary.exp f z.re
    some ⟨x, Binary.mul f x z.im⟩
  else none

def log2? (f : Format) (z : ComplexBinary) : Option ComplexBinary :=
  match z.re with
  | .finite false m e =>
    if z.im.isZero && 0 < m then
      let scale := f.round false 1442695040888963407359924681002 (10 ^ (30 : Nat))
      some ⟨Binary.mul f (ln f m e) scale, Binary.mul f z.im scale⟩
    else none
  | _ => none

end Postfix.ComplexBinary
