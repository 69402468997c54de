import Postfix.Value.Basic

/-! Typed columns: how a value is kept in a column of an element type, and the element type that
takes in the values of two others. -/
namespace Postfix

def Width.max (a b : Width) : Width := if a.bits ≤ b.bits then b else a

def Width.format : Width → Format
  | .w8 => .half
  | .w16 => .single
  | .w32 => .double
  | .w64 => .double

def Format.max (a b : Format) : Format := if a.precision ≤ b.precision then b else a

/-- Words of both signs need a signed type of more bits than the unsigned one; there is none beyond
64 bits, and doubles stand in. -/
def WordType.join (a b : WordType) : DType :=
  if a.signed = b.signed then .word ⟨a.signed, a.width.max b.width⟩
  else
    let (plus, both) := if a.signed then (b.width, a.width) else (a.width, b.width)
    if plus.bits < both.bits then .word ⟨true, both⟩
    else match plus with
      | .w8 => .word ⟨true, .w16⟩
      | .w16 => .word ⟨true, .w32⟩
      | .w32 => .word ⟨true, .w64⟩
      | .w64 => .float .double

def DType.format? : DType → Option Format
  | .word t => some t.width.format
  | .float f => some f
  | _ => none

/-- The element type for the values of two columns. Flags mix with nothing else. -/
def DType.join : DType → DType → DType
  | .flag, .flag => .flag
  | .word a, .word b => a.join b
  | .word a, .float f => .float (a.width.format.max f)
  | .float f, .word a => .float (a.width.format.max f)
  | .float f, .float g => .float (f.max g)
  | _, _ => .object

def DType.isFloat : DType → Bool
  | .float _ => true
  | _ => false

/-- The element type of a row across columns of the types given. Beside reals every word counts by
its own format, whatever it would need together with the other words. -/
def DType.joinAll : List DType → DType
  | [] => .object
  | t :: rest =>
    match (t :: rest).mapM DType.format? with
    | some (f :: formats) =>
      if (t :: rest).any isFloat then .float (formats.foldl Format.max f)
      else rest.foldl DType.join t
    | _ => rest.foldl DType.join t

namespace Value

def wholePart : Binary → Int
  | .finite s m e => Binary.signed s (m * 2 ^ e.toNat / 2 ^ (-e).toNat)
  | _ => 0

def toWord (t : WordType) : Value → Value
  | bool b => word t b.toInt
  | flag b => word t b.toInt
  | int n => word t n
  | word _ n => word t n
  | real x => word t (wholePart x)
  | float _ x => word t (wholePart x)
  | v => v

/-- Nothing becomes NaN in a column of reals, and a plain integer is a double first. -/
def toFloat (f : Format) : Value → Value
  | none => float f .nan
  | bool b => float f (f.ofInt b.toInt)
  | flag b => float f (f.ofInt b.toInt)
  | int n => float f (f.ofBinary (Format.double.ofInt n))
  | word _ n => float f (f.ofInt n)
  | real x => float f (f.ofBinary x)
  | float _ x => float f (f.ofBinary x)
  | v => v

def toFlag : Value → Value
  | bool b => flag b
  | int n => flag (n ≠ 0)
  | v => v

def isNaN : Value → Bool
  | real x => x.isNaN
  | float _ x => x.isNaN
  | _ => false

/-- Among texts, nothing and NaN are the same and become NaN. Other values stay as they are. -/
def alongTexts (vs : List Value) : List Value :=
  let isText (v : Value) : Bool := match v with | text _ => true | _ => false
  let isMissing (v : Value) : Bool := match v with | none => true | v => v.isNaN
  if vs.any isText && vs.all fun v => isText v || isMissing v then
    vs.map fun v => if isText v then v else real .nan
  else vs

def toPlain : Value → Value
  | flag b => bool b
  | word _ n => int n
  | float _ x => real (Format.double.ofBinary x)
  | v => v

end Value

def DType.store : DType → Value → Value
  | .flag => Value.toFlag
  | .word t => Value.toWord t
  | .float f => Value.toFloat f
  | .object => id

/-- The form that a value of a column has among values of another element type. Machine scalars
become plain only when they leave a column that is typed. -/
def DType.among (own other : DType) : Value → Value :=
  match own, other with
  | .object, .object => id
  | _, .object => Value.toPlain
  | _, t => t.store

end Postfix
