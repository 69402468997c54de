import Postfix.Binary.Basic

/-! The values that containers hold and stacks carry, and the element types of typed columns.
Plain numbers stand apart from machine scalars: a plain integer has any size and a plain real is a
double, while a machine scalar carries its width. A machine word is kept as the integer it denotes;
nothing here confines it to the range of its type. -/
namespace Postfix

inductive Width
  | w8
  | w16
  | w32
  | w64
  deriving DecidableEq

def Width.bits : Width → Nat
  | .w8 => 8
  | .w16 => 16
  | .w32 => 32
  | .w64 => 64

structure WordType where
  signed : Bool
  width : Width
  deriving DecidableEq

namespace WordType

def minimum (t : WordType) : Int := if t.signed then -(2 ^ (t.width.bits - 1) : Nat) else 0

def maximum (t : WordType) : Int :=
  if t.signed then (2 ^ (t.width.bits - 1) : Nat) - 1 else (2 ^ t.width.bits : Nat) - 1

def holds (t : WordType) (n : Int) : Bool := t.minimum ≤ n && n ≤ t.maximum

end WordType

inductive DType
  | flag
  | word (t : WordType)
  | float (f : Format)
  | object
  deriving DecidableEq

/-- The two values of the small sample arithmetic. -/
inductive OneTwo
  | one
  | two
  deriving DecidableEq

/-- A decimal number as it was written, trailing zeros included. -/
inductive DecimalNumber
  | finite (negative : Bool) (coefficient : Nat) (exponent : Int)
  | infinite (negative : Bool)
  | nan (negative signalling : Bool) (payload : Option Nat)

inductive Value
  | none
  | bool (b : Bool)
  | int (n : Int)
  | real (x : Binary)
  | fraction (num : Int) (den : Nat)
  | decimal (d : DecimalNumber)
  | complex (z : ComplexBinary)
  | text (s : String)
  | bytes (bs : List UInt8)
  | list (items : List Value)
  | tuple (items : List Value)
  | /-- values under names, one for each -/
    mapping (names : List String) (items : List Value)
  | flag (b : Bool)
  | word (t : WordType) (n : Int)
  | float (f : Format) (x : Binary)
  | /-- a complex machine scalar, whose parts are of one format -/
    complexFloat (f : Format) (z : ComplexBinary)
  | /-- a text of the machine, whose type counts its characters -/
    fixedText (s : String)
  | fixedBytes (bs : List UInt8)
  | oneTwo (v : OneTwo)
  | /-- the several values that one label stands for -/
    labelled
  | /-- several values in a row, such as a row of a grid -/
    gridRow

instance : Inhabited Value := ⟨.none⟩

end Postfix
