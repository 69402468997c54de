/-! Natural numbers written in decimal and in hexadecimal, and decimal digits read back. -/
namespace Postfix.Text

def isDigit (c : Char) : Bool := '0' ≤ c && c ≤ '9'

def digitValue (c : Char) : Nat := c.toNat - '0'.toNat

def digitChar (n : Nat) : Char :=
  if n < 10 then Char.ofNat ('0'.toNat + n) else Char.ofNat ('a'.toNat + (n - 10))

def natDigits (n : Nat) : List Char :=
  if n < 10 then [digitChar n] else natDigits (n / 10) ++ [digitChar (n % 10)]
termination_by n

def readDigits (cs : List Char) : Nat := cs.foldl (fun n c => 10 * n + digitValue c) 0

def natText (n : Nat) : String := String.ofList (natDigits n)

def intText (n : Int) : String :=
  if n < 0 then "-" ++ natText n.natAbs else natText n.natAbs

def hexDigits : (width n : Nat) → List Char
  | 0, _ => []
  | width + 1, n => hexDigits width (n / 16) ++ [digitChar (n % 16)]

def exponentDigits (n : Nat) : List Char :=
  if n < 10 then '0' :: natDigits n else natDigits n

end Postfix.Text
