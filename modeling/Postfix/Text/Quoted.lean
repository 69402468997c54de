import Postfix.Text.Digits
import Postfix.Text.Printable

/-! Text between quotes, as messages show it.
Single quotes are used unless the text has a single quote and no double quote. The quote in use
and the backslash are escaped, and so is every character that may not show as itself. -/
namespace Postfix.Text

def quoteFor (cs : List Char) : Char :=
  if cs.contains '\'' && !cs.contains '"' then '"' else '\''

def escapeChar (quote c : Char) : List Char :=
  if c = quote || c = '\\' then ['\\', c]
  else if c = '\n' then ['\\', 'n']
  else if c = '\t' then ['\\', 't']
  else if c = '\r' then ['\\', 'r']
  else if isPrintable c then [c]
  else
    let n := c.toNat
    if n < 0x100 then '\\' :: 'x' :: hexDigits 2 n
    else if n < 0x10000 then '\\' :: 'u' :: hexDigits 4 n
    else '\\' :: 'U' :: hexDigits 8 n

def quoteChars (cs : List Char) : List Char :=
  let quote := quoteFor cs
  quote :: (cs.flatMap (escapeChar quote) ++ [quote])

def quoted (s : String) : String := String.ofList (quoteChars s.toList)

/-- Bytes are quoted like text, but only printable ASCII shows as itself. -/
def escapeByte (quote : Char) (b : Nat) : List Char :=
  let c := Char.ofNat b
  if c = quote || c = '\\' then ['\\', c]
  else if c = '\n' then ['\\', 'n']
  else if c = '\t' then ['\\', 't']
  else if c = '\r' then ['\\', 'r']
  else if 32 ≤ b && b < 127 then [c]
  else '\\' :: 'x' :: hexDigits 2 b

def quotedBytes (bytes : List UInt8) : String :=
  let codes := bytes.map UInt8.toNat
  let quote := quoteFor (codes.map Char.ofNat)
  String.ofList ('b' :: quote :: (codes.flatMap (escapeByte quote) ++ [quote]))

end Postfix.Text
