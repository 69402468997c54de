import Postfix.Failure
import Postfix.Decimal.Literal

/-! Variables: a sign followed by an index or by a name.
The text of a variable is canonical, so two variables are the same if and only if their kinds and
keys are. A name may end in one line feed, which is part of its key. -/
namespace Postfix

open Text

def variableSigil : String := "$"

/-- The sign of the third kind of variable, whose key is any text. -/
def markSigil : String := "@"

inductive Variable
  | index (n : Nat)
  | name (s : String)
  | marked (s : String)
  deriving DecidableEq

namespace Variable

def key : Variable → Value
  | index n => .int n
  | name s => .text s
  | marked s => .text s

def text : Variable → String
  | index n => variableSigil ++ natText n
  | name s => variableSigil ++ s
  | marked s => s

def shown : Variable → String
  | index n => "IndexVar(" ++ natText n ++ ")"
  | name s => "NameVar(" ++ quoted s ++ ")"
  | marked s => quoted s

end Variable

inductive VariableKind
  | none
  | dummy
  | index
  | name
  | marked
  deriving DecidableEq

def afterSigil (sign token : String) : Except Refusal (List Char) :=
  match sign.toList.isPrefixOf? token.toList with
  | some rest => .ok rest
  | none => .error (.token (.sigil token sign))

def isNameStart (c : Char) : Bool := ('A' ≤ c && c ≤ 'Z') || ('a' ≤ c && c ≤ 'z') || c = '_'

/-- A letter or an underscore, then letters, digits and underscores, all of them ASCII. -/
def isName : List Char → Bool
  | [] => false
  | c :: rest => isNameStart c && rest.all fun d => isNameStart d || isDigit d

def readIndex (token : String) : Except Refusal Variable := do
  let digits ← afterSigil variableSigil token
  if digits.isEmpty || !digits.all isDigit then
    let shown := quoted (String.ofList digits)
    .error (.token (.index token (shown ++ " is not a non-negative integer")))
  else if Decimal.digitLimit < digits.length then .error (.fault (.digitLimit digits.length))
  else .ok (.index (readDigits digits))

def readName (token : String) : Except Refusal Variable := do
  let cs ← afterSigil variableSigil token
  if isName (Decimal.dropFinalNewline cs) then .ok (.name (String.ofList cs))
  else .error (.token (.index token (quoted (String.ofList cs) ++ " is not an identifier")))

def readMarked (token : String) : Except Refusal Variable := do
  return .marked (String.ofList (← afterSigil markSigil token))

def VariableKind.read : VariableKind → String → Except Refusal Variable
  | none, token => .error (.token (.noVariables token))
  | dummy, token => .error (.token (.noVariables token))
  | index, token => readIndex token
  | name, token => readName token
  | marked, token => readMarked token

end Postfix
