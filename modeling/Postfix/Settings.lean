import Postfix.Operator.Family
import Postfix.Variable
import Postfix.Text.Alphanumeric
import Postfix.Text.Blank

/-! Settings, and the conditions that they are checked against. The conditions are looked at in
order and the first that fails is reported; some have no message. The sign that variables are read
with is not taken from here. -/
namespace Postfix

structure Settings where
  sigil : String := variableSigil
  operandType : String := "float64"
  evaluator : String := "float"
  familyOperandTypes : List (String × String) := [("float", "float64"), ("int", "int64")]
  separator : String := " "
  cacheSize : Int := 1000
  nanOnError : Bool := true
  logLevel : String := "INFO"
  logFormat : String := "%(asctime)s - %(name)s - %(levelname)s - %(message)s"

namespace Settings

def operandTypes : List String := NumericType.registered.map NumericType.name

def evaluators : List String := ["float", "int"]

def isSymbolic (sigil : String) : Bool :=
  let cs := sigil.toList
  !cs.isEmpty && !cs.all Text.isAlphanumeric && !cs.all Text.isBlank

def occursIn (part : List Char) : List Char → Bool
  | [] => part.isEmpty
  | c :: rest => part.isPrefixOf (c :: rest) || occursIn part rest

def conditions (s : Settings) : List (Bool × String) :=
  [(isSymbolic s.sigil, "变量前缀必须是非字母数字的符号"),
    (!occursIn s.sigil.toList ['+', '-', '.'], "变量前缀不能与数值字面量冲突"),
    (operandTypes.contains s.operandType, ""),
    (evaluators.contains s.evaluator, ""),
    (0 < s.cacheSize, "缓存大小必须为正"),
    (s.evaluator ≠ "int" || ['i', 'n', 't'].isPrefixOf s.operandType.toList, ""),
    (s.familyOperandTypes.all fun p => evaluators.contains p.1 && operandTypes.contains p.2, "")]

def validate (s : Settings) : Except Fault Unit :=
  match s.conditions.find? fun c => !c.1 with
  | none => .ok ()
  | some c => .error (.badSetting c.2)

def operandTypeOf (s : Settings) (family : String) : String :=
  match s.familyOperandTypes.lookup family with
  | some name => if name = "" then s.operandType else name
  | none => s.operandType

end Settings
end Postfix
