import Postfix.Text.DecimalDigit
import Postfix.Decimal.Literal

/-! Reading of command line arguments against a list of options and one positional argument.
An option may be shortened as long as it stays unambiguous, and may have its value after an equals
sign. What looks like a negative number, or has a space in it, is not taken for an option; after a
double dash nothing is. -/
namespace Postfix.CommandLine

structure OptionSpec where
  name : String
  takesValue : Bool
  choices : Option (List String) := none

inductive Mark
  | plain (s : String)
  | separator
  | option (spec : OptionSpec) (value : Option String)
  | unknown
  | ambiguous

def Mark.isAmbiguous : Mark → Bool
  | .ambiguous => true
  | _ => false

/-- A minus and digits, with at most one point that has a digit after it. -/
def looksNegative (s : String) : Bool :=
  match Decimal.dropFinalNewline s.toList with
  | '-' :: body =>
    let whole := body.takeWhile Text.isDecimalDigit
    match body.dropWhile Text.isDecimalDigit with
    | [] => !whole.isEmpty
    | '.' :: fraction => !fraction.isEmpty && fraction.all Text.isDecimalDigit
    | _ => false
  | _ => false

def splitValue (s : String) : String × Option String :=
  let cs := s.toList
  match cs.dropWhile (· ≠ '=') with
  | [] => (s, none)
  | _ :: value => (String.ofList (cs.takeWhile (· ≠ '=')), some (String.ofList value))

def abbreviated (specs : List OptionSpec) (stem : String) : List OptionSpec :=
  specs.filter fun spec => stem.toList.isPrefixOf spec.name.toList

def shortOptions (specs : List OptionSpec) (s : String) : List OptionSpec :=
  specs.filter fun spec => spec.name.toList = s.toList.take 2

def candidates (specs : List OptionSpec) (s : String) : List (OptionSpec × Option String) :=
  match s.toList with
  | '-' :: '-' :: _ =>
    let (stem, value) := splitValue s
    (abbreviated specs stem).map fun spec => (spec, value)
  | _ => (shortOptions specs s).map fun spec => (spec, none)

def mark (specs : List OptionSpec) (s : String) : Mark :=
  match s.toList with
  | [] => .plain s
  | ['-'] => .plain s
  | '-' :: _ =>
    let (stem, value) := splitValue s
    match specs.find? (·.name = s), specs.find? (·.name = stem) with
    | some spec, _ => .option spec none
    | none, some spec => .option spec value
    | none, none =>
      match candidates specs s with
      | [(spec, value)] => .option spec value
      | [] => if looksNegative s || s.toList.contains ' ' then .plain s else .unknown
      | _ => .ambiguous
  | _ => .plain s

def marks (specs : List OptionSpec) : List String → List Mark
  | [] => []
  | s :: rest =>
    if s = "--" then .separator :: rest.map .plain else mark specs s :: marks specs rest

structure Parsed where
  positional : Option String := none
  options : List (String × Option String) := []
  surplus : Bool := false

inductive Reading
  | parsed (p : Parsed)
  | help
  | invalid

def allows (spec : OptionSpec) (value : String) : Bool :=
  match spec.choices with
  | some choices => choices.contains value
  | none => true

def Parsed.give (p : Parsed) (spec : OptionSpec) (value : Option String) : Parsed :=
  { p with options := p.options ++ [(spec.name, value)] }

def Parsed.place (p : Parsed) (s : String) : Parsed :=
  if p.positional.isSome then { p with surplus := true } else { p with positional := some s }

def isHelp (spec : OptionSpec) : Bool := spec.name = "-h" || spec.name = "--help"

/-- Reads the marks in order. The positional argument has to be there once; a double dash counts
with it if it stands next to it, and is one argument too many otherwise. -/
def readMarks (p : Parsed) : List Mark → Reading
  | [] => if p.positional.isSome && !p.surplus then .parsed p else .invalid
  | .plain s :: .separator :: rest =>
    if p.positional.isSome then readMarks { p with surplus := true } rest
    else readMarks (p.place s) rest
  | .plain s :: rest => readMarks (p.place s) rest
  | .separator :: .plain s :: rest =>
    if p.positional.isSome then readMarks { p with surplus := true } rest
    else readMarks (p.place s) rest
  | .separator :: rest => readMarks { p with surplus := true } rest
  | .unknown :: rest => readMarks { p with surplus := true } rest
  | .ambiguous :: _ => .invalid
  | .option spec (some value) :: rest =>
    if spec.takesValue && allows spec value then readMarks (p.give spec (some value)) rest
    else .invalid
  | .option spec none :: rest =>
    if spec.takesValue then
      match rest with
      | .plain value :: rest =>
        if allows spec value then readMarks (p.give spec (some value)) rest else .invalid
      | _ => .invalid
    else if isHelp spec then .help
    else readMarks (p.give spec none) rest

/-- An ambiguous abbreviation is refused before anything else is read. -/
def read (specs : List OptionSpec) (arguments : List String) : Reading :=
  let marks := marks specs arguments
  if marks.any Mark.isAmbiguous then .invalid else readMarks {} marks

namespace Parsed

def all (p : Parsed) (name : String) : List String :=
  (p.options.filter fun o => o.1 = name).filterMap (·.2)

def last? (p : Parsed) (name : String) : Option String := (p.all name).getLast?

def has (p : Parsed) (name : String) : Bool := p.options.any fun o => o.1 = name

end Parsed
end Postfix.CommandLine
