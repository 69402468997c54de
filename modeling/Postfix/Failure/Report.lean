import Postfix.Failure.Kind
import Postfix.Value.Digest

/-! Failures that are put together from a kind and the values to report, without an expression that
failed. The wording is the one that expressions use; a value that is left out is nothing. -/
namespace Postfix

open Text

structure Report where
  kind : FailureKind
  values : List Value

/-- Why values do not make a report. Each case begins with the name of what they were given to. -/
inductive ReportFault
  | givenTwice (maker name : String)
  | unknownName (maker name : String)
  | noNames (maker : String)
  | /-- more values than the most that is taken -/
    tooMany (maker : String) (least most given : Nat)
  | missing (maker : String) (names : List String)
  deriving DecidableEq

namespace ReportFault

def enumerated : List String → String
  | [] => ""
  | [a] => quoted a
  | [a, b] => quoted a ++ " and " ++ quoted b
  | names =>
    ", ".intercalate (names.dropLast.map quoted) ++ ", and " ++ quoted (names.getLast?.getD "")

def message : ReportFault → String
  | givenTwice maker name =>
    maker ++ "() got multiple values for argument " ++ quoted name
  | unknownName maker name =>
    maker ++ "() got an unexpected keyword argument " ++ quoted name
  | noNames maker => maker ++ "() takes no keyword arguments"
  | tooMany maker least most given =>
    let range := if least = most then natText most
      else "from " ++ natText least ++ " to " ++ natText most
    maker ++ "() takes " ++ range ++ " positional argument" ++ (if most = 1 then "" else "s") ++
      " but " ++ natText given ++ " were given"
  | missing maker names =>
    maker ++ "() missing " ++ natText names.length ++ " required positional argument" ++
      (if names.length = 1 then "" else "s") ++ ": " ++ enumerated names

end ReportFault

/-- Whether a value counts as given where nothing, zero or an empty text means "left out". -/
def Value.isGiven : Value → Bool
  | none => false
  | text s => s ≠ ""
  | bytes bs => !bs.isEmpty
  | list items => !items.isEmpty
  | tuple items => !items.isEmpty
  | v => match v.number? with
    | some x => !x.same (.ratio 0 1)
    | Option.none => true

namespace Report

structure Parameter where
  name : String
  default : Option Value := none

def Parameter.optional (name : String) : Parameter := ⟨name, some .none⟩

/-- The values that a kind takes by position or by name. The other kinds take any number of
values, by position only. -/
def parameters? : FailureKind → Option (List Parameter)
  | .conversion => some [⟨"token", none⟩, .optional "message"]
  | .operatorToken => some [⟨"token", none⟩, .optional "family"]
  | .operandToken => some [⟨"token", none⟩, .optional "type_name", .optional "reason"]
  | .variableSigil => some [⟨"token", none⟩, ⟨"sigil", some (.text "$")⟩]
  | .variableIndex => some [⟨"token", none⟩, .optional "reason"]
  | .noVariables => some [⟨"token", none⟩]
  | .classification =>
    some [⟨"token", none⟩, ⟨"evaluator_error", none⟩, ⟨"variable_error", none⟩,
      ⟨"operand_error", none⟩]
  | .incompatible => some [⟨"evaluator_type", none⟩, ⟨"operand_type", none⟩]
  | .notEnough => some [.optional "position", .optional "token"]
  | .tooMany => some [⟨"remaining", none⟩]
  | .notFound => some [⟨"variable", none⟩]
  | .unfit => some [⟨"variable", none⟩, ⟨"value", none⟩, ⟨"type_name", none⟩]
  | _ => none

def fill (named : List (String × Value)) :
    List Parameter → List Value → List String × List Value
  | [], _ => ([], [])
  | p :: rest, [] =>
    let (missing, values) := fill named rest []
    match (named.lookup p.name).or p.default with
    | some v => (missing, v :: values)
    | none => (p.name :: missing, values)
  | _ :: rest, v :: given =>
    let (missing, values) := fill named rest given
    (missing, v :: values)

def wrongName? (maker : String) (taken free : List Parameter) (name : String) :
    Option ReportFault :=
  if taken.any (·.name = name) then some (.givenTwice maker name)
  else if free.any (·.name = name) then none
  else some (.unknownName maker name)

/-- Names are looked at first, then the number of values, then the values that are missing. What
values are given to counts itself among them. -/
def make (kind : FailureKind) (given : List Value) (named : List (String × Value)) :
    Except ReportFault Report :=
  let isOperands := kind.isA .operands
  let maker := (if isOperands then FailureKind.operands.name else kind.name) ++ ".__init__"
  match parameters? kind with
  | none => match named.head? with
    | none => .ok ⟨kind, given⟩
    | some (name, _) =>
      .error (if isOperands then .unknownName maker name else .noNames kind.name)
  | some ps =>
    let wrong := named.findSome? fun p =>
      wrongName? maker (ps.take given.length) (ps.drop given.length) p.1
    let required := ps.filter fun p => p.default.isNone
    match wrong with
    | some fault => .error fault
    | none =>
      if ps.length < given.length then
        .error (.tooMany maker (required.length + 1) (ps.length + 1) (given.length + 1))
      else match fill named ps given with
        | ([], values) => .ok ⟨kind, values⟩
        | (missing, _) => .error (.missing maker missing)

def entry (r : Report) (i : Nat) : Value := r.values[i]?.getD .none

def description : FailureKind → String
  | .arithmetic e => e.description
  | _ => "evaluation failed"

def bare : List Value → String
  | [] => ""
  | [v] => v.plain
  | vs => (Value.tuple vs).shown

def message (r : Report) : String :=
  let first := r.entry 0
  let second := r.entry 1
  let third := r.entry 2
  match r.kind with
  | .conversion => if second.isGiven then second.plain else Wording.unconvertible first.shown
  | .operatorToken =>
    Wording.operator first.shown (if second.isGiven then second.inserted else "evaluator")
  | .operandToken =>
    Wording.operand first.shown (if second.isGiven then second.inserted else "operand")
      (if third.isGiven then some third.inserted else none)
  | .variableSigil => Wording.sigil first.shown second.shown
  | .variableIndex => Wording.index first.shown second.inserted
  | .noVariables => Wording.noVariables first.shown
  | .classification =>
    Wording.unclassified first.shown second.inserted third.inserted (r.entry 3).inserted
  | .incompatible => Wording.incompatible first.inserted second.inserted
  | .notEnough =>
    match second with
    | .none => Wording.noResult
    | token => Wording.notEnough token.inserted first.inserted
  | .tooMany => Wording.tooMany first.inserted
  | .notFound => Wording.notFound first.inserted
  | .unfit => Wording.unfit first.inserted second.shown third.inserted
  | kind =>
    if kind.isA .operands then Wording.operands (description kind) (r.values.map Value.shown)
    else bare r.values

def same (r s : Report) : Bool :=
  r.kind.isA .operands && r.kind = s.kind && (Value.tuple r.values).equal (.tuple s.values)

def sameHash (r s : Report) : Bool :=
  r.kind.isA .operands && r.kind = s.kind && (Value.tuple r.values).sameHash (.tuple s.values)

def notKey? (r : Report) : Option String :=
  if r.kind.isA .operands then (Value.tuple r.values).notKey? else none

end Report
end Postfix
