import Postfix.Formula.Alignment
import Postfix.Formula.Cache
import Postfix.Settings

/-! Formulas: texts that are parsed once, kept in a cache, and evaluated for one container or for
each row of a frame. A formula is known by its words, so blanks between them make no difference. -/
namespace Postfix.Formula

inductive Level
  | info
  | warning
  | error
  deriving DecidableEq

def Level.name : Level → String
  | info => "INFO"
  | warning => "WARNING"
  | error => "ERROR"

inductive FamilyChoice
  | named (name : String)
  | given (family : Family)

inductive OperandChoice
  | named (name : Value)
  | given (kind : OperandKind)

structure Options where
  operand : Option OperandChoice := none
  family : Option FamilyChoice := none
  variableKind : VariableKind := .name
  cacheSize : Option Int := none
  nanOnError : Option Bool := none

structure Engine where
  operandType : NumericType
  family : Family
  variableKind : VariableKind
  nanOnError : Bool
  cache : Cache
  built : Nat
  log : List (Level × String)

namespace Engine

/-- An empty name leaves the family open. -/
def chosenFamily (s : Settings) : Option FamilyChoice → FamilyChoice
  | some (.given f) => .given f
  | some (.named name) => .named (if name = "" then s.evaluator else name)
  | none => .named s.evaluator

def chosenOperand (s : Settings) (family : FamilyChoice) : Option OperandChoice → OperandChoice
  | some choice => choice
  | none => match family with
    | .named name => .named (.text (s.operandTypeOf name))
    | .given _ => .named (.text s.operandType)

/-- A size of zero asks for the one of the settings. -/
def chosenSize (s : Settings) : Option Int → Int
  | some n => if n = 0 then s.cacheSize else n
  | none => s.cacheSize

def create (s : Settings) (o : Options) : Except Failure Engine := do
  let familyChoice := chosenFamily s o.family
  let operandType ← match chosenOperand s familyChoice o.operand with
    | .named name => (NumericType.lookup name).mapError .fault
    | .given kind => .error (.fault (.unsupportedOperand kind.label))
  let family ← match familyChoice with
    | .named name => (Family.lookup (.text name)).mapError .fault
    | .given f => .ok f
  if family.accepts (.numeric operandType) then
    .ok ⟨operandType, family, o.variableKind, o.nanOnError.getD s.nanOnError,
      Cache.empty (chosenSize s o.cacheSize), 0, []⟩
  else .error (.incompatible family.className operandType.name)

end Engine

/-- An operation of an engine; a failure keeps what has changed by then. -/
abbrev Session := ExceptT Failure (StateM Engine)

namespace Session

def fail {α : Type} (e : Failure) : Session α := fun s => (.error e, s)

def ofExcept {α : Type} : Except Failure α → Session α
  | .ok v => pure v
  | .error e => fail e

def runOn {α : Type} (a : Session α) (s : Engine) : Except Failure α × Engine :=
  (ExceptT.run a).run s

def record (level : Level) (message : String) : Session Unit := fun s =>
  (.ok (), { s with log := s.log ++ [(level, message)] })

end Session

def normalKey (formula : String) : String := Text.joinTokens (Text.splitTokens formula)

def Engine.build (s : Engine) (formula : String) : Except Failure Expression :=
  Expression.ofText formula s.family (.numeric s.operandType) s.variableKind

/-- Parsing looks at the cache first. What cannot be built counts as a miss and is not kept. -/
def parse (formula : String) : Session Entry := fun s =>
  let key := normalKey formula
  match s.cache.find? key with
  | some entry => (.ok entry, { s with cache := s.cache.touch entry })
  | none =>
    match s.build key with
    | .error e => (.error e, { s with cache := s.cache.miss })
    | .ok expression =>
      let entry : Entry := ⟨key, expression, s.built⟩
      let (outcome, cache) := (s.cache.miss.insert entry).evict
      let next := { s with cache := cache, built := s.built + 1 }
      match outcome with
      | .ok _ => (.ok entry, next)
      | .error f => (.error (.fault f), next)

inductive Source
  | text (formula : String)
  | built (e : Expression)

def expressionOf : Source → Session Expression
  | .text formula => return (← parse formula).expression
  | .built e => return e

def evaluate (source : Source) (c : Container) : Session Value := do
  let e ← expressionOf source
  Session.ofExcept (e.evaluate c)

/-- The values of the rows. A row that fails in evaluation has none, if that is asked for; any
other failure ends the run. -/
def rowValues (e : Expression) (skipFailures : Bool) :
    List Container → Except Failure (List (Option Value))
  | [] => .ok []
  | row :: rest =>
    match e.evaluate row with
    | .ok v => (rowValues e skipFailures rest).map (some v :: ·)
    | .error f =>
      if f.isEvaluation && skipFailures then (rowValues e skipFailures rest).map (none :: ·)
      else .error f

/-- The element type of a result: none for no rows, and doubles if a row has no value. -/
def resultType (t : NumericType) (values : List (Option Value)) : DType :=
  if values.isEmpty then .object
  else if values.all Option.isSome then t.dtype
  else .float .double

structure Series where
  name : String
  dtype : DType
  values : List Value
  index : List Value

def resultValues (t : DType) (values : List (Option Value)) : List Value :=
  values.map fun v => match v with
    | some v => t.store v
    | none => t.store .none

def frameSeries (e : Expression) (frame : Frame) : Session Series := do
  let s ← get
  let values ← Session.ofExcept (rowValues e s.nanOnError frame.rows)
  let failures := (values.filter Option.isNone).length
  if failures ≠ 0 then
    let name := String.ofList (e.text.toList.take 50)
    Session.record .warning ("Formula '" ++ name ++ "' failed on " ++ Text.natText failures ++
      "/" ++ Text.natText frame.index.length ++ " rows")
  let t := resultType s.operandType values
  return ⟨e.text, t, resultValues t values, frame.index⟩

def evaluateFrame (source : Source) (data : Data) : Session Series := do
  let e ← expressionOf source
  let frame ← Session.ofExcept (data.prepare.mapError .fault)
  frameSeries e frame

def applyEach (frame transformed : Frame) : List String → Session Frame
  | [] => return transformed
  | formula :: rest => do
    let result ← evaluateFrame (.text formula) (.frame frame)
    applyEach frame (transformed.setColumn ⟨.text result.name, result.dtype, result.values⟩) rest

/-- The frame with a column for each formula, named by its canonical text. Every formula reads the
frame as it was given. Other data may get as far as the formulas, but has no columns to show. -/
def applyFormulas (data : Data) (formulas : List String) : Session Frame :=
  match data with
  | .frame f => applyEach f f formulas
  | data => do
    if data.isCopyable then
      formulas.forM fun formula => do
        let _ ← evaluateFrame (.text formula) data
      Session.fail (.fault (.noAttribute data.typeName "columns"))
    else Session.fail (.fault (.noAttribute data.typeName "copy"))

def clearCache : Session Unit := do
  let s ← get
  Session.record .info ("Cache cleared. Hits: " ++ Text.natText s.cache.hits ++ ", Misses: " ++
    Text.natText s.cache.misses)
  modify fun s => { s with cache := s.cache.clear }

end Postfix.Formula
