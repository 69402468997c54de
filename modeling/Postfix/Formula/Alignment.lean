import Postfix.Binary.Arithmetic
import Postfix.Formula.Frame

/-! Frames put together from columns of their own, each with labels for its rows or without. The
labels of a frame are of one sort where they can be, and the values of a column follow its
labels. -/
namespace Postfix.Formula

/-! ### Labels -/

def realLabel? : Value → Option Value
  | .int n => some (.real (Format.double.ofInt n))
  | .real x => some (.real x)
  | .none => some (.real .nan)
  | _ => none

def isWhole : Value → Bool
  | .int _ => true
  | _ => false

def isText : Value → Bool
  | .text _ => true
  | _ => false

/-- Labels as an index keeps them: if they are numbers and not all of them are integers, all are
reals; beside texts, nothing becomes NaN. -/
def indexLabels (labels : List Value) : List Value :=
  if labels.all isWhole || labels.all fun v => v matches .none then labels
  else match labels.mapM realLabel? with
    | some reals => reals
    | none => Value.alongTexts labels

def sameLabels (xs ys : List Value) : Bool := Value.sameItems xs ys

def inOrder : Value → Value → Bool
  | .int a, .int b => a ≤ b
  | .real x, .real y => x.le y || y.isNaN
  | .text s, .text t => s ≤ t
  | _, _ => true

def sortLabels (labels : List Value) : List Value :=
  let isReal (v : Value) : Bool := match v with | .real _ => true | _ => false
  if labels.all isWhole || labels.all isReal || labels.all isText then labels.mergeSort inOrder
  else labels

def withoutLabels (labels : List Value) : List Value → List Value
  | [] => labels
  | v :: rest => withoutLabels (labels.eraseP (·.same v)) rest

/-- All labels of two lists. They are sorted only if both lists have something to add. -/
def unionLabels (xs ys : List Value) : List Value :=
  if ys.isEmpty || sameLabels xs ys then xs
  else if xs.isEmpty then ys
  else sortLabels (indexLabels (xs ++ withoutLabels ys xs))

def hasRepeated : List Value → Bool
  | [] => false
  | v :: rest => rest.any (·.same v) || hasRepeated rest

/-! ### Columns -/

def withMissing : DType → DType
  | .word _ => .float .double
  | .flag => .object
  | t => t

def missing : DType → Value
  | .float f => .float f .nan
  | _ => .real .nan

def realign (labels : List Value) (c : Column) (own : List Value) : Except Fault Column :=
  let find (label : Value) : Option Value :=
    ((own.zip c.values).find? fun p => p.1.same label).map (·.2)
  let found := labels.map find
  if sameLabels own labels then .ok c
  else if hasRepeated own then .error .repeatedLabels
  else if found.all Option.isSome then .ok { c with values := found.map fun v => v.getD .none }
  else
    let t := withMissing c.dtype
    .ok { c with dtype := t, values := found.map fun v => match v with
        | some v => c.dtype.among t v
        | none => missing t }

structure Loose where
  label : Value
  dtype : DType
  values : List Value
  index : Option (List Value)

/-- A later column replaces an earlier one of the same label. -/
def addLoose (kept : List Loose) (c : Loose) : List Loose :=
  if kept.any fun old => old.label.same c.label then
    kept.map fun old => if old.label.same c.label then c else old
  else kept ++ [c]

/-- Columns without labels take those of the first column that has some. If the labels of the
columns differ, every label of any of them gets a row. -/
def Frame.ofColumns (given : List Loose) : Except Fault Frame := do
  let columns := given.foldl addLoose []
  let reference := columns.findSome? Loose.index
  let indexed ← columns.mapM fun c => match c.index, reference with
    | some own, _ => .ok (c, own)
    | none, none => .ok (c, positions c.values.length)
    | none, some own =>
      if own.length = c.values.length then .ok (c, own)
      else .error (.wrongLength c.values.length own.length)
  match indexed.map (·.2) with
  | [] => .ok ⟨[], []⟩
  | first :: rest =>
    let labels := rest.foldl unionLabels first
    let aligned ← indexed.mapM fun p => realign labels ⟨p.1.label, p.1.dtype, p.1.values⟩ p.2
    .ok ⟨aligned, labels⟩

/-! ### What formulas run over -/

inductive Data
  | frame (f : Frame)
  | columns (cs : List Loose)
  | other (typeName : String)

namespace Data

def prepare : Data → Except Fault Frame
  | frame f => .ok f
  | columns cs => Frame.ofColumns cs
  | other typeName => .error (.unsupportedData typeName)

def typeName : Data → String
  | frame _ => "DataFrame"
  | columns _ => "dict"
  | other typeName => typeName

def isCopyable : Data → Bool
  | other typeName => ["list", "set", "deque", "ndarray", "Series"].contains typeName
  | _ => true

end Data
end Postfix.Formula
