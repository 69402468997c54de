import Postfix.Container
import Postfix.Value.Column

/-! Frames: columns of one length under labels, and an index with a label for each row. A row is a
container whose values share one element type, the one that takes in all columns. -/
namespace Postfix.Formula

structure Column where
  label : Value
  dtype : DType
  values : List Value

structure Frame where
  columns : List Column
  index : List Value

def positions (n : Nat) : List Value := (List.range n).map fun (i : Nat) => .int i

namespace Frame

def rowType (f : Frame) : DType := DType.joinAll (f.columns.map Column.dtype)

def cells (f : Frame) (i : Nat) : List Value :=
  Value.alongTexts (f.columns.map fun c =>
    c.dtype.among f.rowType (c.values[i]?.getD .none))

def row (f : Frame) (i : Nat) : Container :=
  .labelled ((f.columns.map Column.label).zip (f.cells i))

def rows (f : Frame) : List Container := (List.range f.index.length).map f.row

def labels (f : Frame) : List String := f.columns.map fun c => c.label.plain

/-- A column takes the place of those with its label, or else comes last. -/
def setColumn (f : Frame) (c : Column) : Frame :=
  if f.columns.any fun old => old.label.same c.label then
    { f with columns := f.columns.map fun old => if old.label.same c.label then c else old }
  else { f with columns := f.columns ++ [c] }

end Frame
end Postfix.Formula
