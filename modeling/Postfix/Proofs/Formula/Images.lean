import Postfix.Proofs.WholeNumbers
import Postfix.Proofs.Formula.Cells

/-! What a cell becomes in rows of different element types, and how it is taken in there.
The element type of a row depends on all of its columns. A cell is taken in as the same operand in
each of them, unless it is a word of 64 bits that has to go through a double, or a missing value
that texts turn into NaN. -/
namespace Postfix

namespace NumericType

/-! ### Numbers taken in -/

section

variable {t : NumericType} {u : WordType} {h : Format} {v w : Value}

/-- The datum that a number is rounded to; plain integers are doubles first. -/
def datum (h : Format) : Value → Binary
  | .word _ n => h.ofInt n
  | .int n => h.ofBinary (Format.double.ofInt n)
  | .real x => h.ofBinary x
  | .float _ x => h.ofBinary x
  | _ => .nan

end

/-! ### Cells -/

section

variable {a : WordType} {n : ℤ} {f : Format} {x : Binary} {r : DType}

end

section

variable {t : NumericType} {own r r' : DType} {v : Value}

end

end NumericType
end Postfix
