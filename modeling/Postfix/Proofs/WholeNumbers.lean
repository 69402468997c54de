import Postfix.Proofs.Coercion
import Postfix.Proofs.Number

/-! Numbers taken in by integer types.
Plain and machine integers are taken as they are, and a real is known to be an integer exactly. A
fraction is asked by way of its nearest double, which finds every integer but not only integers: a
fraction close enough to one passes as well, and is cut off. It takes a numerator of 54 bits, or a
denominator beyond the least double, for that. -/
namespace Postfix

namespace Value

def Denotes (v : Value) (n : ℤ) : Prop := v.sameNumber (int n)

end Value

/-! ### Doubles of integers and of fractions -/

namespace NumericType

open Binary

end NumericType

/-! ### What a number denotes -/

namespace Value

open NumericType

variable {n : ℤ}

end Value

namespace NumericType

variable {v : Value}

section

variable {w : WordType} {n : ℤ}

end

end NumericType
end Postfix
