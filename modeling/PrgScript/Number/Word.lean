/-!
# Numbers of one word

Counts that a caller may start anywhere are signed numbers of 64 bits. Counting past the
largest goes on at the smallest, and below the smallest at the largest.
-/

-- A power with a fixed exponent is the core library's in every module, also where an algebraic
-- hierarchy with powers of its own is imported.
attribute [default_instance 20000] instPowNat

namespace PrgScript.Number

/-- The signed 64-bit number that agrees with a whole number in its lowest 64 bits. -/
def wrap (n : Int) : Int := n.bmod (2 ^ 64)

/-- A number of 64 bits stays as it is. -/
theorem wrap_eq_self {n : Int} (least : -2 ^ 63 ≤ n) (most : n < 2 ^ 63) : wrap n = n :=
  Int.bmod_eq_of_le_mul_two (by omega) (by omega)

end PrgScript.Number
