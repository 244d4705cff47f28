/-
# Powers of whole numbers

A power of a whole number is the one of the standard library everywhere in the
project. With Mathlib in scope its powers in a monoid would be taken instead, and
one text would have two meanings.
-/

namespace PrintJob

/-- The powers of the standard library, chosen before any other. -/
@[default_instance 20000]
instance (priority := 20000) powNat : Pow Nat Nat := instPowNat

end PrintJob
