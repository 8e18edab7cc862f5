/-!
# Ranges of whole numbers

Whole numbers are read and stored in 64 bits, with a sign or without one.
-/

namespace Outline.Number

/-- The first number that does not fit in 64 bits. -/
def unsignedLimit : Nat := 0x10000000000000000

/-- The first number that does not fit in 64 bits together with a sign. The numbers with a sign go
from the negative of this one up to the one before it. -/
def signedLimit : Nat := 0x8000000000000000

end Outline.Number
