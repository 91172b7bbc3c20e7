/-!
# Powers of the two bases

Doubles are counted in powers of two, decimals in powers of ten.
-/

namespace Switchyard.Decimal

def twoTo (n : Nat) : Nat := Nat.pow 2 n

def tenTo (n : Nat) : Nat := Nat.pow 10 n

end Switchyard.Decimal
