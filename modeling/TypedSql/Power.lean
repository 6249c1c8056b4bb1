/-!
# Powers

The powers of two and of ten that scale the numbers of a format and bound them.
-/

namespace TypedSql

/-- Two to the power of `k`. -/
def twoTo (k : Nat) : Nat := Nat.pow 2 k

/-- Ten to the power of `k`. -/
def tenTo (k : Nat) : Nat := Nat.pow 10 k

end TypedSql
