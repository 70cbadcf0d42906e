/-!
Sizes: how many elements and bytes there are, and how far apart they lie. A size is a number of
64 bits, and sums and products wrap around: what does not fit in 64 bits is lost.
-/

namespace SliceCompiler.Size

/-- What 64 bits keep of a number. -/
def wrap (n : Nat) : Nat := n % UInt64.size

def add (a b : Nat) : Nat := wrap (a + b)

def mul (a b : Nat) : Nat := wrap (a * b)

theorem wrap_of_lt {n : Nat} (h : n < UInt64.size) : wrap n = n := Nat.mod_eq_of_lt h

/-- It does not matter to a sum whether its parts have wrapped around before. -/
@[simp] theorem add_wrap_left (a b : Nat) : add (wrap a) b = wrap (a + b) := Nat.mod_add_mod ..

@[simp] theorem mul_wrap_left (a b : Nat) : mul (wrap a) b = wrap (a * b) := Nat.mod_mul_mod ..

end SliceCompiler.Size
