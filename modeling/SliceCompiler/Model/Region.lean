import SliceCompiler.Size

/-!
Regions: the parts of memory that the bytes of tensors lie in, and how far each is filled.
-/

namespace SliceCompiler

/-- What a tensor is to the model. -/
inductive Role
  | input | output | const | intermediate
  /-- Stands in for an input that a layer leaves out. -/
  | placeholder
  deriving DecidableEq, Repr

/-- Where the bytes of a tensor lie. A placeholder has none, so it lies nowhere. -/
inductive Region
  | nowhere | input | output | blob | bss
  deriving DecidableEq, Repr

/-- The code in a blob. -/
def Region.code : Region → UInt32
  | .nowhere => 0
  | .input => 1
  | .output => 2
  | .blob => 3
  | .bss => 4

theorem Region.code_inj {a b : Region} : a.code = b.code ↔ a = b := by
  cases a <;> cases b <;> decide

def Role.region : Role → Region
  | .input => .input
  | .output => .output
  | .const => .blob
  | .intermediate => .bss
  | .placeholder => .nowhere

/-- The bytes in use, region by region. -/
structure Areas where
  nowhere : Nat := 0
  input : Nat := 0
  output : Nat := 0
  blob : Nat := 0
  bss : Nat := 0
  deriving DecidableEq, Repr

namespace Areas

def size (a : Areas) : Region → Nat
  | .nowhere => a.nowhere
  | .input => a.input
  | .output => a.output
  | .blob => a.blob
  | .bss => a.bss

/-- Where the next tensor of a region begins. -/
def next (a : Areas) (r : Region) : Nat := if r = .nowhere then 0 else a.size r

/-- Takes `bytes` more from the end of a region. What lies nowhere takes none. -/
def grow (a : Areas) (r : Region) (bytes : Nat) : Areas :=
  match r with
  | .nowhere => a
  | .input => { a with input := Size.add a.input bytes }
  | .output => { a with output := Size.add a.output bytes }
  | .blob => { a with blob := Size.add a.blob bytes }
  | .bss => { a with bss := Size.add a.bss bytes }

@[simp] theorem next_nowhere (a : Areas) : a.next .nowhere = 0 := rfl

theorem next_of_ne (a : Areas) {r : Region} (h : r ≠ .nowhere) : a.next r = a.size r := if_neg h

theorem size_grow (a : Areas) (r s : Region) (bytes : Nat) :
    (a.grow r bytes).size s =
      if r = s ∧ r ≠ .nowhere then Size.add (a.size s) bytes else a.size s := by
  cases r <;> cases s <;> rfl

end Areas

end SliceCompiler
