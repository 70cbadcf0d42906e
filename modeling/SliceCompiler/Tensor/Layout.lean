import SliceCompiler.Size
import SliceCompiler.Tensor.Element

/-!
Layouts: the element type and the dimensions of a tensor, innermost last, stored in row-major
order without gaps. The numbers of elements and of bytes are sizes: those of a layout that is too
large wrap around.
-/

namespace SliceCompiler

@[ext] structure Layout where
  element : ElementType
  dims : List Nat
  deriving DecidableEq, Repr

namespace Layout

def rank (l : Layout) : Nat := l.dims.length

/-- The number of positions in a box of these dimensions; the box of no dimensions has one. -/
def volume (dims : List Nat) : Nat := dims.foldr (· * ·) 1

@[simp] theorem volume_nil : volume [] = 1 := rfl

@[simp] theorem volume_cons (d : Nat) (dims : List Nat) :
    volume (d :: dims) = d * volume dims := rfl

/-- The number of elements, multiplied up one dimension after the other. -/
def count (l : Layout) : Nat := l.dims.foldl Size.mul 1

def byteSize (l : Layout) : Nat := Size.mul l.count l.element.size

/-- The step of each axis in a row-major order whose innermost step is `unit`: one step of an
axis passes over everything that lies further in. -/
def rowMajor (unit : Nat) : List Nat → List Nat
  | [] => []
  | _ :: inner => Size.wrap (volume inner * unit) :: rowMajor unit inner

/-- The bytes between neighbours along each axis. -/
def strides (l : Layout) : List Nat := rowMajor l.element.size l.dims

theorem foldl_mul_wrap (a : Nat) (dims : List Nat) :
    dims.foldl Size.mul (Size.wrap a) = Size.wrap (a * volume dims) := by
  induction dims generalizing a with
  | nil => rw [List.foldl_nil, volume_nil, Nat.mul_one]
  | cons d dims ih => rw [List.foldl_cons, Size.mul_wrap_left, ih, volume_cons, Nat.mul_assoc]

/-- It is all the same whether the elements wrap around dimension by dimension or in the end. -/
theorem count_eq (l : Layout) : l.count = Size.wrap (volume l.dims) := by
  rw [← Nat.one_mul (volume l.dims), ← foldl_mul_wrap]
  rfl

theorem byteSize_eq (l : Layout) : l.byteSize = Size.wrap (volume l.dims * l.element.size) := by
  rw [byteSize, count_eq, Size.mul_wrap_left]

@[simp] theorem length_rowMajor (unit : Nat) (dims : List Nat) :
    (rowMajor unit dims).length = dims.length := by
  induction dims with
  | nil => rfl
  | cons _ _ ih => simp [rowMajor, ih]

@[simp] theorem length_strides (l : Layout) : l.strides.length = l.rank :=
  length_rowMajor _ _

example : (⟨.s32, [2, 3, 4]⟩ : Layout).strides = [48, 16, 4] := by decide
example : (⟨.fp16, [0, 5]⟩ : Layout).strides = [10, 2] := by decide
example : (⟨.u8, [0, 2147483648, 2147483648, 2147483648]⟩ : Layout).strides =
    [0, 4611686018427387904, 2147483648, 1] := by decide

end Layout

end SliceCompiler
