import SliceCompiler.Blob.Word
import SliceCompiler.Tensor.Element

/-!
Contents: the resolved bytes of a constant tensor, and their view as signed 32-bit integers.
-/

namespace SliceCompiler

structure Content where
  element : ElementType
  bytes : List UInt8
  deriving DecidableEq, Repr

namespace Content

def byteSize (c : Content) : Nat := c.bytes.length

def ofInts (values : List Int32) : Content :=
  ⟨.s32, Word.encode (values.map Int32.toUInt32)⟩

/-- The integers of a content that holds whole ones. -/
def ints? (c : Content) : Option (List Int32) :=
  if c.element = .s32 ∧ c.byteSize % Word.size = 0 then
    some ((Word.decode c.bytes).map UInt32.toInt32)
  else none

example : (ofInts [1, -1]).bytes = [1, 0, 0, 0, 255, 255, 255, 255] := by decide
example : (ofInts [7, -2147483648]).ints? = some [7, -2147483648] := by decide

end Content

end SliceCompiler
