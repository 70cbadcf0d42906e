import SliceCompiler.Mask
import SliceCompiler.Stage.Opcode

/-!
Operators: what a stage does, with the parameters it keeps.
-/

namespace SliceCompiler

/-- The masks that a strided slice keeps: an axis flagged in one begins, or ends, where the data
does. -/
structure SliceMasks where
  beginMask : Mask
  endMask : Mask
  deriving DecidableEq, Repr

inductive Operator
  | stridedSlice (masks : SliceMasks)
  deriving DecidableEq, Repr

namespace Operator

def opcode : Operator → Opcode
  | stridedSlice _ => .stridedSlice

/-- The parameters as words of a blob. -/
def paramWords : Operator → List UInt32
  | stridedSlice masks => [masks.beginMask, masks.endMask]

end Operator

end SliceCompiler
