/-!
Opcodes: the kinds of stages that the hardware knows, each lowered from layers of one type.
-/

namespace SliceCompiler

inductive Opcode
  | stridedSlice
  deriving DecidableEq, Repr

namespace Opcode

/-- The code at the head of a section of a blob. -/
def code : Opcode → UInt32
  | stridedSlice => 133

/-- The type of the layers that are lowered to this kind of stage. -/
def layerType : Opcode → String
  | stridedSlice => "StridedSlice"

def ofLayerType? (type : String) : Option Opcode :=
  if type = stridedSlice.layerType then some stridedSlice else none

theorem ofLayerType?_eq_some {type : String} {o : Opcode} :
    ofLayerType? type = some o ↔ type = o.layerType := by
  cases o
  simp [ofLayerType?]

end Opcode

end SliceCompiler
