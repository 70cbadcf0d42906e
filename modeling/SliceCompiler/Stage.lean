import SliceCompiler.Stage.Operator
import SliceCompiler.Stage.SlotMap
import SliceCompiler.Tensor.Layout

/-!
Stages: operators wired to the tensors of a model, and what a stage asks of those tensors.
-/

namespace SliceCompiler

structure Stage where
  label : LayerLabel
  operator : Operator
  inputs : List TensorId
  outputs : List TensorId
  deriving DecidableEq, Repr

namespace Stage

def opcode (s : Stage) : Opcode := s.operator.opcode

/-- A slot for each tensor, none of them with a value. -/
def slots {α : Type} (s : Stage) : SlotMap α := .blank s.inputs.length s.outputs.length

end Stage

/-- An order of the axes, innermost last. -/
structure AxisOrder where
  axes : List Nat
  deriving DecidableEq, Repr

/-- What the strides of a tensor have to satisfy. -/
inductive StridesRule
  | compact
  | alignedInnermost (bytes : Nat)
  deriving DecidableEq, Repr

/-- How a stage deals with a batch. -/
inductive BatchRule
  | split
  | replicateConstant
  deriving DecidableEq, Repr

/-- What a stage asks of its tensors, slot by slot. A blank slot asks for nothing. -/
structure Requirements where
  order : SlotMap AxisOrder
  strides : SlotMap StridesRule
  layout : SlotMap Layout
  batch : SlotMap BatchRule
  deriving DecidableEq, Repr

/-- What an operator enters in the slots of its stage. A strided slice passes order, strides, layout
and batch through. -/
def Operator.require : Operator → Requirements → Requirements
  | .stridedSlice _, slots => slots

def Stage.requirements (s : Stage) : Requirements :=
  s.operator.require { order := s.slots, strides := s.slots, layout := s.slots, batch := s.slots }

end SliceCompiler
