import SliceCompiler.Layer.Params
import SliceCompiler.Slot
import SliceCompiler.Stage.Opcode

/-!
Layers: one use of an operator as a framework describes it, before it is lowered. The tensors
it refers to are those of a model.
-/

namespace SliceCompiler

structure Layer where
  label : LayerLabel
  inputs : List TensorId
  outputs : List TensorId
  params : Params := .empty
  deriving DecidableEq

namespace Layer

def withParam (l : Layer) (key value : String) : Layer :=
  { l with params := l.params.set key value }

/-- Sets parameters in order. -/
def withParams (l : Layer) (entries : List (String × String)) : Layer :=
  entries.foldl (fun l e => l.withParam e.1 e.2) l

def param (l : Layer) (key default : String) : String := (l.params.get? key).getD default

/-- A strided slice. Its inputs are the data, where to begin, where to end and, unless every
step is one, the strides. -/
def stridedSlice (name : String) (inputs : List TensorId) (output : TensorId) : Layer :=
  { label := ⟨name, Opcode.stridedSlice.layerType⟩, inputs, outputs := [output] }

/-- A strided slice with the texts of the masks that its stage keeps. -/
def maskedSlice (name : String) (inputs : List TensorId) (output : TensorId)
    (beginMask endMask : String) : Layer :=
  ((stridedSlice name inputs output).withParam "begin_mask" beginMask).withParam
    "end_mask" endMask

end Layer

end SliceCompiler
