import SliceCompiler.Model.Region
import SliceCompiler.Slot
import SliceCompiler.Tensor.Content
import SliceCompiler.Tensor.Layout

/-!
Tensors of a model: what each holds, where it lies, and which stages write and read it.
-/

namespace SliceCompiler

@[ext] structure Tensor where
  id : TensorId
  name : String
  role : Role
  layout : Layout
  content : Option Content
  region : Region
  /-- Where the tensor begins in its region. -/
  offset : Nat
  producer : Option StageId
  /-- The stages that read the tensor, in the order they came; a stage stands here as often as
  it reads the tensor. -/
  consumers : List StageId
  deriving DecidableEq, Repr

namespace Tensor

def element (t : Tensor) : ElementType := t.layout.element

def isPlaceholder (t : Tensor) : Bool := t.role = .placeholder

/-- A placeholder carries no links. -/
def readBy (t : Tensor) (s : StageId) : Tensor :=
  if t.isPlaceholder then t else { t with consumers := t.consumers ++ [s] }

def writtenBy (t : Tensor) (s : StageId) : Tensor := { t with producer := some s }

/-- Keeps the links to the first `n` stages only. -/
def keepStages (t : Tensor) (n : Nat) : Tensor :=
  { t with
    producer := t.producer.filter (· < n)
    consumers := t.consumers.filter (· < n) }

end Tensor

end SliceCompiler
