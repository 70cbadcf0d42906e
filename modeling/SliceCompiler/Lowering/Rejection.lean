import SliceCompiler.Mask
import SliceCompiler.Slot
import SliceCompiler.Tensor.Element

/-!
Why a layer is not lowered.
-/

namespace SliceCompiler

inductive Reason
  | arity (side : Side) (expected : List Nat) (actual : Nat)
  | elementType (slot : Slot) (expected actual : ElementType)
  | placeholder (slot : Slot)
  | unsupportedFeature (param : String)
  | badMask (param : String) (fault : MaskFault)
  | noContent (slot : Slot)
  | nonPositiveStride (index : Nat) (value : Int32)
  | unsupportedType
  | unknownTensor (id : TensorId)
  | producedTwice (output : TensorId)
  /-- The model refused the stage, with this message. -/
  | refused (message : String)
  deriving DecidableEq, Repr

namespace Reason

/-- What was being done to the layer. -/
def activity : Reason → String
  | arity .. | elementType .. | placeholder .. => "Validating layer"
  | unsupportedFeature .. | badMask .. | noContent .. | nonPositiveStride .. => "Checking"
  | unsupportedType | unknownTensor .. | producedTwice .. | refused .. => "Parsing layer"

/-- The counts to choose from, as in `3 or 4`. -/
def choice (counts : List Nat) : String := " or ".intercalate (counts.map toString)

def detail : Reason → String
  | arity side expected actual =>
    s!"number of {side} should be {choice expected}, but {actual} were provided"
  | elementType slot expected actual =>
    s!"{slot} should have data type {expected}, but {actual} was provided"
  | placeholder slot => s!"{slot} cannot be placeholder data"
  | unsupportedFeature param => s!"{param} parameter is not supported"
  | badMask param fault => s!"cannot decode {param}: {fault.message}"
  | noContent slot => s!"content for {slot} is null"
  | nonPositiveStride index value =>
    s!"non-positive stride is not supported, got {value.toInt} at index {index}"
  | unsupportedType => "layer type is not supported"
  | unknownTensor id => s!"data {id} is not part of the model"
  | producedTwice output => s!"output data {output} already has a producer"
  | refused message => message

end Reason

/-- A layer that is not lowered, and why. -/
structure Rejection where
  layer : LayerLabel
  reason : Reason
  deriving DecidableEq, Repr

def Rejection.message (r : Rejection) : String :=
  s!"{r.reason.activity} {r.layer} failed: {r.reason.detail}"

namespace LayerLabel

/-- A reason becomes the rejection of this layer. -/
def reject {α : Type} (l : LayerLabel) (r : Except Reason α) : Except Rejection α :=
  r.mapError (⟨l, ·⟩)

@[simp] theorem reject_ok {α : Type} (l : LayerLabel) (a : α) : l.reject (.ok a) = .ok a := rfl

@[simp] theorem reject_error {α : Type} (l : LayerLabel) (r : Reason) :
    l.reject (.error r : Except Reason α) = .error ⟨l, r⟩ := rfl

end LayerLabel

end SliceCompiler
