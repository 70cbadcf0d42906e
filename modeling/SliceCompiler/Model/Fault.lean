import SliceCompiler.Slot
import SliceCompiler.Tensor.Element

/-!
Why a model refuses a tensor or a stage.
-/

namespace SliceCompiler

inductive ModelFault
  | contentType (tensor : String) (content layout : ElementType)
  | contentSize (tensor : String) (content layout : Nat)
  | unknownTensor (stage : String) (id : TensorId) (model : String)
  | placeholderOutput (stage tensor : String)
  | producedTwice (stage tensor producer : String)
  /-- A tensor names a producer that the model does not have. -/
  | lostProducer (stage tensor : String) (producer : StageId)
  deriving DecidableEq, Repr

namespace ModelFault

def detail : ModelFault → String
  | contentType tensor content layout =>
    s!"Const data '{tensor}' has content of type {content} but descriptor type {layout}"
  | contentSize tensor content layout =>
    s!"Const data '{tensor}' has {content} content bytes, descriptor requires {layout}"
  | unknownTensor stage id model =>
    s!"Stage '{stage}' references data {id} which is not part of model '{model}'"
  | placeholderOutput stage tensor =>
    s!"Stage '{stage}' cannot produce placeholder data '{tensor}'"
  | producedTwice stage tensor producer =>
    s!"Stage '{stage}' output '{tensor}' is already produced by stage '{producer}'"
  | lostProducer stage tensor producer =>
    s!"Stage '{stage}' output '{tensor}' has the unknown stage {producer} as its producer"

/-- The text under which a refusal is shown. -/
def headed (detail : String) : String := s!"Model error: {detail}"

def message (f : ModelFault) : String := headed f.detail

end ModelFault

end SliceCompiler
