import SliceCompiler.Slot

/-!
Why a blob cannot be written.
-/

namespace SliceCompiler

inductive BlobFault
  /-- A number that no word can hold. -/
  | tooLarge (value : Nat)
  | arity (stage : String) (inputs outputs : Nat)
  | unknownTensor (stage : String) (id : TensorId)
  /-- A word was to be patched where the buffer has none. -/
  | pastEnd (position : Nat)
  deriving DecidableEq, Repr

namespace BlobFault

def detail : BlobFault → String
  | tooLarge value => s!"value {value} does not fit in a u32 word"
  | arity stage inputs outputs =>
    s!"Stage '{stage}' must have 4 inputs and 1 output to be serialized, " ++
      s!"got {inputs} and {outputs}"
  | unknownTensor stage id =>
    s!"Stage '{stage}' references data {id} which is not part of the model"
  | pastEnd position => s!"position {position} is past the end"

/-- The text under which a fault is shown. -/
def headed (detail : String) : String := s!"Blob error: {detail}"

def message (f : BlobFault) : String := headed f.detail

end BlobFault

end SliceCompiler
