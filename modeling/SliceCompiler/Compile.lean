import SliceCompiler.Blob
import SliceCompiler.Lowering.Layers

/-!
Compilation: layers are lowered into a model, and the model is written as a blob.
-/

namespace SliceCompiler

inductive CompileFault
  | lowering (rejection : Rejection)
  | blob (fault : BlobFault)
  deriving DecidableEq, Repr

def CompileFault.message : CompileFault → String
  | lowering rejection => rejection.message
  | blob fault => fault.message

/-- The stages that were lowered stay in the model, also where no blob can be written. -/
def Model.compile (m : Model) (config : Config) (ls : List Layer) :
    Outcome CompileFault (List UInt8) :=
  let lowered := m.lowerLayers config ls
  match lowered.result with
  | .error rejection => { lowered with result := .error (.lowering rejection) }
  | .ok _ =>
    let (blob, log) := Blob.write lowered.model
    { lowered with
      result := blob.mapError .blob
      log := lowered.log ++ log }

end SliceCompiler
