import SliceCompiler.Lowering.Rejection

/-!
The log: what lowering and writing report while they run.
-/

namespace SliceCompiler

/-- Where the strides of a slice come from. -/
inductive StridesSource
  /-- The strides are left out: every step is one. -/
  | unit
  | tensor (id : TensorId)
  deriving DecidableEq, Repr

def StridesSource.text : StridesSource → String
  | unit => "Unit"
  | tensor id => s!"Explicit({id})"

inductive Level
  | trace | debug | info | warn
  deriving DecidableEq, Repr

def Level.name : Level → String
  | trace => "TRACE"
  | debug => "DEBUG"
  | info => "INFO"
  | warn => "WARN"

inductive Event
  | loweringStarted (layers : Nat) (model : String)
  | sliceRead (layer : String) (beginMask endMask : Mask) (strides : StridesSource)
  | layerLowered (layer : String) (stage : StageId)
  | layerSkipped (layer : String) (rejection : Rejection)
  | loweringFinished (model : String) (stages skipped : Nat)
  | sectionWritten (stage : String) (bytes : Nat)
  | blobWritten (model : String) (stages bytes : Nat)
  deriving DecidableEq, Repr

namespace Event

def level : Event → Level
  | sliceRead .. | sectionWritten .. => .trace
  | layerLowered .. | blobWritten .. => .debug
  | loweringStarted .. | loweringFinished .. => .info
  | layerSkipped .. => .warn

/-- A mask in binary digits. -/
def binary (m : Mask) : String := "0b" ++ String.ofList (Nat.toDigits 2 m.toNat)

def text : Event → String
  | loweringStarted layers model => s!"Lowering {layers} layers into model '{model}'"
  | sliceRead layer beginMask endMask strides =>
    s!"{layer}: begin_mask={binary beginMask} end_mask={binary endMask} " ++
      s!"strides={strides.text}"
  | layerLowered layer stage => s!"Lowered layer '{layer}' to StridedSlice stage {stage}"
  | layerSkipped layer rejection => s!"Skipping layer '{layer}': {rejection.message}"
  | loweringFinished model stages skipped =>
    s!"Model '{model}' now has {stages} stages ({skipped} layers skipped)"
  | sectionWritten stage bytes => s!"Serialized stage '{stage}' ({bytes} bytes)"
  | blobWritten model stages bytes =>
    s!"Wrote blob for model '{model}': {stages} stages, {bytes} bytes"

end Event

end SliceCompiler
