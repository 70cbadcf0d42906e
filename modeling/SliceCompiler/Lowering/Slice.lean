import SliceCompiler.Layer
import SliceCompiler.Lowering.SliceTensors
import SliceCompiler.Model.Admission

/-!
Lowering of strided slices. Everything that can speak against a layer is looked at before the
model changes; then a placeholder is added if the strides are left out, and the stage.
-/

namespace SliceCompiler.Slice

/-- The tensors of a layer, when they fit and the output is not yet written. -/
def validate (l : Layer) (m : Model) : Except Reason SliceTensors := do
  let ts ← SliceTensors.ofLists l.inputs l.outputs
  ts.check m
  let output ← m.resolve ts.output
  if output.producer.isSome then .error (.producedTwice ts.output) else .ok ts

/-! ### Masks -/

/-- The mask that a parameter holds; one that is not set is empty. -/
def mask (l : Layer) (param : String) : Except Reason Mask :=
  (Mask.decode (l.param param "")).mapError (.badMask param)

/-- The masks of features that the hardware does not have. -/
def unsupported : List String := ["new_axis_mask", "shrink_axis_mask", "ellipsis_mask"]

def checkUnset (l : Layer) : List String → Except Reason Unit
  | [] => .ok ()
  | param :: rest => do
    let flags ← mask l param
    if flags = 0 then checkUnset l rest else .error (.unsupportedFeature param)

/-- No unsupported feature is asked for. -/
def gate (l : Layer) : Except Reason Unit := checkUnset l unsupported

/-- The masks that the stage keeps. -/
def keptMasks (l : Layer) : Except Reason SliceMasks := do
  let beginMask ← mask l "begin_mask"
  let endMask ← mask l "end_mask"
  return ⟨beginMask, endMask⟩

/-! ### Operands -/

/-- The inputs of a slice, with the source of its strides settled. -/
structure Operands where
  data : TensorId
  start : TensorId
  stop : TensorId
  strides : StridesSource
  deriving DecidableEq, Repr

/-- The first stride that is not positive, with its place. -/
def badStride? (strides : List Int32) : Option (Nat × Int32) :=
  (strides.zipIdx.find? fun (v, _) => v ≤ 0).map fun (v, i) => (i, v)

/-- Strides have to be known while lowering, and positive. -/
def checkStrides (id : TensorId) (m : Model) : Except Reason Unit := do
  let t ← m.resolve id
  match t.content.bind Content.ints? with
  | none => .error (.noContent SliceTensors.stridesSlot)
  | some strides =>
    match badStride? strides with
    | some (index, value) => .error (.nonPositiveStride index value)
    | none => .ok ()

def operands (ts : SliceTensors) (m : Model) : Except Reason Operands :=
  match ts.strides with
  | none => .ok ⟨ts.data, ts.start, ts.stop, .unit⟩
  | some id => do
    checkStrides id m
    return ⟨ts.data, ts.start, ts.stop, .tensor id⟩

/-- The operands of a layer, whatever else may speak against it. -/
def operandsOf (l : Layer) (m : Model) : Except Reason Operands := do
  operands (← SliceTensors.ofLists l.inputs l.outputs) m

/-- The four inputs of the stage. Strides left out become a new placeholder. -/
def Operands.supply (o : Operands) (m : Model) : List TensorId × Model :=
  match o.strides with
  | .tensor id => ([o.data, o.start, o.stop, id], m)
  | .unit =>
    let (id, m) := m.addPlaceholder
    ([o.data, o.start, o.stop, id], m)

/-! ### Stages -/

/-- The stage of a layer. -/
def stage (l : Layer) (inputs : List TensorId) (masks : SliceMasks) : Stage :=
  { label := l.label, operator := .stridedSlice masks, inputs, outputs := l.outputs }

/-- What is settled before the model changes. -/
structure Plan where
  masks : SliceMasks
  operands : Operands
  deriving DecidableEq, Repr

def plan (l : Layer) (m : Model) : Except Reason Plan := do
  let ts ← validate l m
  gate l
  let masks ← keptMasks l
  return ⟨masks, ← operands ts m⟩

/-- Appends the stage of a planned layer; with `recheck`, only if it passes its own check. The
model that is left after a failure may hold a placeholder too many. -/
def appendStage (recheck : Bool) (l : Layer) (p : Plan) (m : Model) : Outcome Rejection StageId :=
  let (inputs, m) := p.operands.supply m
  let s := stage l inputs p.masks
  match if recheck then s.check m else .ok () with
  | .error rejection => { result := .error rejection, model := m }
  | .ok () =>
    let added := m.addStage s
    match added.result with
    | .error fault =>
      { result := .error ⟨l.label, .refused fault.message⟩, model := added.model }
    | .ok id =>
      { result := .ok id, model := added.model, log := [.layerLowered l.label.name id] }

def lower (recheck : Bool) (l : Layer) (m : Model) : Outcome Rejection StageId :=
  match plan l m with
  | .error reason => { result := .error ⟨l.label, reason⟩, model := m }
  | .ok p =>
    let read : Event :=
      .sliceRead l.label.name p.masks.beginMask p.masks.endMask p.operands.strides
    let o := appendStage recheck l p m
    { o with log := read :: o.log }

end SliceCompiler.Slice
