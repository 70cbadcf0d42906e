import SliceCompiler.Compile

/-!
Strict runs. Tensors, stages and slots are looked up by their places, and where a place is sure to
be there nobody asks whether it is. A strict run asks: it is the same work, but as soon as it comes
to a place that is not there, or takes more away than there is, it ends with `none`, which is
neither an answer nor an error.
-/

namespace SliceCompiler.Strict

/-- Changes what stands at a place. -/
def modify {α : Type} (f : α → α) (xs : List α) (i : Nat) : Option (List α) :=
  if i < xs.length then some (xs.modify i f) else none

/-- What is left of `a`. -/
def sub (a b : Nat) : Option Nat := if b ≤ a then some (a - b) else none

/-! ### Masks -/

/-- The mask with the flag of axis `i` alone. -/
def bit (i : Nat) : Option Mask := if i < Mask.capacity then some (1 <<< i.toUInt32) else none

/-- Sets the flag of axis `i`, or leaves it. -/
def setFlag (flags : Mask) (i : Nat) (b : Bool) : Option Mask :=
  if b then (bit i).map (flags ||| ·) else some flags

/-- Reads flags one by one into a mask that has those of the first `i` axes. -/
def scan (flags : Mask) (i position : Nat) : List Char → Option (Except MaskFault Mask)
  | [] => some (.ok flags)
  | c :: rest =>
    if c = ',' then scan flags i (position + c.utf8Size) rest
    else
      match Mask.flag? c with
      | none => some (.error (.invalidCharacter c position))
      | some b =>
        if Mask.capacity ≤ i then some (.error (.tooManyFlags Mask.capacity))
        else do
          scan (← setFlag flags i b) (i + 1) (position + c.utf8Size) rest

def mask (l : Layer) (param : String) : ExceptT Reason Option Mask :=
  (scan 0 0 0 (l.param param "").toList).map (·.mapError (.badMask param))

def checkUnset (l : Layer) : List String → ExceptT Reason Option Unit
  | [] => pure ()
  | param :: rest => do
    let flags ← mask l param
    if flags = 0 then checkUnset l rest else throw (.unsupportedFeature param)

def keptMasks (l : Layer) : ExceptT Reason Option SliceMasks := do
  let beginMask ← mask l "begin_mask"
  let endMask ← mask l "end_mask"
  return ⟨beginMask, endMask⟩

/-! ### Layers and their tensors -/

/-- The tensors, taken from their slots once the numbers of slots are right. -/
def tensors (inputs outputs : List TensorId) : Option (Except Reason SliceTensors) :=
  if inputs.length ≠ 3 ∧ inputs.length ≠ 4 then
    some (.error (.arity .inputs [3, 4] inputs.length))
  else if outputs.length ≠ 1 then
    some (.error (.arity .outputs [1] outputs.length))
  else do
    let data ← inputs[0]?
    let start ← inputs[1]?
    let stop ← inputs[2]?
    let output ← outputs[0]?
    return .ok ⟨data, start, stop, inputs[3]?, output⟩

def validate (l : Layer) (m : Model) : Option (Except Reason SliceTensors) :=
  (tensors l.inputs l.outputs).map fun ts => do
    let ts ← ts
    ts.check m
    let output ← m.resolve ts.output
    if output.producer.isSome then .error (.producedTwice ts.output) else .ok ts

def operandsOf (l : Layer) (m : Model) : Option (Except Reason Slice.Operands) :=
  (tensors l.inputs l.outputs).map fun ts => do Slice.operands (← ts) m

def plan (l : Layer) (m : Model) : ExceptT Reason Option Slice.Plan := do
  let ts ← ExceptT.mk (validate l m)
  checkUnset l Slice.unsupported
  let masks ← keptMasks l
  let operands ← ExceptT.mk (some (Slice.operands ts m))
  return ⟨masks, operands⟩

/-- A stage against its own tensors. -/
def check (s : Stage) (m : Model) : Option (Except Rejection Unit) :=
  (tensors s.inputs s.outputs).map fun ts => s.label.reject do (← ts).check m

/-! ### Stages -/

/-- Why stage `s` cannot write a tensor, which has to be there, and so has the stage that has
written it before. -/
def outputFault (m : Model) (s : Stage) (id : TensorId) : Option (Option ModelFault) := do
  let t ← m.tensor? id
  if t.isPlaceholder then
    return some (.placeholderOutput s.label.name t.name)
  match t.producer with
  | none => return none
  | some producer =>
    let p ← m.stage? producer
    return some (.producedTwice s.label.name t.name p.label.name)

def outputsFault (m : Model) (s : Stage) : List TensorId → Option (Option ModelFault)
  | [] => some none
  | id :: rest => do
    match ← outputFault m s id with
    | some fault => return some fault
    | none => outputsFault m s rest

def addStage (m : Model) (s : Stage) : Option (Outcome ModelFault StageId) :=
  match (s.inputs ++ s.outputs).find? (m.tensors.length ≤ ·) with
  | some id => some { result := .error (.unknownTensor s.label.name id m.name), model := m }
  | none => do
    match ← outputsFault m s s.outputs with
    | some fault => return { result := .error fault, model := m }
    | none =>
      let id := m.stages.length
      let read ← s.inputs.foldlM (modify (·.readBy id)) m.tensors
      let written ← s.outputs.foldlM (modify (·.writtenBy id)) read
      return {
        result := .ok id
        model := { m with tensors := written, stages := m.stages ++ [s] } }

/-! ### Lowering -/

def appendStage (recheck : Bool) (l : Layer) (p : Slice.Plan) (m : Model) :
    Option (Outcome Rejection StageId) := do
  let (inputs, m) := p.operands.supply m
  let s := Slice.stage l inputs p.masks
  let checked := if recheck then check s m else some (.ok ())
  match ← checked with
  | .error rejection => return { result := .error rejection, model := m }
  | .ok () =>
    let added ← addStage m s
    match added.result with
    | .error fault =>
      return { result := .error ⟨l.label, .refused fault.message⟩, model := added.model }
    | .ok id =>
      return { result := .ok id, model := added.model, log := [.layerLowered l.label.name id] }

def lower (recheck : Bool) (l : Layer) (m : Model) : Option (Outcome Rejection StageId) := do
  match ← (plan l m).run with
  | .error reason => return { result := .error ⟨l.label, reason⟩, model := m }
  | .ok p =>
    let read : Event :=
      .sliceRead l.label.name p.masks.beginMask p.masks.endMask p.operands.strides
    let o ← appendStage recheck l p m
    return { o with log := read :: o.log }

def lowerLayer (m : Model) (config : Config) (l : Layer) : Option (Outcome Rejection StageId) :=
  match Opcode.ofLayerType? l.label.type with
  | none => some { result := .error ⟨l.label, .unsupportedType⟩, model := m }
  | some .stridedSlice => do
    let o ← lower config.recheck l m
    match o.result with
    | .ok _ => return o
    | .error _ => return { o with model := o.model.rollback m.checkpoint }

def lowerEach (m : Model) (config : Config) :
    List Layer → Option (Outcome Rejection (List StageId))
  | [] => some { result := .ok [], model := m }
  | l :: rest => do
    let one ← lowerLayer m config l
    match one.result, config.onRejection with
    | .ok id, _ =>
      let others ← lowerEach one.model config rest
      return { others with
        result := others.result.map (id :: ·)
        log := one.log ++ others.log }
    | .error rejection, .abort => return { one with result := .error rejection }
    | .error rejection, .skip =>
      let others ← lowerEach one.model config rest
      return { others with
        log := one.log ++ .layerSkipped l.label.name rejection :: others.log }

def lowerLayers (m : Model) (config : Config) (ls : List Layer) :
    Option (Outcome Rejection (List StageId)) := do
  let o ← lowerEach m config ls
  let started : Event := .loweringStarted ls.length m.name
  match o.result with
  | .error _ => return { o with log := started :: o.log }
  | .ok ids =>
    let finished : Event :=
      .loweringFinished o.model.name o.model.stages.length (← sub ls.length ids.length)
    return { o with log := started :: o.log ++ [finished] }

/-! ### Blobs -/

/-- Fills in the step of the axis `i`, from the axis behind it. -/
def fillStride (dims steps : List Nat) (i : Nat) : Option (List Nat) := do
  let step ← steps[i + 1]?
  let dim ← dims[i + 1]?
  modify (fun _ => Size.mul step dim) steps i

/-- The bytes between neighbours along each axis, filled in from the innermost axis on. -/
def strides (l : Layout) : Option (List Nat) :=
  (List.range (l.rank - 1)).reverse.foldlM (fillStride l.dims)
    (List.replicate l.rank l.element.size)

/-- What a step of emission answers, with the buffer that it leaves. -/
abbrev Emitted (α : Type) := EStateM.Result BlobFault Buffer α

def emitTensor (t : Tensor) (b : Buffer) : Option (Emitted Unit) := do
  let strides ← strides t.layout
  let emit : Emit Unit := do
    Emit.word t.region.code
    Emit.nat t.offset
    Emit.word t.element.code
    Emit.nat t.layout.rank
    Emit.nats t.layout.dims
    Emit.nats strides
  return emit.run b

def emitTensors (s : Stage) (m : Model) : List TensorId → Buffer → Option (Emitted Unit)
  | [], b => some (.ok () b)
  | id :: rest, b =>
    match m.tensor? id with
    | none => some (.error (.unknownTensor s.label.name id) b)
    | some t => do
      match ← emitTensor t b with
      | .error fault b => return .error fault b
      | .ok () b => emitTensors s m rest b

def emitData (s : Stage) (m : Model) (b : Buffer) : Option (Emitted Unit) :=
  if s.inputs.length = 4 ∧ s.outputs.length = 1 then emitTensors s m (s.inputs ++ s.outputs) b
  else some (.error (.arity s.label.name s.inputs.length s.outputs.length) b)

def emitSection (m : Model) (s : Stage) (b : Buffer) : Option (Emitted Nat) := do
  let (pos, start) := (b.push s.opcode.code).reserve
  match s.emitParams.run start with
  | .error fault b => return .error fault b
  | .ok () b =>
    match ← emitData s m b with
    | .error fault b => return .error fault b
    | .ok () b =>
      let size ← sub b.size start.size
      match Word.ofNat size with
      | .error fault => return .error fault b
      | .ok w => return .ok size (← b.patch? pos w)

def writeSections (m : Model) :
    List Stage → Buffer → Option (Except BlobFault Buffer × List Event)
  | [], b => some (.ok b, [])
  | s :: rest, b => do
    match ← emitSection m s b with
    | .error fault _ => return (.error fault, [])
    | .ok size b =>
      let (result, log) ← writeSections m rest b
      return (result, .sectionWritten s.label.name size :: log)

def write (m : Model) : Option (Except BlobFault (List UInt8) × List Event) :=
  match (Blob.emitHeader m).run {} with
  | .error fault _ => some (.error fault, [])
  | .ok _ header => do
    match ← writeSections m m.stages header with
    | (.error fault, log) => return (.error fault, log)
    | (.ok b, log) =>
      return (.ok b.bytes, log ++ [.blobWritten m.name m.stages.length b.size])

def compile (m : Model) (config : Config) (ls : List Layer) :
    Option (Outcome CompileFault (List UInt8)) := do
  let lowered ← lowerLayers m config ls
  match lowered.result with
  | .error rejection => return { lowered with result := .error (.lowering rejection) }
  | .ok _ =>
    let (blob, log) ← write lowered.model
    return { lowered with
      result := blob.mapError .blob
      log := lowered.log ++ log }

end SliceCompiler.Strict
