import SliceCompiler.Lowering.Rejection
import SliceCompiler.Model

/-!
The tensors of a strided slice: data of any type, where to begin, where to end and the strides,
and one output of the type of the data. The strides may be left out.
-/

namespace SliceCompiler

/-- The tensor that a layer or a stage refers to. -/
def Model.resolve (m : Model) (id : TensorId) : Except Reason Tensor :=
  match m.tensor? id with
  | some t => .ok t
  | none => .error (.unknownTensor id)

structure SliceTensors where
  data : TensorId
  start : TensorId
  stop : TensorId
  strides : Option TensorId
  output : TensorId
  deriving DecidableEq, Repr

namespace SliceTensors

/-- The slot of the strides. -/
def stridesSlot : Slot := .input 3

/-- The tensors, when their numbers are right. -/
def ofLists : List TensorId → List TensorId → Except Reason SliceTensors
  | [data, start, stop], [output] => .ok ⟨data, start, stop, none, output⟩
  | [data, start, stop, strides], [output] => .ok ⟨data, start, stop, some strides, output⟩
  | inputs, outputs =>
    if inputs.length = 3 ∨ inputs.length = 4 then
      .error (.arity .outputs [1] outputs.length)
    else .error (.arity .inputs [3, 4] inputs.length)

/-- The slots in order, each with its tensor and the type it has to have. -/
def slots (ts : SliceTensors) (data : ElementType) : List (Slot × TensorId × ElementType) :=
  [(.input 0, ts.data, data), (.input 1, ts.start, .s32), (.input 2, ts.stop, .s32)] ++
    (ts.strides.map fun id => (stridesSlot, id, .s32)).toList ++ [(.output 0, ts.output, data)]

/-- A placeholder can stand for the strides only, and then its type does not matter. -/
def checkSlot (m : Model) (slot : Slot) (id : TensorId) (expected : ElementType) :
    Except Reason Unit := do
  let t ← m.resolve id
  if t.isPlaceholder then
    if slot = stridesSlot then .ok () else .error (.placeholder slot)
  else if t.element = expected then .ok ()
  else .error (.elementType slot expected t.element)

def checkSlots (m : Model) : List (Slot × TensorId × ElementType) → Except Reason Unit
  | [] => .ok ()
  | (slot, id, expected) :: rest => do
    checkSlot m slot id expected
    checkSlots m rest

/-- The first slot at fault is reported. -/
def check (ts : SliceTensors) (m : Model) : Except Reason Unit := do
  let data ← m.resolve ts.data
  checkSlots m (ts.slots data.element)

end SliceTensors

/-- A stage against its own tensors. -/
def Stage.check (s : Stage) (m : Model) : Except Rejection Unit :=
  s.label.reject do
    match s.operator with
    | .stridedSlice _ =>
      let ts ← SliceTensors.ofLists s.inputs s.outputs
      ts.check m

end SliceCompiler
