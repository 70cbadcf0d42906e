import SliceCompiler.Model.Fault
import SliceCompiler.Outcome

/-!
What a model takes only after a look at it: constants and stages. Everything that can speak against
one of them is looked at before the model changes.
-/

namespace SliceCompiler.Model

/-- The content has to have the type and the size of the layout. -/
def addConst (m : Model) (name : String) (layout : Layout) (content : Content) :
    Outcome ModelFault TensorId :=
  if content.element ≠ layout.element then
    { result := .error (.contentType name content.element layout.element), model := m }
  else if content.byteSize ≠ layout.byteSize then
    { result := .error (.contentSize name content.byteSize layout.byteSize), model := m }
  else
    let (id, m) := m.add name .const layout (some content)
    { result := .ok id, model := m }

/-- Why stage `s` cannot write the tensor `id`. -/
def outputFault? (m : Model) (s : Stage) (id : TensorId) : Option ModelFault := do
  let t ← m.tensor? id
  if t.isPlaceholder then
    return .placeholderOutput s.label.name t.name
  let producer ← t.producer
  match m.stage? producer with
  | some p => return .producedTwice s.label.name t.name p.label.name
  | none => return .lostProducer s.label.name t.name producer

/-- The first reason against a stage: a tensor that is not there, then an output that cannot be
written. -/
def stageFault? (m : Model) (s : Stage) : Option ModelFault :=
  match (s.inputs ++ s.outputs).find? (m.tensors.length ≤ ·) with
  | some id => some (.unknownTensor s.label.name id m.name)
  | none => s.outputs.findSome? (m.outputFault? s)

def addStage (m : Model) (s : Stage) : Outcome ModelFault StageId :=
  match m.stageFault? s with
  | some fault => { result := .error fault, model := m }
  | none => { result := .ok m.stages.length, model := m.link s }

end SliceCompiler.Model
