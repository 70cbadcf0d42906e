import SliceCompiler.Model.Tensor
import SliceCompiler.Stage

/-!
Models: the tensors and stages of one compilation. Both are only ever added at the end and are
known by their place. What a model does not take without looking at it is in
`SliceCompiler.Model.Admission`, going back to an earlier point in `SliceCompiler.Model.Checkpoint`.
-/

namespace SliceCompiler

@[ext] structure Model where
  name : String
  tensors : List Tensor := []
  stages : List Stage := []
  areas : Areas := {}
  deriving DecidableEq, Repr

namespace Model

/-- A model without tensors and stages. -/
def empty (name : String) : Model := { name }

def tensor? (m : Model) (id : TensorId) : Option Tensor := m.tensors[id]?

def stage? (m : Model) (id : StageId) : Option Stage := m.stages[id]?

/-! ### Tensors -/

/-- A new tensor takes the end of its region. -/
def add (m : Model) (name : String) (role : Role) (layout : Layout)
    (content : Option Content) : TensorId × Model :=
  let t : Tensor :=
    { id := m.tensors.length
      name, role, layout, content
      region := role.region
      offset := m.areas.next role.region
      producer := none
      consumers := [] }
  (t.id, { m with
    tensors := m.tensors ++ [t]
    areas := m.areas.grow role.region layout.byteSize })

def addInput (m : Model) (name : String) (layout : Layout) : TensorId × Model :=
  m.add name .input layout none

def addOutput (m : Model) (name : String) (layout : Layout) : TensorId × Model :=
  m.add name .output layout none

def addIntermediate (m : Model) (name : String) (layout : Layout) : TensorId × Model :=
  m.add name .intermediate layout none

/-- A tensor that stands in for an input left out: it has no content and takes no memory. -/
def addPlaceholder (m : Model) : TensorId × Model :=
  m.add s!"@fake_{m.tensors.length}" .placeholder ⟨.fp16, [1]⟩ none

section

variable (m : Model) (name : String) (role : Role) (layout : Layout) (content : Option Content)

@[simp] theorem fst_add : (m.add name role layout content).1 = m.tensors.length := rfl

@[simp] theorem name_add : (m.add name role layout content).2.name = m.name := rfl

@[simp] theorem stages_add : (m.add name role layout content).2.stages = m.stages := rfl

@[simp] theorem areas_add : (m.add name role layout content).2.areas =
    m.areas.grow role.region layout.byteSize := rfl

/-- Adding a tensor changes none of the others. -/
theorem tensor?_add {id : TensorId} (h : id < m.tensors.length) :
    (m.add name role layout content).2.tensor? id = m.tensor? id := by
  simp [add, tensor?, List.getElem?_append_left h]

end

/-! ### Stages -/

/-- Appends a stage, as the reader of its inputs and the writer of its outputs. -/
def link (m : Model) (s : Stage) : Model :=
  let id := m.stages.length
  let read := s.inputs.foldl (fun ts i => ts.modify i (·.readBy id)) m.tensors
  { m with
    tensors := s.outputs.foldl (fun ts i => ts.modify i (·.writtenBy id)) read
    stages := m.stages ++ [s] }

@[simp] theorem name_link (m : Model) (s : Stage) : (m.link s).name = m.name := rfl

@[simp] theorem areas_link (m : Model) (s : Stage) : (m.link s).areas = m.areas := rfl

@[simp] theorem stages_link (m : Model) (s : Stage) : (m.link s).stages = m.stages ++ [s] := rfl

end Model

end SliceCompiler
