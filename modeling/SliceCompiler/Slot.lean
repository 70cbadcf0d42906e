/-!
Slots: how layers and stages are named, and the places where they refer to tensors.
-/

namespace SliceCompiler

/-- A tensor of a model, by its place in the model. -/
abbrev TensorId := Nat

/-- A stage of a model, by its place in the model. -/
abbrev StageId := Nat

/-- The name and the type of a layer, and of the stage lowered from it. -/
structure LayerLabel where
  name : String
  type : String
  deriving DecidableEq, Repr

def LayerLabel.text (l : LayerLabel) : String := s!"{l.name} with type {l.type}"

instance : ToString LayerLabel := ⟨LayerLabel.text⟩

/-- One of the two sides of a layer or a stage. -/
inductive Side
  | inputs | outputs
  deriving DecidableEq, Repr

def Side.name : Side → String
  | .inputs => "inputs"
  | .outputs => "outputs"

instance : ToString Side := ⟨Side.name⟩

/-- A place on one side, counted from 0. -/
inductive Slot
  | input (index : Nat)
  | output (index : Nat)
  deriving DecidableEq, Repr

def Slot.name : Slot → String
  | .input i => s!"input #{i}"
  | .output i => s!"output #{i}"

instance : ToString Slot := ⟨Slot.name⟩

end SliceCompiler
