import SliceCompiler.Model

/-!
Checkpoints: how large a model was at some point, which is all it takes to go back there.
-/

namespace SliceCompiler

structure Checkpoint where
  tensors : Nat
  stages : Nat
  areas : Areas
  deriving DecidableEq, Repr

namespace Model

def checkpoint (m : Model) : Checkpoint :=
  ⟨m.tensors.length, m.stages.length, m.areas⟩

/-- Drops what lies beyond the checkpoint and the links to it. The sizes of the areas become
those of the checkpoint, also where the model is smaller than it was there. -/
def rollback (m : Model) (c : Checkpoint) : Model :=
  { m with
    tensors := (m.tensors.take c.tensors).map (·.keepStages c.stages)
    stages := m.stages.take c.stages
    areas := c.areas }

@[simp] theorem rollback_name (m : Model) (c : Checkpoint) : (m.rollback c).name = m.name := rfl

@[simp] theorem rollback_areas (m : Model) (c : Checkpoint) : (m.rollback c).areas = c.areas := rfl

end Model

end SliceCompiler
