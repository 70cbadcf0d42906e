import SliceCompiler.Lowering.Slice
import SliceCompiler.Model.Checkpoint

/-!
Lowering of layers: one, which leaves the model as it was when it fails, and a list, in order.
-/

namespace SliceCompiler

/-- What becomes of a list when one of its layers is rejected. -/
inductive OnRejection
  /-- The list ends there. -/
  | abort
  /-- The layer is left out. -/
  | skip
  deriving DecidableEq, Repr

structure Config where
  /-- Check a stage against its own tensors before it is added. -/
  recheck : Bool := true
  onRejection : OnRejection := .abort
  deriving DecidableEq, Repr

namespace Model

def lowerLayer (m : Model) (config : Config) (l : Layer) : Outcome Rejection StageId :=
  match Opcode.ofLayerType? l.label.type with
  | none => { result := .error ⟨l.label, .unsupportedType⟩, model := m }
  | some .stridedSlice =>
    let o := Slice.lower config.recheck l m
    match o.result with
    | .ok _ => o
    | .error _ => { o with model := o.model.rollback m.checkpoint }

/-- The layers of a list, without the reports on the list as a whole. -/
def lowerEach (m : Model) (config : Config) : List Layer → Outcome Rejection (List StageId)
  | [] => { result := .ok [], model := m }
  | l :: rest =>
    let one := m.lowerLayer config l
    match one.result, config.onRejection with
    | .ok id, _ =>
      let others := one.model.lowerEach config rest
      { others with
        result := others.result.map (id :: ·)
        log := one.log ++ others.log }
    | .error rejection, .abort => { one with result := .error rejection }
    | .error rejection, .skip =>
      let others := one.model.lowerEach config rest
      { others with log := one.log ++ .layerSkipped l.label.name rejection :: others.log }

/-- Lowers the layers in order and answers the stages that were added. -/
def lowerLayers (m : Model) (config : Config) (ls : List Layer) :
    Outcome Rejection (List StageId) :=
  let o := m.lowerEach config ls
  let started : Event := .loweringStarted ls.length m.name
  match o.result with
  | .error _ => { o with log := started :: o.log }
  | .ok ids =>
    let finished : Event :=
      .loweringFinished o.model.name o.model.stages.length (ls.length - ids.length)
    { o with log := started :: o.log ++ [finished] }

end Model

end SliceCompiler
