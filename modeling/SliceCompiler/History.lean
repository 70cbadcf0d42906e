import SliceCompiler.Compile

/-!
Histories: what can be done to a model, as data. A history also takes checkpoints and goes back
to them. Under the discipline of a stack, going back to a checkpoint ends the ones taken after
it; without a discipline every checkpoint can be gone back to at any time, also one that lies
ahead of the model.
-/

namespace SliceCompiler

/-- What can be done to a model other than going back. -/
inductive Operation
  | addInput (name : String) (layout : Layout)
  | addOutput (name : String) (layout : Layout)
  | addIntermediate (name : String) (layout : Layout)
  | addConst (name : String) (layout : Layout) (content : Content)
  | addPlaceholder
  | addStage (s : Stage)
  | supply (o : Slice.Operands)
  | lowerLayer (config : Config) (l : Layer)
  | lowerLayers (config : Config) (ls : List Layer)
  | compile (config : Config) (ls : List Layer)

namespace Operation

/-- The model after an operation, whether it succeeds or fails. -/
def apply (m : Model) : Operation → Model
  | addInput name layout => (m.addInput name layout).2
  | addOutput name layout => (m.addOutput name layout).2
  | addIntermediate name layout => (m.addIntermediate name layout).2
  | addConst name layout content => (m.addConst name layout content).model
  | addPlaceholder => m.addPlaceholder.2
  | addStage s => (m.addStage s).model
  | supply o => (o.supply m).2
  | lowerLayer config l => (m.lowerLayer config l).model
  | lowerLayers config ls => (m.lowerLayers config ls).model
  | compile config ls => (m.compile config ls).model

/-- The operation adds a stage that was not lowered from a layer. -/
def addsStage : Operation → Bool
  | addStage _ => true
  | _ => false

def applyAll (m : Model) (ops : List Operation) : Model := ops.foldl apply m

end Operation

/-- Which checkpoints may still be gone back to after one was. -/
inductive Discipline
  | stack
  | free
  deriving DecidableEq, Repr

inductive Move
  | run (op : Operation)
  | mark
  /-- Goes back to a checkpoint, counted from the latest. -/
  | undo (age : Nat)

/-- A model with its checkpoints, the latest first. -/
structure Session where
  model : Model
  marks : List Checkpoint := []

namespace Session

def step (d : Discipline) (s : Session) : Move → Session
  | .run op => { s with model := op.apply s.model }
  | .mark => { s with marks := s.model.checkpoint :: s.marks }
  | .undo age =>
    match s.marks.drop age with
    | [] => s
    | c :: older =>
      { model := s.model.rollback c
        marks := match d with
          | .stack => c :: older
          | .free => s.marks }

def run (d : Discipline) (s : Session) (moves : List Move) : Session := moves.foldl (step d) s

@[simp] theorem run_nil (d : Discipline) (s : Session) : s.run d [] = s := rfl

@[simp] theorem run_cons (d : Discipline) (s : Session) (v : Move) (moves : List Move) :
    s.run d (v :: moves) = (s.step d v).run d moves := rfl

end Session

/-- A move adds no stage but by lowering. -/
def Move.lowersOnly : Move → Bool
  | .run op => !op.addsStage
  | _ => true

namespace Model

/-- A model that some history from an empty model leads to. -/
def Reachable (d : Discipline) (m : Model) : Prop :=
  ∃ name moves, (Session.run d ⟨.empty name, []⟩ moves).model = m

/-- A model all of whose stages were lowered from layers. -/
def Lowered (m : Model) : Prop :=
  ∃ name moves, moves.all Move.lowersOnly ∧
    (Session.run .stack ⟨.empty name, []⟩ moves).model = m

end Model

end SliceCompiler
