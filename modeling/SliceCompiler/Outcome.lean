import SliceCompiler.Log
import SliceCompiler.Model

/-!
Outcomes: what work on a model answers, the model it leaves, and what it reported. A model is
left also where the work fails.
-/

namespace SliceCompiler

structure Outcome (ε α : Type) where
  result : Except ε α
  model : Model
  log : List Event := []

end SliceCompiler
