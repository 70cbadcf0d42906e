import SliceCompiler.Blob.Buffer
import SliceCompiler.Model

/-!
Emission: how tensors and stages are written to a buffer. The first fault stops the writing, and
what was written before it stays in the buffer.
-/

namespace SliceCompiler

abbrev Emit := EStateM BlobFault Buffer

namespace Emit

def word (w : UInt32) : Emit Unit := modify (·.push w)

def nat (n : Nat) : Emit Unit := do
  match (← get).pushNat n with
  | .ok b => set b
  | .error fault => throw fault

def size : Emit Nat := return (← get).size

/-- Adds a word to be patched later, and tells its position. -/
def reserve : Emit Nat := modifyGet Buffer.reserve

def patch (pos n : Nat) : Emit Unit := do
  match Word.ofNat n with
  | .error fault => throw fault
  | .ok w =>
    match (← get).patch? pos w with
    | some b => set b
    | none => throw (.pastEnd pos)

def nats : List Nat → Emit Unit
  | [] => pure ()
  | n :: rest => do nat n; nats rest

def words : List UInt32 → Emit Unit
  | [] => pure ()
  | w :: rest => do word w; words rest

end Emit

/-- What the hardware needs to find a tensor: region, offset, element type, rank, dimensions and
strides. -/
def Tensor.emit (t : Tensor) : Emit Unit := do
  Emit.word t.region.code
  Emit.nat t.offset
  Emit.word t.element.code
  Emit.nat t.layout.rank
  Emit.nats t.layout.dims
  Emit.nats t.layout.strides

namespace Stage

def emitParams (s : Stage) : Emit Unit := Emit.words s.operator.paramWords

/-- The references of tensors of `m`, for stage `s`. -/
def emitTensors (s : Stage) (m : Model) : List TensorId → Emit Unit
  | [] => pure ()
  | id :: rest =>
    match m.tensor? id with
    | none => throw (.unknownTensor s.label.name id)
    | some t => do t.emit; s.emitTensors m rest

/-- The references of the four inputs and of the output. -/
def emitData (s : Stage) (m : Model) : Emit Unit :=
  if s.inputs.length = 4 ∧ s.outputs.length = 1 then s.emitTensors m (s.inputs ++ s.outputs)
  else throw (.arity s.label.name s.inputs.length s.outputs.length)

end Stage

end SliceCompiler
