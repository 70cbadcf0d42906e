import SliceCompiler.Blob.Emit
import SliceCompiler.Log

/-!
Blobs: the stages of a model as words. Three words stand in front, then one section for each
stage: its code, the number of bytes that follow, its parameters and the references of its
tensors. All goes into one buffer; the size of a section is patched in once it is known.
-/

namespace SliceCompiler

namespace Blob

/-- The letters `VKSB`. -/
def magic : UInt32 := Word.ofBytes 86 75 83 66

def version : UInt32 := 1

def emitHeader (m : Model) : Emit Unit := do
  Emit.word magic
  Emit.word version
  Emit.nat m.stages.length

/-- The section of a stage whose tensors are in `m`. Answers the size that the section states. -/
def emitSection (m : Model) (s : Stage) : Emit Nat := do
  Emit.word s.opcode.code
  let pos ← Emit.reserve
  let start ← Emit.size
  s.emitParams
  s.emitData m
  let size := (← Emit.size) - start
  Emit.patch pos size
  return size

/-- The sections of stages behind what is already written, with the log of those that were
completed. -/
def writeSections (m : Model) : List Stage → Buffer → Except BlobFault Buffer × List Event
  | [], b => (.ok b, [])
  | s :: rest, b =>
    match (emitSection m s).run b with
    | .error fault _ => (.error fault, [])
    | .ok size b =>
      let (result, log) := writeSections m rest b
      (result, .sectionWritten s.label.name size :: log)

/-- A blob, with the log of the sections that were written. -/
def write (m : Model) : Except BlobFault (List UInt8) × List Event :=
  match (emitHeader m).run {} with
  | .error fault _ => (.error fault, [])
  | .ok _ header =>
    match writeSections m m.stages header with
    | (.error fault, log) => (.error fault, log)
    | (.ok b, log) => (.ok b.bytes, log ++ [.blobWritten m.name m.stages.length b.size])

end Blob

end SliceCompiler
