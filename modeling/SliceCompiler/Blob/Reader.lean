import SliceCompiler.Blob

/-!
Reading blobs: what a loader finds in the words of a blob. A reader takes what it needs from the
front and gives back the rest.
-/

namespace SliceCompiler.Blob

/-- The place of a tensor as a loader sees it. -/
structure Reference where
  region : UInt32
  offset : UInt32
  element : UInt32
  dims : List UInt32
  strides : List UInt32
  deriving DecidableEq, Repr

/-- One stage as a loader sees it. -/
structure Entry where
  code : UInt32
  size : UInt32
  beginMask : UInt32
  endMask : UInt32
  tensors : List Reference
  deriving DecidableEq, Repr

/-- A blob as a loader sees it. -/
structure Image where
  magic : UInt32
  version : UInt32
  entries : List Entry
  deriving DecidableEq, Repr

/-- The first `n` words. -/
def take? (n : Nat) (ws : List UInt32) : Option (List UInt32 × List UInt32) :=
  if n ≤ ws.length then some (ws.take n, ws.drop n) else none

def readReference : List UInt32 → Option (Reference × List UInt32)
  | region :: offset :: element :: rank :: rest => do
    let (dims, rest) ← take? rank.toNat rest
    let (strides, rest) ← take? rank.toNat rest
    return (⟨region, offset, element, dims, strides⟩, rest)
  | _ => none

/-- As many items as asked for, one after the other. -/
def readMany {α : Type} (read : List UInt32 → Option (α × List UInt32)) :
    Nat → List UInt32 → Option (List α × List UInt32)
  | 0, ws => some ([], ws)
  | n + 1, ws => do
    let (a, ws) ← read ws
    let (others, ws) ← readMany read n ws
    return (a :: others, ws)

/-- A slice has four inputs and one output. -/
def readEntry : List UInt32 → Option (Entry × List UInt32)
  | code :: size :: beginMask :: endMask :: rest => do
    let (tensors, rest) ← readMany readReference 5 rest
    return (⟨code, size, beginMask, endMask, tensors⟩, rest)
  | _ => none

/-- A whole blob, of whole words, with nothing behind its last section. -/
def read? (bytes : List UInt8) : Option Image :=
  if bytes.length % Word.size = 0 then
    match Word.decode bytes with
    | magic :: version :: count :: rest =>
      match readMany readEntry count.toNat rest with
      | some (entries, []) => some ⟨magic, version, entries⟩
      | _ => none
    | _ => none
  else none

/-- The payloads of `count` sections, found by their sizes alone. -/
def payloads? : Nat → List UInt8 → Option (List (List UInt8))
  | 0, [] => some []
  | 0, _ :: _ => none
  | count + 1, _ :: _ :: _ :: _ :: a :: b :: c :: d :: rest =>
    let size := (Word.ofBytes a b c d).toNat
    if size ≤ rest.length then
      (payloads? count (rest.drop size)).map (rest.take size :: ·)
    else none
  | _ + 1, _ => none

end SliceCompiler.Blob
