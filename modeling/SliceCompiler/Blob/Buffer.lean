import SliceCompiler.Blob.Fault
import SliceCompiler.Blob.Word

/-!
Buffers: bytes that grow by whole words. A word may be reserved first and patched later.
-/

namespace SliceCompiler

structure Buffer where
  bytes : List UInt8 := []
  deriving DecidableEq, Repr

/-- A number as a word. Numbers that do not fit are a fault and never cut. -/
def Word.ofNat (n : Nat) : Except BlobFault UInt32 :=
  if n < UInt32.size then .ok n.toUInt32 else .error (.tooLarge n)

namespace Buffer

def size (b : Buffer) : Nat := b.bytes.length

def isEmpty (b : Buffer) : Bool := b.bytes.isEmpty

def words (b : Buffer) : List UInt32 := Word.decode b.bytes

def push (b : Buffer) (w : UInt32) : Buffer := ⟨b.bytes ++ Word.bytes w⟩

def pushNat (b : Buffer) (n : Nat) : Except BlobFault Buffer := (Word.ofNat n).map b.push

/-- Adds a word to be patched later, and tells its position. -/
def reserve (b : Buffer) : Nat × Buffer := (b.size, b.push 0)

/-- Writes a word over the four bytes at `pos`, unless some of them lie past the end. -/
def patch? (b : Buffer) (pos : Nat) (w : UInt32) : Option Buffer :=
  if pos + Word.size ≤ b.size then
    some ⟨b.bytes.take pos ++ Word.bytes w ++ b.bytes.drop (pos + Word.size)⟩
  else none

@[simp] theorem bytes_push (b : Buffer) (w : UInt32) :
    (b.push w).bytes = b.bytes ++ Word.bytes w := rfl

@[simp] theorem size_push (b : Buffer) (w : UInt32) : (b.push w).size = b.size + Word.size := by
  simp [size]

/-- A patch leaves the size as it is. -/
theorem size_of_patch? {b c : Buffer} {pos : Nat} {w : UInt32} (h : b.patch? pos w = some c) :
    c.size = b.size := by
  simp only [patch?] at h
  split at h
  · cases h
    simp only [size, List.length_append, List.length_take, List.length_drop,
      Word.length_bytes] at *
    omega
  · cases h

end Buffer

end SliceCompiler
