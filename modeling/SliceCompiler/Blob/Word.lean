/-!
Words: unsigned 32-bit numbers as four bytes, least significant first.
-/

namespace SliceCompiler.Word

/-- The number of bytes of a word. -/
def size : Nat := 4

def bytes (w : UInt32) : List UInt8 :=
  [w.toUInt8, (w >>> 8).toUInt8, (w >>> 16).toUInt8, (w >>> 24).toUInt8]

def ofBytes (a b c d : UInt8) : UInt32 :=
  a.toUInt32 ||| (b.toUInt32 <<< 8) ||| (c.toUInt32 <<< 16) ||| (d.toUInt32 <<< 24)

def encode (ws : List UInt32) : List UInt8 := ws.flatMap bytes

/-- The whole words of a byte string; up to three bytes left over at its end are ignored. -/
def decode : List UInt8 → List UInt32
  | a :: b :: c :: d :: rest => ofBytes a b c d :: decode rest
  | _ => []

@[simp] theorem length_bytes (w : UInt32) : (bytes w).length = size := rfl

@[simp] theorem encode_nil : encode [] = [] := rfl

@[simp] theorem encode_cons (w : UInt32) (ws : List UInt32) :
    encode (w :: ws) = bytes w ++ encode ws := rfl

@[simp] theorem encode_append (us vs : List UInt32) :
    encode (us ++ vs) = encode us ++ encode vs := by
  simp [encode]

@[simp] theorem length_encode (ws : List UInt32) : (encode ws).length = size * ws.length := by
  induction ws with
  | nil => rfl
  | cons w ws ih => simp [ih, Nat.mul_add, Nat.add_comm]

/-! ### Encoding and decoding are inverse -/

theorem ofBytes_bytes (w : UInt32) :
    ofBytes w.toUInt8 (w >>> 8).toUInt8 (w >>> 16).toUInt8 (w >>> 24).toUInt8 = w := by
  refine UInt32.toBitVec_inj.1 (BitVec.eq_of_getElem_eq fun i hi => ?_)
  simp only [ofBytes, UInt32.toBitVec_or, UInt32.toBitVec_shiftLeft, UInt8.toBitVec_toUInt32,
    UInt32.toBitVec_shiftRight, UInt32.toBitVec_toUInt8]
  simp
  grind

theorem bytes_ofBytes (a b c d : UInt8) : bytes (ofBytes a b c d) = [a, b, c, d] := by
  simp only [bytes, List.cons.injEq, and_true]
  refine ⟨?_, ?_, ?_, ?_⟩ <;>
    refine UInt8.toBitVec_inj.1 (BitVec.eq_of_getElem_eq fun i hi => ?_) <;>
    simp [ofBytes] <;> grind

@[simp] theorem decode_encode (ws : List UInt32) : decode (encode ws) = ws := by
  induction ws with
  | nil => rfl
  | cons w ws ih => simp [bytes, decode, ofBytes_bytes, ih]

theorem encode_decode {bs : List UInt8} (h : bs.length % size = 0) : encode (decode bs) = bs := by
  fun_induction decode bs with
  | case1 a b c d rest ih =>
    have : rest.length % size = 0 := by simp only [List.length_cons, size] at h ⊢; omega
    simp [bytes_ofBytes, ih this]
  | case2 bs short =>
    match bs, short, h with
    | [], _, _ => rfl
    | a :: b :: c :: d :: rest, short, _ => exact absurd rfl (short a b c d rest)

theorem length_decode {bs : List UInt8} (h : bs.length % size = 0) :
    size * (decode bs).length = bs.length := by
  rw [← length_encode, encode_decode h]

end SliceCompiler.Word
