import Mathlib.Data.Nat.Digits.Defs
import Mathlib.Logic.Function.Basic
import SliceCompiler.Tensor.Content

/-!
What the bytes of words stand for. The bytes of a word are the digits of a number to the base 256,
the lowest one first, and a signed integer is the number that it agrees with up to a multiple of the
number of words. Contents that are written as integers are read back as these integers and nothing
else is read as them.
-/

namespace SliceCompiler

namespace Word

/-- The bytes of a word are its digits to the base 256, the lowest one first. -/
lemma ofDigits_bytes (w : UInt32) : Nat.ofDigits 256 ((bytes w).map UInt8.toNat) = w.toNat := by
  have bound : w.toNat < 4294967296 := w.toNat_lt
  have shift {k : UInt32} {n : ℕ} (h : 2 ^ (k.toNat % 32) = n) : (w >>> k).toNat = w.toNat / n := by
    rw [UInt32.toNat_shiftRight, Nat.shiftRight_eq_div_pow, h]
  simp only [bytes, List.map_cons, List.map_nil, Nat.ofDigits_cons, Nat.ofDigits_nil,
    UInt32.toNat_toUInt8, shift (k := 8) (n := 256) rfl, shift (k := 16) (n := 65536) rfl,
    shift (k := 24) (n := 16777216) rfl]
  omega

/-- Whatever follows, words are read back from the bytes that they are written as. -/
lemma decode_encode_append (ws : List UInt32) (bs : List UInt8) :
    decode (encode ws ++ bs) = ws ++ decode bs := by
  induction ws with
  | nil => rfl
  | cons w ws ih => simp [bytes, decode, ofBytes_bytes, ih]

/-- Whole words are read apart from what follows them. -/
lemma decode_append {xs : List UInt8} (h : xs.length % size = 0) (ys : List UInt8) :
    decode (xs ++ ys) = decode xs ++ decode ys := by
  have start : encode (decode xs) = xs := encode_decode h
  calc decode (xs ++ ys) = decode (encode (decode xs) ++ ys) := by rw [start]
    _ = decode xs ++ decode ys := decode_encode_append _ _

end Word

namespace Content

variable {c : Content} {values : List Int32}

lemma byteSize_ofInts (values : List Int32) :
    (ofInts values).byteSize = Word.size * values.length := by
  simp [ofInts, byteSize]

/-- An integer is written as the number that it agrees with modulo the number of words. -/
lemma bmod_ofDigits_bytes (v : Int32) :
    ((Nat.ofDigits 256 ((Word.bytes v.toUInt32).map UInt8.toNat) : ℕ) : ℤ).bmod UInt32.size =
      v.toInt := by
  rw [Word.ofDigits_bytes]
  exact (BitVec.toInt_eq_toNat_bmod v.toBitVec).symm

/-- Integers are read back as they were written. -/
lemma ints?_ofInts (values : List Int32) : (ofInts values).ints? = some values := by
  have whole : (ofInts values).byteSize % Word.size = 0 := by
    rw [byteSize_ofInts, Nat.mul_mod_right]
  have back : UInt32.toInt32 ∘ Int32.toUInt32 = id := rfl
  rw [ints?, if_pos ⟨rfl, whole⟩, ofInts, Word.decode_encode, List.map_map, back, List.map_id]

lemma ints?_eq_none_iff : c.ints? = none ↔ c.element ≠ .s32 ∨ c.byteSize % Word.size ≠ 0 := by
  simp only [ints?, ite_eq_right_iff, reduceCtorEq, imp_false, not_and_or, ne_eq]

/-- Nothing but what these integers are written as is read as them. -/
lemma eq_ofInts_of_ints? (h : c.ints? = some values) : c = ofInts values := by
  unfold ints? at h
  split at h
  · next whole =>
    obtain ⟨element, size⟩ := whole
    have back : Int32.toUInt32 ∘ UInt32.toInt32 = id := rfl
    obtain rfl := Option.some.inj h
    obtain ⟨e, bytes⟩ := c
    obtain rfl : e = .s32 := element
    rw [ofInts, List.map_map, back, List.map_id, Word.encode_decode size]
  · cases h

/-- **The view as integers is the inverse of writing them.** A content is seen as a list of integers
exactly if it is what they are written as, and it is seen as none exactly if its type is another one
or its bytes are no whole words. So different lists are written as different contents, each integer
takes a word, and all whole words of the right type are integers that were written; the bytes of an
integer, read as a number and brought into the range of signed ones, are that integer. -/
theorem ints?_ofInts_inverse :
    (∀ (c : Content) (values : List Int32), c.ints? = some values ↔ c = ofInts values) ∧
    (∀ c : Content, c.ints? = none ↔ c.element ≠ .s32 ∨ c.byteSize % Word.size ≠ 0) ∧
    Function.Injective ofInts ∧
    (∀ values, (ofInts values).byteSize = Word.size * values.length) ∧
    (∀ c : Content, (∃ values, ofInts values = c) ↔
      c.element = .s32 ∧ c.byteSize % Word.size = 0) ∧
    ∀ v : Int32, ((Nat.ofDigits 256 ((ofInts [v]).bytes.map UInt8.toNat) : ℕ) : ℤ).bmod
      UInt32.size = v.toInt := by
  have inverse (c : Content) (values : List Int32) : c.ints? = some values ↔ c = ofInts values :=
    ⟨eq_ofInts_of_ints?, fun h => h ▸ ints?_ofInts values⟩
  refine ⟨inverse, fun c => ints?_eq_none_iff, fun us vs same => ?_, byteSize_ofInts, fun c => ?_,
    bmod_ofDigits_bytes⟩
  · have seen : (ofInts us).ints? = some vs := (inverse _ vs).mpr same
    exact Option.some.inj ((ints?_ofInts us).symm.trans seen)
  · constructor
    · rintro ⟨values, rfl⟩
      exact ⟨rfl, by rw [byteSize_ofInts, Nat.mul_mod_right]⟩
    · rintro ⟨element, whole⟩
      have seen : c.ints? = some ((Word.decode c.bytes).map UInt32.toInt32) :=
        if_pos ⟨element, whole⟩
      exact ⟨_, (eq_ofInts_of_ints? seen).symm⟩

end Content

end SliceCompiler
