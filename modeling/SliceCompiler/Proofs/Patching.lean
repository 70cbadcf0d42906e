import SliceCompiler.Proofs.Emission
import SliceCompiler.Proofs.Words

/-!
Buffers under any sequence of writes. Words are only ever added as a whole, and a patch keeps the
size, so a buffer holds whole words throughout, also where a patch lies across two of them. A write
that is refused changes nothing. A word that was reserved can be patched whenever that is done, and
the patch changes this word and no other.
-/

namespace SliceCompiler.Buffer

/-- What can be done to a buffer. -/
inductive Write
  | word (w : UInt32)
  | number (n : ℕ)
  | reserve
  | patch (pos : ℕ) (w : UInt32)

namespace Write

/-- The buffer after a write; one that is refused leaves it as it is. -/
def apply (b : Buffer) : Write → Buffer
  | word w => b.push w
  | number n => (b.pushNat n).toOption.getD b
  | reserve => b.reserve.2
  | patch pos w => (b.patch? pos w).getD b

/-- The write adds a word. -/
def adds : Write → Bool
  | word _ => true
  | number n => n < UInt32.size
  | reserve => true
  | patch _ _ => false

end Write

/-- The buffer after some writes. -/
def after (b : Buffer) (writes : List Write) : Buffer := writes.foldl Write.apply b

/-- `c` is `b` with the word `w` in the four bytes from `pos` on. -/
structure Patched (b : Buffer) (pos : ℕ) (w : UInt32) (c : Buffer) : Prop where
  size : c.size = b.size
  inside : (c.bytes.drop pos).take Word.size = Word.bytes w
  value : Nat.ofDigits 256 (((c.bytes.drop pos).take Word.size).map UInt8.toNat) = w.toNat
  outside : ∀ i, i < pos ∨ pos + Word.size ≤ i → c.bytes[i]? = b.bytes[i]?

/-- All that the buffer holds are words. -/
def Whole (b : Buffer) : Prop := b.size % Word.size = 0

variable {b c : Buffer} {pos : ℕ} {w : UInt32}

/-! ### One write -/

lemma pushNat_of_lt (b : Buffer) {n : ℕ} (h : n < UInt32.size) :
    b.pushNat n = .ok (b.push n.toUInt32) := by
  simp [pushNat, Word.ofNat, h, Except.map]

lemma pushNat_of_le (b : Buffer) {n : ℕ} (h : UInt32.size ≤ n) :
    b.pushNat n = .error (.tooLarge n) := by
  simp [pushNat, Word.ofNat, h.not_gt, Except.map]

lemma patch?_eq_none_iff : b.patch? pos w = none ↔ b.size < pos + Word.size := by
  simp [patch?]

/-- The bytes of a patched buffer: what stood in front, the word, and what stood behind. -/
lemma patch?_eq_some_iff : b.patch? pos w = some c ↔ pos + Word.size ≤ b.size ∧
    c = ⟨b.bytes.take pos ++ (Word.bytes w ++ b.bytes.drop (pos + Word.size))⟩ := by
  unfold patch?
  split <;> simp_all [eq_comm]

lemma patched_of_patch? (h : b.patch? pos w = some c) : b.Patched pos w c := by
  have size := size_of_patch? h
  obtain ⟨fits, rfl⟩ := patch?_eq_some_iff.mp h
  have front : (b.bytes.take pos).length = pos := by
    rw [List.length_take]
    exact Nat.min_eq_left (by simp only [Buffer.size] at fits; omega)
  -- the bytes are split at the position itself, so where the words of the buffer begin is no matter
  have inside : ((b.bytes.take pos ++ (Word.bytes w ++ b.bytes.drop (pos + Word.size))).drop
      pos).take Word.size = Word.bytes w := by
    rw [List.drop_left' front, List.take_left' (Word.length_bytes w)]
  refine ⟨size, inside, by rw [inside, Word.ofDigits_bytes], fun i hi => ?_⟩
  rcases hi with before | behind
  · rw [List.getElem?_append_left (by omega), List.getElem?_take_of_lt before]
  · have skipped : pos + Word.size + (i - pos - Word.size) = i := by omega
    rw [List.getElem?_append_right (by omega), front,
      List.getElem?_append_right (by rw [Word.length_bytes]; omega), Word.length_bytes,
      List.getElem?_drop, skipped]

lemma size_apply (b : Buffer) (x : Write) :
    (x.apply b).size = b.size + if x.adds then Word.size else 0 := by
  cases x with
  | word w => exact b.size_push w
  | number n =>
    rcases Nat.lt_or_ge n UInt32.size with fits | large
    · simp [Write.apply, Write.adds, b.pushNat_of_lt fits, fits, Except.toOption]
    · simp [Write.apply, Write.adds, b.pushNat_of_le large, large.not_gt, Except.toOption]
  | reserve => exact b.size_push 0
  | patch pos w =>
    cases h : b.patch? pos w with
    | none => simp [Write.apply, Write.adds, h]
    | some c => simp [Write.apply, Write.adds, h, size_of_patch? h]

/-- A number is added, or it is too large and nothing changes. -/
lemma number_cases (b : Buffer) (n : ℕ) :
    n < UInt32.size ∧ b.pushNat n = .ok (b.push n.toUInt32) ∨
      UInt32.size ≤ n ∧ b.pushNat n = .error (.tooLarge n) ∧ (Write.number n).apply b = b := by
  rcases Nat.lt_or_ge n UInt32.size with fits | large
  · exact .inl ⟨fits, b.pushNat_of_lt fits⟩
  · refine .inr ⟨large, b.pushNat_of_le large, ?_⟩
    rw [Write.apply, b.pushNat_of_le large]
    rfl

/-- A patch is made, or it reaches past the end and nothing changes. -/
lemma patch_cases (b : Buffer) (pos : ℕ) (w : UInt32) :
    (∃ c, pos + Word.size ≤ b.size ∧ b.patch? pos w = some c ∧ b.Patched pos w c) ∨
      b.size < pos + Word.size ∧ b.patch? pos w = none ∧ (Write.patch pos w).apply b = b := by
  cases h : b.patch? pos w with
  | none => exact .inr ⟨patch?_eq_none_iff.mp h, rfl, by rw [Write.apply, h]; rfl⟩
  | some c => exact .inl ⟨c, (patch?_eq_some_iff.mp h).1, rfl, patched_of_patch? h⟩

/-! ### Many writes -/

lemma size_after (b : Buffer) (writes : List Write) :
    (b.after writes).size = b.size + Word.size * writes.countP Write.adds := by
  induction writes generalizing b with
  | nil => rfl
  | cons x writes ih =>
    have rest : b.after (x :: writes) = (x.apply b).after writes := rfl
    rw [rest, ih, size_apply, List.countP_cons, Nat.mul_add]
    cases x.adds with
    | false => simp
    | true =>
      simp only [if_true, Nat.mul_one]
      omega

lemma Whole.after (h : b.Whole) (writes : List Write) : (b.after writes).Whole := by
  rw [Whole, size_after, Nat.add_mul_mod_self_left]
  exact h

namespace Whole

lemma push (h : b.Whole) (w : UInt32) : (b.push w).Whole := by
  rw [Whole, size_push, Nat.add_mod_right]
  exact h

lemma encode_words (h : b.Whole) : Word.encode b.words = b.bytes := Word.encode_decode h

lemma words_push (h : b.Whole) (w : UInt32) : (b.push w).words = b.words ++ [w] := by
  rw [words, bytes_push, Word.decode_append h]
  exact congrArg (b.words ++ ·) (Word.decode_encode [w])

lemma size_eq (h : b.Whole) : b.size = Word.size * b.words.length := (Word.length_decode h).symm

/-- A patch in the place of a word changes this word and no other. -/
lemma patch?_word (h : b.Whole) {i : ℕ} (hi : i < b.words.length) (w : UInt32) :
    ∃ c, b.patch? (Word.size * i) w = some c ∧ c.words = b.words.set i w := by
  obtain ⟨front, u, back, split, rfl⟩ : ∃ front u back,
      b.words = front ++ u :: back ∧ front.length = i := by
    refine ⟨b.words.take i, b.words[i], b.words.drop (i + 1), ?_, ?_⟩
    · rw [List.getElem_cons_drop, List.take_append_drop]
    · rw [List.length_take, Nat.min_eq_left hi.le]
  have bytes : b = ⟨Word.encode front ++ Word.bytes u ++ Word.encode back⟩ := by
    have whole := h.encode_words
    rw [split, Word.encode_append, Word.encode_cons, ← List.append_assoc] at whole
    rw [whole]
  -- the words in front are whole, so the word begins where they end
  have place : Word.size * front.length = (Word.encode front).length :=
    (Word.length_encode front).symm
  refine ⟨⟨Word.encode front ++ Word.bytes w ++ Word.encode back⟩, ?_, ?_⟩
  · rw [place, bytes]
    exact patch?_append _ _ u w
  · have written : Word.encode front ++ Word.bytes w ++ Word.encode back =
        Word.encode (front ++ w :: back) := by
      rw [Word.encode_append, Word.encode_cons, List.append_assoc]
    rw [words, written, Word.decode_encode, split, List.set_append_right _ _ le_rfl, Nat.sub_self,
      List.set_cons_zero]

/-- A word that was reserved can be patched after any other writes, and then it alone changes. -/
lemma patch?_reserve (h : b.Whole) (later : List Write) (w : UInt32) :
    ∃ c, (b.reserve.2.after later).patch? b.reserve.1 w = some c ∧
      b.words.length < (b.reserve.2.after later).words.length ∧
      c.words = (b.reserve.2.after later).words.set b.words.length w := by
  have whole : (b.reserve.2.after later).Whole := (h.push 0).after later
  have grown : (b.reserve.2.after later).size =
      b.size + Word.size + Word.size * later.countP Write.adds := by
    rw [size_after, show b.reserve.2.size = b.size + Word.size from b.size_push 0]
  have there : b.words.length < (b.reserve.2.after later).words.length := by
    rw [h.size_eq, whole.size_eq] at grown
    simp only [Word.size] at grown
    omega
  obtain ⟨c, patched, words⟩ := whole.patch?_word there w
  have place : b.reserve.1 = Word.size * b.words.length := h.size_eq
  exact ⟨c, by rw [place, patched], there, words⟩

end Whole

/-- **A buffer is a list of words that can be patched.** After any writes to a new buffer its size
is that of the words that were added, so it is empty only if there were none, and its words are all
of its bytes. Adding a word and reserving one put it behind the others; a number is added exactly if
a word can hold it. A patch is refused exactly if it reaches past the end, and otherwise changes the
four bytes from its position on, wherever they lie; what is refused changes nothing. A word that was
reserved can be patched after any other writes, and then it is the only word that changes. -/
theorem words_after (writes : List Write) :
    let b : Buffer := after {} writes
    b.size = Word.size * writes.countP Write.adds ∧ b.size % Word.size = 0 ∧
    (b.isEmpty = true ↔ ∀ x ∈ writes, x.adds = false) ∧
    Word.encode b.words = b.bytes ∧
    (∀ w, (b.push w).words = b.words ++ [w]) ∧
    b.reserve.1 = b.size ∧ b.reserve.2.words = b.words ++ [0] ∧
    (∀ n, n < UInt32.size ∧ b.pushNat n = .ok (b.push n.toUInt32) ∨
      UInt32.size ≤ n ∧ b.pushNat n = .error (.tooLarge n) ∧ (Write.number n).apply b = b) ∧
    (∀ pos w, (∃ c, pos + Word.size ≤ b.size ∧ b.patch? pos w = some c ∧ b.Patched pos w c) ∨
      b.size < pos + Word.size ∧ b.patch? pos w = none ∧ (Write.patch pos w).apply b = b) ∧
    ∀ later w, let d := b.reserve.2.after later
      ∃ c, d.patch? b.reserve.1 w = some c ∧ b.words.length < d.words.length ∧
        c.words = d.words.set b.words.length w := by
  intro b
  have size : b.size = Word.size * writes.countP Write.adds :=
    (size_after {} writes).trans (Nat.zero_add _)
  have whole : b.Whole := by rw [Whole, size, Nat.mul_mod_right]
  have empty : b.isEmpty = true ↔ b.size = 0 := by
    rw [isEmpty, List.isEmpty_iff, Buffer.size, List.length_eq_zero_iff]
  refine ⟨size, whole, ?_, whole.encode_words, whole.words_push, rfl, whole.words_push 0,
    b.number_cases, b.patch_cases, whole.patch?_reserve⟩
  rw [empty, size, Nat.mul_eq_zero, List.countP_eq_zero]
  simp [Word.size]

end SliceCompiler.Buffer
