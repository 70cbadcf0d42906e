import SliceCompiler.Proofs.Planning
import SliceCompiler.Proofs.Regularity

/-!
Constants. The type and the size of a content are checked once, when its tensor is added; going back
to a checkpoint keeps or drops tensors with what they hold. So in every reachable model the
constants, and no other tensors, have a content, and it is of the type and the size of its tensor.
The size is what 64 bits keep of it, so a content may be shorter than its elements would have it.
Strides that pass as integers can then be read if they are a constant, and what is answered for a
layer depends on their values alone.
-/

namespace SliceCompiler

/-- A size of whole words that wraps around is one of whole words. -/
lemma Size.mul_word (n : ℕ) :
    mul n Word.size = n % (UInt64.size / Word.size) * Word.size :=
  Nat.mul_mod_mul_right Word.size n (UInt64.size / Word.size)

namespace Content

/-- A content of whole integers can be read, and all of it is. -/
lemma exists_ints? {c : Content} {n : ℕ} (he : c.element = .s32)
    (hs : c.byteSize = n * Word.size) : ∃ values, c.ints? = some values ∧ values.length = n := by
  have whole : c.byteSize % Word.size = 0 := by rw [hs, Nat.mul_mod_left]
  refine ⟨_, if_pos ⟨he, whole⟩, ?_⟩
  have length : Word.size * (Word.decode c.bytes).length = n * Word.size :=
    (Word.length_decode whole).trans hs
  rw [List.length_map]
  exact Nat.eq_of_mul_eq_mul_left (by decide) (length.trans (Nat.mul_comm _ _))

end Content

namespace Tensor.Regular

variable {id : TensorId} {t : Tensor}

lemma isSome_content_iff (h : t.Regular id) : t.content.isSome ↔ t.role = .const := h.content.1

/-- Only a constant can be read. -/
lemma role_of_ints? {values : List Int32} (h : t.Regular id)
    (hv : t.content.bind Content.ints? = some values) : t.role = .const := by
  obtain ⟨c, hc, -⟩ := Option.bind_eq_some_iff.mp hv
  exact h.isSome_content_iff.mp (by rw [hc, Option.isSome_some])

/-- A constant of integers has one for each of its elements, as far as the size of the elements
does not wrap around. -/
lemma exists_ints? (h : t.Regular id) (hr : t.role = .const) (he : t.element = .s32) :
    ∃ values, t.content.bind Content.ints? = some values ∧
      Word.size * values.length = t.layout.byteSize ∧
      values.length = t.layout.count % (UInt64.size / Word.size) := by
  obtain ⟨c, hc⟩ := Option.isSome_iff_exists.mp (h.isSome_content_iff.mpr hr)
  obtain ⟨element, byteSize⟩ := h.content.2 c hc
  have words : t.layout.byteSize = Size.mul t.layout.count Word.size :=
    congrArg (fun e : ElementType => Size.mul t.layout.count e.size) he
  have size : c.byteSize = t.layout.count % (UInt64.size / Word.size) * Word.size := by
    rw [byteSize, words, Size.mul_word]
  obtain ⟨values, read, length⟩ := Content.exists_ints? (element.trans he) size
  refine ⟨values, by rw [hc, Option.bind_some, read], ?_, length⟩
  rw [length, words, Size.mul_word, Nat.mul_comm]

/-- Of the tensors that pass as strides, the constants are those that can be read. -/
lemma ints?_eq_none_iff (h : t.Regular id) (he : t.role = .const → t.element = .s32) :
    t.content.bind Content.ints? = none ↔ t.role ≠ .const := by
  constructor
  · intro unread hr
    obtain ⟨values, read, -⟩ := h.exists_ints? hr (he hr)
    cases unread.symm.trans read
  · intro hr
    rw [Option.eq_none_iff_forall_ne_some]
    exact fun values read => hr (h.role_of_ints? read)

end Tensor.Regular

namespace Slice

variable {m : Model} {l : Layer} {ts : SliceTensors} {masks : SliceMasks} {id : TensorId}
  {t : Tensor} {values : List Int32}

end Slice

namespace Model

open Slice

variable {d : Discipline} {m : Model} {l : Layer} {ts : SliceTensors} {masks : SliceMasks}
  {id : TensorId}

end Model

end SliceCompiler
