import SliceCompiler.Proofs.Emission
import SliceCompiler.Proofs.WellFormed

/-!
Why a model may have no blob. Where all stages were lowered each has the slots and the tensors
that a section needs, so nothing but a number that no word can hold stops the writing, and the
first such number in the order of the blob does.
-/

namespace SliceCompiler

/-- The numbers of a reference that may be of any size. -/
def Tensor.sizes (t : Tensor) : List Nat :=
  [t.offset, t.layout.rank] ++ t.layout.dims ++ t.layout.strides

/-- The numbers of a section that may be of any size: the ones of its tensors, slot by slot, then
its own size. -/
def Stage.sizes (m : Model) (s : Stage) : List Nat :=
  (s.tensors m).flatMap Tensor.sizes ++ [s.payloadSize m]

/-- The numbers of a blob that may be of any size, in their order. -/
def Model.sizes (m : Model) : List Nat := m.stages.length :: m.stages.flatMap (Stage.sizes m)

lemma Word.fault?_toNat (w : UInt32) : Word.fault? w.toNat = none :=
  Word.fault?_eq_none_iff.mpr w.toNat_lt

/-- A search through lists in a row, if it is known how it ends in each of them. -/
lemma findSome?_flatMap {α β γ : Type} {f : α → List β} {g : β → Option γ} {found : α → Option γ}
    {xs : List α} (h : ∀ x ∈ xs, (f x).findSome? g = found x) :
    (xs.flatMap f).findSome? g = xs.findSome? found := by
  induction xs with
  | nil => rfl
  | cons x xs ih =>
    rw [List.flatMap_cons, List.findSome?_append, findSome?_cons_or, h x List.mem_cons_self,
      ih fun y hy => h y (List.mem_cons_of_mem _ hy)]

/-- The codes of a reference fit. -/
lemma Tensor.findSome?_sizes (t : Tensor) :
    t.sizes.findSome? Word.fault? = t.reference.findSome? Word.fault? := by
  simp only [reference, sizes, List.findSome?_append, findSome?_cons_or, Word.fault?_toNat,
    Option.none_or]

/-- A section that has all it needs is stopped by its first number that does not fit. -/
lemma Stage.findSome?_sizes {m : Model} {s : Stage}
    (arity : s.inputs.length = 4 ∧ s.outputs.length = 1)
    (known : ∀ id ∈ s.inputs ++ s.outputs, ∃ t, m.tensor? id = some t) :
    (s.sizes m).findSome? Word.fault? = s.sectionFault? m := by
  rw [sizes, List.findSome?_append, findSome?_flatMap fun t _ => t.findSome?_sizes,
    ← dataFault?_of_known arity known]
  simp [sectionFault?]

lemma Slice.Sound.arity {m : Model} {k : StageId} {s : Stage} (h : Slice.Sound m k s) :
    s.inputs.length = 4 ∧ s.outputs.length = 1 := by
  obtain ⟨ts, -, outputs, -⟩ := Stage.check_eq_ok_iff.mp h.check
  obtain ⟨id, -, hid, -⟩ := h.strides
  have more : 3 < s.inputs.length := (List.getElem?_eq_some_iff.mp hid).1
  have inputs := congrArg List.length (inputs_of_check h.check hid)
  simp only [List.length_append, List.length_take, List.length_singleton] at inputs
  exact ⟨by omega, by rw [outputs, List.length_singleton]⟩

namespace Model

variable {m : Model} {s : Stage}

/-- Each stage of a well-formed model has what a section needs. -/
lemma WellFormed.slots (h : m.WellFormed) (hs : s ∈ m.stages) :
    (s.inputs.length = 4 ∧ s.outputs.length = 1) ∧
    ∀ id ∈ s.inputs ++ s.outputs, ∃ t, m.tensor? id = some t := by
  obtain ⟨k, hk⟩ := List.mem_iff_getElem?.mp hs
  have sound := h.sound hk
  exact ⟨sound.arity, fun id hid => exists_tensor (Slice.known_of_check sound.check id hid)⟩

lemma WellFormed.findSome?_sizes (h : m.WellFormed) :
    m.sizes.findSome? Word.fault? = Blob.fault? m := by
  have sections : ∀ s ∈ m.stages, (s.sizes m).findSome? Word.fault? = s.sectionFault? m :=
    fun s hs => Stage.findSome?_sizes (h.slots hs).1 (h.slots hs).2
  rw [sizes, findSome?_cons_or, findSome?_flatMap sections, Blob.fault?]

end Model

namespace Blob

variable {m : Model}

end Blob

end SliceCompiler
