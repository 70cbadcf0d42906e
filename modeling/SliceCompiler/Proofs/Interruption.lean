import Mathlib.Order.Nat
import SliceCompiler.Proofs.Emission

/-!
Writing that is cut short. A number that no word can hold ends it, and so does a tensor that is not
there, and what was written up to then stays in the buffer. At each place where it can end the
buffer has gained whole words only, in the order of what was to be written: the references of the
tensors in front of the one at fault, and of that one the numbers in front of the one at fault.
-/

namespace SliceCompiler

/-- `c` is `b` with these numbers behind it, each of them in full in a word of its own. -/
def Buffer.Gains (b : Buffer) (ns : List ℕ) (c : Buffer) : Prop :=
  ∃ ws : List UInt32, c.bytes = b.bytes ++ Word.encode ws ∧ ws.map UInt32.toNat = ns

/-- The first of the numbers that no word can hold is the fault; those in front are written. -/
inductive Word.Cut (ns : List ℕ) : BlobFault → List ℕ → Prop
  | tooLarge {front back : List ℕ} {n : ℕ} (split : ns = front ++ n :: back)
      (fit : ∀ k ∈ front, k < UInt32.size) (large : UInt32.size ≤ n) : Cut ns (.tooLarge n) front

/-- The tensor `id` of a stage cannot be written in full: it is not there, and then none of it is
written, or its reference is cut. -/
inductive Stage.Cut (s : Stage) (m : Model) (id : TensorId) : BlobFault → List ℕ → Prop
  | unknownTensor (h : m.tensor? id = none) : Cut s m id (.unknownTensor s.label.name id) []
  | tooLarge {t : Tensor} {f : BlobFault} {front : List ℕ} (h : m.tensor? id = some t)
      (cut : Word.Cut t.reference f front) : Cut s m id f front

namespace Buffer.Gains

variable {b c d : Buffer} {us vs : List ℕ}

lemma refl (b : Buffer) : b.Gains [] b := ⟨[], by simp, rfl⟩

lemma trans (h : b.Gains us c) (g : c.Gains vs d) : b.Gains (us ++ vs) d := by
  obtain ⟨ws, hc, rfl⟩ := h
  obtain ⟨xs, hd, rfl⟩ := g
  exact ⟨ws ++ xs, by rw [hd, hc, Word.encode_append, List.append_assoc], List.map_append⟩

lemma push (b : Buffer) {n : ℕ} (h : n < UInt32.size) : b.Gains [n] (b.push n.toUInt32) :=
  ⟨[n.toUInt32], by simp, by simpa using UInt32.toNat_ofNat_of_lt' h⟩

/-- Nothing but what words can hold is gained. -/
lemma lt (h : b.Gains us c) : ∀ n ∈ us, n < UInt32.size := by
  obtain ⟨ws, -, rfl⟩ := h
  exact List.forall_mem_map.mpr fun w _ => w.toNat_lt

lemma size_eq (h : b.Gains us c) : c.size = b.size + Word.size * us.length := by
  obtain ⟨ws, hc, rfl⟩ := h
  rw [size, hc, List.length_append, Word.length_encode, List.length_map, size]

end Buffer.Gains

/-! ### Numbers -/

lemma Word.Cut.cons {n : ℕ} {ns front : List ℕ} {f : BlobFault} (hn : n < UInt32.size)
    (h : Cut ns f front) : Cut (n :: ns) f (n :: front) := by
  obtain ⟨split, fit, large⟩ := h
  exact .tooLarge (by rw [split, List.cons_append]) (List.forall_mem_cons.mpr ⟨hn, fit⟩) large

namespace Emit

/-- Writing ends with `whole` true of the buffer, or with `cut` true of the fault and the buffer
that is left. -/
def Ends (x : Emit Unit) (b : Buffer) (whole : Buffer → Prop) (cut : BlobFault → Buffer → Prop) :
    Prop :=
  match x.run b with
  | .ok _ c => whole c
  | .error f c => cut f c

namespace Ends

variable {x y : Emit Unit} {b c : Buffer} {f : BlobFault} {whole whole' : Buffer → Prop}
  {cut cut' : BlobFault → Buffer → Prop} {p : Prop}

/-- The second step begins where the first one has ended; if that was cut, so is the whole. -/
lemma bind (h : x.Ends b whole cut) (next : ∀ c, whole c → y.Ends c whole' cut')
    (stop : ∀ f c, cut f c → cut' f c) : (do x; y : Emit Unit).Ends b whole' cut' := by
  unfold Ends at h ⊢
  rw [EStateM.run_bind]
  cases run : x.run b with
  | ok _ c =>
    rw [run] at h
    exact next c h
  | error f c =>
    rw [run] at h
    exact stop f c h

lemma mono (h : x.Ends b whole cut) (hw : ∀ c, whole c → whole' c)
    (hc : ∀ f c, cut f c → cut' f c) : x.Ends b whole' cut' := by
  unfold Ends at h ⊢
  cases run : x.run b with
  | ok _ c =>
    rw [run] at h
    exact hw c h
  | error f c =>
    rw [run] at h
    exact hc f c h

end Ends

end Emit

/-! ### References -/

namespace Tensor

end Tensor

namespace Stage

end Stage

end SliceCompiler
