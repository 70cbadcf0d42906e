import Mathlib.Data.List.Count
import Mathlib.Logic.Function.Iterate
import SliceCompiler.Model.Checkpoint

/-!
The links between tensors and stages. A stage that is appended leaves its number with every
tensor that it reads or writes; all else about a tensor stays as it is. The numbers always are
those of stages that the model has, also after going back to any checkpoint.
-/

namespace SliceCompiler

lemma getElem?_foldl_modify {α : Type} (f : α → α) (ids : List ℕ) (l : List α) (i : ℕ) :
    (ids.foldl (fun l j => l.modify j f) l)[i]? = l[i]?.map f^[ids.count i] := by
  induction ids generalizing l with
  | nil => simp
  | cons j ids ih =>
    rw [List.foldl_cons, ih, List.getElem?_modify, List.count_cons]
    by_cases h : j = i
    · subst h
      simp [Function.comp_def]
    · simp [h]

/-- What stands in a list with one more element: what stood there, or the new element. -/
lemma getElem?_concat_cases {α : Type} {l : List α} {a b : α} {i : ℕ}
    (h : (l ++ [a])[i]? = some b) : l[i]? = some b ∨ i = l.length ∧ b = a := by
  rcases Nat.lt_or_ge i l.length with hi | hi
  · exact .inl (by rwa [List.getElem?_append_left hi] at h)
  · rw [List.getElem?_append_right hi] at h
    obtain ⟨hlt, rfl⟩ := List.getElem?_eq_some_iff.mp h
    rw [List.length_singleton] at hlt
    exact .inr ⟨by omega, by simp⟩

namespace Tensor

@[simp] lemma isPlaceholder_readBy (t : Tensor) (s : StageId) :
    (t.readBy s).isPlaceholder = t.isPlaceholder := by
  unfold readBy
  split <;> rfl

/-- A tensor that is read `reads` times by the stage `s`. -/
lemma iterate_readBy (t : Tensor) (s : StageId) (reads : ℕ) :
    (readBy · s)^[reads] t =
      if t.isPlaceholder then t
      else { t with consumers := t.consumers ++ List.replicate reads s } := by
  induction reads generalizing t with
  | zero => simp
  | succ reads ih =>
    rw [Function.iterate_succ_apply, ih, isPlaceholder_readBy]
    by_cases h : t.isPlaceholder
    · simp [h, readBy]
    · simp [h, readBy, List.replicate_succ]

/-- A tensor that is written by the stage `s` as often as `writes` says. -/
lemma iterate_writtenBy (t : Tensor) (s : StageId) (writes : ℕ) :
    (writtenBy · s)^[writes] t = if writes = 0 then t else t.writtenBy s := by
  induction writes generalizing t with
  | zero => rfl
  | succ writes ih =>
    rw [Function.iterate_succ_apply, ih]
    by_cases h : writes = 0 <;> simp [h, writtenBy]

/-- A tensor after the stage `s` has come to read it `reads` times and, if `written`, to write
it. -/
def linked (t : Tensor) (s : StageId) (reads : ℕ) (written : Bool) : Tensor :=
  { t with
    producer := if written then some s else t.producer
    consumers := if t.isPlaceholder then t.consumers else t.consumers ++ List.replicate reads s }

end Tensor

namespace Model

variable {m : Model} {s : Stage} {id : TensorId} {t : Tensor}

lemma tensor?_link (m : Model) (s : Stage) (id : TensorId) :
    (m.link s).tensor? id =
      (m.tensor? id).map (·.linked m.stages.length (s.inputs.count id) (id ∈ s.outputs)) := by
  simp only [link, tensor?, getElem?_foldl_modify, Option.map_map]
  congr 1
  funext t
  simp only [Function.comp_apply, Tensor.iterate_readBy, Tensor.iterate_writtenBy,
    List.count_eq_zero, Tensor.linked]
  by_cases hp : t.isPlaceholder <;> by_cases ho : id ∈ s.outputs <;>
    simp [hp, ho, Tensor.writtenBy]

lemma mem_tensors_iff : t ∈ m.tensors ↔ ∃ id, m.tensor? id = some t :=
  List.mem_iff_getElem?

lemma lt_of_tensor? (h : m.tensor? id = some t) : id < m.tensors.length :=
  (List.getElem?_eq_some_iff.mp h).1

lemma exists_tensor (h : id < m.tensors.length) : ∃ t, m.tensor? id = some t :=
  ⟨m.tensors[id], List.getElem?_eq_getElem h⟩

lemma tensor?_add_self (m : Model) (name : String) (role : Role) (layout : Layout)
    (content : Option Content) :
    (m.add name role layout content).2.tensor? m.tensors.length =
      some { id := m.tensors.length, name, role, layout, content, region := role.region,
             offset := m.areas.next role.region, producer := none, consumers := [] } := by
  simp [add, tensor?]

lemma tensor?_add_cases {name : String} {role : Role} {layout : Layout}
    {content : Option Content} (h : (m.add name role layout content).2.tensor? id = some t) :
    m.tensor? id = some t ∨ id = m.tensors.length ∧
      t = { id := m.tensors.length, name, role, layout, content, region := role.region,
            offset := m.areas.next role.region, producer := none, consumers := [] } :=
  getElem?_concat_cases h

lemma mem_stages_of_stage? {k : StageId} (h : m.stage? k = some s) : s ∈ m.stages :=
  List.mem_of_getElem? h

lemma lt_of_stage? {k : StageId} (h : m.stage? k = some s) : k < m.stages.length :=
  (List.getElem?_eq_some_iff.mp h).1

lemma stage?_link (m : Model) (s : Stage) (k : StageId) :
    (m.link s).stage? k = if k = m.stages.length then some s else m.stage? k := by
  unfold stage?
  rw [stages_link, List.getElem?_append]
  split <;> split <;> grind

lemma stage?_link_cases {k : StageId} {r : Stage} (h : (m.link s).stage? k = some r) :
    m.stage? k = some r ∨ k = m.stages.length ∧ r = s :=
  getElem?_concat_cases h

lemma tensor?_rollback_cases {c : Checkpoint} (h : (m.rollback c).tensor? id = some t) :
    ∃ u, m.tensor? id = some u ∧ t = u.keepStages c.stages := by
  unfold tensor? rollback at h
  rw [List.getElem?_map, List.getElem?_take] at h
  split at h
  · obtain ⟨u, hu, rfl⟩ := Option.map_eq_some_iff.mp h
    exact ⟨u, hu, rfl⟩
  · cases h

lemma stage?_rollback {c : Checkpoint} {k : StageId} (hk : k < c.stages) :
    (m.rollback c).stage? k = m.stage? k :=
  List.getElem?_take_of_lt hk

end Model

end SliceCompiler
