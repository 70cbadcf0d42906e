import Mathlib.Data.List.Basic
import Mathlib.Order.Nat
import SliceCompiler.Model.Admission
import SliceCompiler.Proofs.Links

/-!
Growth of models. A model extends another one if it has the same tensors and stages in front,
up to links to later stages. Adding a tensor and appending a stage extend the model, and a model
is found again below each of its extensions: its sizes are enough to go back to it.
-/

namespace SliceCompiler

namespace Tensor

/-- `u` is `t` with links to stages from `n` on. -/
structure Extends (n : ℕ) (t u : Tensor) : Prop where
  same : u = { t with producer := u.producer, consumers := u.consumers }
  producer : u.producer = t.producer ∨ t.producer = none ∧ ∃ s, n ≤ s ∧ u.producer = some s
  consumers : ∃ later, u.consumers = t.consumers ++ later ∧ ∀ s ∈ later, n ≤ s

/-- The links of a tensor lead to stages below `n`. -/
def LinkedBelow (n : ℕ) (t : Tensor) : Prop :=
  (∀ s, t.producer = some s → s < n) ∧ ∀ s ∈ t.consumers, s < n

namespace Extends

variable {n k : ℕ} {t u v : Tensor}

lemma refl (n : ℕ) (t : Tensor) : Extends n t t :=
  ⟨rfl, .inl rfl, [], by simp⟩

lemma mono (h : Extends k t u) (hn : n ≤ k) : Extends n t u := by
  obtain ⟨later, hl, hk⟩ := h.consumers
  refine ⟨h.same, ?_, later, hl, fun s hs => hn.trans (hk s hs)⟩
  exact h.producer.imp_right fun ⟨ht, s, hs, hu⟩ => ⟨ht, s, hn.trans hs, hu⟩

lemma trans (h : Extends n t u) (g : Extends n u v) : Extends n t v := by
  obtain ⟨l₁, h₁, hl₁⟩ := h.consumers
  obtain ⟨l₂, h₂, hl₂⟩ := g.consumers
  refine ⟨?_, ?_, l₁ ++ l₂, by rw [h₂, h₁, List.append_assoc], fun s hs => ?_⟩
  · rw [g.same, h.same]
  · rcases g.producer with e | ⟨e, hv⟩
    · rw [e]
      exact h.producer
    · -- a producer that comes with the second step leaves none for the first
      rcases h.producer with e' | ⟨-, s, -, hs⟩
      · exact .inr ⟨by rw [← e', e], hv⟩
      · rw [hs] at e
        cases e
  · exact (List.mem_append.mp hs).elim (hl₁ s) (hl₂ s)

lemma isPlaceholder_eq (h : Extends n t u) : u.isPlaceholder = t.isPlaceholder := by
  rw [h.same]
  rfl

lemma element_eq (h : Extends n t u) : u.element = t.element := by
  rw [h.same]
  rfl

/-- What a stage leaves with a tensor that has no producer unless it is not written. -/
lemma linked (t : Tensor) (s : StageId) (reads : ℕ) (written : Bool)
    (h : written → t.producer = none) : Extends s t (t.linked s reads written) := by
  refine ⟨rfl, ?_, ?_⟩
  · cases written with
    | false => exact .inl rfl
    | true => exact .inr ⟨h rfl, s, le_rfl, rfl⟩
  · by_cases hp : t.isPlaceholder
    · exact ⟨[], by simp [Tensor.linked, hp]⟩
    · refine ⟨List.replicate reads s, by simp [Tensor.linked, hp], fun k hk => ?_⟩
      exact (List.eq_of_mem_replicate hk).ge

/-- Dropping the links to stages from `n` on gives the first tensor back. -/
lemma keepStages (h : Extends n t u) (ht : t.LinkedBelow n) : u.keepStages n = t := by
  obtain ⟨later, hc, hl⟩ := h.consumers
  have kept : t.consumers.filter (· < n) = t.consumers :=
    List.filter_eq_self.mpr fun s hs => by simpa using ht.2 s hs
  have dropped : later.filter (· < n) = [] :=
    List.filter_eq_nil_iff.mpr fun s hs => by simpa using hl s hs
  have producer : u.producer.filter (· < n) = t.producer := by
    rcases h.producer with e | ⟨e, s, hs, hu⟩
    · rw [e]
      cases hp : t.producer with
      | none => rfl
      | some s => simp [ht.1 s hp]
    · simp [hu, e, hs]
  rw [h.same, Tensor.keepStages]
  simp [hc, kept, dropped, producer]

end Extends

end Tensor

namespace Model

/-! ### Extensions -/

/-- `n` has the tensors and the stages of `m` in front, up to links to stages beyond `m`. -/
structure Extends (m n : Model) : Prop where
  name : n.name = m.name
  stages : m.stages <+: n.stages
  tensors : ∀ {id t}, m.tensor? id = some t →
    ∃ u, n.tensor? id = some u ∧ t.Extends m.stages.length u

/-- All links lead to stages that the model has. -/
def Linked (m : Model) : Prop := ∀ t ∈ m.tensors, t.LinkedBelow m.stages.length

/-- The model takes the stage: it has all the tensors, and the outputs are free to be written. -/
structure Accepts (m : Model) (s : Stage) : Prop where
  known : ∀ id ∈ s.inputs ++ s.outputs, id < m.tensors.length
  free : ∀ id ∈ s.outputs, ∀ t, m.tensor? id = some t →
    t.isPlaceholder = false ∧ t.producer = none

variable {l m n : Model} {s : Stage} {id : TensorId} {t : Tensor}

lemma outputFault?_eq_none_iff (h : m.tensor? id = some t) :
    m.outputFault? s id = none ↔ t.isPlaceholder = false ∧ t.producer = none := by
  unfold outputFault?
  cases hp : t.isPlaceholder <;> cases hw : t.producer <;> simp [h, hp, hw]
  split <;> simp

lemma stageFault?_eq_none_iff : m.stageFault? s = none ↔ m.Accepts s := by
  unfold stageFault?
  split
  next id h =>
    -- an unknown tensor is a fault
    have unknown : m.tensors.length ≤ id := by simpa using List.find?_some h
    have used : id ∈ s.inputs ++ s.outputs := List.mem_of_find?_eq_some h
    refine ⟨fun h => (Option.some_ne_none _ h).elim, fun h => ?_⟩
    exact absurd (h.known id used) unknown.not_gt
  next h =>
    have known : ∀ id ∈ s.inputs ++ s.outputs, id < m.tensors.length := by
      simpa only [List.find?_eq_none, decide_eq_true_eq, not_le] using h
    rw [List.findSome?_eq_none_iff]
    refine ⟨fun h => ⟨known, fun id hid t ht => (outputFault?_eq_none_iff ht).mp (h id hid)⟩,
      fun h id hid => ?_⟩
    obtain ⟨t, ht⟩ := exists_tensor (known id (List.mem_append_right _ hid))
    exact (outputFault?_eq_none_iff ht).mpr (h.free id hid t ht)

namespace Extends

lemma refl (m : Model) : m.Extends m :=
  ⟨rfl, List.prefix_rfl, fun h => ⟨_, h, .refl _ _⟩⟩

lemma trans (h : l.Extends m) (g : m.Extends n) : l.Extends n := by
  refine ⟨g.name.trans h.name, h.stages.trans g.stages, fun ht => ?_⟩
  obtain ⟨u, hu, tu⟩ := h.tensors ht
  obtain ⟨v, hv, uv⟩ := g.tensors hu
  exact ⟨v, hv, tu.trans (uv.mono h.stages.length_le)⟩

/-- A tensor of a model, with what it has become in an extension. -/
lemma exists_tensors (h : m.Extends n) (hid : id < m.tensors.length) : ∃ t u,
    m.tensor? id = some t ∧ n.tensor? id = some u ∧ t.Extends m.stages.length u := by
  obtain ⟨t, ht⟩ := exists_tensor hid
  obtain ⟨u, hu, tu⟩ := h.tensors ht
  exact ⟨t, u, ht, hu, tu⟩

lemma lt (h : m.Extends n) (hid : id < m.tensors.length) : id < n.tensors.length := by
  obtain ⟨t, u, -, hu, -⟩ := h.exists_tensors hid
  exact lt_of_tensor? hu

lemma add (m : Model) (name : String) (role : Role) (layout : Layout)
    (content : Option Content) : m.Extends (m.add name role layout content).2 := by
  refine ⟨rfl, List.prefix_rfl, fun {id t} h => ⟨t, ?_, .refl _ _⟩⟩
  rw [tensor?_add _ _ _ _ _ (lt_of_tensor? h), h]

lemma link (h : m.Accepts s) : m.Extends (m.link s) := by
  refine ⟨rfl, List.prefix_append _ _, fun {id t} ht => ?_⟩
  refine ⟨_, by rw [tensor?_link, ht]; rfl, .linked _ _ _ _ fun written => ?_⟩
  exact (h.free id (by simpa using written) t ht).2

/-- A model is found again below each of its extensions. -/
theorem rollback (h : m.Extends n) (hm : m.Linked) : n.rollback m.checkpoint = m := by
  refine Model.ext h.name (List.ext_getElem? fun id => ?_) ?_ rfl
  · simp only [checkpoint, Model.rollback, List.getElem?_map]
    by_cases hid : id < m.tensors.length
    · obtain ⟨t, ht⟩ := exists_tensor hid
      obtain ⟨u, hu, tu⟩ := h.tensors ht
      have back : u.keepStages m.stages.length = t :=
        tu.keepStages (hm t (mem_tensors_iff.mpr ⟨id, ht⟩))
      rw [List.getElem?_take_of_lt hid]
      simp only [tensor?] at ht hu
      rw [hu, ht, Option.map_some, back]
    · rw [List.getElem?_take_eq_none (not_lt.mp hid), Option.map_none,
        List.getElem?_eq_none (not_lt.mp hid)]
  · exact (List.prefix_iff_eq_take.mp h.stages).symm

end Extends

end Model

end SliceCompiler
